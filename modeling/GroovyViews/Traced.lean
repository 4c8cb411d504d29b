/-!
# Computations that leave a trace

Reading a view and writing its statements both report what they do as they go along and may stop
half-way. `Traced τ ε α` is the list of things reported so far together with the outcome: a value or
the error that ended the computation. What was reported before an error is kept.
-/

namespace GroovyViews

/-- A computation that reports values of type `τ` and then returns an `α` or fails with an `ε`. -/
structure Traced (τ ε α : Type) where
  /-- What was reported, in order. -/
  trace : List τ
  /-- How the computation ended. -/
  outcome : Except ε α

namespace Traced

variable {τ ε α β : Type}

/-- The computation `x` with `reports` put in front of what it reports. -/
def after (reports : List τ) (x : Traced τ ε α) : Traced τ ε α :=
  ⟨reports ++ x.trace, x.outcome⟩

/-- Reports one value. -/
def report (t : τ) : Traced τ ε Unit := ⟨[t], .ok ()⟩

/-- Stops with an error. -/
def fail (e : ε) : Traced τ ε α := ⟨[], .error e⟩

/-- A computation that reports nothing. -/
def ofExcept (outcome : Except ε α) : Traced τ ε α := ⟨[], outcome⟩

/-- Run `x`, then continue with its value; an error ends the run. -/
protected def bind (x : Traced τ ε α) (f : α → Traced τ ε β) : Traced τ ε β :=
  match x.outcome with
  | .ok a => (f a).after x.trace
  | .error e => ⟨x.trace, .error e⟩

instance : Monad (Traced τ ε) where
  pure a := ⟨[], .ok a⟩
  bind := Traced.bind

/-- Continue with `handle` if `x` fails; the trace of `x` is kept. -/
protected def tryCatch (x : Traced τ ε α) (handle : ε → Traced τ ε α) : Traced τ ε α :=
  match x.outcome with
  | .ok _ => x
  | .error e => (handle e).after x.trace

instance : MonadExceptOf ε (Traced τ ε) where
  throw := fail
  tryCatch := Traced.tryCatch

/-- The same computation with its reports and its error carried into other types. -/
def adapt {τ' ε' : Type} (report : τ → τ') (error : ε → ε') (x : Traced τ ε α) : Traced τ' ε' α :=
  ⟨x.trace.map report, x.outcome.mapError error⟩

/-- A value alone reports nothing. -/
@[simp] theorem trace_pure (a : α) : (pure a : Traced τ ε α).trace = [] := rfl

/-- A value alone succeeds. -/
@[simp] theorem outcome_pure (a : α) : (pure a : Traced τ ε α).outcome = .ok a := rfl

/-- The reports of a sequence are those of its first part, followed by those of the rest if the
first part succeeds. -/
theorem trace_bind (x : Traced τ ε α) (f : α → Traced τ ε β) :
    (x >>= f).trace = x.trace ++ match x.outcome with
      | .ok a => (f a).trace
      | .error _ => [] := by
  cases x with
  | mk trace outcome => cases outcome <;> simp [Bind.bind, Traced.bind, after]

/-- A sequence ends as its first part does if that fails, and otherwise as the rest does. -/
theorem outcome_bind (x : Traced τ ε α) (f : α → Traced τ ε β) :
    (x >>= f).outcome = x.outcome.bind fun a => (f a).outcome := by
  cases x with
  | mk trace outcome => cases outcome <;> rfl

end Traced

end GroovyViews
