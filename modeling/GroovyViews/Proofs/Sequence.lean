import GroovyViews.Traced

/-!
# Sequences of traced computations

A sequence runs up to its first failing part. Its trace is what the parts before that one report,
followed by what the failing part reports before it fails.
-/

namespace GroovyViews

/-- A sequence that succeeds has succeeded in its first part and then in the rest. -/
theorem exists_of_bind_eq_ok {ε α β : Type} {x : Except ε α} {f : α → Except ε β} {b : β}
    (h : x >>= f = .ok b) : ∃ a, x = .ok a ∧ f a = .ok b := by
  cases x with
  | error err => cases h
  | ok a => exact ⟨a, rfl, h⟩

/-- What has a value has succeeded with it. -/
theorem eq_ok_of_toOption {ε α : Type} {x : Except ε α} {a : α} (h : x.toOption = some a) :
    x = .ok a := by
  cases x with
  | error err => cases h
  | ok b => exact congrArg Except.ok (Option.some.inj h)

/-- A success is not changed with the error. -/
@[simp] theorem mapError_ok {ε ε' α : Type} (f : ε → ε') (a : α) :
    (Except.ok a : Except ε α).mapError f = .ok a := rfl

/-- A failure has the error changed. -/
@[simp] theorem mapError_error {ε ε' α : Type} (f : ε → ε') (err : ε) :
    (Except.error err : Except ε α).mapError f = .error (f err) := rfl

namespace Traced

variable {τ ε α β : Type}

/-- Two computations are the same if they report the same and end alike. -/
protected theorem ext {x y : Traced τ ε α} (htrace : x.trace = y.trace)
    (houtcome : x.outcome = y.outcome) : x = y := by
  cases x
  cases y
  simp_all

/-- A report is traced. -/
@[simp] theorem trace_report (t : τ) : (report t : Traced τ ε Unit).trace = [t] := rfl

/-- A report succeeds. -/
@[simp] theorem outcome_report (t : τ) : (report t : Traced τ ε Unit).outcome = .ok () := rfl

/-- A failure reports nothing. -/
@[simp] theorem trace_fail (e : ε) : (fail e : Traced τ ε α).trace = [] := rfl

/-- A failure fails with its error. -/
@[simp] theorem outcome_fail (e : ε) : (fail e : Traced τ ε α).outcome = .error e := rfl

/-- An outcome alone reports nothing. -/
@[simp] theorem trace_ofExcept (o : Except ε α) : (ofExcept o : Traced τ ε α).trace = [] := rfl

/-- An outcome alone is its outcome. -/
@[simp] theorem outcome_ofExcept (o : Except ε α) :
    (ofExcept o : Traced τ ε α).outcome = o := rfl

/-- After a success the rest of a sequence runs and reports after it. -/
theorem bind_of_ok {x : Traced τ ε α} {a : α} (h : x.outcome = .ok a) (f : α → Traced τ ε β) :
    x >>= f = (f a).after x.trace := by
  simp [Bind.bind, Traced.bind, h]

/-- After an error the rest of a sequence does not run. -/
theorem bind_of_error {x : Traced τ ε α} {e : ε} (h : x.outcome = .error e)
    (f : α → Traced τ ε β) : x >>= f = ⟨x.trace, .error e⟩ := by
  simp [Bind.bind, Traced.bind, h]

/-- Doing nothing with the value of a computation leaves it as it is. -/
private theorem id_map (x : Traced τ ε α) : id <$> x = x := by
  change x >>= (fun a => pure a) = x
  cases h : x.outcome with
  | ok a => rw [bind_of_ok h]; exact Traced.ext (by simp [after]) h.symm
  | error e => rw [bind_of_error h]; exact Traced.ext rfl h.symm

/-- A sequence of three computations may be grouped either way. -/
private theorem bind_assoc {γ : Type} (x : Traced τ ε α) (f : α → Traced τ ε β)
    (g : β → Traced τ ε γ) : x >>= f >>= g = x >>= fun a => f a >>= g := by
  cases hx : x.outcome with
  | error e => rw [bind_of_error hx, bind_of_error hx, bind_of_error rfl]
  | ok a =>
    rw [bind_of_ok hx, bind_of_ok hx]
    apply Traced.ext
    · simp only [trace_bind, after, List.append_assoc]
    · simp only [outcome_bind, after]

instance : LawfulMonad (Traced τ ε) :=
  LawfulMonad.mk' _ id_map (fun _ _ => rfl) bind_assoc

/-- If every part succeeds, so does the sequence, and all reports are there in order. -/
theorem forM_of_ok {f : α → Traced τ ε PUnit} {l : List α}
    (h : ∀ a ∈ l, (f a).outcome = .ok ⟨⟩) :
    forM l f = ⟨l.flatMap fun a => (f a).trace, .ok ⟨⟩⟩ := by
  induction l with
  | nil => rfl
  | cons a l ih =>
    rw [List.forM_cons, bind_of_ok (h a (by simp)), ih fun b hb => h b (by simp [hb])]
    rfl

/-- A sequence succeeds only if every part does. -/
theorem ok_of_forM_ok {f : α → Traced τ ε PUnit} {l : List α} (h : (forM l f).outcome = .ok ⟨⟩) :
    ∀ a ∈ l, (f a).outcome = .ok ⟨⟩ := by
  induction l with
  | nil => simp
  | cons a l ih =>
    cases ha : (f a).outcome with
    | error e =>
      rw [List.forM_cons, bind_of_error ha] at h
      cases h
    | ok _ =>
      rw [List.forM_cons, bind_of_ok ha] at h
      intro b hb
      rcases List.mem_cons.mp hb with rfl | hb
      · exact ha
      · exact ih h b hb

/-- A sequence stops at its first failing part; the parts behind it leave no trace. -/
theorem forM_of_error {f : α → Traced τ ε PUnit} {before after : List α} {a : α} {e : ε}
    (hbefore : ∀ b ∈ before, (f b).outcome = .ok ⟨⟩) (ha : (f a).outcome = .error e) :
    forM (before ++ a :: after) f =
      ⟨(before.flatMap fun b => (f b).trace) ++ (f a).trace, .error e⟩ := by
  rw [List.forM_append, forM_of_ok hbefore, bind_of_ok rfl, List.forM_cons, bind_of_error ha]
  rfl

/-- What a sequence reports is reported by one of its parts. -/
theorem exists_of_mem_forM {f : α → Traced τ ε PUnit} {l : List α} {t : τ}
    (h : t ∈ (forM l f).trace) : ∃ a ∈ l, t ∈ (f a).trace := by
  induction l with
  | nil => simp at h
  | cons a l ih =>
    rw [List.forM_cons] at h
    cases ha : (f a).outcome with
    | error e =>
      rw [bind_of_error ha] at h
      exact ⟨a, by simp, h⟩
    | ok _ =>
      rw [bind_of_ok ha] at h
      rcases List.mem_append.mp h with h | h
      · exact ⟨a, by simp, h⟩
      · obtain ⟨b, hb, ht⟩ := ih h
        exact ⟨b, by simp [hb], ht⟩

/-- Two sequences over the same list are equal exactly if their parts are, up to the first part in
which the second one fails. It is assumed that the first one succeeds wherever the second one does,
with as many reports, and has more to report where it succeeds and the second one fails. -/
theorem forM_eq_iff {f g : α → Traced τ ε PUnit} {l : List α}
    (hok : ∀ a ∈ l, (g a).outcome = .ok ⟨⟩ →
      (f a).outcome = .ok ⟨⟩ ∧ (f a).trace.length = (g a).trace.length)
    (hcut : ∀ a ∈ l, ∀ e, (g a).outcome = .error e → (f a).outcome = .ok ⟨⟩ →
      (g a).trace.length < (f a).trace.length) :
    forM l f = forM l g ↔ ∀ before a after, l = before ++ a :: after →
      (∀ b ∈ before, (g b).outcome = .ok ⟨⟩) → f a = g a := by
  induction l with
  | nil => simp
  | cons a l ih =>
    have ih := ih (fun b hb => hok b (by simp [hb])) fun b hb => hcut b (by simp [hb])
    have hparts : (∀ before b after, a :: l = before ++ b :: after →
        (∀ c ∈ before, (g c).outcome = .ok ⟨⟩) → f b = g b) ↔
        f a = g a ∧ ((g a).outcome = .ok ⟨⟩ → forM l f = forM l g) := by
      rw [ih]
      constructor
      · intro h
        refine ⟨h [] a l rfl (by simp), fun ha before b after hl hbefore => ?_⟩
        exact h (a :: before) b after (by simp [hl]) (by simpa [ha] using hbefore)
      · rintro ⟨hfirst, hrest⟩ before b after hl hbefore
        cases before with
        | nil =>
          obtain ⟨rfl, -⟩ := List.cons.inj hl
          exact hfirst
        | cons c before =>
          obtain ⟨rfl, htail⟩ := List.cons.inj hl
          exact hrest (hbefore _ (by simp)) before b after htail
            fun d hd => hbefore d (by simp [hd])
    rw [hparts, List.forM_cons, List.forM_cons]
    cases hg : (g a).outcome with
    | ok _ =>
      obtain ⟨hf, hlength⟩ := hok a (by simp) hg
      rw [bind_of_ok hf, bind_of_ok hg]
      constructor
      · intro h
        obtain ⟨htraces, hends⟩ := Traced.mk.inj h
        obtain ⟨htrace, hrest⟩ := List.append_inj htraces hlength
        exact ⟨Traced.ext htrace (hf.trans hg.symm), fun _ => Traced.ext hrest hends⟩
      · rintro ⟨hfirst, hrest⟩
        rw [hfirst, hrest rfl]
    | error e =>
      rw [bind_of_error hg]
      cases hf : (f a).outcome with
      | ok _ =>
        have hmore := hcut a (by simp) e hg hf
        rw [bind_of_ok hf]
        refine iff_of_false (fun h => ?_) fun h => ?_
        · have hlength := congrArg (fun x => x.trace.length) h
          simp only [after, List.length_append] at hlength
          omega
        · rw [h.1] at hmore
          omega
      | error e' =>
        rw [bind_of_error hf]
        constructor
        · intro h
          obtain ⟨htrace, hends⟩ := Traced.mk.inj h
          exact ⟨Traced.ext htrace (hf.trans (hends.trans hg.symm)), by simp⟩
        · rintro ⟨hfirst, -⟩
          rw [← hfirst, hf] at hg
          rw [hfirst, Except.error.inj hg]

end Traced

end GroovyViews
