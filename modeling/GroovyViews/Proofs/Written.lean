import GroovyViews.Proofs.Sequence
import GroovyViews.Sink

/-!
# What an emission writes

Only the lines of an emission write anything. A sink without limits stores all of it, passes on
all notices and ends as the emission does. Any other sink has stored all of it if the run succeeds.
-/

namespace GroovyViews

namespace Text

/-- An empty text has no bytes. -/
@[simp] theorem bytes_empty : bytes "" = [] := rfl

/-- The bytes of a text that follows another one follow its bytes. -/
@[simp] theorem bytes_append (s t : String) : bytes (s ++ t) = bytes s ++ bytes t := by
  simp [bytes, String.toByteArray_append]

/-- Texts that come from the members of a list are joined member by member. -/
theorem join_flatMap {α : Type} (f : α → List String) (l : List α) :
    String.join (l.flatMap f) = String.join (l.map fun a => String.join (f a)) := by
  induction l with
  | nil => rfl
  | cons a l ih => simp [ih]

end Text

namespace Emission

variable {α : Type}

/-- Parts that come one after the other write one after the other. -/
theorem join_text_flatMap {β : Type} (f : β → Emission α) (parts : List β) :
    String.join ((parts.flatMap fun b => (f b).trace).map Step.text) =
      String.join (parts.map fun b => (f b).text) := by
  rw [List.map_flatMap, Text.join_flatMap]
  rfl

/-- Notices write nothing. -/
@[simp] theorem join_text_notices (notices : List Notice) :
    String.join ((notices.map Step.notice).map Step.text) = "" := by
  induction notices with
  | nil => rfl
  | cons n notices ih => simpa [Step.text] using ih

/-- What comes after a success is written after it. -/
theorem text_bind_of_ok {β : Type} {x : Emission α} {a : α} (h : x.outcome = .ok a)
    (f : α → Emission β) : text (x >>= f) = text x ++ text (f a) := by
  simp [Traced.bind_of_ok h, text, Traced.after]

/-- What comes after an error is not written. -/
theorem text_bind_of_error {β : Type} {x : Emission α} {err : ConversionError}
    (h : x.outcome = .error err) (f : α → Emission β) : text (x >>= f) = text x := by
  simp [Traced.bind_of_error h, text]

/-- Reading in two steps is read in two steps while writing. -/
theorem ofReading_bind {β : Type} (r : Reading α) (f : α → Reading β) :
    ofReading (r >>= f) = ofReading r >>= fun a => ofReading (f a) := by
  cases hr : r.outcome with
  | ok a =>
    have hreading : (ofReading r).outcome = .ok a := by
      simp [ofReading, Traced.adapt, hr]
    rw [Traced.bind_of_ok hr, Traced.bind_of_ok hreading]
    simp [ofReading, Traced.adapt, Traced.after]
  | error err =>
    have hreading : (ofReading r).outcome = .error (.view err) := by
      simp [ofReading, Traced.adapt, hr]
    rw [Traced.bind_of_error hr, Traced.bind_of_error hreading]
    rfl

/-- Reading a view writes nothing. -/
@[simp] theorem text_ofReading (r : Reading α) : text (ofReading r) = "" :=
  join_text_notices r.trace

/-- Two outcomes are the same value, or they are errors that are related. -/
inductive EndAlike (r : ConversionError → ConversionError → Prop) :
    Except ConversionError α → Except ConversionError α → Prop where
  /-- Both are a success with the same value. -/
  | ok (a : α) : EndAlike r (.ok a) (.ok a)
  /-- Both are errors, and they are related. -/
  | error {err err' : ConversionError} : r err err' → EndAlike r (.error err) (.error err')

/-- Both write the same, and they end alike up to a relation between errors. They may give other
notices. -/
structure Alike (r : ConversionError → ConversionError → Prop) (x y : Emission α) : Prop where
  /-- What they write is the same. -/
  text : x.text = y.text
  /-- They end with the same value or with errors that are related. -/
  outcome : EndAlike r x.outcome y.outcome

namespace Alike

variable {r : ConversionError → ConversionError → Prop} {x y : Emission α}

/-- An emission is like itself, if each error is related to itself. -/
theorem refl (hr : ∀ err, r err err) (x : Emission α) : Alike r x x := by
  refine ⟨rfl, ?_⟩
  cases x.outcome with
  | ok a => exact .ok a
  | error err => exact .error (hr err)

/-- Sequences are alike if their first parts are and all continuations are. -/
theorem bind {β : Type} {f g : α → Emission β} (h : Alike r x y)
    (hrest : ∀ a, Alike r (f a) (g a)) : Alike r (x >>= f) (y >>= g) := by
  obtain ⟨htext, houtcome⟩ := h
  generalize hx : x.outcome = first at houtcome
  generalize hy : y.outcome = second at houtcome
  cases houtcome with
  | ok a =>
    refine ⟨?_, ?_⟩
    · rw [text_bind_of_ok hx, text_bind_of_ok hy, htext, (hrest a).text]
    · rw [Traced.bind_of_ok hx, Traced.bind_of_ok hy]
      exact (hrest a).outcome
  | error herr =>
    refine ⟨?_, ?_⟩
    · rw [text_bind_of_error hx, text_bind_of_error hy, htext]
    · rw [Traced.bind_of_error hx, Traced.bind_of_error hy]
      exact .error herr

/-- If one of two succeeds, then so does the other. -/
theorem ok_iff {x y : Emission Unit} (h : Alike r x y) :
    x.outcome = .ok () ↔ y.outcome = .ok () := by
  have houtcome := h.outcome
  cases hx : x.outcome <;> cases hy : y.outcome <;> rw [hx, hy] at houtcome <;> cases houtcome
  all_goals simp

/-- They end with the same error if no other ones are related. -/
theorem outcome_eq (h : Alike Eq x y) : x.outcome = y.outcome := by
  have houtcome := h.outcome
  cases hx : x.outcome <;> cases hy : y.outcome <;> rw [hx, hy] at houtcome <;> cases houtcome
  · rename_i heq
    rw [heq]
  · rfl

end Alike

end Emission

namespace Sink

/-- A sink without limits takes in the steps of an emission one after the other. -/
theorem play_of_no_limit (stored : List UInt8) (outcome : Except ConversionError Unit)
    (steps : List Step) :
    (Sink.mk stored none false).play outcome steps =
      ⟨⟨stored ++ Text.bytes (String.join (steps.map Step.text)), none, false⟩,
        steps.filterMap Step.notice?, outcome⟩ := by
  induction steps generalizing stored with
  | nil => simp [play]
  | cons s steps ih =>
    cases s with
    | notice n => simp [play, ih, Step.text, Step.notice?]
    | line indent text => simp [play, write, ih, List.filterMap_cons, Step.notice?]
    | flush => simp [play, ih, Step.text, List.filterMap_cons, Step.notice?]

/-- A sink without limits stores the whole text of an emission, gives all its notices and ends as
the emission does. -/
theorem run_unlimited (e : Emission Unit) :
    unlimited.run e = ⟨⟨Text.bytes e.text, none, false⟩, e.notices, e.outcome⟩ := by
  simp [run, unlimited, play_of_no_limit, Emission.text, Emission.notices]

/-- Bytes that fit are stored as a whole. -/
theorem stored_of_write {s s' : Sink} {bytes : List UInt8} (h : s.write bytes = (s', true)) :
    s'.stored = s.stored ++ bytes := by
  unfold write at h
  split at h
  · obtain ⟨rfl, -⟩ := Prod.mk.inj h
    rfl
  · obtain ⟨rfl, hfits⟩ := Prod.mk.inj h
    rw [List.take_of_length_le (by simpa using hfits)]

/-- If all steps can be carried out, they end as they do by themselves, and all that they write is
stored. -/
theorem stored_of_play_ok {s : Sink} {outcome : Except ConversionError Unit} {steps : List Step}
    (h : (s.play outcome steps).outcome = .ok ()) :
    outcome = .ok () ∧ (s.play outcome steps).sink.stored =
      s.stored ++ Text.bytes (String.join (steps.map Step.text)) := by
  induction steps generalizing s with
  | nil => exact ⟨h, by simp [play]⟩
  | cons step steps ih =>
    cases step with
    | notice n => simpa [play, Step.text] using ih h
    | flush =>
      cases hrefuses : s.refusesFlush with
      | true => simp [play, hrefuses] at h
      | false =>
        simp only [play, hrefuses] at h ⊢
        simpa [Step.text] using ih h
    | line indent text =>
      cases hwrite : s.write (Text.bytes (Step.line indent text).text) with
      | mk s' fits =>
        cases fits with
        | false => simp [play, hwrite] at h
        | true =>
          simp only [play, hwrite] at h ⊢
          obtain ⟨hok, hstored⟩ := ih h
          refine ⟨hok, ?_⟩
          rw [hstored, stored_of_write hwrite]
          simp

/-- A run that fails ends with the error of the emission or with one of the sink. -/
theorem error_of_run {s : Sink} {e : Emission Unit} {err : ConversionError}
    (h : (s.run e).outcome = .error err) : e.outcome = .error err ∨ ∃ cause, err = .io cause := by
  unfold run at h
  generalize e.trace = steps at h
  induction steps generalizing s with
  | nil => exact .inl h
  | cons step steps ih =>
    cases step with
    | notice n => exact ih h
    | flush =>
      cases hrefuses : s.refusesFlush with
      | true =>
        simp only [play, hrefuses] at h
        cases h
        exact .inr ⟨_, rfl⟩
      | false =>
        simp only [play, hrefuses] at h
        exact ih h
    | line indent text =>
      cases hwrite : s.write (Text.bytes (Step.line indent text).text) with
      | mk s' fits =>
        simp only [play, hwrite] at h
        cases fits with
        | true => exact ih h
        | false =>
          cases h
          exact .inr ⟨_, rfl⟩

/-- A run that succeeds has stored the whole text of an emission that succeeds. -/
theorem stored_of_run_ok {s : Sink} {e : Emission Unit} (h : (s.run e).outcome = .ok ()) :
    e.outcome = .ok () ∧ (s.run e).sink.stored = s.stored ++ Text.bytes e.text :=
  stored_of_play_ok h

end Sink

end GroovyViews
