import GroovyViews.Proofs.Ending

/-!
# Sinks with limited room

A sink with limited room holds the beginning of what one without limits holds. This is kept by every
step, whether it fits or not, and so by any number of calls one after the other, even if some of
them have failed. In how many writes the bytes come makes no difference.
-/

namespace GroovyViews

namespace Sink

/-- The sink after several emissions, each of which runs however the ones before it ended. -/
def after (s : Sink) (parts : List (Emission Unit)) : Sink :=
  parts.foldl (fun s e => (s.run e).sink) s

/-- Writes one piece after the other, up to the first that does not fit. -/
def writeAll (s : Sink) : List (List UInt8) → Sink × Bool
  | [] => (s, true)
  | piece :: rest =>
    match s.write piece with
    | (s, true) => s.writeAll rest
    | (s, false) => (s, false)

/-- A sink without limits that holds some bytes. -/
def holding (refusesFlush : Bool) (bytes : List UInt8) : Sink := ⟨bytes, none, refusesFlush⟩

/-- A sink of some capacity that has been given some bytes, whether they fit or not. -/
def given (capacity : Nat) (refusesFlush : Bool) (bytes : List UInt8) : Sink :=
  ⟨bytes.take capacity, some (capacity - bytes.length), refusesFlush⟩

variable {capacity : Nat} {refusesFlush : Bool}

/-- Bytes that come in two pieces are stored like the whole of them. -/
theorem write_append (s : Sink) (first second : List UInt8) :
    s.write (first ++ second) = match s.write first with
      | (s', true) => s'.write second
      | (s', false) => (s', false) := by
  cases hroom : s.room with
  | none => simp [write, hroom]
  | some room =>
    by_cases hfits : first.length ≤ room
    · have hsecond :
          (first.length + second.length ≤ room) = (second.length ≤ room - first.length) :=
        propext ⟨by omega, by omega⟩
      simp [write, hroom, hfits, hsecond, List.take_append, Nat.sub_sub]
    · have hall : ¬first.length + second.length ≤ room := by omega
      have hleft : room - first.length = 0 := by omega
      have hleft' : room - (first.length + second.length) = 0 := by omega
      simp [write, hroom, hfits, hall, hleft, hleft', List.take_append]

/-- Bytes that come in pieces are stored like the whole of them. -/
theorem writeAll_eq_write (s : Sink) (pieces : List (List UInt8)) :
    s.writeAll pieces = s.write pieces.flatten := by
  induction pieces generalizing s with
  | nil =>
    obtain ⟨stored, room, refusesFlush⟩ := s
    cases room <;> simp [writeAll, write]
  | cons piece rest ih =>
    rw [List.flatten_cons, write_append, writeAll]
    split
    · exact ih _
    · rfl

/-- A sink of some capacity that is given more bytes has been given all of them. -/
theorem write_given (earlier bytes : List UInt8) :
    (given capacity refusesFlush earlier).write bytes =
      (given capacity refusesFlush (earlier ++ bytes),
        decide (bytes.length ≤ capacity - earlier.length)) := by
  have hroom : capacity - earlier.length - bytes.length = capacity - (earlier ++ bytes).length := by
    rw [List.length_append]
    omega
  simp [write, given, hroom, List.take_append]

/-- Once it is full, a sink of some capacity stores nothing of what it is given. -/
theorem given_append_of_full {earlier : List UInt8} (h : capacity ≤ earlier.length)
    (more : List UInt8) :
    given capacity refusesFlush (earlier ++ more) = given capacity refusesFlush earlier := by
  have hroom : capacity - (earlier ++ more).length = capacity - earlier.length := by
    rw [List.length_append]
    omega
  rw [given, given, hroom, List.take_append_of_le_length h]

/-- A sink without limits takes in steps whatever it holds already. -/
theorem play_holding (earlier : List UInt8) (outcome : Except ConversionError Unit)
    (steps : List Step) :
    (holding refusesFlush earlier).play outcome steps =
      let free := (holding refusesFlush []).play outcome steps
      { free with sink := holding refusesFlush (earlier ++ free.sink.stored) } := by
  induction steps generalizing earlier with
  | nil => simp [play, holding]
  | cons step steps ih =>
    cases step with
    | notice n =>
      rw [play, ih]
      rfl
    | flush =>
      cases refusesFlush with
      | true => simp [play, holding]
      | false => simpa [play, holding] using ih earlier
    | line indent text =>
      have hline : ∀ held : List UInt8, (holding refusesFlush held).play outcome
          (.line indent text :: steps) = (holding refusesFlush
            (held ++ Text.bytes (Step.line indent text).text)).play outcome steps := fun _ => rfl
      rw [hline, hline, ih, ih ([] ++ _)]
      simp [holding]

/-- A sink of some capacity is left as if it had been given all that the steps write to one without
limits. If that is more than the room left, then the run fails; otherwise both end alike. -/
theorem play_given (capacity : Nat) (refusesFlush : Bool) (earlier : List UInt8)
    (outcome : Except ConversionError Unit) (steps : List Step) :
    let free := (holding refusesFlush []).play outcome steps
    let run := (given capacity refusesFlush earlier).play outcome steps
    run.sink = given capacity refusesFlush (earlier ++ free.sink.stored) ∧
      run.outcome = if free.sink.stored.length ≤ capacity - earlier.length then free.outcome
        else .error (.io .sinkFull) := by
  induction steps generalizing earlier with
  | nil => simp [play, holding]
  | cons step steps ih =>
    cases step with
    | notice n => exact ih earlier
    | flush =>
      cases refusesFlush with
      | true => simp [play, holding, given]
      | false => exact ih earlier
    | line indent text =>
      intro free run
      have hfree : free = (holding refusesFlush
          (Text.bytes (Step.line indent text).text)).play outcome steps := rfl
      rw [play_holding] at hfree
      simp only [run, play, write_given, hfree]
      generalize Text.bytes (Step.line indent text).text = bytes
      obtain ⟨hsink, houtcome⟩ := ih (earlier ++ bytes)
      rw [List.append_assoc] at hsink
      rw [List.length_append] at houtcome
      by_cases hfits : bytes.length ≤ capacity - earlier.length
      · rw [decide_eq_true hfits]
        refine ⟨hsink, houtcome.trans ?_⟩
        have hiff : ∀ n, n ≤ capacity - (earlier.length + bytes.length) ↔
            bytes.length + n ≤ capacity - earlier.length := by omega
        simp only [hiff, holding, List.length_append]
      · -- the line does not fit, and what the steps after it would write is not stored either
        rw [decide_eq_false hfits]
        have hfull : capacity ≤ (earlier ++ bytes).length := by
          rw [List.length_append]
          omega
        refine ⟨?_, (if_neg ?_).symm⟩
        · rw [holding, ← List.append_assoc, given_append_of_full hfull]
        · simp only [holding, List.length_append]
          omega

/-- The same for several emissions one after the other, however each of them ends. -/
theorem after_given (earlier : List UInt8) (parts : List (Emission Unit)) :
    (given capacity refusesFlush earlier).after parts = given capacity refusesFlush
      (earlier ++ parts.flatMap fun e => ((holding refusesFlush []).run e).sink.stored) := by
  induction parts generalizing earlier with
  | nil => simp [after]
  | cons e parts ih =>
    have hrun := (play_given capacity refusesFlush earlier e.outcome e.trace).1
    have hafter : (given capacity refusesFlush earlier).after (e :: parts) =
        ((given capacity refusesFlush earlier).run e).sink.after parts := rfl
    rw [hafter, run, hrun, ih, List.flatMap_cons, List.append_assoc]
    rfl

/-- A sink without limits ends a run as the steps do, unless it refuses to be flushed. -/
theorem outcome_play_holding (earlier : List UInt8) (outcome : Except ConversionError Unit)
    (steps : List Step) :
    ((holding refusesFlush earlier).play outcome steps).outcome = outcome ∨
      ((holding refusesFlush earlier).play outcome steps).outcome = .error (.io .flushRefused) := by
  induction steps generalizing earlier with
  | nil => exact .inl rfl
  | cons step steps ih =>
    cases step with
    | notice n => exact ih earlier
    | line indent text => exact ih _
    | flush =>
      cases refusesFlush with
      | true => exact .inr rfl
      | false => exact ih earlier

end Sink

namespace Writer

/-- What a writer may be asked to write. -/
inductive Request where
  /-- The preamble. -/
  | preamble
  /-- An element with all that is in it, at an indentation. -/
  | element (indent : Nat) (e : Xml.Element)
  /-- Nothing more, but all that was written has to arrive. -/
  | flush

/-- The emission for a request. -/
def emission (w : Writer) : Request → Emission Unit
  | .preamble => w.preamble
  | .element indent e => w.element indent e
  | .flush => .report .flush

/-- A writer by itself never ends with an error of the sink. -/
theorem outcome_emission_ne_io (w : Writer) (r : Request) (err : IoError) :
    (w.emission r).outcome ≠ .error (.io err) := by
  cases r with
  | preamble => simp [emission, w.outcome_preamble]
  | flush => simp [emission]
  | element indent e =>
    rcases w.clean_or_exists_first Xml.Element.attr? e with
      hclean | ⟨before, s, after, cause, hvisits, hclean, hcause⟩
    · simp [emission, (element_of_clean indent hclean).1]
    · have hne : cause ≠ .io err := by
        rintro rfl
        cases isAboutView_of_complaint? hcause
      simpa [emission, (element_of_complaint indent hvisits hclean hcause).1] using hne

/-- **Limited room.** A writer is asked for any number of parts, one after the other and however the
ones before ended. A sink of some capacity then holds the beginning of what the requests write to a
sink without limits, one after the other. A request fails for want of room exactly if it writes
something and all that has been written up to its end is too much; otherwise it ends as it does
without limits. Once a request has failed so, nothing is stored any more. None of this depends on
how the bytes are cut into writes. -/
theorem after_bounded (w : Writer) (capacity : Nat) (refusesFlush : Bool)
    (requests : List Request) :
    let alone := fun r => (Sink.mk [] none refusesFlush).run (w.emission r)
    let written := fun r => (alone r).sink.stored
    let sink := fun rs : List Request =>
      (Sink.mk [] (some capacity) refusesFlush).after (rs.map w.emission)
    (sink requests).stored = (requests.flatMap written).take capacity ∧
    (∀ earlier r later, requests = earlier ++ r :: later →
      let run := (sink earlier).run (w.emission r)
      (run.outcome = .error (.io .sinkFull) ↔
        written r ≠ [] ∧ capacity < (earlier.flatMap written ++ written r).length) ∧
      (run.outcome ≠ .error (.io .sinkFull) → run.outcome = (alone r).outcome) ∧
      (run.outcome = .error (.io .sinkFull) →
        ∀ more, (sink (earlier ++ r :: more)).stored = run.sink.stored)) ∧
    ∀ (s : Sink) (pieces : List (List UInt8)), s.writeAll pieces = s.write pieces.flatten := by
  intro alone written sink
  have hsink : ∀ rs : List Request,
      sink rs = Sink.given capacity refusesFlush (rs.flatMap written) := by
    intro rs
    have hempty : Sink.mk [] (some capacity) refusesFlush = .given capacity refusesFlush [] := by
      simp [Sink.given]
    simp only [sink, hempty, Sink.after_given, List.nil_append, List.flatMap_map]
    rfl
  refine ⟨by rw [hsink, Sink.given], ?_, Sink.writeAll_eq_write⟩
  intro earlier r later _ run
  have halone : (alone r).outcome ≠ .error (.io .sinkFull) := by
    rcases Sink.outcome_play_holding [] (w.emission r).outcome (w.emission r).trace with hend | hend
    · rw [show (alone r).outcome = _ from hend]
      exact w.outcome_emission_ne_io r _
    · rw [show (alone r).outcome = _ from hend]
      simp
  have hplay := Sink.play_given capacity refusesFlush (earlier.flatMap written)
    (w.emission r).outcome (w.emission r).trace
  rw [← hsink] at hplay
  obtain ⟨hstored, houtcome⟩ : run.sink = .given capacity refusesFlush
      (earlier.flatMap written ++ written r) ∧ run.outcome =
        if (written r).length ≤ capacity - (earlier.flatMap written).length then (alone r).outcome
        else .error (.io .sinkFull) := hplay
  have hlack : ¬(written r).length ≤ capacity - (earlier.flatMap written).length ↔
      written r ≠ [] ∧ capacity < (earlier.flatMap written ++ written r).length := by
    rw [← List.length_pos_iff, List.length_append]
    omega
  rw [← hlack, houtcome]
  split
  · rename_i hfits
    exact ⟨iff_of_false halone (not_not.mpr hfits), fun _ => rfl, fun hfull => absurd hfull halone⟩
  · rename_i hfits
    refine ⟨iff_of_true rfl hfits, fun hne => absurd rfl hne, fun _ more => ?_⟩
    have hover := (hlack.mp hfits).2
    rw [hsink, hstored, List.flatMap_append, List.flatMap_cons, ← List.append_assoc,
      Sink.given_append_of_full (Nat.le_of_lt hover)]

end Writer

end GroovyViews
