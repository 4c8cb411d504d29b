import GroovyViews.Proofs.Ending

/-!
# Two policies for control tags that are not supported

A conversion either skips the control tags that it does not support or refuses them. The two walk
through the same elements and write the same for each of them, so they stay together up to the first
such tag. There the one that refuses ends, and the other one goes on.
-/

namespace GroovyViews

/-- The name of a control tag that is not supported, if the element is one. -/
def Xml.Element.unsupported? (e : Xml.Element) : Option String :=
  match e.name.uri with
  | none => none
  | some uri =>
    if isControlUri uri then
      match Control.ofLocalName e.name.localName with
      | .other name => some name
      | _ => none
    else none

/-- The conversion with another policy. -/
def Conversion.withPolicy (c : Conversion) (policy : UnknownTags) : Conversion :=
  c.mapOptions fun options => { options with unknownTags := policy }

namespace Writer

/-- The writer with another policy. -/
def withPolicy (w : Writer) (policy : UnknownTags) : Writer :=
  w.mapOptions fun options => { options with unknownTags := policy }

/-- The policy does not change the prefixes. -/
theorem prefixes_withPolicy (w : Writer) (policy : UnknownTags) :
    (w.withPolicy policy).prefixes = w.prefixes := rfl

variable {w : Writer} {e : Xml.Element} {start : Xml.Element}

/-- The tags that are not supported are those with that role, whatever the prefixes are. -/
theorem ofName_eq_other_iff {t : PrefixTable} {name : String} :
    Role.ofName t e.name = .ok (.control (.other name)) ↔ e.unsupported? = some name := by
  unfold Role.ofName PrefixTable.prefixOf Xml.Element.unsupported?
  cases e.name.uri with
  | none => simp
  | some uri =>
    by_cases hcontrol : isControlUri uri = true
    · cases htag : Control.ofLocalName e.name.localName <;> simp [hcontrol]
    · cases hpfx : t.prefixOf? uri <;> simp [hcontrol, hpfx, Except.map]

/-- No other element has the role of a tag that is not supported. -/
theorem ne_other_of_supported {role : Role} (h : e.unsupported? = none) {t : PrefixTable}
    (hrole : Role.ofName t e.name = .ok role) (name : String) :
    role ≠ .control (.other name) := by
  rintro rfl
  simp [ofName_eq_other_iff.mp hrole] at h

/-- Refusing a tag that is not supported is the complaint about it. -/
theorem complaint?_reject_of_unsupported {name : String} (h : e.unsupported? = some name)
    (w : Writer) (look : Lookup) :
    (w.withPolicy .reject).complaint? look e = some (.unsupportedTag name e.position) := by
  rw [complaint?_eq, ofName_eq_other_iff.mpr h]
  simp [roleComplaint?, withPolicy, mapOptions]

/-- The policy makes no difference to what is wrong with any other element. -/
theorem complaint?_of_supported (h : e.unsupported? = none) (w : Writer) (policy : UnknownTags)
    (look : Lookup) : (w.withPolicy policy).complaint? look e = w.complaint? look e := by
  rw [complaint?_eq, complaint?_eq, prefixes_withPolicy]
  cases hrole : Role.ofName w.prefixes e.name with
  | error err => rfl
  | ok role =>
    cases role with
    | call qualifier tag => rfl
    | control tag =>
      cases tag with
      | other name => exact absurd rfl (ne_other_of_supported h hrole name)
      | ifTag | choose | when | otherwise | invokeStatic => rfl

/-- There is nothing unsupported about an element with which nothing is wrong when such tags are
refused. -/
theorem supported_of_clean {look : Lookup}
    (h : (w.withPolicy .reject).complaint? look e = none) : e.unsupported? = none := by
  cases hname : e.unsupported? with
  | none => rfl
  | some name => simp [complaint?_reject_of_unsupported hname] at h

/-- A tag that is not supported writes nothing, whatever the policy is. -/
theorem text_opening_of_unsupported {name : String} (h : e.unsupported? = some name) (w : Writer)
    (indent : Nat) : Emission.text (w.opening indent e) = "" := by
  rw [opening_of_role (ofName_eq_other_iff.mpr h)]
  cases hpolicy : w.options.unknownTags <;>
    simp [statement, controlStatement, hpolicy] <;> rfl

/-- The policy makes no difference to the opening of any other element. -/
theorem opening_of_supported (h : e.unsupported? = none) (w : Writer) (policy : UnknownTags)
    (indent : Nat) : (w.withPolicy policy).opening indent e = w.opening indent e := by
  cases hrole : Role.ofName w.prefixes e.name with
  | error err =>
    simp only [opening]
    change Emission.ofView (Role.ofName w.prefixes e.name) >>= _ =
      Emission.ofView (Role.ofName w.prefixes e.name) >>= _
    rw [hrole]
    rfl
  | ok role =>
    rw [opening_of_role hrole, opening_of_role (w := w.withPolicy policy) hrole]
    cases role with
    | call qualifier tag => rfl
    | control tag =>
      cases tag with
      | other name => exact absurd rfl (ne_other_of_supported h hrole name)
      | ifTag | choose | when | otherwise | invokeStatic => rfl

/-- The policy makes no difference to what a visit writes. -/
theorem visitText_withPolicy (w : Writer) (policy : UnknownTags) (indent : Nat) (v : Xml.Visit) :
    (w.withPolicy policy).visitText indent v = w.visitText indent v := by
  cases v with
  | leave s => rfl
  | enter s =>
    rw [visitText_enter, visitText_enter]
    cases h : s.element.unsupported? with
    | some name => rw [text_opening_of_unsupported h, text_opening_of_unsupported h]
    | none => rw [opening_of_supported h]

/-- How refusing tags that are not supported ends from an element on, beside skipping them. -/
inductive Parting (w : Writer) (start : Xml.Element) (strict lenient : Ending) : Prop where
  /-- There is nothing wrong with any element, and the two end alike. -/
  | never : (∀ s ∈ start.sites, s.element.unsupported? = none) → strict.outcome = .ok () →
      strict = lenient → Parting w start strict lenient
  /-- The first element with something wrong is a tag that is not supported, and it ends one of the
  two. -/
  | atTag {earlier later : List Xml.Site} {s : Xml.Site} {name : String} :
      start.sites = earlier ++ s :: later → s.element.unsupported? = some name →
      (∀ t ∈ earlier, t.element.unsupported? = none ∧
        w.complaint? Xml.Element.attr? t.element = none) →
      strict.outcome = .error (.unsupportedTag name s.element.position) →
      strict.written <+: lenient.written → Parting w start strict lenient
  /-- The first element with something wrong is another one, and it ends both. -/
  | together {err : ConversionError} : (∀ name pos, err ≠ .unsupportedTag name pos) →
      strict.outcome = .error err → strict = lenient → Parting w start strict lenient

/-- Only a tag that is not supported is complained about as one. -/
theorem ne_unsupportedTag_of_supported {look : Lookup} {err : ConversionError}
    (h : e.unsupported? = none) (herr : w.complaint? look e = some err) (name : String)
    (pos : Xml.Position) : err ≠ .unsupportedTag name pos := by
  rintro rfl
  rw [complaint?_eq] at herr
  cases hrole : Role.ofName w.prefixes e.name with
  | error err => simp [hrole] at herr
  | ok role =>
    rw [hrole] at herr
    cases role with
    | call qualifier tag => simp [roleComplaint?] at herr
    | control tag =>
      cases tag with
      | other name => exact absurd rfl (ne_other_of_supported h hrole name)
      | ifTag | choose | when | otherwise | invokeStatic => simp [roleComplaint?] at herr

/-- The preamble and the lines of some visits, which are the same with every policy. -/
theorem written_withPolicy (w : Writer) (policy : UnknownTags) (visits : List Xml.Visit) :
    Emission.text (w.withPolicy policy).preamble ++
        String.join (visits.map ((w.withPolicy policy).visitText 0)) =
      Emission.text w.preamble ++ String.join (visits.map (w.visitText 0)) := by
  simp only [funext (w.visitText_withPolicy policy 0)]
  rfl

/-- From an element on, the two policies part at the first tag that is not supported, unless there
is something wrong before it. -/
theorem parting (w : Writer) (start : Xml.Element) :
    Parting w start ((w.withPolicy .reject).ending Xml.Element.attr? start)
      ((w.withPolicy .skip).ending Xml.Element.attr? start) := by
  have hskip : ∀ e : Xml.Element, (w.withPolicy .reject).complaint? Xml.Element.attr? e = none →
      (w.withPolicy .skip).complaint? Xml.Element.attr? e = none := by
    intro e he
    have hsupported := supported_of_clean he
    rw [complaint?_of_supported hsupported] at he ⊢
    exact he
  rcases (w.withPolicy .reject).clean_or_exists_first Xml.Element.attr? start with
    hclean | ⟨before, s, after, err, hvisits, hclean, herr⟩
  · have hending := ending_of_clean hclean
    refine .never (fun s hs => supported_of_clean (hclean s hs)) (by rw [hending]) ?_
    rw [hending, ending_of_clean fun s hs => hskip _ (hclean s hs), written_withPolicy,
      written_withPolicy]
  · have hlenient : ∀ t, .enter t ∈ before →
        (w.withPolicy .skip).complaint? Xml.Element.attr? t.element = none :=
      fun t ht => hskip _ (hclean t ht)
    have hending := ending_of_complaint hvisits hclean herr
    cases hname : s.element.unsupported? with
    | none =>
      rw [complaint?_of_supported hname] at herr
      have hother := ne_unsupportedTag_of_supported hname herr
      refine .together hother (by rw [hending]) ?_
      rw [hending, ending_of_complaint hvisits hlenient
        (by rw [complaint?_of_supported hname]; exact herr), written_withPolicy, written_withPolicy]
    | some name =>
      rw [complaint?_reject_of_unsupported hname] at herr
      refine .atTag (Xml.Element.sites_of_visits hvisits) hname ?_ ?_ ?_
      · intro t ht
        have hreject := hclean t (Xml.Visit.mem_entered.mp ht)
        have hsupported := supported_of_clean hreject
        rw [complaint?_of_supported hsupported] at hreject
        exact ⟨hsupported, hreject⟩
      · rw [hending, ← Option.some.inj herr]
      · -- The one that skips the tag has written the same up to it and may write more.
        rw [hending, written_withPolicy, ending, cleanVisits_eq hvisits hlenient,
          written_withPolicy, List.map_append, String.join_append, ← String.append_assoc,
          Text.bytes_append (_ ++ _)]
        exact List.prefix_append _ _

end Writer

namespace Conversion

/-- **Refusing and skipping.** On a sink without limits the conversion that refuses tags which are
not supported succeeds exactly if the one that skips them does and there is no such tag, and then
the two write the same. If it ends with such a tag, that is the first one in document order, nothing
is wrong with the elements before it, and what it has written is the beginning of what the other one
writes. If it ends with anything else, so does the other one, with the same error and the same bytes
written. -/
theorem run_reject_skip (c : Conversion) :
    let strict := Sink.unlimited.run (c.withPolicy .reject).emission
    let lenient := Sink.unlimited.run (c.withPolicy .skip).emission
    (strict.outcome = .ok () ↔ lenient.outcome = .ok () ∧
      ∀ w start, c.entry = .ok (w, start) → ∀ s ∈ start.sites, s.element.unsupported? = none) ∧
    (strict.outcome = .ok () → strict.sink.stored = lenient.sink.stored) ∧
    (∀ tag pos, strict.outcome = .error (.unsupportedTag tag pos) →
      strict.sink.stored <+: lenient.sink.stored ∧
      ∃ w start earlier s later, c.entry = .ok (w, start) ∧ start.sites = earlier ++ s :: later ∧
        s.element.unsupported? = some tag ∧ s.element.position = pos ∧
        ∀ t ∈ earlier, t.element.unsupported? = none ∧
          w.complaint? Xml.Element.attr? t.element = none) ∧
    ∀ err, strict.outcome = .error err → (∀ tag pos, err ≠ .unsupportedTag tag pos) →
      lenient.outcome = .error err ∧ lenient.sink.stored = strict.sink.stored := by
  intro strict lenient
  have hstrict : strict.ending = _ := c.ending_mapOptions _
  have hlenient : lenient.ending = _ := c.ending_mapOptions _
  change (strict.ending.outcome = _ ↔ lenient.ending.outcome = _ ∧ _) ∧
    (strict.ending.outcome = _ → strict.ending.written = lenient.ending.written) ∧
    (∀ tag pos, strict.ending.outcome = _ → strict.ending.written <+: lenient.ending.written ∧ _) ∧
    ∀ err, strict.ending.outcome = _ → _ →
      lenient.ending.outcome = _ ∧ lenient.ending.written = strict.ending.written
  cases hentry : c.entry with
  | error err =>
    rw [hstrict, hlenient, hentry]
    simp
  | ok entry =>
    obtain ⟨w, start⟩ := entry
    have hparting : Writer.Parting w start strict.ending lenient.ending := by
      rw [hstrict, hlenient, hentry]
      exact w.parting start
    cases hparting with
    | never hsupported hok heq =>
      rw [← heq, hok]
      simpa using hsupported
    | atTag hsites hname hearlier herr hbegins =>
      rw [herr]
      refine ⟨?_, by simp, ?_, by simp⟩
      · simp only [reduceCtorEq, false_iff, not_and]
        intro _ hall
        have hnone := hall w start rfl _ (hsites ▸ List.mem_append_right _ List.mem_cons_self)
        simp [hname] at hnone
      · intro tag pos heq
        cases heq
        exact ⟨hbegins, w, start, _, _, _, rfl, hsites, hname, rfl, hearlier⟩
    | together hother herr heq =>
      rw [← heq, herr]
      simp [hother]

end Conversion

end GroovyViews
