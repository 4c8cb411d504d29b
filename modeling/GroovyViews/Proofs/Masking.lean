import GroovyViews.Proofs.Opening

/-!
# Attributes that mask a missing one

The lines of a view take the first attribute with the right local name, in whatever namespace it is.
An element that lacks an attribute without a namespace is therefore complained about only if it has
none of that local name at all. Otherwise the complaint is about a later attribute, or none is made.
-/

namespace GroovyViews

/-- An attribute without a namespace is one in whatever namespace. -/
theorem Xml.Element.plainAttr?_eq_none {e : Xml.Element} {name : String}
    (h : e.attr? name = none) : e.plainAttr? name = none := by
  simp only [attr?, Option.map_eq_none_iff, List.find?_eq_none, beq_iff_eq] at h
  simp only [plainAttr?, Option.map_eq_none_iff, List.find?_eq_none, beq_iff_eq]
  intro a ha hname
  exact h a ha (by rw [hname])

/-- The first attribute that is missing without a namespace is the first that is missing in every
namespace exactly if it is missing in every namespace at all. -/
theorem Xml.Element.find?_missing_iff {e : Xml.Element} {names : List String} {name : String}
    (h : names.find? (fun n => (e.plainAttr? n).isNone) = some name) :
    names.find? (fun n => (e.attr? n).isNone) = some name ↔ e.attr? name = none := by
  obtain ⟨-, earlier, later, rfl, hearlier⟩ := List.find?_eq_some_iff_append.mp h
  constructor
  · intro hfind
    simpa using List.find?_some hfind
  · intro hname
    refine List.find?_eq_some_iff_append.mpr ⟨by simp [hname], earlier, later, rfl, ?_⟩
    intro n hn
    have hplain : (e.plainAttr? n).isSome = true := by simpa using hearlier n hn
    cases hattr : e.attr? n with
    | some value => rfl
    | none => simp [plainAttr?_eq_none hattr] at hplain

namespace Writer

variable {w : Writer} {e : Xml.Element}

/-- What is wrong with a name is that its namespace has no prefix. -/
theorem unresolved_of_ofName {t : PrefixTable} {name : Xml.ExpandedName} {err : ViewError}
    (h : Role.ofName t name = .error err) : ∃ uri, err = .unresolvedNamespace uri := by
  unfold Role.ofName PrefixTable.prefixOf at h
  cases huri : name.uri with
  | none => simp [huri] at h
  | some uri =>
    cases hcontrol : isControlUri uri <;> cases hpfx : t.prefixOf? uri <;>
      simp [huri, hcontrol, hpfx, Except.map] at h
    exact ⟨uri, h.symm⟩

/-- A complaint depends on how attributes are looked up only where attributes are required, and such
an element writes a line. -/
theorem complaint?_cases (w : Writer) (e : Xml.Element) :
    (∃ role, Role.ofName w.prefixes e.name = .ok role ∧ role.writesLine = true ∧
      ∀ look, w.complaint? look e = (role.required.find? fun n => (look e n).isNone).map fun n =>
        .view (.missingAttribute n e.shownName e.position)) ∨
    ∃ complaint, (∀ look, w.complaint? look e = complaint) ∧
      ∀ name, complaint ≠ some (.view (.missingAttribute name e.shownName e.position)) := by
  cases hrole : Role.ofName w.prefixes e.name with
  | error err =>
    obtain ⟨uri, rfl⟩ := unresolved_of_ofName hrole
    exact .inr ⟨some (.view (.unresolvedNamespace uri)), by simp [complaint?_eq, hrole], by simp⟩
  | ok role =>
    cases role with
    | call qualifier tag =>
      refine .inr ⟨w.roleComplaint? Xml.Element.attr? e (.call qualifier tag), ?_, ?_⟩
      · intro look
        rw [complaint?_eq, hrole]
        rfl
      · intro name h
        obtain ⟨uri, -, huri⟩ := Option.map_eq_some_iff.mp h
        cases huri
    | control tag =>
      cases tag with
      | ifTag | when | invokeStatic =>
        exact .inl ⟨_, rfl, rfl, fun look => by rw [complaint?_eq, hrole]; rfl⟩
      | choose | otherwise =>
        exact .inr ⟨none, fun look => by rw [complaint?_eq, hrole]; rfl, by simp⟩
      | other name =>
        refine .inr ⟨w.roleComplaint? Xml.Element.attr? e (.control (.other name)), ?_, ?_⟩
        · intro look
          rw [complaint?_eq, hrole]
          rfl
        · intro n
          cases hpolicy : w.options.unknownTags <;> simp [roleComplaint?, hpolicy]

/-- An element that has what it needs has it also where more is found. -/
theorem complaint?_attr_of_look {look : Lookup}
    (hlook : ∀ name, e.attr? name = none → look e name = none)
    (h : w.complaint? look e = none) : w.complaint? Xml.Element.attr? e = none := by
  rcases w.complaint?_cases e with ⟨role, -, -, hcases⟩ | ⟨complaint, hcases, -⟩
  · rw [hcases, Option.map_eq_none_iff, List.find?_eq_none] at h ⊢
    intro n hn hnone
    have hattr : e.attr? n = none := by simpa using hnone
    exact h n hn (by simp [hlook n hattr])
  · rw [hcases] at h ⊢
    exact h

/-- An element that has what it needs without a namespace has it. -/
theorem complaint?_attr_of_plain (h : w.complaint? Xml.Element.plainAttr? e = none) :
    w.complaint? Xml.Element.attr? e = none :=
  complaint?_attr_of_look (fun _ => Xml.Element.plainAttr?_eq_none) h

/-- The complaint is the same whether namespaces count or not exactly if what it says is missing is
missing in every namespace. -/
theorem complaint?_attr_iff {err : ConversionError}
    (h : w.complaint? Xml.Element.plainAttr? e = some err) :
    w.complaint? Xml.Element.attr? e = some err ↔
      ∀ name, err = .view (.missingAttribute name e.shownName e.position) →
        e.attr? name = none := by
  rcases w.complaint?_cases e with ⟨role, -, -, hlook⟩ | ⟨complaint, hlook, hother⟩
  · rw [hlook] at h
    obtain ⟨name, hfind, rfl⟩ := Option.map_eq_some_iff.mp h
    rw [hlook]
    simp [← Xml.Element.find?_missing_iff hfind]
  · rw [hlook] at h
    subst h
    simp only [hlook, true_iff]
    rintro name rfl
    exact absurd rfl (hother name)

/-- An element whose missing attribute is masked writes a line. -/
theorem writesLine_of_masked {look : Lookup} {err : ConversionError}
    (hlook : w.complaint? look e = some err)
    (hattr : w.complaint? Xml.Element.attr? e = none) : w.writesLine e = true := by
  rcases w.complaint?_cases e with ⟨role, hrole, hline, -⟩ | ⟨complaint, hcases, -⟩
  · simp [writesLine, role?, hrole, Except.toOption, hline]
  · rw [hcases] at hlook hattr
    simp [hlook] at hattr

end Writer

end GroovyViews
