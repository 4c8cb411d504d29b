import GroovyViews.Proofs.Resolution

/-!
# Prefixes from the table and from the scope

A prefix for a namespace can be found in two ways: in the table of the whole view, and among the
bindings that hold at an element, where the first binding to the namespace decides. In a view that
has been read both ways lead to the same prefix, because no namespace is declared with two of them.
The prefix of an attribute is never the empty one, since the default namespace does not apply to
attributes.
-/

namespace GroovyViews

open Xml (Binding Node Placed Scope)

namespace Xml

/-- The namespace of an attribute, if it has one, is the reserved one or is bound to a prefix that
is not empty. -/
def Attribute.IsBoundIn (scope : Scope) (a : Attribute) : Prop :=
  ∀ uri, a.name.uri = some uri → uri = xmlUri ∨ ∃ b ∈ scope, b.pfx ≠ "" ∧ b.uri = uri

/-- All start tags in a node have a property. -/
def Node.EveryTag (q : StartTag → Prop) (n : Node) : Prop :=
  ∀ depth outer, ∀ p ∈ n.placed depth outer, q p.element.tag

/-- All start tags in an assembly have a property. -/
structure Assembly.EveryTag (q : StartTag → Prop) (a : Assembly) : Prop where
  /-- Those of the open elements and of what is in them do. -/
  frames : ∀ f ∈ a.frames, q f.tag ∧ ∀ n ∈ f.content, n.EveryTag q
  /-- So do those outside of all open elements. -/
  top : ∀ n ∈ a.top, n.EveryTag q

namespace Assembly

variable {q : StartTag → Prop} {a b : Assembly}

/-- All start tags of an element have the property if its own has it and those inside of it do. -/
theorem everyTag_element {tag : StartTag} {content : List Node} (htag : q tag)
    (hcontent : ∀ n ∈ content, n.EveryTag q) : (Node.element tag content).EveryTag q := by
  intro depth outer p hp
  rw [Node.placed, List.mem_cons] at hp
  rcases hp with rfl | hp
  · exact htag
  · obtain ⟨n, hn, hp⟩ := Node.mem_placedAll.mp hp
    exact hcontent n hn (depth + 1) tag.scope p hp

/-- Joining a text to another one brings in no start tag. -/
theorem everyTag_append {n : Node} {nodes : List Node} (hn : n.EveryTag q)
    (hnodes : ∀ m ∈ nodes, m.EveryTag q) : ∀ m ∈ append n nodes, m.EveryTag q := by
  intro m hm
  rcases mem_append_cases hm with rfl | hm | ⟨t, rfl⟩
  · exact hn
  · exact hnodes m hm
  · intro depth outer p hp
    simp [Node.placed] at hp

/-- A node may be added to the innermost open element. -/
theorem EveryTag.push {n : Node} (ha : a.EveryTag q) (hn : n.EveryTag q) :
    (a.push n).EveryTag q := by
  unfold Assembly.push
  cases hframes : a.frames with
  | nil => exact ⟨by simp, everyTag_append hn ha.top⟩
  | cons f rest =>
    have hold := ha.frames
    rw [hframes] at hold
    refine ⟨?_, ha.top⟩
    intro g hg
    rcases List.mem_cons.mp hg with rfl | hg
    · exact ⟨(hold f (by simp)).1, everyTag_append hn (hold f (by simp)).2⟩
    · exact hold g (by simp [hg])

/-- A close tag puts an open element in its place. -/
theorem EveryTag.closeTag {n : QName} {pos : Position} (ha : a.EveryTag q)
    (h : a.closeTag n pos = .ok b) : b.EveryTag q := by
  obtain ⟨-, -, h⟩ := exists_of_bind_eq_ok h
  have hold := ha.frames
  cases hframes : a.frames with
  | nil => simp [hframes] at h
  | cons f rest =>
    rw [hframes] at hold
    simp only [hframes] at h
    split_ifs at h
    obtain ⟨htag, hcontent⟩ := hold f (by simp)
    have hclosed : EveryTag q ⟨[], [], rest, a.top⟩ := ⟨fun g hg => hold g (by simp [hg]), ha.top⟩
    have helement : Node.EveryTag q (.element f.tag f.content.reverse) :=
      everyTag_element htag fun n hn => hcontent n (List.mem_reverse.mp hn)
    exact Except.ok.inj h ▸ hclosed.push helement

/-- A property of every start tag whose attributes have been looked up in its own scope is one of
all start tags in an assembly, whatever event comes next. -/
theorem EveryTag.step
    (hmade : ∀ tag waiting, resolveAttributes tag.scope [] waiting = .ok tag.attributes → q tag)
    {event : Event} (ha : a.EveryTag q) (h : a.step event = .ok b) : b.EveryTag q := by
  cases event with
  | attr n value pos =>
    obtain ⟨hframes, htop⟩ := frames_top_of_attr h
    exact ⟨hframes ▸ ha.frames, htop ▸ ha.top⟩
  | startTag n closed pos =>
    obtain ⟨attributes, hattributes, h⟩ := exists_of_bind_eq_ok h
    obtain ⟨uri, -, h⟩ := exists_of_bind_eq_ok h
    have htag : q ⟨⟨uri, n.localName⟩, attributes, a.declarations,
        a.scope.extend a.declarations, pos⟩ := hmade _ a.attributes hattributes
    have hwaiting : EveryTag q { a with declarations := [], attributes := [] } :=
      ⟨ha.frames, ha.top⟩
    cases closed with
    | true => exact Except.ok.inj h ▸ hwaiting.push (everyTag_element htag (by simp))
    | false =>
      refine Except.ok.inj h ▸ ⟨?_, ha.top⟩
      intro f hf
      rcases List.mem_cons.mp hf with rfl | hf
      · exact ⟨htag, by simp⟩
      · exact ha.frames f hf
  | closeTag n pos => exact ha.closeTag h
  | text t | comment t | instruction target t =>
    refine Except.ok.inj h ▸ ha.push ?_
    intro depth outer p hp
    simp [Node.placed] at hp

/-- An attribute that is looked up in a scope gets a namespace that is bound there. -/
theorem isBoundIn_of_attributeName {scope : Scope} {w : WrittenAttribute} {name : ExpandedName}
    (h : attributeName scope w = .ok name) : Attribute.IsBoundIn scope ⟨name, w.value⟩ := by
  intro uri huri
  unfold attributeName at h
  split_ifs at h with hxml hempty
  · obtain rfl := Except.ok.inj h
    exact .inl (Option.some.inj huri).symm
  · obtain rfl := Except.ok.inj h
    cases huri
  · obtain ⟨found, hfound, h⟩ := exists_of_bind_eq_ok h
    obtain rfl := Except.ok.inj h
    obtain rfl : found = some uri := huri
    obtain ⟨b, hb, hpfx, hb'⟩ := exists_mem_of_resolve hfound
    refine .inr ⟨b, hb, ?_, hb'⟩
    rw [hpfx]
    simpa using hempty

/-- So do all attributes of a tag. -/
theorem isBoundIn_of_resolveAttributes {scope : Scope} {waiting : List WrittenAttribute}
    {earlier resolved : List Attribute} (hearlier : ∀ a ∈ earlier, a.IsBoundIn scope)
    (h : resolveAttributes scope earlier waiting = .ok resolved) :
    ∀ a ∈ resolved, a.IsBoundIn scope := by
  induction waiting generalizing earlier with
  | nil => exact Except.ok.inj h ▸ hearlier
  | cons w rest ih =>
    obtain ⟨name, hname, h⟩ := exists_of_bind_eq_ok h
    split_ifs at h
    refine ih ?_ h
    intro a ha
    rcases List.mem_append.mp ha with ha | ha
    · exact hearlier a ha
    · obtain rfl := List.mem_singleton.mp ha
      exact isBoundIn_of_attributeName hname

end Assembly

/-- The attributes in a document that has been read have namespaces that are bound at their
elements. -/
theorem Document.isBoundIn_of_parse {source : String} {d : Document} (h : parse source = .ok d) :
    ∀ p ∈ Node.placedAll 0 [] d.nodes, ∀ a ∈ p.element.tag.attributes,
      a.IsBoundIn p.element.tag.scope := by
  have hempty : Assembly.empty.EveryTag fun tag => ∀ a ∈ tag.attributes, a.IsBoundIn tag.scope :=
    ⟨by simp [Assembly.empty], by simp [Assembly.empty]⟩
  obtain ⟨a, ha, hnodes⟩ := exists_assembly h hempty fun _ _ _ _ ha hstep =>
    ha.step (fun _ _ => Assembly.isBoundIn_of_resolveAttributes (by simp)) hstep
  intro p hp
  rw [hnodes] at hp
  obtain ⟨n, hn, hp⟩ := Node.mem_placedAll.mp hp
  exact ha.top n (List.mem_reverse.mp hn) 0 [] p hp

end Xml

/-- If the bindings of a scope are among declarations that are one-to-one, then the prefix that the
scope gives to a namespace is that of its only binding to it, unless this is the default one. -/
theorem Xml.Scope.prefixOf?_of_mem {scope : Scope} {declared : List Binding}
    (hcovers : Covers declared scope) (hone : OneToOne declared) {b : Binding} (hb : b ∈ scope)
    (hxml : b.uri ≠ Xml.xmlUri) :
    scope.prefixOf? b.uri = if b.pfx.isEmpty then none else some b.pfx := by
  have honly : ∀ c ∈ scope, c.uri = b.uri → c = b := by
    intro c hc huri
    exact hone.eq_of_uri (hcovers c hc (huri ▸ hxml)) (hcovers b hb hxml) huri
  have hfind : scope.find? (fun c => c.uri == b.uri) = some b := by
    cases hfound : scope.find? (fun c => c.uri == b.uri) with
    | none => exact absurd (List.find?_eq_none.mp hfound b hb) (by simp)
    | some c =>
      have huri : c.uri = b.uri := by simpa using List.find?_some hfound
      rw [honly c (List.mem_of_find?_eq_some hfound) huri]
  simp [prefixOf?, hxml, hfind]

namespace PrefixTable.Represents

variable {t : PrefixTable} {declared : List Binding}

/-- The table gives a declared namespace its prefix, unless the namespace begins with a brace. -/
theorem prefixOf?_of_mem (h : t.Represents declared) {b : Binding} (hb : b ∈ declared)
    (hbare : ¬BeginsWithBrace b.uri) : t.prefixOf? b.uri = some b.pfx := by
  rw [prefixOf?_of_bare hbare]
  exact h.ownerOf?_iff.mpr hb

/-- The table has no prefix for a namespace that is not declared and does not begin with a brace. -/
theorem prefixOf?_of_not_mem (h : t.Represents declared) {uri : String}
    (hnone : ∀ b ∈ declared, b.uri ≠ uri) (hbare : ¬BeginsWithBrace uri) :
    t.prefixOf? uri = none := by
  rw [prefixOf?_of_bare hbare]
  refine Option.eq_none_iff_forall_ne_some.mpr fun pfx hpfx => ?_
  exact hnone _ (h.ownerOf?_iff.mp hpfx) rfl

end PrefixTable.Represents

namespace View

variable {source : String} {v : View}

/-- A binding that holds at an element of a view that has been read gives its namespace the same
prefix in the table and in the scope, but for the empty prefix, which the scope does not give. -/
theorem prefixOf?_of_binding (h : (View.read source).outcome = .ok v) {p : Placed}
    (hp : p ∈ Node.placedAll 0 [] v.document.nodes) {b : Binding} (hb : b ∈ p.element.tag.scope)
    (hxml : b.uri ≠ Xml.xmlUri) (hbare : ¬BeginsWithBrace b.uri) :
    v.prefixes.prefixOf? b.uri = some b.pfx ∧
      p.element.prefixOf? b.uri = if b.pfx.isEmpty then none else some b.pfx := by
  obtain ⟨hparse, ht⟩ := represents_of_read h
  have hcovers := covers_of_parse hparse p hp
  exact ⟨ht.prefixOf?_of_mem (hcovers b hb hxml) hbare,
    Xml.Scope.prefixOf?_of_mem hcovers ht.oneToOne hb hxml⟩

/-- The reserved namespace has no prefix in the table of a view. -/
theorem prefixOf?_xmlUri (h : (View.read source).outcome = .ok v) :
    v.prefixes.prefixOf? Xml.xmlUri = none := by
  obtain ⟨-, ht⟩ := represents_of_read h
  refine ht.prefixOf?_of_not_mem (fun b hb => ?_) (by decide)
  obtain ⟨p, -, hb⟩ := List.mem_flatMap.mp hb
  simpa using (List.mem_filter.mp hb).2

/-- **The table and the scopes agree.** Take any element of a view that has been read. If it has no
namespace, or one that is neither the control namespace nor the reserved one and does not begin with
a brace, then it is a call with the prefix that the table gives to its namespace, or with none, and
its shown name, which goes by the bindings at the element, has the same prefix. Likewise the table
and the bindings at the element give the same prefix to the namespace of each of its attributes,
unless it begins with a brace. Only for the reserved namespace the table has no prefix, while the
bindings give `xml`. -/
theorem prefixes_agree (source : String) (v : View) (h : (View.read source).outcome = .ok v)
    (p : Placed) (hp : p ∈ Node.placedAll 0 [] v.document.nodes) :
    ((∀ uri, p.element.name.uri = some uri →
        uri ≠ controlUri ∧ uri ≠ Xml.xmlUri ∧ ¬BeginsWithBrace uri) →
      ∃ pfx, Role.ofName v.prefixes p.element.name = .ok (.call pfx p.element.name.localName) ∧
        (p.element.name.uri = none → pfx = "") ∧
        (∀ uri, p.element.name.uri = some uri → v.prefixes.prefixOf? uri = some pfx) ∧
        p.element.shownName =
          if pfx = "" then p.element.name.localName
          else pfx ++ ":" ++ p.element.name.localName) ∧
    ∀ a ∈ p.element.tag.attributes, ∀ uri, a.name.uri = some uri → ¬BeginsWithBrace uri →
      (uri = Xml.xmlUri →
        v.prefixes.prefixOf? uri = none ∧ p.element.prefixOf? uri = some "xml") ∧
      (uri ≠ Xml.xmlUri →
        ∃ pfx, v.prefixes.prefixOf? uri = some pfx ∧ p.element.prefixOf? uri = some pfx) := by
  obtain ⟨hparse, ht⟩ := represents_of_read h
  constructor
  · intro hname
    cases huri : p.element.name.uri with
    | none =>
      refine ⟨"", by simp [Role.ofName, huri], fun _ => rfl, by simp, ?_⟩
      simp [Xml.Element.shownName, huri]
    | some uri =>
      obtain ⟨hcontrol, hxml, hbare⟩ := hname uri huri
      obtain ⟨pfx, pos, hresolve⟩ := (Xml.Document.resolved_of_parse hparse p hp).name
      rw [show p.element.tag.name.uri = some uri from huri] at hresolve
      obtain ⟨b, hb, -, rfl⟩ := Xml.Assembly.exists_mem_of_resolve hresolve
      obtain ⟨htable, hscope⟩ := prefixOf?_of_binding h hp hb hxml hbare
      refine ⟨b.pfx, ?_, by simp, by simpa using htable, ?_⟩
      · exact Role.ofName_of_bare ht huri hbare hcontrol (covers_of_parse hparse p hp b hb hxml)
      · rw [Xml.Element.shownName, huri, Option.bind_some, hscope]
        by_cases hempty : b.pfx = ""
        · simp [hempty]
        · have hsome : b.pfx.isEmpty = false := by simpa using hempty
          rw [hsome, if_neg hempty]
          rfl
  · intro a ha uri huri hbare
    constructor
    · rintro rfl
      exact ⟨prefixOf?_xmlUri h, by simp [Xml.Element.prefixOf?, Xml.Scope.prefixOf?]⟩
    · intro hxml
      rcases Xml.Document.isBoundIn_of_parse hparse p hp a ha uri huri with
        hreserved | ⟨b, hb, hpfx, rfl⟩
      · exact absurd hreserved hxml
      · obtain ⟨htable, hscope⟩ := prefixOf?_of_binding h hp hb hxml hbare
        exact ⟨b.pfx, htable, by simpa [hpfx] using hscope⟩

/-- A view with a default namespace, in which an element with a prefix has an attribute with the
same prefix and one in the reserved namespace. -/
private def mixed : String :=
  "<a xmlns=\"d\" xmlns:x=\"u\"><x:b x:k=\"1\" xml:lang=\"en\"><c/></x:b></a>"

/-- In the view the prefix of the element and that of its attribute are found either way. -/
theorem prefixes_agree_mixed :
    ∃ v p, (View.read mixed).outcome = .ok v ∧ p ∈ Node.placedAll 0 [] v.document.nodes ∧
      p.element.name = ⟨some "u", "b"⟩ ∧
      p.element.tag.attributes = [⟨⟨some "u", "k"⟩, "1"⟩, ⟨⟨some Xml.xmlUri, "lang"⟩, "en"⟩] ∧
      (∃ pfx, Role.ofName v.prefixes p.element.name = .ok (.call pfx "b") ∧
        p.element.shownName = if pfx = "" then "b" else pfx ++ ":" ++ "b") ∧
      (∃ pfx, v.prefixes.prefixOf? "u" = some pfx ∧ p.element.prefixOf? "u" = some pfx) ∧
      v.prefixes.prefixOf? Xml.xmlUri = none ∧ p.element.prefixOf? Xml.xmlUri = some "xml" := by
  have hnames : (View.read mixed).outcome.toOption.map (fun v =>
        (Node.placedAll 0 [] v.document.nodes).map fun p =>
          (p.element.name, p.element.tag.attributes)) =
      some [(⟨some "d", "a"⟩, []),
        (⟨some "u", "b"⟩, [⟨⟨some "u", "k"⟩, "1"⟩, ⟨⟨some Xml.xmlUri, "lang"⟩, "en"⟩]),
        (⟨some "d", "c"⟩, [])] := by
    decide +kernel
  obtain ⟨v, hread, hv⟩ := Option.map_eq_some_iff.mp hnames
  have hread := eq_ok_of_toOption hread
  obtain ⟨p, hp, heq⟩ := List.mem_map.mp (hv ▸ List.mem_cons_of_mem _ List.mem_cons_self)
  obtain ⟨hname, hattributes⟩ := Prod.mk.inj heq
  obtain ⟨hcall, hattr⟩ := prefixes_agree mixed v hread p hp
  obtain ⟨pfx, hrole, -, -, hshown⟩ := hcall (by
    rw [hname]
    rintro uri ⟨⟩
    decide)
  have hkey := hattr ⟨⟨some "u", "k"⟩, "1"⟩ (by simp [hattributes]) "u" rfl (by decide)
  have hlang := hattr ⟨⟨some Xml.xmlUri, "lang"⟩, "en"⟩ (by simp [hattributes]) Xml.xmlUri rfl
    (by decide)
  refine ⟨v, p, hread, hp, hname, hattributes, ⟨pfx, ?_, ?_⟩, hkey.2 (by decide), hlang.1 rfl⟩
  · rw [hrole, hname]
  · rw [hshown, hname]

end View

end GroovyViews
