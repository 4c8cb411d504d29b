import GroovyViews.Proofs.Agreement
import GroovyViews.Proofs.Opening

/-!
# Keys of attributes

The key of an attribute takes its prefix from a table or else from the bindings at the element. If
the first binding to its namespace were the default one, then neither might have a prefix for it.
This does not happen in a view that has been read: an attribute is written with a prefix, and no
other binding to its namespace is allowed anywhere in the view. So every attribute has a key,
whatever the table is, and a call never fails for want of a prefix.
-/

namespace GroovyViews

open Xml (Node Placed)

namespace View

variable {source : String} {v : View} {p : Placed}

/-- The bindings at an element have a prefix for the namespace of each attribute, and not the empty
one. -/
theorem exists_prefixOf?_of_attribute (h : (View.read source).outcome = .ok v)
    (hp : p ∈ Node.placedAll 0 [] v.document.nodes) {a : Xml.Attribute}
    (ha : a ∈ p.element.tag.attributes) {uri : String} (huri : a.name.uri = some uri) :
    ∃ pfx, p.element.prefixOf? uri = some pfx ∧ pfx ≠ "" := by
  obtain ⟨hparse, ht⟩ := represents_of_read h
  by_cases hxml : uri = Xml.xmlUri
  · exact ⟨"xml", by simp [Xml.Element.prefixOf?, Xml.Scope.prefixOf?, hxml], by decide⟩
  · rcases Xml.Document.isBoundIn_of_parse hparse p hp a ha uri huri with
      hreserved | ⟨b, hb, hpfx, rfl⟩
    · exact absurd hreserved hxml
    · have hscope := Xml.Scope.prefixOf?_of_mem (covers_of_parse hparse p hp) ht.oneToOne hb hxml
      exact ⟨b.pfx, by simpa [Xml.Element.prefixOf?, hpfx] using hscope, hpfx⟩

end View

namespace Writer

variable {w : Writer} {e : Xml.Element}

/-- If the bindings at an element have a prefix for a namespace, then an attribute with this
namespace has a key, in which a prefix of the table comes first. -/
theorem key_of_prefixOf? {name : Xml.ExpandedName} {uri pfx : String} (huri : name.uri = some uri)
    (hpfx : e.prefixOf? uri = some pfx) :
    w.key e name = .ok (.qualified ((w.prefixes.prefixOf? uri).getD pfx) name.localName) := by
  cases htable : w.prefixes.prefixOf? uri with
  | none => simp [key, huri, htable, hpfx]
  | some other => simp [key, huri, htable]

/-- If the bindings at an element have a prefix for the namespace of each attribute, then a call has
its arguments. -/
theorem exists_arguments
    (h : ∀ a ∈ e.tag.attributes, ∀ uri, a.name.uri = some uri → ∃ pfx, e.prefixOf? uri = some pfx) :
    ∃ arguments, w.arguments e = .ok arguments := by
  have hnone : w.strange? e e.tag.attributes = none := by
    refine List.find?_eq_none.mpr fun uri hmem => ?_
    obtain ⟨a, ha, huri⟩ := List.mem_filterMap.mp hmem
    obtain ⟨pfx, hpfx⟩ := h a ha uri huri
    simp [isStrange, hpfx]
  obtain ⟨named, hnamed, -⟩ := exists_mapM_named hnone
  rw [arguments_eq, hnamed]
  exact ⟨_, rfl⟩

/-- **Every attribute has a key.** Take any element of a view that has been read and any writer,
whose table may come from another view or from nowhere. For the namespace of each attribute, if it
has one, the bindings at the element have a prefix that is not empty, and the key of the attribute
has the prefix from the table or else this one. So the statement of a call is always there: it is
never refused for a namespace without a prefix. -/
theorem exists_call_of_read (source : String) (v : View) (h : (View.read source).outcome = .ok v)
    (p : Placed) (hp : p ∈ Node.placedAll 0 [] v.document.nodes) (w : Writer) :
    (∀ a ∈ p.element.tag.attributes, ∀ uri, a.name.uri = some uri →
      ∃ pfx, p.element.prefixOf? uri = some pfx ∧ pfx ≠ "" ∧ w.key p.element a.name =
        .ok (.qualified ((w.prefixes.prefixOf? uri).getD pfx) a.name.localName)) ∧
    ∀ qualifier tag, ∃ arguments, w.statement p.element (.call qualifier tag) =
      pure (some (.call qualifier tag arguments)) := by
  have hbound : ∀ a ∈ p.element.tag.attributes, ∀ uri, a.name.uri = some uri →
      ∃ pfx, p.element.prefixOf? uri = some pfx ∧ pfx ≠ "" :=
    fun a ha uri huri => View.exists_prefixOf?_of_attribute h hp ha huri
  refine ⟨fun a ha uri huri => ?_, fun qualifier tag => ?_⟩
  · obtain ⟨pfx, hpfx, hne⟩ := hbound a ha uri huri
    exact ⟨pfx, hpfx, hne, key_of_prefixOf? huri hpfx⟩
  · obtain ⟨arguments, harguments⟩ := exists_arguments (w := w) fun a ha uri huri =>
      (hbound a ha uri huri).imp fun _ hpfx => hpfx.1
    refine ⟨arguments, ?_⟩
    rw [statement, harguments]
    rfl

/-- A view in which an element has attributes in a namespace of the root, in one of its own and in
the reserved one, inside of a default namespace. -/
private def guest : String :=
  "<a xmlns=\"d\" xmlns:x=\"u\"><b x:k=\"1\" y:l=\"2\" xml:lang=\"en\" xmlns:y=\"v\"/></a>"

/-- Another view, with a prefix of its own for one of the namespaces and none for the others. -/
private def host : String := "<m:c xmlns:m=\"u\"/>"

/-- With the table of the other view, the keys of the attributes have its prefix where it has one,
and else that of the element, which is a call. -/
theorem exists_call_of_read_guest :
    ∃ v v' p, (View.read guest).outcome = .ok v ∧ (View.read host).outcome = .ok v' ∧
      p ∈ Node.placedAll 0 [] v.document.nodes ∧
      p.element.tag.attributes = [⟨⟨some "u", "k"⟩, "1"⟩, ⟨⟨some "v", "l"⟩, "2"⟩,
        ⟨⟨some Xml.xmlUri, "lang"⟩, "en"⟩] ∧
      v'.prefixes.entries = [⟨"m", "u"⟩] ∧
      (∃ pfx, p.element.prefixOf? "v" = some pfx ∧ pfx ≠ "" ∧
        key ⟨v'.prefixes, .default⟩ p.element ⟨some "v", "l"⟩ =
          .ok (.qualified ((v'.prefixes.prefixOf? "v").getD pfx) "l")) ∧
      ∃ arguments, statement ⟨v'.prefixes, .default⟩ p.element (.call "" "b") =
        pure (some (.call "" "b" arguments)) := by
  have hguest : (View.read guest).outcome.toOption.map (fun v =>
        (Node.placedAll 0 [] v.document.nodes).map fun p => p.element.tag.attributes) =
      some [[], [⟨⟨some "u", "k"⟩, "1"⟩, ⟨⟨some "v", "l"⟩, "2"⟩,
        ⟨⟨some Xml.xmlUri, "lang"⟩, "en"⟩]] := by
    decide +kernel
  have hhost : (View.read host).outcome.toOption.map (fun v => v.prefixes.entries) =
      some [⟨"m", "u"⟩] := by
    decide +kernel
  obtain ⟨v, hread, hv⟩ := Option.map_eq_some_iff.mp hguest
  obtain ⟨v', hread', hentries⟩ := Option.map_eq_some_iff.mp hhost
  have hread := eq_ok_of_toOption hread
  obtain ⟨p, hp, hattributes⟩ := List.mem_map.mp (hv ▸ List.mem_cons_of_mem _ List.mem_cons_self)
  obtain ⟨hkeys, hcall⟩ := exists_call_of_read guest v hread p hp ⟨v'.prefixes, .default⟩
  have hkey := hkeys ⟨⟨some "v", "l"⟩, "2"⟩ (by simp [hattributes]) "v" rfl
  exact ⟨v, v', p, hread, eq_ok_of_toOption hread', hp, hattributes, hentries, hkey, hcall "" "b"⟩

end Writer

end GroovyViews
