import GroovyViews.Proofs.Ending
import GroovyViews.Proofs.Resolution

/-!
# Views that are converted

A conversion that succeeds has read a document, whose declarations are one-to-one, and has found
nothing wrong with any element from its start element on. Its text is the preamble, with a line for
each declared prefix, and what the visits of the walk write.
-/

namespace GroovyViews

open Xml (Node Placed)

/-- A text can be told from its bytes. -/
theorem Text.bytes_inj {s t : String} : Text.bytes s = Text.bytes t ↔ s = t := by
  refine ⟨fun h => ?_, fun h => by rw [h]⟩
  exact String.toByteArray_inj.mp (ByteArray.ext (Array.toList_inj.mp h))

namespace Xml.Node

mutual

/-- The elements of a node are the same wherever it stands. -/
theorem map_element_placed (depth depth' : Nat) (outer outer' : Scope) : ∀ n : Node,
    (n.placed depth outer).map Placed.element = (n.placed depth' outer').map Placed.element
  | element tag content => by
    simp [placed, map_element_placedAll (depth + 1) (depth' + 1) tag.scope tag.scope content]
  | text _ | comment _ | instruction _ _ => rfl

/-- The elements of several nodes are the same wherever they stand. -/
theorem map_element_placedAll (depth depth' : Nat) (outer outer' : Scope) : ∀ nodes : List Node,
    (placedAll depth outer nodes).map Placed.element =
      (placedAll depth' outer' nodes).map Placed.element
  | [] => rfl
  | n :: rest => by
    simp [placedAll, map_element_placed depth depth' outer outer' n,
      map_element_placedAll depth depth' outer outer' rest]

end

end Xml.Node

/-- The element to start at is the root or one of its child elements. -/
theorem Xml.Document.start?_cases {d : Xml.Document} {start : Xml.Element}
    (h : d.start? = some start) : start = d.root ∨ start ∈ d.root.children := by
  unfold start? at h
  split at h
  · exact .inr (List.mem_of_head? h)
  · exact .inl (Option.some.inj h).symm

/-- Every element from the start element on is one of the document. -/
theorem Xml.Document.exists_placed {d : Xml.Document} {start : Xml.Element}
    (h : d.start? = some start) {s : Xml.Site} (hs : s ∈ start.sites) :
    ∃ p ∈ Node.placedAll 0 [] d.nodes, p.element = s.element := by
  have hroot : ∀ p ∈ d.root.node.placed 0 [], p ∈ Node.placedAll 0 [] d.nodes := fun p hp =>
    Node.mem_placedAll.mpr ⟨d.root.node, by simp [nodes], hp⟩
  have hplaced : s.element ∈ (start.node.placed 0 []).map Placed.element := by
    have hmem := List.mem_map_of_mem (f := fun s => (s.depth, s.element)) hs
    rw [start.map_sites []] at hmem
    obtain ⟨p, hp, heq⟩ := List.mem_map.mp hmem
    exact List.mem_map.mpr ⟨p, hp, (Prod.mk.inj heq).2⟩
  rcases start?_cases h with rfl | hchild
  · obtain ⟨p, hp, heq⟩ := List.mem_map.mp hplaced
    exact ⟨p, hroot p hp, heq⟩
  · rw [Node.map_element_placed 0 1 [] d.root.tag.scope] at hplaced
    obtain ⟨p, hp, heq⟩ := List.mem_map.mp hplaced
    obtain ⟨n, hn, hnode⟩ := List.mem_filterMap.mp hchild
    have hstart : n = start.node := by
      cases n with
      | element tag content => exact congrArg Element.node (Option.some.inj hnode)
      | text _ | comment _ | instruction _ _ => cases hnode
    refine ⟨p, hroot p ?_, heq⟩
    rw [Element.node, Node.placed]
    exact List.mem_cons_of_mem _ (Node.mem_placedAll.mpr ⟨n, hn, hstart ▸ hp⟩)

namespace Writer

/-- The declarations that the preamble binds: all but that of a default namespace. -/
def bound (w : Writer) : List Xml.Binding := w.prefixes.entries.filter fun b => !b.pfx.isEmpty

/-- The preamble has one line for each declaration that it binds, between a heading and two empty
lines. -/
theorem text_preamble (w : Writer) :
    Emission.text w.preamble = "// Namespaces\n" ++
      String.join (w.bound.map fun b => preambleLine b ++ "\n") ++ "\n\n" := by
  have hsteps : String.join ((w.prefixes.entries.map preambleStep).map Step.text) =
      String.join (w.bound.map fun b => preambleLine b ++ "\n") := by
    unfold bound
    induction w.prefixes.entries with
    | nil => rfl
    | cons b rest ih =>
      by_cases hpfx : b.pfx.isEmpty = true
      · simpa [preambleStep, hpfx, Step.text] using ih
      · simpa [preambleStep, hpfx, Step.text, Step.indentation] using ih
  rw [preamble_eq, Emission.text, List.map_cons, List.map_append, String.join_cons,
    String.join_append, hsteps, String.append_assoc]
  rfl

end Writer

namespace Conversion

/-- A conversion that succeeds, with what it has read and what it has written. -/
structure Converts (c : Conversion) (d : Xml.Document) (w : Writer) (start : Xml.Element)
    (out : String) : Prop where
  /-- The text of the view has been read as a document. -/
  parse : Xml.Document.parse c.source = .ok d
  /-- The table is that of its declarations. -/
  table : w.prefixes.Represents d.declared
  /-- The options are those of the conversion. -/
  options : w.options = c.options
  /-- The document is written from this element on. -/
  starts : d.start? = some start
  /-- There is nothing wrong with any element from there on. -/
  clean : ∀ s ∈ start.sites, w.complaint? Xml.Element.attr? s.element = none
  /-- The preamble has been written and then what the visits write. -/
  text : out = Emission.text w.preamble ++ String.join (start.visits.map (w.visitText 0))

variable {c : Conversion} {w : Writer} {start : Xml.Element}

/-- What a conversion starts from comes from its document. -/
theorem exists_of_entry_ok (h : c.entry = .ok (w, start)) :
    ∃ d, Xml.Document.parse c.source = .ok d ∧ (PrefixTable.ofDocument d).outcome = .ok w.prefixes ∧
      w.options = c.options ∧ d.start? = some start := by
  unfold entry at h
  cases hfirst : beginning c.source with
  | error err =>
    rw [hfirst] at h
    cases h
  | ok first =>
    rw [hfirst] at h
    cases h
    unfold beginning at hfirst
    split at hfirst
    · cases hfirst
    · rename_i d hparse
      split at hfirst
      · cases hfirst
      · rename_i table htable
        split at hfirst
        · cases hfirst
        · rename_i start' hstart
          cases hfirst
          exact ⟨d, hparse, htable, rfl, hstart⟩

/-- A conversion that has a text has succeeded. -/
theorem exists_converts {out : String} (h : c.text = .ok out) :
    ∃ d w start, c.entry = .ok (w, start) ∧ c.Converts d w start out := by
  obtain ⟨hok, rfl⟩ : c.emission.outcome = .ok () ∧ c.emission.text = out := by
    unfold text at h
    split at h
    · rename_i hok
      exact ⟨hok, Except.ok.inj h⟩
    · cases h
  have hending := c.ending_eq
  rw [Sink.run_unlimited, SinkRun.ending, ending] at hending
  cases hentry : c.entry with
  | error err => simp [hentry, hok] at hending
  | ok entry =>
    obtain ⟨w, start⟩ := entry
    rw [hentry] at hending
    rcases w.clean_or_exists_first Xml.Element.attr? start with
      hclean | ⟨before, s, after, err, hvisits, hclean, herr⟩
    · obtain ⟨d, hparse, htable, hoptions, hstart⟩ := exists_of_entry_ok hentry
      rw [PrefixTable.outcome_ofDocument hparse] at htable
      simp only [Writer.ending_of_clean hclean, Ending.mk.injEq] at hending
      exact ⟨d, w, start, rfl, hparse, PrefixTable.empty_represents.of_foldlM htable, hoptions,
        hstart, hclean, Text.bytes_inj.mp hending.2⟩
    · simp [Writer.ending_of_complaint hvisits hclean herr, hok] at hending

end Conversion

end GroovyViews
