import GroovyViews.Proofs.OneToOne
import GroovyViews.Proofs.Scoping
import GroovyViews.View

/-!
# The declarations of a document

The table of a document is made from the bindings in scope at each element that are not in scope
around it. Nothing is lost by this and nothing is added: the bindings that are left out are in the
table already, because an element comes after everything around it. The table is therefore the one
that the declarations give as they are written, one after the other, and also the one that all
bindings in scope give if they are taken over and over again at each element.
-/

namespace GroovyViews

open Xml (Binding Node Placed Scope)

/-- The declarations of an element as they are written, without the reserved namespace. -/
def Xml.Placed.declared (p : Placed) : List Binding :=
  p.element.tag.declarations.filter fun b => b.uri ≠ Xml.xmlUri

/-- The bindings that hold at an element, inherited or not, without the reserved namespace. -/
def Xml.Placed.inScope (p : Placed) : List Binding :=
  p.element.tag.scope.filter fun b => b.uri ≠ Xml.xmlUri

/-- The declarations of a document, element by element in document order. -/
def Xml.Document.declared (d : Xml.Document) : List Binding :=
  (Node.placedAll 0 [] d.nodes).flatMap Placed.declared

/-- Everything in a scope has been declared, apart from the reserved namespace. -/
def Covers (declared : List Binding) (scope : Scope) : Prop :=
  ∀ b ∈ scope, b.uri ≠ Xml.xmlUri → b ∈ declared

/-- What an element introduces is what it declares and is not in scope around it. -/
theorem Xml.Placed.introduced_eq {p : Placed} (h : p.element.tag.Resolved p.outer) :
    p.introduced = p.declared.filter fun b => !p.outer.contains b := by
  have hinherited : (p.outer.filter fun b => p.element.tag.declarations.all fun o =>
      o.pfx ≠ b.pfx).filter (fun b => b.uri ≠ xmlUri && !p.outer.contains b) = [] := by
    refine List.filter_eq_nil_iff.mpr fun b hb => ?_
    simp [(List.mem_filter.mp hb).1]
  rw [introduced, h.scope, Scope.extend, List.filter_append, hinherited, List.append_nil, declared,
    List.filter_filter]
  simp only [Bool.and_comm]

/-- Declarations that cover the scope around an element and hold its own cover its scope. -/
theorem Covers.scope {declared : List Binding} {p : Placed} (h : Covers declared p.outer)
    (hown : p.declared ⊆ declared) (hp : p.element.tag.Resolved p.outer) :
    Covers declared p.element.tag.scope := by
  intro b hb huri
  rw [hp.scope, Scope.extend] at hb
  rcases List.mem_append.mp hb with hb | hb
  · exact hown (List.mem_filter.mpr ⟨hb, by simpa using huri⟩)
  · exact h b (List.mem_filter.mp hb).1 huri

/-- More declarations cover more. -/
theorem Covers.append {declared : List Binding} {scope : Scope} (h : Covers declared scope)
    (more : List Binding) : Covers (declared ++ more) scope :=
  fun b hb huri => List.mem_append_left _ (h b hb huri)

/-- What an element introduces can be told from these bindings and those around it. -/
structure Xml.Placed.GivenBy (p : Placed) (bindings : List Binding) : Prop where
  /-- What is not in scope around the element is introduced by it. -/
  introduced : p.introduced = bindings.filter fun b => !p.outer.contains b
  /-- The reserved namespace is left out. -/
  unreserved : ∀ b ∈ bindings, b.uri ≠ Xml.xmlUri
  /-- Together with what covers the scope around the element they cover its own. -/
  covers : ∀ {earlier}, Covers earlier p.outer → Covers (earlier ++ bindings) p.element.tag.scope

/-- What an element introduces can be told from its declarations. -/
theorem Xml.Placed.givenBy_declared {p : Placed} (h : p.element.tag.Resolved p.outer) :
    p.GivenBy p.declared where
  introduced := introduced_eq h
  unreserved b hb := by simpa using (List.mem_filter.mp hb).2
  covers houter := (houter.append _).scope (List.subset_append_right _ _) h

/-- What an element introduces can be told from all that holds at it. -/
theorem Xml.Placed.givenBy_inScope (p : Placed) : p.GivenBy p.inScope where
  introduced := by
    rw [introduced, inScope, List.filter_filter]
    simp only [Bool.and_comm]
  unreserved b hb := by simpa using (List.mem_filter.mp hb).2
  covers _ b hb huri :=
    List.mem_append_right _ (List.mem_filter.mpr ⟨hb, by simpa using huri⟩)

mutual

/-- The declarations of its elements cover every scope in a node. -/
theorem covers_placed {declared : List Binding} (depth : Nat) (outer : Scope) : ∀ n : Node,
    (∀ p ∈ n.placed depth outer, p.element.tag.Resolved p.outer) →
    (∀ p ∈ n.placed depth outer, p.declared ⊆ declared) → Covers declared outer →
    ∀ p ∈ n.placed depth outer, Covers declared p.element.tag.scope
  | .element tag content, hresolved, hdeclared, houter => by
    rw [Node.placed] at hresolved hdeclared ⊢
    have htag : Covers declared tag.scope :=
      houter.scope (hdeclared _ List.mem_cons_self) (hresolved _ List.mem_cons_self)
    intro p hp
    rcases List.mem_cons.mp hp with rfl | hp
    · exact htag
    · exact covers_placedAll (depth + 1) tag.scope content
        (fun p hp => hresolved p (List.mem_cons_of_mem _ hp))
        (fun p hp => hdeclared p (List.mem_cons_of_mem _ hp)) htag p hp
  | .text _, _, _, _ | .comment _, _, _, _ | .instruction _ _, _, _, _ => by simp [Node.placed]

/-- The declarations of their elements cover every scope in several nodes. -/
theorem covers_placedAll {declared : List Binding} (depth : Nat) (outer : Scope) :
    ∀ nodes : List Node,
    (∀ p ∈ Node.placedAll depth outer nodes, p.element.tag.Resolved p.outer) →
    (∀ p ∈ Node.placedAll depth outer nodes, p.declared ⊆ declared) → Covers declared outer →
    ∀ p ∈ Node.placedAll depth outer nodes, Covers declared p.element.tag.scope
  | [], _, _, _ => by simp [Node.placedAll]
  | n :: rest, hresolved, hdeclared, houter => by
    rw [Node.placedAll] at hresolved hdeclared ⊢
    intro p hp
    rcases List.mem_append.mp hp with hp | hp
    · exact covers_placed depth outer n (fun p hp => hresolved p (List.mem_append_left _ hp))
        (fun p hp => hdeclared p (List.mem_append_left _ hp)) houter p hp
    · exact covers_placedAll depth outer rest
        (fun p hp => hresolved p (List.mem_append_right _ hp))
        (fun p hp => hdeclared p (List.mem_append_right _ hp)) houter p hp

end

/-- The declarations of a document that has been read cover the scope of each of its elements. -/
theorem covers_of_parse {source : String} {d : Xml.Document}
    (h : Xml.Document.parse source = .ok d) :
    ∀ p ∈ Node.placedAll 0 [] d.nodes, Covers d.declared p.element.tag.scope := by
  refine covers_placedAll 0 [] d.nodes (Xml.Document.resolved_of_parse h) ?_ (by simp [Covers])
  intro p hp b hb
  exact List.mem_flatMap.mpr ⟨p, hp, hb⟩

namespace PrefixTable

variable {t t' : PrefixTable} {earlier later : List Binding}

/-- Notices aside, noting declarations adds them one after the other. -/
theorem outcome_foldlM_note (declared : List Binding) (t : PrefixTable) :
    (declared.foldlM note t).outcome = declared.foldlM add t := by
  induction declared generalizing t with
  | nil => rfl
  | cons b rest ih =>
    have hnote : (note t b).outcome = t.add b := by
      simp only [note, Traced.outcome_bind, Traced.outcome_ofExcept]
      cases t.add b with
      | error err => rfl
      | ok t' => cases t.entries.contains b <;> rfl
    rw [List.foldlM_cons, List.foldlM_cons, Traced.outcome_bind, hnote]
    cases t.add b with
    | error err => rfl
    | ok t' => exact ih t'

namespace Represents

/-- To note a declaration once more changes nothing and goes without a notice. -/
theorem note_of_mem (h : t.Represents earlier) {b : Binding} (hb : b ∈ earlier) :
    t.note b = pure t := by
  have hknown : t.entries.contains b = true := List.contains_iff_mem.mpr (h.mem_iff.mpr hb)
  rw [note, h.add_of_mem hb, hknown]
  rfl

/-- What has been noted in a table is one-to-one with what was in it. -/
theorem of_foldlM_note (h : t.Represents earlier)
    (hfold : (later.foldlM note t).outcome = .ok t') : t'.Represents (earlier ++ later) := by
  rw [outcome_foldlM_note] at hfold
  exact h.of_foldlM hfold

/-- Declarations that are in the table already need not be noted. -/
theorem foldlM_note_filter (h : t.Represents earlier) {keep : Binding → Bool}
    (hskip : ∀ b ∈ later, keep b = false → b ∈ earlier) :
    (later.filter keep).foldlM note t = later.foldlM note t := by
  induction later generalizing t earlier with
  | nil => rfl
  | cons b rest ih =>
    cases hkeep : keep b with
    | false =>
      have hb := hskip b (by simp) hkeep
      rw [List.filter_cons_of_neg (by simp [hkeep]), List.foldlM_cons, h.note_of_mem hb, pure_bind]
      exact ih h fun c hc => hskip c (by simp [hc])
    | true =>
      rw [List.filter_cons_of_pos hkeep, List.foldlM_cons, List.foldlM_cons]
      cases hnote : (t.note b).outcome with
      | error err => rw [Traced.bind_of_error hnote, Traced.bind_of_error hnote]
      | ok next =>
        have hnext : next.Represents (earlier ++ [b]) := h.of_foldlM_note (by simpa using hnote)
        rw [Traced.bind_of_ok hnote, Traced.bind_of_ok hnote]
        rw [ih hnext fun c hc hdrop => List.mem_append_left _ (hskip c (by simp [hc]) hdrop)]

end Represents

/-- Declarations may be noted in two parts, each of them in another form. -/
theorem foldlM_note_append_congr {first first' second second' : List Binding}
    (hfirst : first.foldlM note t = first'.foldlM note t)
    (hsecond : ∀ t', (first'.foldlM note t).outcome = .ok t' →
      second.foldlM note t' = second'.foldlM note t') :
    (first ++ second).foldlM note t = (first' ++ second').foldlM note t := by
  rw [List.foldlM_append, List.foldlM_append, hfirst]
  cases hok : (first'.foldlM note t).outcome with
  | error err => rw [Traced.bind_of_error hok, Traced.bind_of_error hok]
  | ok t' => rw [Traced.bind_of_ok hok, Traced.bind_of_ok hok, hsecond t' hok]

/-- If the table has all that holds around an element, then what the element introduces is noted
like the bindings from which it can be told. -/
theorem foldlM_note_introduced {p : Placed} {bindings : List Binding} (hp : p.GivenBy bindings)
    (ht : t.Represents earlier) (houter : Covers earlier p.outer) :
    p.introduced.foldlM note t = bindings.foldlM note t := by
  rw [hp.introduced]
  refine ht.foldlM_note_filter fun b hb hskip => ?_
  exact houter b (by simpa using hskip) (hp.unreserved b hb)

section

variable {given : Placed → List Binding}

mutual

/-- What the elements of a node introduce is noted like the bindings from which it can be told. Once
an element has been noted, the table has all that holds around its content. -/
theorem foldlM_note_placed (depth : Nat) (outer : Scope) : ∀ (n : Node) {t : PrefixTable}
    {earlier : List Binding}, (∀ p ∈ n.placed depth outer, p.GivenBy (given p)) →
    t.Represents earlier → Covers earlier outer →
    ((n.placed depth outer).flatMap Placed.introduced).foldlM note t =
      ((n.placed depth outer).flatMap given).foldlM note t
  | .element tag content, t, earlier, hgiven, ht, houter => by
    rw [Node.placed] at hgiven ⊢
    have htag := hgiven _ List.mem_cons_self
    refine foldlM_note_append_congr (foldlM_note_introduced htag ht houter) fun t' hfold => ?_
    exact foldlM_note_placedAll (depth + 1) tag.scope content
      (fun p hp => hgiven p (List.mem_cons_of_mem _ hp)) (ht.of_foldlM_note hfold)
      (htag.covers houter)
  | .text _, _, _, _, _, _ | .comment _, _, _, _, _, _ | .instruction _ _, _, _, _, _, _ => rfl

/-- What the elements of several nodes introduce is noted like the bindings from which it can be
told. -/
theorem foldlM_note_placedAll (depth : Nat) (outer : Scope) : ∀ (nodes : List Node)
    {t : PrefixTable} {earlier : List Binding},
    (∀ p ∈ Node.placedAll depth outer nodes, p.GivenBy (given p)) →
    t.Represents earlier → Covers earlier outer →
    ((Node.placedAll depth outer nodes).flatMap Placed.introduced).foldlM note t =
      ((Node.placedAll depth outer nodes).flatMap given).foldlM note t
  | [], _, _, _, _, _ => rfl
  | n :: rest, t, earlier, hgiven, ht, houter => by
    rw [Node.placedAll] at hgiven ⊢
    rw [List.flatMap_append, List.flatMap_append]
    have hn := foldlM_note_placed depth outer n
      (fun p hp => hgiven p (List.mem_append_left _ hp)) ht houter
    refine foldlM_note_append_congr hn fun t' hfold => ?_
    exact foldlM_note_placedAll depth outer rest
      (fun p hp => hgiven p (List.mem_append_right _ hp)) (ht.of_foldlM_note hfold)
      (houter.append _)

end

/-- The bindings from which it can be told what each element introduces are noted like those. -/
theorem foldlM_note_document {d : Xml.Document}
    (h : ∀ p ∈ Node.placedAll 0 [] d.nodes, p.GivenBy (given p)) :
    ((Node.placedAll 0 [] d.nodes).flatMap Placed.introduced).foldlM note empty =
      ((Node.placedAll 0 [] d.nodes).flatMap given).foldlM note empty :=
  foldlM_note_placedAll 0 [] d.nodes h empty_represents (fun b hb => absurd hb (by simp))

end

/-- The table of a document that has been read is made of its declarations. -/
theorem outcome_ofDocument {source : String} {d : Xml.Document}
    (h : Xml.Document.parse source = .ok d) :
    (ofDocument d).outcome = d.declared.foldlM add empty := by
  have hfold := foldlM_note_document fun p hp =>
    Placed.givenBy_declared (Xml.Document.resolved_of_parse h p hp)
  rw [Xml.Document.declared, ← outcome_foldlM_note, ← hfold, ofDocument, Traced.outcome_bind]
  generalize ((Node.placedAll 0 [] d.nodes).flatMap Placed.introduced).foldlM note empty = noted
  cases noted.outcome <;> rfl

/-- **The table of a document.** Let the declarations of a document be those that are written on its
elements, in document order. The document has a table exactly if each prefix is declared for one
namespace and each namespace with one prefix, and the table then lists the declarations in the order
in which they first occur. Otherwise the first declaration that does not fit with the ones before it
decides the error: its prefix has been declared for another namespace, or else its namespace has
been declared with another prefix. -/
theorem outcome_ofDocument_iff (source : String) (d : Xml.Document)
    (h : Xml.Document.parse source = .ok d) :
    (∀ t, (ofDocument d).outcome = .ok t ↔
      OneToOne d.declared ∧ t.entries = d.declared.eraseDups) ∧
    ∀ err, (ofDocument d).outcome = .error err ↔ ∃ earlier b later,
      d.declared = earlier ++ b :: later ∧ OneToOne earlier ∧ Conflicts earlier b err := by
  rw [outcome_ofDocument h]
  exact ⟨fun t => foldlM_add_eq_ok_iff, fun err => foldlM_add_eq_error_iff⟩

/-- A declaration that is repeated further inside does no harm, but a second prefix for the default
namespace of the root is refused. -/
theorem outcome_ofDocument_nested :
    ∃ d, Xml.Document.parse
        "<a xmlns=\"u\" xmlns:p=\"v\"><p:b xmlns:p=\"v\" xmlns:q=\"u\"/></a>" = .ok d ∧
      d.declared = [⟨"", "u"⟩, ⟨"p", "v"⟩, ⟨"p", "v"⟩, ⟨"q", "u"⟩] ∧
      (ofDocument d).outcome = .error (.uriRebound "u" "" "q") := by
  have hdeclared : ((Xml.Document.parse
      "<a xmlns=\"u\" xmlns:p=\"v\"><p:b xmlns:p=\"v\" xmlns:q=\"u\"/></a>").toOption.map
        Xml.Document.declared) = some [⟨"", "u"⟩, ⟨"p", "v"⟩, ⟨"p", "v"⟩, ⟨"q", "u"⟩] := by
    decide +kernel
  obtain ⟨d, hparse, hd⟩ := Option.map_eq_some_iff.mp hdeclared
  have hparse := eq_ok_of_toOption hparse
  refine ⟨d, hparse, hd, ((outcome_ofDocument_iff _ d hparse).2 _).mpr ?_⟩
  refine ⟨[⟨"", "u"⟩, ⟨"p", "v"⟩, ⟨"p", "v"⟩], ⟨"q", "u"⟩, [], hd, by decide, ?_⟩
  exact .uri (by simp) (by simp) (by decide)

/-- The table of a document by a plain pass over all bindings that hold at each of its elements, in
document order. -/
def ofScopes (d : Xml.Document) : Reading PrefixTable := do
  let inScope := (Xml.Node.placedAll 0 [] d.nodes).flatMap Xml.Placed.inScope
  let t ← inScope.foldlM note empty
  .report (.collected t.entries.length d.root.shownName)
  return t

/-- **Inherited bindings may be left out.** For every document, the pass that takes at each element
only the bindings that do not hold around it is equal to the plain pass that takes all of them: it
ends with the same table, in the same order, or with the same error, and it gives the same notices,
the last of which names the root. -/
theorem ofDocument_eq_ofScopes (d : Xml.Document) : ofDocument d = ofScopes d := by
  rw [ofDocument, ofScopes, foldlM_note_document fun p _ => p.givenBy_inScope]

end PrefixTable

end GroovyViews
