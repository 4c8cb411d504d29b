import GroovyViews.Proofs.Account
import GroovyViews.Proofs.Ending
import GroovyViews.Proofs.Scoping

/-!
# Trees of the same shape

Two trees match if they have the same shape and the same texts and their start tags are related, one
by one. Writers that find the same at related elements write the same for trees that match, and
either both of them succeed or both of them fail. What they fail with may differ, and so may their
notices.
-/

namespace GroovyViews

namespace Xml

/-- The same nodes but for start tags, which are related one by one. -/
inductive Node.Matches (r : StartTag → StartTag → Prop) : List Node → List Node → Prop where
  /-- There are no nodes. -/
  | nil : Matches r [] []
  /-- Elements match if their start tags are related and their contents match. -/
  | element {tag tag' : StartTag} {content content' rest rest' : List Node} :
      r tag tag' → Matches r content content' → Matches r rest rest' →
      Matches r (.element tag content :: rest) (.element tag' content' :: rest')
  /-- All other nodes are the same. -/
  | other {n : Node} {rest rest' : List Node} :
      n.element? = none → Matches r rest rest' → Matches r (n :: rest) (n :: rest')

/-- The same element but for start tags, which are related one by one. -/
structure Element.Matches (r : StartTag → StartTag → Prop) (e e' : Element) : Prop where
  /-- The start tags of the elements themselves are related. -/
  tag : r e.tag e'.tag
  /-- The contents match. -/
  content : Node.Matches r e.content e'.content

/-- The same document but for start tags, which are related one by one. -/
structure Document.Matches (r : StartTag → StartTag → Prop) (d d' : Document) : Prop where
  /-- What comes before the roots matches. -/
  before : Node.Matches r d.before d'.before
  /-- The roots match. -/
  root : d.root.Matches r d'.root
  /-- What comes after the roots matches. -/
  after : Node.Matches r d.after d'.after

namespace Node

variable {r : StartTag → StartTag → Prop}

section Decidable

variable [DecidableRel r]

mutual

/-- A test whether two nodes match. -/
def isMatch (r : StartTag → StartTag → Prop) [DecidableRel r] : Node → Node → Bool
  | element tag content, element tag' content' =>
    decide (r tag tag') && isMatchAll r content content'
  | text t, text t' | comment t, comment t' => t = t'
  | instruction target t, instruction target' t' => target = target' && t = t'
  | _, _ => false

/-- A test whether two lists of nodes match. -/
def isMatchAll (r : StartTag → StartTag → Prop) [DecidableRel r] : List Node → List Node → Bool
  | [], [] => true
  | n :: rest, n' :: rest' => isMatch r n n' && isMatchAll r rest rest'
  | _, _ => false

end

mutual

/-- Nodes that pass the test match, also with nodes after them that do. -/
theorem matches_of_isMatch : ∀ (n n' : Node) {rest rest' : List Node}, isMatch r n n' = true →
    Matches r rest rest' → Matches r (n :: rest) (n' :: rest')
  | element tag content, element tag' content', _, _, h, hrest => by
    simp only [isMatch, Bool.and_eq_true, decide_eq_true_eq] at h
    exact .element h.1 (matches_of_isMatchAll content content' h.2) hrest
  | element _ _, text _, _, _, h, _ | element _ _, comment _, _, _, h, _
  | element _ _, instruction _ _, _, _, h, _ => by simp [isMatch] at h
  | text t, n', _, _, h, hrest | comment t, n', _, _, h, hrest => by
    cases n' <;> simp only [isMatch, decide_eq_true_eq, Bool.false_eq_true] at h
    exact h ▸ .other rfl hrest
  | instruction target t, n', _, _, h, hrest => by
    cases n' <;> simp only [isMatch, Bool.and_eq_true, decide_eq_true_eq, Bool.false_eq_true] at h
    exact h.1 ▸ h.2 ▸ .other rfl hrest

/-- Lists of nodes that pass the test match. -/
theorem matches_of_isMatchAll : ∀ nodes nodes' : List Node, isMatchAll r nodes nodes' = true →
    Matches r nodes nodes'
  | [], [], _ => .nil
  | n :: rest, n' :: rest', h => by
    simp only [isMatchAll, Bool.and_eq_true] at h
    exact matches_of_isMatch n n' h.1 (matches_of_isMatchAll rest rest' h.2)
  | [], _ :: _, h | _ :: _, [], h => by simp [isMatchAll] at h

end

/-- Lists of nodes match exactly if they pass the test. -/
theorem matches_iff {nodes nodes' : List Node} :
    Matches r nodes nodes' ↔ isMatchAll r nodes nodes' = true := by
  constructor
  · intro h
    induction h with
    | nil => rfl
    | element htag _ _ ihcontent ihrest => simp [isMatchAll, isMatch, htag, ihcontent, ihrest]
    | @other n _ _ hn _ ih => cases n <;> simp_all [isMatchAll, isMatch, element?]
  · exact matches_of_isMatchAll nodes nodes'

instance (nodes nodes' : List Node) : Decidable (Matches r nodes nodes') :=
  decidable_of_iff _ matches_iff.symm

end Decidable

namespace Matches

variable {nodes nodes' : List Node}

/-- Matching nodes followed by matching nodes match. -/
theorem append {more more' : List Node} (h : Matches r nodes nodes')
    (hmore : Matches r more more') : Matches r (nodes ++ more) (nodes' ++ more') := by
  induction h with
  | nil => exact hmore
  | element htag hcontent _ _ ih => exact .element htag hcontent ih
  | other hn _ ih => exact .other hn ih

/-- Matching nodes have the same text before the first element. -/
theorem leadingText (h : Matches r nodes nodes') :
    Node.leadingText nodes' = Node.leadingText nodes := by
  induction h with
  | nil | element => rfl
  | @other n _ _ hn _ ih => cases n <;> simp_all [Node.leadingText, element?]

/-- The elements among matching nodes match one by one. -/
theorem elements (h : Matches r nodes nodes') :
    List.Forall₂ (Element.Matches r) (nodes.filterMap element?) (nodes'.filterMap element?) := by
  induction h with
  | nil => exact .nil
  | element htag hcontent _ _ ih => exact .cons ⟨htag, hcontent⟩ ih
  | other hn _ ih => simpa [hn] using ih

/-- A relation between start tags may be replaced by another one if it implies that one wherever it
is needed. -/
theorem imp {r' : StartTag → StartTag → Prop} (h : Matches r nodes nodes') (depth : Nat)
    (outer : Scope) (himp : ∀ p ∈ placedAll depth outer nodes, ∀ tag',
      r p.element.tag tag' → r' p.element.tag tag') : Matches r' nodes nodes' := by
  induction h generalizing depth outer with
  | nil => exact .nil
  | @element tag tag' content content' rest rest' htag _ _ ihcontent ihrest =>
    simp only [placedAll, placed, List.cons_append, List.forall_mem_cons,
      List.forall_mem_append] at himp
    obtain ⟨himptag, himpcontent, himprest⟩ := himp
    exact .element (himptag _ htag) (ihcontent _ _ himpcontent) (ihrest _ _ himprest)
  | other hn _ ih =>
    simp only [placedAll, List.forall_mem_append] at himp
    exact .other hn (ih _ _ himp.2)

end Matches

end Node

namespace Element.Matches

variable {r : StartTag → StartTag → Prop} {e e' : Element}

/-- The child elements of matching elements match one by one. -/
theorem children (h : e.Matches r e') :
    List.Forall₂ (Element.Matches r) e.children e'.children :=
  h.content.elements

/-- If one of two matching elements has child elements, then so has the other. -/
theorem hasChildren (h : e.Matches r e') : e'.hasChildren = e.hasChildren := by
  have hchildren := h.children
  unfold Element.hasChildren
  generalize e.children = children at hchildren
  generalize e'.children = children' at hchildren
  cases hchildren <;> rfl

/-- Matching elements have the same text. -/
theorem text? (h : e.Matches r e') : e'.text? = e.text? := by
  simp only [Element.text?, h.content.leadingText]

end Element.Matches

namespace Document.Matches

variable {r : StartTag → StartTag → Prop} {d d' : Document}

instance [DecidableRel r] : Decidable (d.Matches r d') :=
  decidable_of_iff (Node.Matches r d.before d'.before ∧
      (r d.root.tag d'.root.tag ∧ Node.Matches r d.root.content d'.root.content) ∧
      Node.Matches r d.after d'.after)
    ⟨fun h => ⟨h.1, ⟨h.2.1.1, h.2.1.2⟩, h.2.2⟩,
      fun h => ⟨h.before, ⟨h.root.tag, h.root.content⟩, h.after⟩⟩

/-- The nodes of matching documents match. -/
theorem nodes (h : d.Matches r d') : Node.Matches r d.nodes d'.nodes :=
  h.before.append (.element h.root.tag h.root.content h.after)

/-- A relation between start tags may be replaced by another one if it implies that one wherever it
is needed. -/
theorem imp {r' : StartTag → StartTag → Prop} (h : d.Matches r d')
    (himp : ∀ p ∈ Node.placedAll 0 [] d.nodes, ∀ tag',
      r p.element.tag tag' → r' p.element.tag tag') : d.Matches r' d' := by
  have hpart : ∀ part ⊆ d.nodes, ∀ p ∈ Node.placedAll 0 [] part, ∀ tag',
      r p.element.tag tag' → r' p.element.tag tag' := by
    intro part hsub p hp
    obtain ⟨n, hn, hp⟩ := Node.mem_placedAll.mp hp
    exact himp p (Node.mem_placedAll.mpr ⟨n, hsub hn, hp⟩)
  have hroot := hpart [d.root.node] (by simp [Document.nodes])
  simp only [Node.placedAll, Element.node, Node.placed, List.append_nil,
    List.forall_mem_cons] at hroot
  exact ⟨h.before.imp 0 [] (hpart _ (by simp [Document.nodes])),
    ⟨hroot.1 _ h.root.tag, h.root.content.imp _ _ hroot.2⟩,
    h.after.imp 0 [] (hpart _ (by simp [Document.nodes]))⟩

/-- Matching documents both have no element to start at, or start at elements that match. -/
theorem start? (h : d.Matches r d') (hname : ∀ tag tag', r tag tag' → tag'.name = tag.name) :
    (d.start? = none ∧ d'.start? = none) ∨
    ∃ start start', d.start? = some start ∧ d'.start? = some start' ∧ start.Matches r start' := by
  have hwrapper : View.isWrapper d'.root = View.isWrapper d.root := by
    simp only [View.isWrapper, Element.name, hname _ _ h.root.tag]
  have hchildren := h.root.children
  unfold Document.start?
  generalize d.root.children = children at hchildren
  generalize d'.root.children = children' at hchildren
  rw [hwrapper]
  split
  · cases hchildren with
    | nil => exact .inl ⟨rfl, rfl⟩
    | cons hfirst _ => exact .inr ⟨_, _, rfl, rfl, hfirst⟩
  · exact .inr ⟨_, _, rfl, rfl, h.root⟩

end Document.Matches

end Xml

namespace Writer

variable {w w' : Writer}

/-- Elements at which two writers find the same are opened in parallel. -/
theorem Agrees.opening {e e' : Xml.Element}
    (h : w.Agrees w' Xml.Element.attr? Xml.Element.attr? e e') (indent : Nat) :
    Emission.Alike (fun _ _ => True) (w.opening indent e) (w'.opening indent e') := by
  have hcomplaint := h.isSome_complaint?
  rw [opening_eq_openingBy, opening_eq_openingBy, openingBy, openingBy]
  cases hwrong : w.complaint? Xml.Element.attr? e with
  | some err =>
    obtain ⟨err', herr'⟩ := Option.isSome_iff_exists.mp (hcomplaint.trans (by rw [hwrong]; rfl))
    rw [herr']
    exact ⟨by simp only [Emission.text, Emission.join_text_notices], .error trivial⟩
  | none =>
    have hwrong' : w'.complaint? Xml.Element.attr? e' = none := by
      rw [hwrong] at hcomplaint
      simpa using hcomplaint
    rw [hwrong', h.lineBy?, h.opensBlock]
    refine ⟨?_, .ok _⟩
    simp only [Emission.text, List.map_append, String.join_append, Emission.join_text_notices]

/-- If two writers find the same at all elements that match, then they write nodes that match in
parallel. -/
theorem nodes_of_matches {r : Xml.StartTag → Xml.StartTag → Prop}
    (hagrees : ∀ e e', Xml.Element.Matches r e e' →
      w.Agrees w' Xml.Element.attr? Xml.Element.attr? e e')
    {content content' : List Xml.Node} (h : Xml.Node.Matches r content content') (indent : Nat) :
    Emission.Alike (fun _ _ => True) (w.nodes indent content) (w'.nodes indent content') := by
  induction h generalizing indent with
  | nil => exact .refl (fun _ => trivial) _
  | element htag hcontent _ ihcontent ihrest =>
    refine .bind ?_ fun _ => ihrest indent
    refine .bind ((hagrees _ _ ⟨htag, hcontent⟩).opening indent) fun block => ?_
    exact .bind (ihcontent (indent + 1)) fun _ => .refl (fun _ => trivial) _
  | @other n _ _ hn _ ih =>
    cases n with
    | element tag content => cases hn
    | text _ | comment _ | instruction _ _ => exact ih indent

/-- If two writers find the same at all elements that match, then they write an element in parallel
with one that matches it. -/
theorem element_of_matches {r : Xml.StartTag → Xml.StartTag → Prop}
    (hagrees : ∀ e e', Xml.Element.Matches r e e' →
      w.Agrees w' Xml.Element.attr? Xml.Element.attr? e e')
    {e e' : Xml.Element} (h : e.Matches r e') (indent : Nat) :
    Emission.Alike (fun _ _ => True) (w.element indent e) (w'.element indent e') := by
  have hnodes := nodes_of_matches hagrees (.element h.tag h.content .nil) indent
  simp only [nodes, bind_pure_unit] at hnodes
  exact hnodes

end Writer

end GroovyViews
