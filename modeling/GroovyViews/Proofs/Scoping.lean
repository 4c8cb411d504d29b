import GroovyViews.Proofs.Sequence
import GroovyViews.Xml.Document
import Mathlib.Tactic.SplitIfs

/-!
# Scopes in a document

Wherever an element stands in a document that has been read, its bindings are its own declarations
and those around it, and its name has been looked up among them. This holds for the parts of an
assembly at every moment of the reading, and is kept by every event.
-/

namespace GroovyViews.Xml

/-- A start tag whose names have been looked up in its own scope, with bindings from outside. -/
structure StartTag.Resolved (outer : Scope) (tag : StartTag) : Prop where
  /-- Its own declarations come before the bindings from outside. -/
  scope : tag.scope = outer.extend tag.declarations
  /-- Its name was written with a prefix of the scope. -/
  name : ∃ pfx pos, Assembly.resolve tag.scope pfx pos = .ok tag.name.uri

namespace Node

/-- A node is resolved if the start tags of all elements in it are. -/
def Resolved (outer : Scope) (n : Node) : Prop :=
  ∀ depth, ∀ p ∈ n.placed depth outer, p.element.tag.Resolved p.outer

/-- The elements of several nodes are the elements of each of them. -/
theorem mem_placedAll {depth : Nat} {outer : Scope} {nodes : List Node} {p : Placed} :
    p ∈ placedAll depth outer nodes ↔ ∃ n ∈ nodes, p ∈ n.placed depth outer := by
  induction nodes with
  | nil => simp [placedAll]
  | cons n nodes ih => simp [placedAll, ih]

/-- An element is resolved if its start tag is, and in its scope its content. -/
theorem resolved_element {outer : Scope} {tag : StartTag} {content : List Node}
    (htag : tag.Resolved outer) (hcontent : ∀ n ∈ content, n.Resolved tag.scope) :
    (element tag content).Resolved outer := by
  intro depth p hp
  rw [placed, List.mem_cons] at hp
  rcases hp with rfl | hp
  · exact htag
  · obtain ⟨n, hn, hp⟩ := mem_placedAll.mp hp
    exact hcontent n hn (depth + 1) p hp

end Node

namespace Assembly

/-- The bindings inside of the innermost of some open elements. -/
def scopeOf : List Frame → Scope
  | [] => []
  | f :: _ => f.tag.scope

/-- The open elements are resolved, with what is in them so far. -/
def FramesResolved : List Frame → Prop
  | [] => True
  | f :: rest => f.tag.Resolved (scopeOf rest) ∧ (∀ n ∈ f.content, n.Resolved f.tag.scope) ∧
      FramesResolved rest

/-- Everything in an assembly is resolved. -/
structure Resolved (a : Assembly) : Prop where
  /-- The open elements are. -/
  frames : FramesResolved a.frames
  /-- The nodes outside of all elements are. -/
  top : ∀ n ∈ a.top, n.Resolved []

variable {a b : Assembly}

/-- The scope of an assembly is that of its open elements. -/
theorem scope_eq (a : Assembly) : a.scope = scopeOf a.frames := by
  unfold scope scopeOf
  cases a.frames <;> rfl

/-- What is among some nodes once another one has been put after them is one of them, that other
one, or a text that has been joined to it. -/
theorem mem_append_cases {n m : Node} {nodes : List Node} (h : m ∈ append n nodes) :
    m = n ∨ m ∈ nodes ∨ ∃ t, m = .text t := by
  unfold append at h
  split at h
  · rcases List.mem_cons.mp h with rfl | h
    · exact .inr (.inr ⟨_, rfl⟩)
    · exact .inr (.inl (by simp [h]))
  · rcases List.mem_cons.mp h with rfl | h
    · exact .inl rfl
    · exact .inr (.inl h)

/-- Joining a text to another one leaves the other nodes as they are. -/
theorem resolved_append {outer : Scope} {n : Node} {nodes : List Node} (hn : n.Resolved outer)
    (hnodes : ∀ m ∈ nodes, m.Resolved outer) : ∀ m ∈ append n nodes, m.Resolved outer := by
  intro m hm
  rcases mem_append_cases hm with rfl | hm | ⟨t, rfl⟩
  · exact hn
  · exact hnodes m hm
  · intro depth p hp
    simp [Node.placed] at hp

/-- A resolved node may be added to the innermost open element. -/
theorem Resolved.push {n : Node} (ha : a.Resolved) (hn : n.Resolved a.scope) :
    (a.push n).Resolved := by
  rw [scope_eq] at hn
  unfold Assembly.push
  cases hframes : a.frames with
  | nil =>
    rw [hframes] at hn
    exact ⟨by simp [FramesResolved], resolved_append hn ha.top⟩
  | cons f rest =>
    have hold := ha.frames
    rw [hframes] at hn hold
    obtain ⟨htag, hcontent, hrest⟩ := hold
    exact ⟨⟨htag, resolved_append hn hcontent, hrest⟩, ha.top⟩

/-- Attributes and declarations wait for their tag and change nothing else. -/
theorem frames_top_of_attr {n : QName} {value : String} {pos : Position}
    (h : a.attr n value pos = .ok b) : b.frames = a.frames ∧ b.top = a.top := by
  unfold attr at h
  dsimp only at h
  split_ifs at h <;> cases h <;> exact ⟨rfl, rfl⟩

/-- The end of a start tag resolves the names in it. -/
theorem Resolved.startTag {n : QName} {closed : Bool} {pos : Position} (ha : a.Resolved)
    (h : a.startTag n closed pos = .ok b) : b.Resolved := by
  obtain ⟨attributes, -, h⟩ := exists_of_bind_eq_ok h
  obtain ⟨uri, huri, h⟩ := exists_of_bind_eq_ok h
  have htag : StartTag.Resolved a.scope ⟨⟨uri, n.localName⟩, attributes, a.declarations,
      a.scope.extend a.declarations, pos⟩ := ⟨rfl, n.pfx, _, huri⟩
  have hwaiting : Resolved { a with declarations := [], attributes := [] } := ⟨ha.frames, ha.top⟩
  cases closed with
  | true => exact Except.ok.inj h ▸ hwaiting.push (Node.resolved_element htag (by simp))
  | false =>
    rw [scope_eq] at htag
    exact Except.ok.inj h ▸ ⟨⟨htag, by simp, ha.frames⟩, ha.top⟩

/-- A close tag puts an open element in its place. -/
theorem Resolved.closeTag {n : QName} {pos : Position} (ha : a.Resolved)
    (h : a.closeTag n pos = .ok b) : b.Resolved := by
  obtain ⟨-, -, h⟩ := exists_of_bind_eq_ok h
  have hold := ha.frames
  cases hframes : a.frames with
  | nil => simp [hframes] at h
  | cons f rest =>
    rw [hframes] at hold
    obtain ⟨htag, hcontent, hrest⟩ := hold
    simp only [hframes] at h
    split_ifs at h
    have hclosed : Resolved ⟨[], [], rest, a.top⟩ := ⟨hrest, ha.top⟩
    have helement : Node.Resolved (scopeOf rest) (.element f.tag f.content.reverse) :=
      Node.resolved_element htag fun n hn => hcontent n (List.mem_reverse.mp hn)
    exact Except.ok.inj h ▸ hclosed.push (by rwa [scope_eq])

/-- A prefix that stands for a namespace is bound to it. -/
theorem exists_mem_of_resolve {scope : Scope} {pfx uri : String} {pos : Position}
    (h : resolve scope pfx pos = .ok (some uri)) : ∃ b ∈ scope, b.pfx = pfx ∧ b.uri = uri := by
  unfold resolve at h
  cases hscope : scope.uriOf? pfx with
  | none =>
    rw [hscope] at h
    split_ifs at h
    cases h
  | some bound =>
    obtain ⟨b, hfind, hb⟩ := Option.map_eq_some_iff.mp hscope
    rw [hscope] at h
    have huri : bound = uri := by simpa using h
    exact ⟨b, List.mem_of_find?_eq_some hfind, by simpa using List.find?_some hfind,
      hb.trans huri⟩

/-- A node without elements is resolved. -/
theorem resolved_of_no_elements {outer : Scope} {n : Node}
    (h : ∀ depth, n.placed depth outer = []) : n.Resolved outer := by
  intro depth p hp
  simp [h depth] at hp

/-- Every event keeps an assembly resolved. -/
theorem Resolved.step {event : Event} (ha : a.Resolved) (h : a.step event = .ok b) :
    b.Resolved := by
  cases event with
  | attr n value pos =>
    obtain ⟨hframes, htop⟩ := frames_top_of_attr h
    exact ⟨hframes ▸ ha.frames, htop ▸ ha.top⟩
  | startTag n closed pos => exact ha.startTag h
  | closeTag n pos => exact ha.closeTag h
  | text t | comment t | instruction target t =>
    exact Except.ok.inj h ▸ ha.push (resolved_of_no_elements fun _ => rfl)

/-- What each of some events keeps, all of them together keep. -/
theorem of_foldlM {p : Assembly → Prop} {events : List Event}
    (hstep : ∀ e ∈ events, ∀ a b, p a → a.step e = .ok b → p b) (ha : p a)
    (h : events.foldlM Assembly.step a = .ok b) : p b := by
  induction events generalizing a with
  | nil => exact Except.ok.inj h ▸ ha
  | cons event events ih =>
    rw [List.foldlM_cons] at h
    obtain ⟨next, hnext, h⟩ := exists_of_bind_eq_ok h
    have hp : p next := hstep event (by simp) a next ha hnext
    exact ih (fun e he => hstep e (by simp [he])) hp h

end Assembly

namespace Document

/-- Parting nodes at their first element keeps them all. -/
theorem nodes_of_ofNodes? {nodes : List Node} {d : Document} (h : ofNodes? nodes = some d) :
    d.nodes = nodes := by
  induction nodes generalizing d with
  | nil => simp [ofNodes?] at h
  | cons n rest ih =>
    cases n with
    | element tag content =>
      simp only [ofNodes?, Option.some.injEq] at h
      exact h ▸ rfl
    | text _ | comment _ | instruction _ _ =>
      obtain ⟨d', hd', rfl⟩ := Option.map_eq_some_iff.mp h
      exact congrArg _ (ih hd')

/-- The nodes of a document that has been read are those of an assembly, which has every property
that an empty assembly has and that the events of the text keep. -/
theorem exists_assembly {source : String} {d : Document} (h : parse source = .ok d)
    {p : Assembly → Prop} (hempty : p .empty)
    (hstep : ∀ e ∈ (Event.ofText source).trace, ∀ a b, p a → a.step e = .ok b → p b) :
    ∃ a, p a ∧ d.nodes = a.top.reverse := by
  obtain ⟨a, hassembly, h⟩ := exists_of_bind_eq_ok h
  obtain ⟨-, -, h⟩ := exists_of_bind_eq_ok h
  refine ⟨a, Assembly.of_foldlM hstep hempty hassembly, ?_⟩
  unfold ofAssembly at h
  split_ifs at h
  cases hparted : ofNodes? a.top.reverse with
  | none => simp [hparted] at h
  | some d' =>
    rw [hparted] at h
    exact Except.ok.inj h ▸ nodes_of_ofNodes? hparted

/-- Every element of a document that has been read is resolved. -/
theorem resolved_of_parse {source : String} {d : Document} (h : parse source = .ok d) :
    ∀ p ∈ Node.placedAll 0 [] d.nodes, p.element.tag.Resolved p.outer := by
  have hempty : Assembly.empty.Resolved := ⟨trivial, by simp [Assembly.empty]⟩
  obtain ⟨a, ha, hnodes⟩ := exists_assembly h hempty fun _ _ _ _ ha hstep => ha.step hstep
  intro p hp
  rw [hnodes] at hp
  obtain ⟨n, hn, hp⟩ := Node.mem_placedAll.mp hp
  exact ha.top n (List.mem_reverse.mp hn) 0 p hp

end Document

end GroovyViews.Xml
