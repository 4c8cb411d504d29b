import GroovyViews.Proofs.Declarations
import GroovyViews.Proofs.Naming

/-!
# Names in a document

The names of the elements and attributes of a document that has been read are names, and so are its
prefixes unless they are empty. All parts of an assembly have this property at every moment, because
every event brings in names only and no step makes new ones. It is handed on to the statements that
the elements say: all that stands around their values is made of characters of names.
-/

namespace GroovyViews

namespace Xml

/-- A start tag all of whose names are names. -/
structure StartTag.Named (tag : StartTag) : Prop where
  /-- The local name is a name. -/
  name : isName tag.name.localName = true
  /-- So are those of the attributes. -/
  attributes : ∀ a ∈ tag.attributes, isName a.name.localName = true
  /-- The prefixes in scope are names or empty. -/
  scope : ∀ b ∈ tag.scope, b.isTidy = true

/-- The start tags of all elements in a node are named. -/
def Node.Named (n : Node) : Prop :=
  ∀ depth outer, ∀ p ∈ n.placed depth outer, p.element.tag.Named

/-- An element is named if its start tag and its content are. -/
theorem Node.named_element {tag : StartTag} {content : List Node} (htag : tag.Named)
    (hcontent : ∀ n ∈ content, n.Named) : (element tag content).Named := by
  intro depth outer p hp
  rw [placed, List.mem_cons] at hp
  rcases hp with rfl | hp
  · exact htag
  · obtain ⟨n, hn, hp⟩ := mem_placedAll.mp hp
    exact hcontent n hn (depth + 1) tag.scope p hp

namespace Assembly

/-- Everything in an assembly is named, also what waits for its tag. -/
structure Named (a : Assembly) : Prop where
  /-- The declared prefixes are names or empty. -/
  declarations : ∀ b ∈ a.declarations, b.isTidy = true
  /-- The attributes that wait are named. -/
  attributes : ∀ b ∈ a.attributes, isName b.name.localName = true
  /-- The open elements are. -/
  frames : ∀ f ∈ a.frames, f.tag.Named ∧ ∀ n ∈ f.content, n.Named
  /-- So are the nodes outside of all elements. -/
  top : ∀ n ∈ a.top, n.Named

variable {a b : Assembly}

/-- The prefixes at the innermost open element are names or empty. -/
theorem Named.scope (ha : a.Named) : ∀ b ∈ a.scope, b.isTidy = true := by
  intro b hb
  rw [scope_eq] at hb
  cases hframes : a.frames with
  | nil => simp [hframes, scopeOf] at hb
  | cons f rest =>
    rw [hframes] at hb
    exact (ha.frames f (by simp [hframes])).1.scope b hb

/-- Joining a text to another one leaves the other nodes as they are. -/
theorem named_append {n : Node} {nodes : List Node} (hn : n.Named)
    (hnodes : ∀ m ∈ nodes, m.Named) : ∀ m ∈ append n nodes, m.Named := by
  intro m hm
  rcases mem_append_cases hm with rfl | hm | ⟨t, rfl⟩
  · exact hn
  · exact hnodes m hm
  · intro depth outer p hp
    simp [Node.placed] at hp

/-- A named node may be added to the innermost open element. -/
theorem Named.push {n : Node} (ha : a.Named) (hn : n.Named) : (a.push n).Named := by
  unfold Assembly.push
  cases hframes : a.frames with
  | nil => exact ⟨ha.declarations, ha.attributes, by simp, named_append hn ha.top⟩
  | cons f rest =>
    have hold := ha.frames
    rw [hframes] at hold
    refine ⟨ha.declarations, ha.attributes, ?_, ha.top⟩
    intro g hg
    rcases List.mem_cons.mp hg with rfl | hg
    · exact ⟨(hold f (by simp)).1, named_append hn (hold f (by simp)).2⟩
    · exact hold g (by simp [hg])

/-- An attribute waits under its name, and a declaration under the name that it declares. -/
theorem Named.attr {n : QName} {value : String} {pos : Position} (ha : a.Named)
    (hn : isName n.localName = true) (h : a.attr n value pos = .ok b) : b.Named := by
  have hdeclare : ∀ pfx : String, (Binding.mk pfx value).isTidy = true →
      Named { a with declarations := a.declarations ++ [⟨pfx, value⟩] } := by
    intro pfx hpfx
    refine ⟨?_, ha.attributes, ha.frames, ha.top⟩
    intro o ho
    rcases List.mem_append.mp ho with ho | ho
    · exact ha.declarations o ho
    · exact List.mem_singleton.mp ho ▸ hpfx
  have hwait : Named { a with attributes := a.attributes ++ [⟨n, value, pos⟩] } := by
    refine ⟨ha.declarations, ?_, ha.frames, ha.top⟩
    intro o ho
    rcases List.mem_append.mp ho with ho | ho
    · exact ha.attributes o ho
    · exact List.mem_singleton.mp ho ▸ hn
  unfold Assembly.attr at h
  dsimp only at h
  split_ifs at h <;> cases h
  · exact ha
  · exact hdeclare _ (by simp [Binding.isTidy, hn])
  · exact hdeclare _ rfl
  · exact hwait

/-- Resolving an attribute does not change its local name. -/
theorem localName_of_attributeName {scope : Scope} {w : WrittenAttribute} {name : ExpandedName}
    (h : attributeName scope w = .ok name) : name.localName = w.name.localName := by
  unfold attributeName at h
  split_ifs at h
  · exact Except.ok.inj h ▸ rfl
  · exact Except.ok.inj h ▸ rfl
  · obtain ⟨uri, -, h⟩ := exists_of_bind_eq_ok h
    exact Except.ok.inj h ▸ rfl

/-- Attributes that are named are still so when they have been resolved. -/
theorem named_of_resolveAttributes {scope : Scope} {waiting : List WrittenAttribute}
    {earlier resolved : List Attribute} (hearlier : ∀ a ∈ earlier, isName a.name.localName = true)
    (hwaiting : ∀ w ∈ waiting, isName w.name.localName = true)
    (h : resolveAttributes scope earlier waiting = .ok resolved) :
    ∀ a ∈ resolved, isName a.name.localName = true := by
  induction waiting generalizing earlier with
  | nil => exact Except.ok.inj h ▸ hearlier
  | cons w rest ih =>
    obtain ⟨name, hname, h⟩ := exists_of_bind_eq_ok h
    split_ifs at h
    refine ih (fun a ha => ?_) (fun w' hw' => hwaiting w' (by simp [hw'])) h
    rcases List.mem_append.mp ha with ha | ha
    · exact hearlier a ha
    · obtain rfl := List.mem_singleton.mp ha
      exact localName_of_attributeName hname ▸ hwaiting w (by simp)

/-- The end of a start tag takes in what has been waiting for it. -/
theorem Named.startTag {n : QName} {closed : Bool} {pos : Position} (ha : a.Named)
    (hn : isName n.localName = true) (h : a.startTag n closed pos = .ok b) : b.Named := by
  obtain ⟨attributes, hattributes, h⟩ := exists_of_bind_eq_ok h
  obtain ⟨uri, -, h⟩ := exists_of_bind_eq_ok h
  have hscope : ∀ b ∈ a.scope.extend a.declarations, b.isTidy = true := by
    intro b hb
    rcases List.mem_append.mp hb with hb | hb
    · exact ha.declarations b hb
    · exact ha.scope b (List.mem_filter.mp hb).1
  have htag : StartTag.Named ⟨⟨uri, n.localName⟩, attributes, a.declarations,
      a.scope.extend a.declarations, pos⟩ :=
    ⟨hn, named_of_resolveAttributes (by simp) ha.attributes hattributes, hscope⟩
  have hempty : Named { a with declarations := [], attributes := [] } :=
    ⟨by simp, by simp, ha.frames, ha.top⟩
  cases closed with
  | true => exact Except.ok.inj h ▸ hempty.push (Node.named_element htag (by simp))
  | false =>
    refine Except.ok.inj h ▸ ⟨by simp, by simp, ?_, ha.top⟩
    intro f hf
    rcases List.mem_cons.mp hf with rfl | hf
    · exact ⟨htag, by simp⟩
    · exact ha.frames f hf

/-- A close tag puts an open element in its place. -/
theorem Named.closeTag {n : QName} {pos : Position} (ha : a.Named)
    (h : a.closeTag n pos = .ok b) : b.Named := by
  obtain ⟨-, -, h⟩ := exists_of_bind_eq_ok h
  have hold := ha.frames
  cases hframes : a.frames with
  | nil => simp [hframes] at h
  | cons f rest =>
    rw [hframes] at hold
    simp only [hframes] at h
    split_ifs at h
    have hclosed : Named ⟨[], [], rest, a.top⟩ :=
      ⟨by simp, by simp, fun g hg => hold g (by simp [hg]), ha.top⟩
    have helement : Node.Named (.element f.tag f.content.reverse) :=
      Node.named_element (hold f (by simp)).1 fun n hn =>
        (hold f (by simp)).2 n (List.mem_reverse.mp hn)
    exact Except.ok.inj h ▸ hclosed.push helement

/-- Every named event keeps an assembly named. -/
theorem Named.step {event : Event} (ha : a.Named) (hevent : event.Named)
    (h : a.step event = .ok b) : b.Named := by
  cases event with
  | attr n value pos => exact ha.attr hevent h
  | startTag n closed pos => exact ha.startTag hevent h
  | closeTag n pos => exact ha.closeTag h
  | text t | comment t | instruction target t =>
    refine Except.ok.inj h ▸ ha.push ?_
    intro depth outer p hp
    simp [Node.placed] at hp

end Assembly

/-- Every element of a document that has been read is named. -/
theorem Document.named_of_parse {source : String} {d : Document} (h : parse source = .ok d) :
    ∀ p ∈ Node.placedAll 0 [] d.nodes, p.element.tag.Named := by
  have hempty : Assembly.empty.Named := by
    constructor <;> simp [Assembly.empty]
  obtain ⟨a, ha, hnodes⟩ := exists_assembly h hempty fun e he _ _ ha hstep =>
    ha.step (Event.named_ofText source e he) hstep
  intro p hp
  rw [hnodes] at hp
  obtain ⟨n, hn, hp⟩ := Node.mem_placedAll.mp hp
  exact ha.top n (List.mem_reverse.mp hn) 0 [] p hp

/-- The prefixes that a document declares are names or empty. -/
theorem Document.isTidy_of_mem_declared {source : String} {d : Document}
    (h : parse source = .ok d) : ∀ b ∈ d.declared, b.isTidy = true := by
  intro b hb
  obtain ⟨p, hp, hb⟩ := List.mem_flatMap.mp hb
  refine (named_of_parse h p hp).scope b ?_
  rw [(resolved_of_parse h p hp).scope]
  exact List.mem_append_left _ (List.mem_filter.mp hb).1

/-- A text that is made of characters of names, if of any. -/
def Spelled (s : String) : Prop := ∀ c ∈ s.toList, isNameChar c = true

/-- A name is spelled. -/
theorem Spelled.of_isName {s : String} (h : isName s = true) : Spelled s :=
  List.all_eq_true.mp (Bool.and_eq_true_iff.mp h).2

/-- A prefix that is a name or empty is spelled. -/
theorem Spelled.of_isTidy {b : Binding} (h : b.isTidy = true) : Spelled b.pfx := by
  rcases Bool.or_eq_true_iff.mp h with hempty | hname
  · rw [String.isEmpty_iff.mp hempty]
    simp [Spelled]
  · exact .of_isName hname

/-- Two spelled texts one after the other are spelled. -/
theorem Spelled.append {s t : String} (hs : Spelled s) (ht : Spelled t) : Spelled (s ++ t) := by
  intro c hc
  rw [String.toList_append, List.mem_append] at hc
  exact hc.elim (hs c) (ht c)

/-- A character of a name is not escaped. -/
theorem isSpecial_of_isNameChar {c : Char} (h : isNameChar c = true) :
    Escaping.isSpecial c = false := by
  by_contra hspecial
  simp only [Escaping.isSpecial, Bool.or_eq_true, decide_eq_true_eq, Bool.not_eq_false] at hspecial
  rcases hspecial with (rfl | rfl) | rfl <;> exact absurd h (by decide)

end Xml

namespace Groovy

/-- A key whose names are spelled. -/
def Key.Spelled : Key → Prop
  | plain name => Xml.Spelled name
  | qualified pfx name => Xml.Spelled pfx ∧ Xml.Spelled name

/-- A statement whose method and keys are spelled, if it has any. -/
def Statement.Spelled : Statement → Prop
  | call qualifier tag arguments => Xml.Spelled qualifier ∧ Xml.Spelled tag ∧
      ∀ key value, Argument.named key value ∈ arguments → key.Spelled
  | condition _ | alternative | definition _ _ _ => True

end Groovy

namespace Writer

variable {w : Writer} {e : Xml.Element}

/-- The key of an attribute of a named element is spelled. -/
theorem spelled_key (htable : ∀ b ∈ w.prefixes.entries, b.isTidy = true) (he : e.tag.Named)
    {a : Xml.Attribute} (ha : a ∈ e.tag.attributes) {key : Groovy.Key}
    (hkey : w.key e a.name = .ok key) : key.Spelled := by
  have hname : Xml.Spelled a.name.localName := .of_isName (he.attributes a ha)
  rcases key_cases hkey with rfl | ⟨uri, pfx, rfl, htab | hscope⟩
  · exact hname
  · obtain ⟨b, hb, rfl⟩ := Layout.exists_mem_of_prefixOf? htab
    exact ⟨.of_isTidy (htable b hb), hname⟩
  · rcases Layout.exists_mem_of_scope_prefixOf? hscope with rfl | ⟨b, hb, rfl⟩
    · exact ⟨.of_isName (by decide), hname⟩
    · exact ⟨.of_isTidy (he.scope b hb), hname⟩

/-- What a named element says is spelled. -/
theorem States.spelled {role : Role} {s : Groovy.Statement}
    (hrole : Role.ofName w.prefixes e.name = .ok role) (hs : w.States e role (some s))
    (htable : ∀ b ∈ w.prefixes.entries, b.isTidy = true) (he : e.tag.Named) : s.Spelled := by
  cases hs with
  | call hargs =>
    have hqualifier := Layout.isTidy_qualifier hrole htable
    obtain ⟨rfl, -⟩ := Layout.ofName_eq_call hrole
    refine ⟨.of_isTidy hqualifier, .of_isName he.name, ?_⟩
    intro key value hmem
    rcases argument_cases hargs _ hmem with ⟨a, ha, key', hkey, heq⟩ | ⟨t, -, heq⟩
    · cases heq
      exact spelled_key htable he ha hkey
    · cases heq
  | condition | otherwise | invokeStatic => trivial

end Writer

end GroovyViews
