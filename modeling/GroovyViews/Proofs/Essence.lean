import GroovyViews.Proofs.Account
import GroovyViews.Proofs.Ending
import GroovyViews.Proofs.Meaning

/-!
# What the lines of a view depend on

Much of a tree leaves no mark on what is written for it: comments and instructions, text behind a
child element or directly in a control tag, and the attributes of control tags that no line is made
of. The essence of an element is what is left without all this. It is written as the element would
be if the attributes of control tags were looked up without a namespace. How its texts are cut into
nodes makes no difference.
-/

namespace GroovyViews

namespace Xml

/-- The tag is in the control namespace. -/
def StartTag.steers (tag : StartTag) : Bool := tag.name.uri == some controlUri

/-- The tag with the attributes that count. Those of a control tag are the ones without a namespace
that its line is made of. -/
def StartTag.essence (tag : StartTag) : StartTag :=
  if tag.steers then
    { tag with attributes := tag.attributes.filter fun a => a.name.uri.isNone &&
        (Role.control (.ofLocalName tag.name.localName)).required.contains a.name.localName }
  else tag

namespace Node

mutual

/-- What is left of a node, given whether text counts where it stands. -/
def essence (counts : Bool) : Node → List Node
  | element tag content => [element tag.essence (essenceAll (!tag.steers) content)]
  | text t => if counts then [text t] else []
  | comment _ | instruction _ _ => []

/-- What is left of several nodes. Text does not count behind an element. -/
def essenceAll (counts : Bool) : List Node → List Node
  | [] => []
  | n :: rest => essence counts n ++ essenceAll (counts && n.element?.isNone) rest

end

/-- The same nodes, but for texts next to each other, any of which may have been joined. -/
inductive Regroups : List Node → List Node → Prop where
  /-- There are no nodes. -/
  | nil : Regroups [] []
  /-- Texts may have been joined inside of an element. -/
  | element {tag : StartTag} {content content' rest rest' : List Node} :
      Regroups content content' → Regroups rest rest' →
      Regroups (.element tag content :: rest) (.element tag content' :: rest')
  /-- A text may have been left as it is. -/
  | text {t : String} {rest rest' : List Node} :
      Regroups rest rest' → Regroups (.text t :: rest) (.text t :: rest')
  /-- A text may have been joined to the next one. -/
  | join {t u : String} {rest nodes : List Node} :
      Regroups (.text (t ++ u) :: rest) nodes → Regroups (.text t :: .text u :: rest) nodes

end Node

namespace Element

/-- What is left of an element if everything is removed that does not count. -/
def essence (e : Element) : Element := ⟨e.tag.essence, Node.essenceAll (!e.tag.steers) e.content⟩

/-- The same element, but for texts next to each other, any of which may have been joined. -/
structure Regroups (e e' : Element) : Prop where
  /-- The start tag is the same. -/
  tag : e'.tag = e.tag
  /-- The content is the same but for that. -/
  content : Node.Regroups e.content e'.content

/-- The value of the attribute with a local name that the essence of an element keeps: of a control
tag the one without a namespace, and of any other tag the first one in whatever namespace. -/
def keptAttr? (e : Element) (localName : String) : Option String :=
  if e.tag.steers then e.plainAttr? localName else e.attr? localName

end Element

/-- The essence of a start tag has its name. -/
@[simp] theorem StartTag.name_essence (tag : StartTag) : tag.essence.name = tag.name := by
  unfold essence
  split <;> rfl

/-- The essence of a start tag has its scope. -/
@[simp] theorem StartTag.scope_essence (tag : StartTag) : tag.essence.scope = tag.scope := by
  unfold essence
  split <;> rfl

/-- The essence of a start tag is where it is. -/
@[simp] theorem StartTag.position_essence (tag : StartTag) :
    tag.essence.position = tag.position := by
  unfold essence
  split <;> rfl

/-- The attributes that a control tag needs are those without a namespace in its essence. -/
theorem Element.attr?_essence (e : Element) {name : String}
    (h : name ∈ (Role.control (.ofLocalName e.name.localName)).required) :
    e.essence.attr? name = e.keptAttr? name := by
  unfold keptAttr? attr? plainAttr? essence StartTag.essence
  cases hsteers : e.tag.steers with
  | false => rfl
  | true =>
    simp only [if_true, List.find?_filter]
    congr 2
    funext a
    obtain ⟨⟨uri, localName⟩, value⟩ := a
    rw [Bool.eq_iff_iff]
    simp only [decide_eq_true_eq, Bool.and_eq_true, Option.isNone_iff_eq_none,
      List.contains_iff_mem, beq_iff_eq, ExpandedName.mk.injEq]
    constructor
    · rintro ⟨⟨huri, -⟩, hname⟩
      exact ⟨huri, hname⟩
    · rintro ⟨huri, rfl⟩
      exact ⟨⟨huri, h⟩, rfl⟩

/-- No child element is lost, and none is gained. -/
theorem Node.filterMap_essenceAll (counts : Bool) (nodes : List Node) :
    (essenceAll counts nodes).filterMap element? =
      (nodes.filterMap element?).map Element.essence := by
  induction nodes generalizing counts with
  | nil => rfl
  | cons n rest ih =>
    rw [essenceAll, List.filterMap_append, ih]
    cases n with
    | element tag content => rfl
    | text t => cases counts <;> rfl
    | comment _ | instruction _ _ => rfl

/-- The text that counts is that before the first element. -/
theorem Node.leadingText_essenceAll (nodes : List Node) :
    leadingText (essenceAll true nodes) = leadingText nodes := by
  induction nodes with
  | nil => rfl
  | cons n rest ih =>
    cases n with
    | element tag content => rfl
    | text t => exact congrArg (t ++ ·) ih
    | comment _ | instruction _ _ => exact ih

namespace Node.Regroups

variable {nodes nodes' : List Node}

/-- Joining texts changes nothing about the text before the first element. -/
theorem leadingText (h : Regroups nodes nodes') :
    Node.leadingText nodes' = Node.leadingText nodes := by
  induction h with
  | nil | element => rfl
  | text _ ih => exact congrArg (_ ++ ·) ih
  | join _ ih => rw [ih, Node.leadingText, Node.leadingText, Node.leadingText, String.append_assoc]

/-- Joining texts changes nothing about there being child elements. -/
theorem isEmpty_filterMap (h : Regroups nodes nodes') :
    (nodes'.filterMap element?).isEmpty = (nodes.filterMap element?).isEmpty := by
  induction h with
  | nil | element => rfl
  | text _ ih | join _ ih => exact ih

end Node.Regroups

end Xml

namespace Writer

/-- An element that answers all that its opening asks for as another one does, with the attributes
of the two looked up in ways of their own. -/
structure Answers (w : Writer) (look look' : Lookup) (e e' : Xml.Element) : Prop where
  /-- It has the same name. -/
  name : e'.name = e.name
  /-- It has the same position. -/
  position : e'.position = e.position
  /-- The same bindings hold at it. -/
  scope : e'.tag.scope = e.tag.scope
  /-- It has child elements if the other one does. -/
  hasChildren : e'.hasChildren = e.hasChildren
  /-- As a control tag it has the same values for the attributes that it needs. -/
  required : ∀ tag, w.role? e = some (.control tag) → ∀ n ∈ (Role.control tag).required,
    look' e' n = look e n
  /-- As a call it has the same attributes and the same text. -/
  arguments : ∀ qualifier tag, w.role? e = some (.call qualifier tag) →
    e'.tag.attributes = e.tag.attributes ∧ e'.text? = e.text?

/-- It makes no difference to what is written for an element whether the attributes of a control tag
are looked up in whatever namespace or without one. -/
structure Indifferent (w : Writer) (e : Xml.Element) : Prop where
  /-- The same is wrong with it, if anything is. -/
  complaint : w.complaint? Xml.Element.attr? e = w.complaint? Xml.Element.keptAttr? e
  /-- It has the same line, unless something is wrong with it. -/
  line : w.complaint? Xml.Element.keptAttr? e = none →
    w.lineBy? Xml.Element.attr? e = w.lineBy? Xml.Element.keptAttr? e

variable {w : Writer} {look look' : Lookup} {e e' : Xml.Element}

/-- An element that answers as another one does is shown with its name. -/
theorem Answers.shownName (h : w.Answers look look' e e') : e'.shownName = e.shownName := by
  unfold Xml.Element.shownName Xml.Element.prefixOf?
  rw [h.name, h.scope]

/-- An element that answers as another one does agrees with it. -/
theorem Answers.agrees (h : w.Answers look look' e e') : w.Agrees w look look' e e' where
  options := rfl
  role := by rw [role?, role?, h.name]
  hasChildren := h.hasChildren
  required := h.required
  arguments qualifier tag hrole := by
    obtain ⟨hattributes, htext⟩ := h.arguments qualifier tag hrole
    refine ⟨hattributes, htext, fun a _ => ?_⟩
    simp [key, Xml.Element.prefixOf?, h.scope]

/-- The same is wrong with an element that answers as another one does. -/
theorem Answers.complaint? (h : w.Answers look look' e e') :
    w.complaint? look' e' = w.complaint? look e := by
  rw [complaint?_eq, complaint?_eq, h.name]
  cases hname : Role.ofName w.prefixes e.name with
  | error err => rfl
  | ok role =>
    have hrole : w.role? e = some role := by simp [Writer.role?, hname, Except.toOption]
    cases role with
    | call qualifier tag =>
      have hstrange : w.isStrange e' = w.isStrange e := by
        funext uri
        simp [isStrange, Xml.Element.prefixOf?, h.scope]
      simp only [roleComplaint?, strange?, hstrange, (h.arguments _ _ hrole).1]
    | control tag =>
      have hrequired := h.agrees.find?_required hrole
      cases tag with
      | other name => simp only [roleComplaint?, h.position]
      | ifTag | choose | when | otherwise | invokeStatic =>
        simp only [roleComplaint?, hrequired, h.shownName, h.position]

/-- An element that answers as another one does is opened as that one is. -/
theorem Answers.openingBy (h : w.Answers look look' e e') (indent : Nat) :
    w.openingBy look' indent e' = w.openingBy look indent e := by
  have hremark : Role.remark? e' = Role.remark? e := by
    funext role
    unfold Role.remark?
    rw [h.hasChildren, h.shownName, h.position]
  simp only [Writer.openingBy, arrival, h.complaint?, h.agrees.role, h.name, hremark,
    h.agrees.lineBy?, h.agrees.opensBlock]

/-- How texts are cut into nodes makes no difference to the opening of their element. -/
theorem opening_of_regroups {tag : Xml.StartTag} {content content' : List Xml.Node}
    (h : Xml.Node.Regroups content content') (w : Writer) (indent : Nat) :
    w.opening indent ⟨tag, content'⟩ = w.opening indent ⟨tag, content⟩ := by
  have hchildren :
      Xml.Element.hasChildren ⟨tag, content'⟩ = Xml.Element.hasChildren ⟨tag, content⟩ :=
    congrArg (!·) h.isEmpty_filterMap
  have htext : Xml.Element.text? ⟨tag, content'⟩ = Xml.Element.text? ⟨tag, content⟩ := by
    simp only [Xml.Element.text?, h.leadingText]
  have hanswers : w.Answers Xml.Element.attr? Xml.Element.attr? ⟨tag, content⟩ ⟨tag, content'⟩ :=
    ⟨rfl, rfl, rfl, hchildren, fun _ _ _ _ => rfl, fun _ _ _ => ⟨rfl, htext⟩⟩
  rw [opening_eq_openingBy, opening_eq_openingBy, hanswers.openingBy]

/-- How texts are cut into nodes makes no difference to what is written. -/
theorem nodes_of_regroups {content content' : List Xml.Node}
    (h : Xml.Node.Regroups content content') (w : Writer) (indent : Nat) :
    w.nodes indent content' = w.nodes indent content := by
  induction h generalizing indent with
  | nil => rfl
  | element hcontent _ ihcontent ihrest =>
    rw [nodes, nodes, node, node, opening_of_regroups hcontent, ihcontent, ihrest]
  | text _ ih => exact ih indent
  | join _ ih => exact ih indent

/-- A list of nodes is written part by part. -/
theorem nodes_append (w : Writer) (indent : Nat) (first second : List Xml.Node) :
    w.nodes indent (first ++ second) = (do w.nodes indent first; w.nodes indent second) := by
  induction first with
  | nil => rfl
  | cons n rest ih => rw [List.cons_append, nodes, nodes, ih, bind_assoc]

/-- The essence of an element answers all that its opening asks for as the element does without the
namespaces of attributes. -/
theorem answers_essence (w : Writer) (e : Xml.Element) :
    w.Answers Xml.Element.keptAttr? Xml.Element.attr? e e.essence := by
  have hname : e.essence.name = e.name := e.tag.name_essence
  refine ⟨hname, e.tag.position_essence, e.tag.scope_essence, ?_, ?_, ?_⟩
  · simp [Xml.Element.hasChildren, Xml.Element.children, Xml.Element.essence,
      Xml.Node.filterMap_essenceAll]
  · intro tag hrole n hn
    obtain ⟨-, rfl⟩ := Role.ofName_eq_control_iff.mp (ofName_of_role? hrole)
    exact e.attr?_essence hn
  · intro qualifier tag hrole
    have hsteers : e.tag.steers = false := by
      by_contra hsteers
      have huri : e.tag.name.uri = some controlUri := by simpa [Xml.StartTag.steers] using hsteers
      have hcontrol : Role.ofName w.prefixes e.name = .ok (.control (.ofLocalName _)) :=
        Role.ofName_eq_control_iff.mpr
          ⟨show e.tag.name.uri.any isControlUri = true by rw [huri]; rfl, rfl⟩
      cases (ofName_of_role? hrole).symm.trans hcontrol
    constructor
    · simp [Xml.Element.essence, Xml.StartTag.essence, hsteers]
    · simp [Xml.Element.text?, Xml.Element.essence, hsteers, Xml.Node.leadingText_essenceAll]

/-- The essence of an element is opened as the element is without the namespaces of attributes. -/
theorem opening_essence (w : Writer) (indent : Nat) (e : Xml.Element) :
    w.opening indent e.essence = w.openingBy Xml.Element.keptAttr? indent e := by
  rw [opening_eq_openingBy, (w.answers_essence e).openingBy]

mutual

/-- The essence of a node is written visit by visit without the namespaces of attributes. -/
theorem nodes_essence (w : Writer) (indent : Nat) (around : List Xml.Element) (counts : Bool) :
    ∀ n : Xml.Node, w.nodes (indent + around.length) (n.essence counts) =
      forM (n.visits around) (w.visitBy Xml.Element.keptAttr? indent)
  | .element tag content => by
    have ih := nodes_essenceAll w indent (⟨tag, content⟩ :: around) (!tag.steers) content
    rw [List.length_cons, ← Nat.add_assoc] at ih
    have hopens := (w.answers_essence ⟨tag, content⟩).agrees.opensBlock
    have hopening := w.opening_essence (indent + around.length) ⟨tag, content⟩
    simp only [Xml.Element.essence] at hopens hopening
    simp only [Xml.Node.essence, nodes, node, Xml.Node.visits, List.forM_cons, List.forM_append,
      List.forM_nil, visitBy, visit, Xml.Site.depth, bind_assoc, pure_bind]
    rw [opening_bind, hopens, hopening, ih]
  | .text _ => by cases counts <;> rfl
  | .comment _ | .instruction _ _ => rfl

/-- The essence of several nodes is written visit by visit without the namespaces of attributes. -/
theorem nodes_essenceAll (w : Writer) (indent : Nat) (around : List Xml.Element) (counts : Bool) :
    ∀ nodes : List Xml.Node,
      w.nodes (indent + around.length) (Xml.Node.essenceAll counts nodes) =
        forM (Xml.Node.visitsAll around nodes) (w.visitBy Xml.Element.keptAttr? indent)
  | [] => rfl
  | n :: rest => by
    rw [Xml.Node.essenceAll, Xml.Node.visitsAll, List.forM_append, nodes_append,
      nodes_essence w indent around counts n, nodes_essenceAll w indent around _ rest]

end

/-- An element with which nothing is wrong without the namespaces of attributes is all right. -/
theorem complaint?_attr_of_kept (h : w.complaint? Xml.Element.keptAttr? e = none) :
    w.complaint? Xml.Element.attr? e = none := by
  refine complaint?_attr_of_look (fun name hname => ?_) h
  unfold Xml.Element.keptAttr?
  split
  · exact Xml.Element.plainAttr?_eq_none hname
  · exact hname

/-- An element with nothing wrong gives as many steps however its attributes are looked up. -/
theorem length_visitBy (indent : Nat) {s : Xml.Site} (h : w.complaint? look s.element = none)
    (h' : w.complaint? look' s.element = none) :
    (w.visitBy look indent (.enter s)).trace.length =
      (w.visitBy look' indent (.enter s)).trace.length := by
  have hsome : (w.lineBy? look s.element).isSome = (w.lineBy? look' s.element).isSome := by
    rw [isSome_lineBy? h, isSome_lineBy? h']
  rw [visitBy_of_clean indent h, visitBy_of_clean indent h', List.length_append,
    List.length_append]
  cases hline : w.lineBy? look s.element <;> cases hline' : w.lineBy? look' s.element <;>
    simp_all

/-- An element that ought to be refused and is not gives more steps than it should. -/
theorem length_visitBy_lt (indent : Nat) {s : Xml.Site} {err : ConversionError}
    (hlook : w.complaint? look s.element = some err)
    (hattr : w.complaint? Xml.Element.attr? s.element = none) :
    (w.visitBy look indent (.enter s)).trace.length <
      (w.visitBy Xml.Element.attr? indent (.enter s)).trace.length := by
  have hsome := (isSome_lineBy? hattr).trans (writesLine_of_masked hlook hattr)
  obtain ⟨line, hline⟩ := Option.isSome_iff_exists.mp hsome
  rw [visitBy_of_complaint indent hlook, visitBy_of_clean indent hattr, hline]
  simp only [List.map_append, List.length_append, List.length_map, Option.map_some,
    Option.toList_some, List.length_singleton]
  omega

/-- Entering an element does the same whether namespaces count or not exactly if they make no
difference to it. -/
theorem visit_enter_eq_iff (indent : Nat) (s : Xml.Site) :
    w.visit indent (.enter s) = w.visitBy Xml.Element.keptAttr? indent (.enter s) ↔
      w.Indifferent s.element := by
  rw [visit_eq_visitBy]
  cases hkept : w.complaint? Xml.Element.keptAttr? s.element with
  | none =>
    have hattr := complaint?_attr_of_kept hkept
    rw [visitBy_of_clean indent hkept, visitBy_of_clean indent hattr]
    have hlines (first second : Option String) : (first.map (Step.line (indent + s.depth))).toList =
        (second.map (Step.line (indent + s.depth))).toList ↔ first = second := by
      cases first <;> cases second <;> simp
    simp only [Traced.mk.injEq, List.append_cancel_left_eq, and_true, hlines]
    exact ⟨fun hline => ⟨hattr.trans hkept.symm, fun _ => hline⟩, fun h => h.line hkept⟩
  | some err =>
    rw [visitBy_of_complaint indent hkept]
    cases hattr : w.complaint? Xml.Element.attr? s.element with
    | none =>
      rw [visitBy_of_clean indent hattr]
      refine iff_of_false (by simp) fun h => ?_
      cases hattr.symm.trans (h.complaint.trans hkept)
    | some err' =>
      rw [visitBy_of_complaint indent hattr]
      simp only [Traced.mk.injEq, true_and, Except.error.injEq]
      constructor
      · rintro rfl
        exact ⟨hattr.trans hkept.symm, fun hnone => by simp [hnone] at hkept⟩
      · intro h
        exact Option.some.inj (hattr.symm.trans (h.complaint.trans hkept))

/-- The essence of an element is written as the element is without the namespaces of attributes. -/
theorem element_essence (w : Writer) (indent : Nat) (e : Xml.Element) :
    w.element indent e.essence = forM e.visits (w.visitBy Xml.Element.keptAttr? indent) := by
  have hnodes := w.nodes_essence indent [] true e.node
  rw [Xml.Element.node, Xml.Node.essence, nodes, nodes, bind_pure_unit] at hnodes
  exact hnodes

/-- The essence of an element is written as the element itself is exactly if the namespaces of
attributes make no difference to any element up to the first one with something wrong. -/
theorem element_essence_eq_iff (w : Writer) (indent : Nat) (e : Xml.Element) :
    w.element indent e.essence = w.element indent e ↔ ∀ earlier s later,
      e.sites = earlier ++ s :: later →
      (∀ t ∈ earlier, w.complaint? Xml.Element.keptAttr? t.element = none) →
      w.Indifferent s.element := by
  have hok : ∀ v ∈ e.visits, (w.visitBy Xml.Element.keptAttr? indent v).outcome = .ok () →
      (w.visit indent v).outcome = .ok () ∧ (w.visit indent v).trace.length =
        (w.visitBy Xml.Element.keptAttr? indent v).trace.length := by
    intro v _ h
    cases v with
    | leave s => exact ⟨h, rfl⟩
    | enter s =>
      have hkept := clean_of_visitBy_ok h
      have hattr := complaint?_attr_of_kept hkept
      rw [visit_eq_visitBy]
      exact ⟨by rw [visitBy_of_clean indent hattr], length_visitBy indent hattr hkept⟩
  have hcut : ∀ v ∈ e.visits, ∀ err,
      (w.visitBy Xml.Element.keptAttr? indent v).outcome = .error err →
      (w.visit indent v).outcome = .ok () →
      (w.visitBy Xml.Element.keptAttr? indent v).trace.length <
        (w.visit indent v).trace.length := by
    intro v _ err herr h
    cases v with
    | leave s => cases herr.symm.trans h
    | enter s =>
      rw [visit_eq_visitBy] at h ⊢
      have hattr := clean_of_visitBy_ok h
      cases hkept : w.complaint? Xml.Element.keptAttr? s.element with
      | none => simp [visitBy_of_clean indent hkept] at herr
      | some err' => exact length_visitBy_lt indent hkept hattr
  -- A visit that should have been refused makes the whole trace longer, so later visits cannot make
  -- up for it, and the two walks are equal only if they are visit by visit.
  rw [eq_comm, element_eq_forM, element_essence, Traced.forM_eq_iff hok hcut]
  constructor
  · intro h earlier s later hsites hearlier
    obtain ⟨before, after, hvisits, rfl⟩ := Xml.Element.exists_visits_of_sites hsites
    refine (visit_enter_eq_iff indent s).mp (h before (.enter s) after hvisits fun v hv => ?_)
    cases v with
    | enter t => rw [visitBy_of_clean indent (hearlier t (Xml.Visit.mem_entered.mpr hv))]
    | leave t => exact visit_of_clean indent rfl
  · intro h before v after hvisits hbefore
    cases v with
    | leave s => rfl
    | enter s =>
      have hsites := Xml.Element.sites_of_visits hvisits
      refine (visit_enter_eq_iff indent s).mpr (h _ s _ hsites fun t ht => ?_)
      exact clean_of_visitBy_ok (hbefore _ (Xml.Visit.mem_entered.mp ht))

/-- Namespaces of attributes make no difference to an element of which none masks another. -/
theorem indifferent_of_unmasked (h : w.unmasked e = true) : w.Indifferent e := by
  have hanswers : w.Answers Xml.Element.keptAttr? Xml.Element.attr? e e := by
    refine ⟨rfl, rfl, rfl, rfl, fun tag hrole n hn => ?_, fun _ _ _ => ⟨rfl, rfl⟩⟩
    unfold Xml.Element.keptAttr?
    split
    · exact attr?_of_unmasked h hrole hn
    · rfl
  exact ⟨hanswers.complaint?, fun _ => hanswers.agrees.lineBy?⟩

/-- **Only the essence counts.** Take away from an element, wherever they are in it, all comments
and instructions, all text behind a child element or directly in a control tag, and all attributes
of control tags but those without a namespace that a line is made of, and join any texts that are
then next to each other. With every table, all options and every indentation this is written as the
element itself is, with the same notices and the same end, if no attribute takes the place of one
without a namespace. More precisely, it is so exactly if the namespaces of attributes make no
difference to what is wrong with an element, and if nothing is to its line, up to the first element
with which something is wrong. -/
theorem element_of_regrouped_essence (w : Writer) (indent : Nat) (e e' : Xml.Element)
    (h : e.essence.Regroups e') :
    ((∀ s ∈ e.sites, w.unmasked s.element = true) → w.element indent e' = w.element indent e) ∧
    (w.element indent e' = w.element indent e ↔ ∀ earlier s later,
      e.sites = earlier ++ s :: later →
      (∀ t ∈ earlier, w.complaint? Xml.Element.keptAttr? t.element = none) →
      w.Indifferent s.element) := by
  have hessence : w.element indent e' = w.element indent e.essence := by
    obtain ⟨tag, content⟩ := e'
    obtain rfl : tag = e.essence.tag := h.tag
    simp only [element, Xml.Element.node, node]
    rw [opening_of_regroups h.content, nodes_of_regroups h.content]
  rw [hessence]
  refine ⟨fun hunmasked => ?_, w.element_essence_eq_iff indent e⟩
  refine (w.element_essence_eq_iff indent e).mpr fun earlier s later hsites _ => ?_
  exact indifferent_of_unmasked (hunmasked s (by simp [hsites]))

/-- A tag for the page below. -/
private def clutteredTag (uri : Option String) (localName : String)
    (attributes : List (String × String)) : Xml.StartTag :=
  ⟨⟨uri, localName⟩, attributes.map fun a => ⟨⟨none, a.1⟩, a.2⟩, [], [⟨"j", controlUri⟩], ⟨1, 1⟩⟩

/-- A page with much that does not count. -/
private def cluttered : Xml.Element :=
  ⟨clutteredTag none "a" [("k", "1")],
    [.text "x", .comment "c", .text "y", .instruction "p" "q",
     .element (clutteredTag (some controlUri) "if" [("id", "i"), ("test", "$\x7bt\x7d")])
      [.text "z", .element (clutteredTag none "b" []) [], .text "z"],
     .text "z"]⟩

/-- What counts of the page, with its texts joined. -/
private def uncluttered : Xml.Element :=
  ⟨clutteredTag none "a" [("k", "1")],
    [.text "xy",
     .element (clutteredTag (some controlUri) "if" [("test", "$\x7bt\x7d")])
      [.element (clutteredTag none "b" []) []]]⟩

/-- The page is written as what counts of it. -/
theorem element_of_regrouped_essence_cluttered :
    cluttered.essence.Regroups uncluttered ∧
    (∀ s ∈ cluttered.sites, Writer.unmasked ⟨.empty, .default⟩ s.element = true) ∧
    Writer.element ⟨.empty, .default⟩ 0 uncluttered =
      Writer.element ⟨.empty, .default⟩ 0 cluttered ∧
    Emission.text (Writer.element ⟨.empty, .default⟩ 0 cluttered) =
      "a(k: \"1\", \"xy\") \x7b\n  if(t) \x7b\n    b() \n  \x7d\n\x7d\n" := by
  have hregroups : cluttered.essence.Regroups uncluttered :=
    ⟨rfl, .join (.text (.element (.element .nil .nil) .nil))⟩
  have hunmasked : ∀ s ∈ cluttered.sites, Writer.unmasked ⟨.empty, .default⟩ s.element = true := by
    decide +kernel
  refine ⟨hregroups, hunmasked, ?_, by decide +kernel⟩
  exact (element_of_regrouped_essence _ 0 cluttered uncluttered hregroups).1 hunmasked

end Writer

/-- An attribute in a namespace of its own that stands before the one without a namespace is not
part of the essence, and yet the line is made of it. -/
theorem Conversion.element_essence_masked :
    let c : Conversion := ⟨"<j:invokeStatic xmlns:j=\"jelly:core\" xmlns:x=\"urn:x\" " ++
      "x:var=\"u\" var=\"v\" className=\"C\" method=\"m\"/>", none, .default⟩
    ∃ w start, c.entry = .ok (w, start) ∧ start.essence.Regroups start.essence ∧
      Emission.text (w.element 0 start) = "def u = C.m\n" ∧
      Emission.text (w.element 0 start.essence) = "def v = C.m\n" := by
  intro c
  have hall : (c.entry.toOption.map fun entry => (entry.2.content.isEmpty,
      Emission.text (entry.1.element 0 entry.2),
      Emission.text (entry.1.element 0 entry.2.essence))) =
      some (true, "def u = C.m\n", "def v = C.m\n") := by
    decide +kernel
  obtain ⟨⟨w, start⟩, hentry, hall⟩ := Option.map_eq_some_iff.mp hall
  simp only [Prod.mk.injEq] at hall
  obtain ⟨hcontent, htext, hessence⟩ := hall
  have hnil : start.content = [] := by simpa using hcontent
  refine ⟨w, start, eq_ok_of_toOption hentry, ⟨rfl, ?_⟩, htext, hessence⟩
  rw [Xml.Element.essence, hnil]
  exact .nil

end GroovyViews
