import GroovyViews.Proofs.Opening

/-!
# Walking through a tree

A walk enters each element before its content and leaves it afterwards, and so gives the elements in
document order. Writing an element is the sequence of its visits: entering an element opens it, and
leaving it closes the block that it opened, if it opened one.
-/

namespace GroovyViews

namespace Xml

/-- An element of a tree with the elements around it. -/
structure Site where
  /-- The elements around it, the innermost first. -/
  around : List Element
  /-- The element itself. -/
  element : Element

/-- The number of elements around a site. -/
def Site.depth (s : Site) : Nat := s.around.length

/-- A moment of a walk. -/
inductive Visit where
  /-- The walk comes to an element. -/
  | enter (s : Site)
  /-- The walk is through with an element and its content. -/
  | leave (s : Site)

/-- The site that is entered, if one is. -/
def Visit.entered? : Visit → Option Site
  | enter s => some s
  | leave _ => none

/-- Entering a site enters that site. -/
@[simp] theorem Visit.entered?_enter (s : Site) : (enter s).entered? = some s := rfl

/-- Leaving a site enters none. -/
@[simp] theorem Visit.entered?_leave (s : Site) : (leave s).entered? = none := rfl

namespace Node

mutual

/-- The visits of a walk through a node that has elements around it. -/
def visits (around : List Element) : Node → List Visit
  | element tag content =>
    .enter ⟨around, ⟨tag, content⟩⟩ ::
      (visitsAll (⟨tag, content⟩ :: around) content ++ [.leave ⟨around, ⟨tag, content⟩⟩])
  | text _ | comment _ | instruction _ _ => []

/-- The visits of a walk through several nodes. -/
def visitsAll (around : List Element) : List Node → List Visit
  | [] => []
  | n :: rest => visits around n ++ visitsAll around rest

end

end Node

namespace Element

/-- The visits of a walk through an element. -/
def visits (e : Element) : List Visit := e.node.visits []

/-- The elements of an element that has others around it, in document order, itself first. -/
def sitesIn (around : List Element) (e : Element) : List Site :=
  (e.node.visits around).filterMap Visit.entered?

/-- The elements of an element in document order, itself first. -/
def sites (e : Element) : List Site := e.sitesIn []

end Element

namespace Node

mutual

/-- A walk enters the elements of a node in document order. -/
theorem entered_visits (around : List Element) (outer : Scope) : ∀ n : Node,
    ((n.visits around).filterMap Visit.entered?).map (fun s => (s.depth, s.element)) =
      (n.placed around.length outer).map fun p => (p.depth, p.element)
  | element tag content => by
    have ih := entered_visitsAll (⟨tag, content⟩ :: around) tag.scope content
    rw [List.length_cons] at ih
    simpa [visits, placed, Site.depth, List.filterMap_cons] using ih
  | text _ | comment _ | instruction _ _ => by simp [visits, placed]

/-- A walk enters the elements of several nodes in document order. -/
theorem entered_visitsAll (around : List Element) (outer : Scope) : ∀ nodes : List Node,
    ((visitsAll around nodes).filterMap Visit.entered?).map (fun s => (s.depth, s.element)) =
      (placedAll around.length outer nodes).map fun p => (p.depth, p.element)
  | [] => rfl
  | n :: rest => by
    simp [visitsAll, placedAll, entered_visits around outer n, entered_visitsAll around outer rest]

end

end Node

/-- The sites that visits enter. -/
theorem Visit.mem_entered {visits : List Visit} {s : Site} :
    s ∈ visits.filterMap Visit.entered? ↔ .enter s ∈ visits := by
  rw [List.mem_filterMap]
  constructor
  · rintro ⟨v, hv, hs⟩
    cases v with
    | enter s' => exact Option.some.inj hs ▸ hv
    | leave s' => cases hs
  · intro hv
    exact ⟨_, hv, rfl⟩

/-- The sites of an element are those that a walk enters. -/
theorem Element.mem_sites {e : Element} {s : Site} : s ∈ e.sites ↔ .enter s ∈ e.visits :=
  Visit.mem_entered

/-- The sites of an element are entered in the order of the walk. -/
theorem Element.sites_eq (e : Element) : e.sites = e.visits.filterMap Visit.entered? := rfl

/-- Where the sites of an element are parted at one of them, the walk is parted where it enters
that one. -/
theorem Element.exists_visits_of_sites {e : Element} {earlier later : List Site} {s : Site}
    (h : e.sites = earlier ++ s :: later) :
    ∃ before after, e.visits = before ++ .enter s :: after ∧
      before.filterMap Visit.entered? = earlier := by
  -- The walk is cut where the sites before `s` have been entered, and then again at `s` itself.
  rw [sites_eq] at h
  obtain ⟨front, back, hvisits, hfront, hback⟩ := List.filterMap_eq_append_iff.mp h
  obtain ⟨leaves, v, after, rfl, hleaves, hv, -⟩ := List.filterMap_eq_cons_iff.mp hback
  obtain rfl : v = .enter s := by
    cases v with
    | enter t => exact congrArg Visit.enter (Option.some.inj hv)
    | leave t => cases hv
  refine ⟨front ++ leaves, after, by simp [hvisits], ?_⟩
  rw [List.filterMap_append, hfront, List.filterMap_eq_nil_iff.mpr hleaves, List.append_nil]

/-- Where the walk is parted as it enters a site, the sites are parted at that one. -/
theorem Element.sites_of_visits {e : Element} {before after : List Visit} {s : Site}
    (h : e.visits = before ++ .enter s :: after) :
    e.sites = before.filterMap Visit.entered? ++ s :: after.filterMap Visit.entered? := by
  simp [sites_eq, h]

/-- The sites of an element are itself and those of its child elements. -/
theorem Element.sitesIn_eq (around : List Element) (e : Element) :
    e.sitesIn around = ⟨around, e⟩ :: e.children.flatMap (sitesIn (e :: around)) := by
  have hcontent : ∀ nodes : List Node,
      (Node.visitsAll (e :: around) nodes).filterMap Visit.entered? =
        (nodes.filterMap Node.element?).flatMap (sitesIn (e :: around)) := by
    intro nodes
    induction nodes with
    | nil => rfl
    | cons n rest ih =>
      rw [Node.visitsAll, List.filterMap_append, ih, List.filterMap_cons]
      cases n <;> rfl
  rw [sitesIn, node, Node.visits, List.filterMap_cons, Visit.entered?_enter,
    List.filterMap_append, hcontent]
  simp [children]

/-- A site in an element is its own or one in a child element. -/
theorem Element.mem_sitesIn {around : List Element} {e : Element} {s : Site} :
    s ∈ e.sitesIn around ↔ s = ⟨around, e⟩ ∨ ∃ c ∈ e.children, s ∈ c.sitesIn (e :: around) := by
  rw [sitesIn_eq, List.mem_cons, List.mem_flatMap]

/-- The elements that a walk through an element enters are that one and those that it enters inside
of its child elements. -/
theorem Element.enter_mem_visits {e : Element} {around : List Element} {s : Site} :
    .enter s ∈ e.node.visits around ↔
      s = ⟨around, e⟩ ∨ ∃ c ∈ e.children, .enter s ∈ c.node.visits (e :: around) := by
  simpa only [sitesIn, Visit.mem_entered] using mem_sitesIn (e := e) (s := s)

namespace Node

mutual

/-- A walk through a node leaves only what it has entered. -/
theorem enter_mem_of_leave (around : List Element) {s : Site} : ∀ n : Node,
    .leave s ∈ n.visits around → .enter s ∈ n.visits around
  | element tag content, h => by
    have ih := enter_mem_of_leaveAll (s := s) (⟨tag, content⟩ :: around) content
    simp only [visits, List.mem_cons, List.mem_append, List.not_mem_nil, or_false, reduceCtorEq,
      false_or, Visit.leave.injEq, Visit.enter.injEq] at h ⊢
    exact h.symm.imp_right ih
  | text _, h | comment _, h | instruction _ _, h => by simp [visits] at h

/-- A walk through several nodes leaves only what it has entered. -/
theorem enter_mem_of_leaveAll (around : List Element) {s : Site} : ∀ nodes : List Node,
    .leave s ∈ visitsAll around nodes → .enter s ∈ visitsAll around nodes
  | [], h => by simp [visitsAll] at h
  | n :: rest, h => by
    rw [visitsAll, List.mem_append] at h ⊢
    exact h.imp (enter_mem_of_leave around n) (enter_mem_of_leaveAll around rest)

end

end Node

/-- The sites of an element are its elements in document order with their depths. -/
theorem Element.map_sites (e : Element) (outer : Scope) :
    e.sites.map (fun s => (s.depth, s.element)) =
      (e.node.placed 0 outer).map fun p => (p.depth, p.element) :=
  Node.entered_visits [] outer e.node

end Xml

namespace Writer

/-- What is written for one visit of a walk that begins at an indentation. -/
def visit (w : Writer) (indent : Nat) : Xml.Visit → Emission Unit
  | .enter s => do let _ ← w.opening (indent + s.depth) s.element
  | .leave s =>
    if w.opensBlock s.element then Emission.line (indent + s.depth) "\x7d" else return

variable {w : Writer}

/-- Opening an element, if it succeeds, returns whether the element opens a block. -/
theorem opening_bind (w : Writer) (indent : Nat) (e : Xml.Element) {α : Type}
    (f : Bool → Emission α) :
    w.opening indent e >>= f = w.opening indent e >>= fun _ => f (w.opensBlock e) := by
  cases hcomplaint : w.complaint? Xml.Element.attr? e with
  | none =>
    obtain ⟨role, s, notices, -, -, hopening⟩ := opening_of_clean indent hcomplaint
    rw [hopening, Traced.bind_of_ok rfl, Traced.bind_of_ok rfl]
  | some err =>
    obtain ⟨notices, hopening⟩ := opening_of_complaint indent hcomplaint
    rw [hopening, Traced.bind_of_error rfl, Traced.bind_of_error rfl]

mutual

/-- Writing a node is the sequence of its visits. -/
theorem node_eq_forM (w : Writer) (indent : Nat) (around : List Xml.Element) : ∀ n : Xml.Node,
    w.node (indent + around.length) n = forM (n.visits around) (w.visit indent)
  | .element tag content => by
    have ih := nodes_eq_forM w indent (⟨tag, content⟩ :: around) content
    rw [List.length_cons, ← Nat.add_assoc] at ih
    simp only [node, Xml.Node.visits, List.forM_cons, List.forM_append, List.forM_nil, visit,
      Xml.Site.depth, bind_assoc, pure_bind]
    rw [opening_bind, ih]
    cases w.opensBlock ⟨tag, content⟩ <;> rfl
  | .text _ | .comment _ | .instruction _ _ => rfl

/-- Writing several nodes is the sequence of their visits. -/
theorem nodes_eq_forM (w : Writer) (indent : Nat) (around : List Xml.Element) :
    ∀ nodes : List Xml.Node,
      w.nodes (indent + around.length) nodes =
        forM (Xml.Node.visitsAll around nodes) (w.visit indent)
  | [] => rfl
  | n :: rest => by
    rw [nodes, Xml.Node.visitsAll, List.forM_append, node_eq_forM w indent around n,
      nodes_eq_forM w indent around rest]

end

/-- Writing an element is the sequence of its visits. -/
theorem element_eq_forM (w : Writer) (indent : Nat) (e : Xml.Element) :
    w.element indent e = forM e.visits (w.visit indent) :=
  w.node_eq_forM indent [] e.node

/-- What is wrong with the element that a visit enters. There is nothing wrong with leaving one. -/
def objection? (w : Writer) (look : Lookup) : Xml.Visit → Option ConversionError
  | .enter s => w.complaint? look s.element
  | .leave _ => none

/-- What a visit writes. -/
def visitText (w : Writer) (indent : Nat) (v : Xml.Visit) : String :=
  Emission.text (w.visit indent v)

/-- Entering an element writes what opening it writes. -/
theorem visitText_enter (w : Writer) (indent : Nat) (s : Xml.Site) :
    w.visitText indent (.enter s) = Emission.text (w.opening (indent + s.depth) s.element) := by
  rw [visitText, visit, Emission.text, Emission.text]
  cases hopening : (w.opening (indent + s.depth) s.element).outcome with
  | ok opens => simp [Traced.bind_of_ok hopening, Traced.after]
  | error err => simp [Traced.bind_of_error hopening]

/-- Entering an element with nothing wrong writes the line of its statement, if it says one. -/
theorem exists_visitText_eq (indent : Nat) {s : Xml.Site}
    (h : w.complaint? Xml.Element.attr? s.element = none) :
    ∃ role st, Role.ofName w.prefixes s.element.name = .ok role ∧ w.States s.element role st ∧
      w.writesLine s.element = st.isSome ∧ w.visitText indent (.enter s) =
        String.join ((w.lineOf (indent + s.depth) s.element st).map Step.text) := by
  obtain ⟨role, st, notices, hrole, hst, hopening⟩ := opening_of_clean (indent + s.depth) h
  refine ⟨role, st, hrole, hst, ?_, ?_⟩
  · simp [writesLine, role?, hrole, Except.toOption, hst.isSome_eq]
  · rw [visitText_enter, hopening, Emission.text, List.map_append, String.join_append,
      Emission.join_text_notices, String.empty_append]

/-- An element with nothing wrong says nothing in its role, and then entering it writes nothing, or
it says a statement, and then entering it writes the line of that. -/
theorem exists_states (indent : Nat) {s : Xml.Site}
    (h : w.complaint? Xml.Element.attr? s.element = none) :
    ∃ role st, Role.ofName w.prefixes s.element.name = .ok role ∧ w.States s.element role st ∧
      ((st = none ∧ w.writesLine s.element = false ∧ w.opensBlock s.element = false ∧
        w.visitText indent (.enter s) = "") ∨
      ∃ statement, st = some statement ∧ w.writesLine s.element = true ∧
        w.visitText indent (.enter s) = (Step.line (indent + s.depth)
          (statement.line w.options.escaping (w.opensBlock s.element))).text) := by
  obtain ⟨role, st, hrole, hst, hline, htext⟩ := exists_visitText_eq indent h
  refine ⟨role, st, hrole, hst, ?_⟩
  rw [htext, hline]
  cases st with
  | none =>
    have hmay : role.mayOpenBlock = false := by cases hst <;> rfl
    have hopens : w.opensBlock s.element = false := by
      simp [opensBlock, role?, hrole, Except.toOption, hmay]
    exact .inl ⟨rfl, rfl, hopens, rfl⟩
  | some statement => exact .inr ⟨statement, rfl, rfl, by simp [lineOf]⟩

/-- A visit without an objection succeeds. -/
theorem visit_of_clean (indent : Nat) {v : Xml.Visit}
    (h : w.objection? Xml.Element.attr? v = none) : (w.visit indent v).outcome = .ok () := by
  cases v with
  | enter s =>
    obtain ⟨role, statement, notices, -, -, hopening⟩ := opening_of_clean (indent + s.depth) h
    simp only [visit, hopening]
    rfl
  | leave s =>
    simp only [visit]
    cases w.opensBlock s.element <;> rfl

/-- An objection ends its visit before anything is written. -/
theorem visit_of_complaint (indent : Nat) {v : Xml.Visit} {err : ConversionError}
    (h : w.objection? Xml.Element.attr? v = some err) :
    ∃ notices, w.visit indent v = ⟨List.map Step.notice notices, .error err⟩ := by
  cases v with
  | enter s =>
    obtain ⟨notices, hopening⟩ := opening_of_complaint (indent + s.depth) h
    refine ⟨notices, ?_⟩
    simp only [visit, hopening]
    rfl
  | leave s => simp [objection?] at h

/-- There is no objection to visits of elements with nothing wrong. -/
theorem objection?_eq_none {look : Lookup} {visits : List Xml.Visit}
    (hclean : ∀ s, .enter s ∈ visits → w.complaint? look s.element = none) :
    ∀ v ∈ visits, w.objection? look v = none := by
  intro v hv
  cases v with
  | enter s => exact hclean s hv
  | leave s => rfl

/-- Visits of elements with nothing wrong all succeed. -/
theorem visits_of_clean (indent : Nat) {visits : List Xml.Visit}
    (hclean : ∀ s, .enter s ∈ visits → w.complaint? Xml.Element.attr? s.element = none) :
    ∀ v ∈ visits, (w.visit indent v).outcome = .ok () := by
  intro v hv
  exact visit_of_clean indent (objection?_eq_none hclean v hv)

/-- An element with nothing wrong anywhere in it is written in full: what its visits write, one
after the other. -/
theorem element_of_clean (indent : Nat) {e : Xml.Element}
    (hclean : ∀ s ∈ e.sites, w.complaint? Xml.Element.attr? s.element = none) :
    (w.element indent e).outcome = .ok () ∧
      Emission.text (w.element indent e) = String.join (e.visits.map (w.visitText indent)) := by
  have hvisits := visits_of_clean indent fun s hs => hclean s (Xml.Element.mem_sites.mpr hs)
  rw [element_eq_forM, Traced.forM_of_ok hvisits]
  exact ⟨rfl, Emission.join_text_flatMap _ _⟩

/-- The first element with something wrong ends the writing with that complaint. What the visits
before it write is all that is written. -/
theorem element_of_complaint (indent : Nat) {e : Xml.Element} {before after : List Xml.Visit}
    {s : Xml.Site} {err : ConversionError} (hvisits : e.visits = before ++ .enter s :: after)
    (hclean : ∀ s, .enter s ∈ before → w.complaint? Xml.Element.attr? s.element = none)
    (hs : w.complaint? Xml.Element.attr? s.element = some err) :
    (w.element indent e).outcome = .error err ∧
      Emission.text (w.element indent e) = String.join (before.map (w.visitText indent)) := by
  have hs' : w.objection? Xml.Element.attr? (.enter s) = some err := hs
  obtain ⟨notices, hvisit⟩ := visit_of_complaint indent hs'
  rw [element_eq_forM, hvisits, Traced.forM_of_error (visits_of_clean indent hclean)
    (congrArg Traced.outcome hvisit), hvisit]
  refine ⟨rfl, ?_⟩
  rw [Emission.text, List.map_append, String.join_append, Emission.join_text_notices,
    String.append_empty]
  exact Emission.join_text_flatMap _ _

/-- A visit writes lines at the level of its element only. -/
theorem indent_of_visit {indent n : Nat} {text : String} {v : Xml.Visit}
    (h : .line n text ∈ (w.visit indent v).trace) :
    ∃ s, (v = .enter s ∨ v = .leave s) ∧ n = indent + s.depth := by
  cases v with
  | leave s =>
    refine ⟨s, .inr rfl, ?_⟩
    cases hopens : w.opensBlock s.element with
    | false => simp [visit, hopens] at h
    | true =>
      have hline : Step.line n text = .line (indent + s.depth) "\x7d" := by
        simpa [visit, hopens, Emission.line] using h
      exact (Step.line.inj hline).1
  | enter s =>
    refine ⟨s, .inl rfl, ?_⟩
    cases hobjection : w.objection? Xml.Element.attr? (.enter s) with
    | some err =>
      obtain ⟨notices, hvisit⟩ := visit_of_complaint indent hobjection
      simp [hvisit] at h
    | none =>
      obtain ⟨role, st, notices, -, -, hopening⟩ := opening_of_clean (indent + s.depth) hobjection
      rw [visit, hopening, Traced.bind_of_ok rfl] at h
      cases st with
      | none => simp [lineOf, Traced.after] at h
      | some st =>
        have hline : n = indent + s.depth ∧
            text = st.line w.options.escaping (w.opensBlock s.element) := by
          simpa [lineOf, Traced.after] using h
        exact hline.1

/-- **The levels of lines.** Every line that writing an element gives stands at the level of one of
its elements, which is the level that the writing begins at and the depth of that element
together. -/
theorem indent_of_line_mem {indent n : Nat} {text : String} {e : Xml.Element}
    (h : .line n text ∈ (w.element indent e).trace) : ∃ s ∈ e.sites, n = indent + s.depth := by
  rw [element_eq_forM] at h
  obtain ⟨v, hv, hline⟩ := Traced.exists_of_mem_forM h
  obtain ⟨s, hvisit, hn⟩ := indent_of_visit hline
  refine ⟨s, Xml.Element.mem_sites.mpr ?_, hn⟩
  rcases hvisit with rfl | rfl
  · exact hv
  · exact Xml.Node.enter_mem_of_leave [] e.node hv

/-- An element is written in full only if there is nothing wrong with any element in it. -/
theorem clean_of_element_ok {indent : Nat} {e : Xml.Element}
    (hok : (w.element indent e).outcome = .ok ()) :
    ∀ s ∈ e.sites, w.complaint? Xml.Element.attr? s.element = none := by
  intro s hs
  rw [element_eq_forM] at hok
  have hvisit := Traced.ok_of_forM_ok hok _ (Xml.Element.mem_sites.mp hs)
  cases hcomplaint : w.complaint? Xml.Element.attr? s.element with
  | none => rfl
  | some err =>
    have hs' : w.objection? Xml.Element.attr? (.enter s) = some err := hcomplaint
    obtain ⟨notices, herror⟩ := visit_of_complaint indent hs'
    rw [herror] at hvisit
    cases hvisit

end Writer

end GroovyViews
