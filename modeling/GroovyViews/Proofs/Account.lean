import GroovyViews.Proofs.Transcript
import Mathlib.Data.List.Find

/-!
# All that opening an element does

Opening an element gives notice of the visit if the element has a role. If something is wrong with
the element, that is all. Otherwise there may be a remark on what is left out, and there is a line
if the role has one. How attributes are looked up has a part in what is wrong and in the line only.

Two elements that answer alike what the opening asks for have the same line and open the same block,
and either there is something wrong with both or with neither.
-/

namespace GroovyViews

namespace Writer

/-- The line of an element, if it has one, with its attributes looked up in a given way. -/
def lineBy? (w : Writer) (look : Lookup) (e : Xml.Element) : Option String :=
  (w.said? look e).map fun s => s.line w.options.escaping (w.opensBlock e)

/-- The notice of a visit to an element that has a role. -/
def arrival (w : Writer) (indent : Nat) (e : Xml.Element) : List Notice :=
  ((w.role? e).map (.visiting indent e.name)).toList

/-- What opening an element does, with its attributes looked up in a given way. -/
def openingBy (w : Writer) (look : Lookup) (indent : Nat) (e : Xml.Element) : Emission Bool :=
  match w.complaint? look e with
  | some err => ⟨List.map Step.notice (w.arrival indent e), .error err⟩
  | none => ⟨List.map Step.notice (w.arrival indent e ++
        ((w.role? e).bind (Role.remark? e)).toList) ++
      ((w.lineBy? look e).map (Step.line indent)).toList, .ok (w.opensBlock e)⟩

/-- What is written for one visit of a walk, with attributes looked up in a given way. -/
def visitBy (w : Writer) (look : Lookup) (indent : Nat) : Xml.Visit → Emission Unit
  | .enter s => do let _ ← w.openingBy look (indent + s.depth) s.element
  | .leave s => w.visit indent (.leave s)

/-- Two writers find the same at two elements, with their attributes looked up in ways of their own.
-/
structure Agrees (w w' : Writer) (look look' : Lookup) (e e' : Xml.Element) : Prop where
  /-- They have the same options. -/
  options : w'.options = w.options
  /-- The elements have the same role. -/
  role : w'.role? e' = w.role? e
  /-- Both elements have child elements, or neither does. -/
  hasChildren : e'.hasChildren = e.hasChildren
  /-- Control tags have the same values for the attributes that they need. -/
  required : ∀ tag, w.role? e = some (.control tag) → ∀ n ∈ (Role.control tag).required,
    look' e' n = look e n
  /-- Calls have the same attributes with the same keys, and the same text. -/
  arguments : ∀ qualifier tag, w.role? e = some (.call qualifier tag) →
    e'.tag.attributes = e.tag.attributes ∧ e'.text? = e.text? ∧
      ∀ a ∈ e.tag.attributes, w'.key e' a.name = w.key e a.name

variable {w w' : Writer} {look look' : Lookup} {e e' : Xml.Element}

/-- What has a role has a name that gives it. -/
theorem ofName_of_role? {role : Role} (h : w.role? e = some role) :
    Role.ofName w.prefixes e.name = .ok role :=
  eq_ok_of_toOption h

/-- Attributes are looked up in whatever namespace. -/
theorem opening_eq_openingBy (w : Writer) (indent : Nat) (e : Xml.Element) :
    w.opening indent e = w.openingBy Xml.Element.attr? indent e := by
  have hcomplaint := w.complaint?_eq Xml.Element.attr? e
  cases hrole : Role.ofName w.prefixes e.name with
  | error err =>
    rw [hrole] at hcomplaint
    unfold opening
    rw [hrole]
    simp only [openingBy, hcomplaint, arrival, role?, hrole]
    rfl
  | ok role =>
    have hsome : w.role? e = some role := by simp [role?, hrole, Except.toOption]
    rw [hrole] at hcomplaint
    cases hwrong : w.roleComplaint? Xml.Element.attr? e role with
    | some err =>
      simp only [openingBy, hcomplaint, hwrong, arrival, hsome]
      rw [opening_of_role hrole, statement_of_complaint hwrong]
      rfl
    | none =>
      obtain ⟨s, hs⟩ := exists_states_of_clean hwrong
      simp only [openingBy, hcomplaint, hwrong, arrival, hsome, lineBy?, hs.said?_eq hrole]
      rw [opening_of_states indent hrole hs, lineOf, Option.map_map]
      rfl

/-- An element with nothing wrong has a line exactly if its role has one. -/
theorem isSome_lineBy? (h : w.complaint? look e = none) :
    (w.lineBy? look e).isSome = w.writesLine e := by
  rw [complaint?_eq] at h
  unfold lineBy? said? writesLine role?
  cases hrole : Role.ofName w.prefixes e.name with
  | error err => rfl
  | ok role =>
    rw [hrole] at h
    simp only [Except.toOption, Option.bind_some, Option.any_some, Option.isSome_map]
    cases role with
    | call qualifier tag =>
      obtain ⟨args, hargs, -⟩ := exists_mapM_named (by simpa [roleComplaint?] using h)
      simp only [statementIn, arguments_eq, hargs]
      rfl
    | control tag =>
      have hattr := exists_attr_of_clean h
      cases tag with
      | choose | otherwise | other name => rfl
      | ifTag | when =>
        obtain ⟨test, htest⟩ := hattr "test" (by simp [Role.required])
        simp [statementIn, htest, Role.writesLine]
      | invokeStatic =>
        obtain ⟨var, hvar⟩ := hattr "var" (by simp [Role.required])
        obtain ⟨className, hclass⟩ := hattr "className" (by simp [Role.required])
        obtain ⟨method, hmethod⟩ := hattr "method" (by simp [Role.required])
        simp [statementIn, hvar, hclass, hmethod, Role.writesLine]

/-- What is wrong with an element that has a role is what is wrong with it in its role. -/
theorem complaint?_of_role? {role : Role} (h : w.role? e = some role) (look : Lookup) :
    w.complaint? look e = w.roleComplaint? look e role := by
  rw [complaint?_eq, ofName_of_role? h]

/-- Something is wrong with an element without a role. -/
theorem isSome_complaint?_of_no_role (h : w.role? e = none) (look : Lookup) :
    (w.complaint? look e).isSome = true := by
  unfold role? at h
  rw [complaint?_eq]
  cases hname : Role.ofName w.prefixes e.name with
  | error err => rfl
  | ok role => simp [hname, Except.toOption] at h

/-- There is a namespace without a prefix among attributes exactly if these do not become arguments.
-/
theorem isSome_strange? (w : Writer) (e : Xml.Element) (attributes : List Xml.Attribute) :
    (w.strange? e attributes).isSome = (attributes.mapM (w.named e)).toOption.isNone := by
  cases hstrange : w.strange? e attributes with
  | none =>
    obtain ⟨args, hargs, -⟩ := exists_mapM_named hstrange
    simp [hargs, Except.toOption]
  | some uri => simp [mapM_named_of_strange hstrange, Except.toOption]

namespace Agrees

variable (h : w.Agrees w' look look' e e')

include h

/-- If one element opens a block, then so does the other. -/
theorem opensBlock : w'.opensBlock e' = w.opensBlock e := by
  unfold Writer.opensBlock
  rw [h.role, h.hasChildren]

/-- The attributes of calls become the same arguments. -/
theorem mapM_named {qualifier tag : String} (hrole : w.role? e = some (.call qualifier tag)) :
    e'.tag.attributes.mapM (w'.named e') = e.tag.attributes.mapM (w.named e) := by
  obtain ⟨hattributes, -, hkeys⟩ := h.arguments qualifier tag hrole
  rw [hattributes]
  generalize e.tag.attributes = attributes at hkeys
  induction attributes with
  | nil => rfl
  | cons a rest ih =>
    have hnamed : w'.named e' a = w.named e a := by rw [named, named, hkeys a (by simp)]
    rw [List.mapM_cons, List.mapM_cons, hnamed, ih fun b hb => hkeys b (by simp [hb])]

/-- The elements say the same. -/
theorem said? : w'.said? look' e' = w.said? look e := by
  unfold Writer.said?
  rw [h.role]
  cases hrole : w.role? e with
  | none => rfl
  | some role =>
    cases role with
    | call qualifier tag =>
      simp only [Option.bind_some, statementIn, arguments_eq, h.mapM_named hrole,
        (h.arguments _ _ hrole).2.1]
    | control tag =>
      have hrequired := h.required tag hrole
      cases tag with
      | ifTag | when | invokeStatic => simp_all [statementIn, Role.required]
      | choose | otherwise | other name => rfl

/-- Control tags lack the same attribute first. -/
theorem find?_required {tag : Control} (hrole : w.role? e = some (.control tag)) :
    (Role.control tag).required.find? (fun n => (look' e' n).isNone) =
      (Role.control tag).required.find? fun n => (look e n).isNone := by
  refine List.find?_congr fun n hn => ?_
  rw [h.required tag hrole n hn]

/-- The elements have the same line. -/
theorem lineBy? : w'.lineBy? look' e' = w.lineBy? look e := by
  unfold Writer.lineBy?
  rw [h.said?, h.options, h.opensBlock]

/-- There is something wrong with one element if there is with the other. -/
theorem isSome_complaint? : (w'.complaint? look' e').isSome = (w.complaint? look e).isSome := by
  have hrole' := h.role
  cases hrole : w.role? e with
  | none =>
    rw [isSome_complaint?_of_no_role hrole, isSome_complaint?_of_no_role (hrole'.trans hrole)]
  | some role =>
    rw [complaint?_of_role? hrole, complaint?_of_role? (hrole'.trans hrole)]
    cases role with
    | call qualifier tag =>
      simp only [roleComplaint?, Option.isSome_map, isSome_strange?, h.mapM_named hrole]
    | control tag =>
      have hrequired := h.find?_required hrole
      cases tag with
      | other name =>
        simp only [roleComplaint?, h.options]
        split <;> rfl
      | ifTag | choose | when | otherwise | invokeStatic =>
        simp only [roleComplaint?, Option.isSome_map, hrequired]

end Agrees

/-- Attributes are looked up in whatever namespace on every visit. -/
theorem visit_eq_visitBy (w : Writer) (indent : Nat) (v : Xml.Visit) :
    w.visit indent v = w.visitBy Xml.Element.attr? indent v := by
  cases v with
  | enter s => rw [visit, visitBy, opening_eq_openingBy]
  | leave s => rfl

/-- Entering an element with something wrong gives no more than the notice of the visit. -/
theorem visitBy_of_complaint (indent : Nat) {s : Xml.Site} {err : ConversionError}
    (h : w.complaint? look s.element = some err) :
    w.visitBy look indent (.enter s) =
      ⟨List.map Step.notice (w.arrival (indent + s.depth) s.element), .error err⟩ := by
  simp only [visitBy, openingBy, h]
  rfl

/-- Entering an element with nothing wrong may also give a remark and write a line. -/
theorem visitBy_of_clean (indent : Nat) {s : Xml.Site} (h : w.complaint? look s.element = none) :
    w.visitBy look indent (.enter s) =
      ⟨List.map Step.notice (w.arrival (indent + s.depth) s.element ++
          ((w.role? s.element).bind (Role.remark? s.element)).toList) ++
        ((w.lineBy? look s.element).map (Step.line (indent + s.depth))).toList, .ok ()⟩ := by
  simp only [visitBy, openingBy, h]
  simp [Bind.bind, Traced.bind, Traced.after]

/-- Entering an element succeeds only if there is nothing wrong with it. -/
theorem clean_of_visitBy_ok {indent : Nat} {s : Xml.Site}
    (h : (w.visitBy look indent (.enter s)).outcome = .ok ()) :
    w.complaint? look s.element = none := by
  cases hcomplaint : w.complaint? look s.element with
  | none => rfl
  | some err =>
    rw [visitBy_of_complaint indent hcomplaint] at h
    cases h

end Writer

end GroovyViews
