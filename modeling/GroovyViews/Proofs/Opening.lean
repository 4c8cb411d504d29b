import GroovyViews.Proofs.Written

/-!
# What opening an element does

An element either has something wrong with it, and then opening it gives notices only and ends with
that complaint, or it says at most one statement, and then opening it writes at most that one line.
Which of the two is decided by the element alone, without regard to what is around it.
-/

namespace GroovyViews

namespace Role

/-- Groups and tags that are left out write no line; every other element writes one. -/
def writesLine : Role → Bool
  | control .choose | control (.other _) => false
  | _ => true

/-- The roles whose line may open a block. -/
def mayOpenBlock : Role → Bool
  | call _ _ | control .ifTag | control .when | control .otherwise => true
  | _ => false

/-- The attributes without which there is no line, in the order in which they are looked for. -/
def required : Role → List String
  | control .ifTag | control .when => ["test"]
  | control .invokeStatic => ["var", "className", "method"]
  | _ => []

/-- The notice that an element gets in a role, if it gets one: there is no block for its content to
go in, or it is left out. -/
def remark? (e : Xml.Element) : Role → Option Notice
  | control .invokeStatic =>
    if e.hasChildren then some (.contentWithoutBlock e.shownName e.position) else none
  | control (.other _) => some (.tagSkipped e.shownName e.position)
  | _ => none

/-- The control tags are the elements of the control namespace, whatever the prefixes are. -/
theorem ofName_eq_control_iff {t : PrefixTable} {name : Xml.ExpandedName} {tag : Control} :
    ofName t name = .ok (control tag) ↔
      name.uri.any isControlUri = true ∧ tag = .ofLocalName name.localName := by
  unfold ofName PrefixTable.prefixOf
  cases name.uri with
  | none => simp
  | some uri =>
    by_cases hcontrol : isControlUri uri = true
    · simp [hcontrol, eq_comm]
    · cases hpfx : t.prefixOf? uri <;> simp [hcontrol, hpfx, Except.map]

end Role

/-- The value of the attribute with a local name and without a namespace. -/
def Xml.Element.plainAttr? (e : Xml.Element) (localName : String) : Option String :=
  (e.tag.attributes.find? fun a => a.name == ⟨none, localName⟩).map Xml.Attribute.value

/-- A way to find an element's attribute by its local name. -/
abbrev Lookup := Xml.Element → String → Option String

/-- The error lies in the view and not in the input or output. -/
def ConversionError.isAboutView : ConversionError → Bool
  | view _ | unsupportedTag _ _ => true
  | io _ | placement _ => false

namespace Writer

/-- The role of an element, if its namespace has a prefix. -/
def role? (w : Writer) (e : Xml.Element) : Option Role :=
  (Role.ofName w.prefixes e.name).toOption

/-- The element writes a line of its own. -/
def writesLine (w : Writer) (e : Xml.Element) : Bool := (w.role? e).any Role.writesLine

/-- The line of the element opens a block: it may, and there are child elements to go in it. -/
def opensBlock (w : Writer) (e : Xml.Element) : Bool :=
  (w.role? e).any Role.mayOpenBlock && e.hasChildren

/-- Neither the table nor the element's scope has a prefix for the namespace. -/
def isStrange (w : Writer) (e : Xml.Element) (uri : String) : Bool :=
  (w.prefixes.prefixOf? uri).isNone && (e.prefixOf? uri).isNone

/-- The first namespace among attributes for which there is no prefix. -/
def strange? (w : Writer) (e : Xml.Element) (attributes : List Xml.Attribute) : Option String :=
  (attributes.filterMap fun a => a.name.uri).find? (w.isStrange e)

/-- What is wrong with an element in its role. -/
def roleComplaint? (w : Writer) (look : Lookup) (e : Xml.Element) : Role → Option ConversionError
  | .call _ _ => (w.strange? e e.tag.attributes).map fun uri => .view (.unresolvedNamespace uri)
  | .control (.other name) =>
    if w.options.unknownTags = .reject then some (.unsupportedTag name e.position) else none
  | role => (role.required.find? fun n => (look e n).isNone).map fun n =>
      .view (.missingAttribute n e.shownName e.position)

/-- What is wrong with an element: it has a namespace that is not the control namespace and has no
prefix, or something is wrong with it in its role. -/
def complaint? (w : Writer) (look : Lookup) (e : Xml.Element) : Option ConversionError :=
  match e.name.uri with
  | none => w.roleComplaint? look e (.call "" e.name.localName)
  | some uri =>
    if isControlUri uri then
      w.roleComplaint? look e (.control (Control.ofLocalName e.name.localName))
    else
      match w.prefixes.prefixOf? uri with
      | none => some (.view (.unresolvedNamespace uri))
      | some pfx => w.roleComplaint? look e (.call pfx e.name.localName)

/-- The statement that an element says in its role, if it says one. -/
inductive States (w : Writer) (e : Xml.Element) : Role → Option Groovy.Statement → Prop where
  /-- A call with the attributes and the text as arguments. -/
  | call {qualifier tag : String} {arguments : List Groovy.Argument} :
      w.arguments e = .ok arguments →
      States w e (.call qualifier tag) (some (.call qualifier tag arguments))
  /-- The condition of an `if` or of an alternative. -/
  | condition {tag : Control} {test : String} : tag = .ifTag ∨ tag = .when →
      e.attr? "test" = some test →
      States w e (.control tag) (some (.condition (.ofValue test)))
  /-- The last alternative. -/
  | otherwise : States w e (.control .otherwise) (some .alternative)
  /-- The name for a static result. -/
  | invokeStatic {var className method : String} : e.attr? "var" = some var →
      e.attr? "className" = some className → e.attr? "method" = some method →
      States w e (.control .invokeStatic) (some (.definition var className method))
  /-- A group says nothing. -/
  | choose : States w e (.control .choose) none
  /-- A tag that is left out says nothing. -/
  | other {name : String} : w.options.unknownTags = .skip →
      States w e (.control (.other name)) none

variable {w : Writer} {e : Xml.Element}

/-- A namespace without a prefix is an error for the key of an attribute. -/
theorem key_of_strange {name : Xml.ExpandedName} {uri : String} (huri : name.uri = some uri)
    (hstrange : w.isStrange e uri = true) :
    w.key e name = .error (.unresolvedNamespace uri) := by
  simp only [isStrange, Bool.and_eq_true, Option.isNone_iff_eq_none] at hstrange
  simp [key, huri, hstrange.1, hstrange.2]

/-- Every other attribute has a key: its local name, with a prefix from the table or from the scope
if it has a namespace. -/
theorem exists_key {name : Xml.ExpandedName}
    (hknown : ∀ uri, name.uri = some uri → w.isStrange e uri = false) :
    ∃ key, w.key e name = .ok key ∧ (key = .plain name.localName ∨
      ∃ uri pfx, key = .qualified pfx name.localName ∧
        (w.prefixes.prefixOf? uri = some pfx ∨ e.prefixOf? uri = some pfx)) := by
  cases huri : name.uri with
  | none => exact ⟨_, by simp [key, huri], .inl rfl⟩
  | some uri =>
    have hstrange := hknown uri huri
    cases htable : w.prefixes.prefixOf? uri with
    | some pfx =>
      exact ⟨.qualified pfx name.localName, by simp [key, huri, htable],
        .inr ⟨uri, pfx, rfl, .inl htable⟩⟩
    | none =>
      cases hscope : e.prefixOf? uri with
      | some pfx =>
        exact ⟨.qualified pfx name.localName, by simp [key, huri, htable, hscope],
          .inr ⟨uri, pfx, rfl, .inr hscope⟩⟩
      | none => simp [isStrange, htable, hscope] at hstrange

/-- A key is a local name, with a prefix from the table or from the scope if it has one. -/
theorem key_cases {name : Xml.ExpandedName} {key : Groovy.Key} (h : w.key e name = .ok key) :
    key = .plain name.localName ∨ ∃ uri pfx, key = .qualified pfx name.localName ∧
      (w.prefixes.prefixOf? uri = some pfx ∨ e.prefixOf? uri = some pfx) := by
  have hknown : ∀ uri, name.uri = some uri → w.isStrange e uri = false := by
    intro uri huri
    cases hstrange : w.isStrange e uri with
    | false => rfl
    | true =>
      rw [key_of_strange huri hstrange] at h
      cases h
  obtain ⟨key', hkey', hform⟩ := exists_key hknown
  obtain rfl : key' = key := Except.ok.inj (hkey'.symm.trans h)
  exact hform

/-- An attribute as an argument. -/
def named (w : Writer) (e : Xml.Element) (a : Xml.Attribute) :
    Except ViewError Groovy.Argument :=
  (w.key e a.name).map fun key => .named key (.ofValue a.value)

/-- The arguments are the attributes, each as an argument, and the text. -/
theorem arguments_eq (w : Writer) (e : Xml.Element) :
    w.arguments e = (e.tag.attributes.mapM (w.named e)).map fun named =>
      named ++ (e.text?.map fun t => Groovy.Argument.positional (.ofValue t)).toList := by
  have hstep : (fun a : Xml.Attribute => do
      return Groovy.Argument.named (← w.key e a.name) (.ofValue a.value)) = w.named e := by
    funext a
    unfold named
    cases w.key e a.name <;> rfl
  unfold arguments
  rw [hstep]
  cases e.tag.attributes.mapM (w.named e) <;> rfl

/-- Attributes become arguments if each of their namespaces has a prefix. -/
theorem exists_mapM_named {attributes : List Xml.Attribute}
    (h : w.strange? e attributes = none) : ∃ args, attributes.mapM (w.named e) = .ok args ∧
      ∀ arg ∈ args, ∃ a ∈ attributes, w.named e a = .ok arg := by
  induction attributes with
  | nil => exact ⟨[], rfl, by simp⟩
  | cons a rest ih =>
    have hrest : w.strange? e rest = none := by
      simp only [strange?, List.find?_eq_none, List.mem_filterMap] at h ⊢
      rintro uri ⟨b, hb, huri⟩
      exact h uri ⟨b, by simp [hb], huri⟩
    have hknown : ∀ uri, a.name.uri = some uri → w.isStrange e uri = false := by
      intro uri huri
      simp only [strange?, List.find?_eq_none, List.mem_filterMap] at h
      simpa using h uri ⟨a, by simp, huri⟩
    obtain ⟨args, hargs, hmem⟩ := ih hrest
    obtain ⟨key, hkey, -⟩ := exists_key hknown
    have hnamed : w.named e a = .ok (.named key (.ofValue a.value)) := by
      simp [named, hkey, Except.map]
    refine ⟨.named key (.ofValue a.value) :: args, ?_, ?_⟩
    · simp [List.mapM_cons, hnamed, hargs, Bind.bind, Except.bind, pure, Except.pure]
    · intro arg harg
      rcases List.mem_cons.mp harg with rfl | harg
      · exact ⟨a, by simp, hnamed⟩
      · obtain ⟨b, hb, hbarg⟩ := hmem arg harg
        exact ⟨b, by simp [hb], hbarg⟩

/-- The first attribute whose namespace has no prefix is the one that is reported. -/
theorem mapM_named_of_strange {attributes : List Xml.Attribute} {uri : String}
    (h : w.strange? e attributes = some uri) :
    attributes.mapM (w.named e) = .error (.unresolvedNamespace uri) := by
  induction attributes with
  | nil => simp [strange?] at h
  | cons a rest ih =>
    cases huri : a.name.uri with
    | none =>
      have hrest : w.strange? e rest = some uri := by simpa [strange?, huri] using h
      have hnamed : w.named e a = .ok (.named (.plain a.name.localName) (.ofValue a.value)) := by
        simp [named, key, huri, Except.map]
      simp [List.mapM_cons, hnamed, ih hrest, Bind.bind, Except.bind]
    | some other =>
      by_cases hstrange : w.isStrange e other = true
      · have heq : other = uri := by simpa [strange?, huri, hstrange] using h
        subst other
        simp [List.mapM_cons, named, key_of_strange huri hstrange, Except.map, Bind.bind,
          Except.bind]
      · have hrest : w.strange? e rest = some uri := by
          simpa [strange?, huri, List.find?_cons, hstrange] using h
        have hknown : ∀ u, a.name.uri = some u → w.isStrange e u = false := by
          intro u hu
          rw [huri, Option.some.injEq] at hu
          simpa [← hu] using hstrange
        obtain ⟨key, hkey, -⟩ := exists_key hknown
        simp [List.mapM_cons, named, hkey, ih hrest, Except.map, Bind.bind, Except.bind]

/-- Every argument is an attribute under its key or the text. -/
theorem argument_cases {arguments : List Groovy.Argument} (h : w.arguments e = .ok arguments) :
    ∀ argument ∈ arguments,
      (∃ a ∈ e.tag.attributes, ∃ key, w.key e a.name = .ok key ∧
        argument = .named key (.ofValue a.value)) ∨
      ∃ t, e.text? = some t ∧ argument = .positional (.ofValue t) := by
  rw [arguments_eq] at h
  cases hstrange : w.strange? e e.tag.attributes with
  | some uri =>
    rw [mapM_named_of_strange hstrange] at h
    cases h
  | none =>
    obtain ⟨args, hargs, hmem⟩ := exists_mapM_named hstrange
    rw [hargs] at h
    obtain rfl := Except.ok.inj h
    intro argument hargument
    rcases List.mem_append.mp hargument with hin | hin
    · obtain ⟨a, ha, hnamed⟩ := hmem argument hin
      cases hkey : w.key e a.name with
      | error err => simp [named, hkey, Except.map] at hnamed
      | ok key =>
        refine .inl ⟨a, ha, key, hkey, ?_⟩
        simpa [named, hkey, Except.map] using hnamed.symm
    · obtain ⟨t, ht, rfl⟩ :
          ∃ t, e.text? = some t ∧ Groovy.Argument.positional (.ofValue t) = argument := by
        simpa using hin
      exact .inr ⟨t, ht, rfl⟩

/-- An attribute that is there is found. -/
theorem ofView_required_of_some {n v : String} (h : e.attr? n = some v) :
    Emission.ofView (e.required n) = pure v := by
  simp [Xml.Element.required, h, Emission.ofView, Traced.ofExcept]
  rfl

/-- An attribute that is not there is an error. -/
theorem ofView_required_of_none {n : String} (h : e.attr? n = none) :
    Emission.ofView (e.required n) =
      .fail (.view (.missingAttribute n e.shownName e.position)) := by
  simp [Xml.Element.required, h, Emission.ofView, Traced.ofExcept, Traced.fail]

/-- An element that says something in its role, or nothing, gets that as its statement, with the
remark on it if there is one. -/
theorem statement_of_states {role : Role} {s : Option Groovy.Statement} (h : w.States e role s) :
    w.statement e role = ⟨List.map Step.notice (role.remark? e).toList, .ok s⟩ := by
  cases h with
  | call harguments =>
    simp only [statement, harguments]
    rfl
  | condition htag htest =>
    rcases htag with rfl | rfl <;>
      (simp only [statement, controlStatement, ofView_required_of_some htest]; rfl)
  | otherwise | choose => rfl
  | invokeStatic hvar hclass hmethod =>
    simp only [statement, controlStatement, ofView_required_of_some hvar,
      ofView_required_of_some hclass, ofView_required_of_some hmethod, Role.remark?]
    cases e.hasChildren <;> rfl
  | other hpolicy =>
    simp only [statement, controlStatement, hpolicy]
    rfl

/-- A control tag with nothing wrong has all attributes that it needs. -/
theorem exists_attr_of_clean {look : Lookup} {tag : Control}
    (h : w.roleComplaint? look e (.control tag) = none) :
    ∀ n ∈ (Role.control tag).required, ∃ v, look e n = some v := by
  intro n hn
  cases tag with
  | choose | otherwise | other name => simp [Role.required] at hn
  | ifTag | when | invokeStatic =>
    simp only [roleComplaint?, Option.map_eq_none_iff, List.find?_eq_none] at h
    simpa [Option.ne_none_iff_exists'] using h n hn

/-- An element with nothing wrong in its role says something in it, or nothing. -/
theorem exists_states_of_clean {role : Role}
    (h : w.roleComplaint? Xml.Element.attr? e role = none) : ∃ s, w.States e role s := by
  cases role with
  | call qualifier tag =>
    obtain ⟨args, hargs, -⟩ := exists_mapM_named (by simpa [roleComplaint?] using h)
    have harguments := w.arguments_eq e
    rw [hargs] at harguments
    exact ⟨_, .call harguments⟩
  | control tag =>
    have hattr := exists_attr_of_clean h
    cases tag with
    | ifTag | when =>
      obtain ⟨test, htest⟩ := hattr "test" (by simp [Role.required])
      exact ⟨_, .condition (by simp) htest⟩
    | otherwise => exact ⟨_, .otherwise⟩
    | choose => exact ⟨_, .choose⟩
    | invokeStatic =>
      obtain ⟨var, hvar⟩ := hattr "var" (by simp [Role.required])
      obtain ⟨className, hclass⟩ := hattr "className" (by simp [Role.required])
      obtain ⟨method, hmethod⟩ := hattr "method" (by simp [Role.required])
      exact ⟨_, .invokeStatic hvar hclass hmethod⟩
    | other name =>
      cases hpolicy : w.options.unknownTags with
      | skip => exact ⟨_, .other hpolicy⟩
      | reject => simp [roleComplaint?, hpolicy] at h

/-- What is wrong with an element in its role ends the search for its statement at once. -/
theorem statement_of_complaint {role : Role} {err : ConversionError}
    (h : w.roleComplaint? Xml.Element.attr? e role = some err) :
    w.statement e role = .fail err := by
  cases role with
  | call qualifier tag =>
    obtain ⟨uri, huri, rfl⟩ := Option.map_eq_some_iff.mp h
    have harguments := w.arguments_eq e
    rw [mapM_named_of_strange huri] at harguments
    simp only [statement, harguments]
    rfl
  | control tag =>
    cases tag with
    | otherwise | choose => simp [roleComplaint?, Role.required] at h
    | ifTag | when =>
      cases htest : e.attr? "test" with
      | some test => simp [roleComplaint?, Role.required, htest] at h
      | none =>
        obtain rfl : _ = err := by simpa [roleComplaint?, Role.required, htest] using h
        simp only [statement, controlStatement, ofView_required_of_none htest]
        rfl
    | invokeStatic =>
      cases hvar : e.attr? "var" with
      | none =>
        obtain rfl : _ = err := by simpa [roleComplaint?, Role.required, hvar] using h
        simp only [statement, controlStatement, ofView_required_of_none hvar]
        rfl
      | some var =>
        cases hclass : e.attr? "className" with
        | none =>
          obtain rfl : _ = err := by simpa [roleComplaint?, Role.required, hvar, hclass] using h
          simp only [statement, controlStatement, ofView_required_of_some hvar,
            ofView_required_of_none hclass]
          rfl
        | some className =>
          cases hmethod : e.attr? "method" with
          | none =>
            obtain rfl : _ = err := by
              simpa [roleComplaint?, Role.required, hvar, hclass, hmethod] using h
            simp only [statement, controlStatement, ofView_required_of_some hvar,
              ofView_required_of_some hclass, ofView_required_of_none hmethod]
            rfl
          | some method => simp [roleComplaint?, Role.required, hvar, hclass, hmethod] at h
    | other name =>
      cases hpolicy : w.options.unknownTags with
      | skip => simp [roleComplaint?, hpolicy] at h
      | reject =>
        obtain rfl : _ = err := by simpa [roleComplaint?, hpolicy] using h
        simp only [statement, controlStatement, hpolicy]

/-- The complaint about an element is that its namespace has no prefix, or the one in its role. -/
theorem complaint?_eq (w : Writer) (look : Lookup) (e : Xml.Element) :
    w.complaint? look e = match Role.ofName w.prefixes e.name with
      | .error err => some (.view err)
      | .ok role => w.roleComplaint? look e role := by
  unfold complaint? Role.ofName PrefixTable.prefixOf
  cases e.name.uri with
  | none => rfl
  | some uri =>
    by_cases hcontrol : isControlUri uri = true
    · simp [hcontrol]
    · cases hpfx : w.prefixes.prefixOf? uri <;> simp [hcontrol, hpfx, Except.map]

/-- What is wrong with an element lies in the view. -/
theorem isAboutView_of_complaint? {look : Lookup} {err : ConversionError}
    (h : w.complaint? look e = some err) : err.isAboutView = true := by
  rw [complaint?_eq] at h
  cases hrole : Role.ofName w.prefixes e.name with
  | error cause =>
    obtain rfl : _ = err := by simpa [hrole] using h
    rfl
  | ok role =>
    rw [hrole] at h
    cases err with
    | view cause => rfl
    | unsupportedTag tag pos => rfl
    | io cause | placement cause =>
      cases role with
      | call qualifier tag => simp [roleComplaint?] at h
      | control tag => cases tag <;> simp [roleComplaint?] at h

/-- A statement may open a block exactly if the role it comes from may. -/
theorem States.mayOpenBlock_eq {role : Role} {s : Groovy.Statement}
    (h : w.States e role (some s)) : s.mayOpenBlock = role.mayOpenBlock := by
  cases h with
  | condition htag => rcases htag with rfl | rfl <;> rfl
  | call | otherwise | invokeStatic => rfl

/-- The roles that say nothing are those that write no line. -/
theorem States.isSome_eq {role : Role} {s : Option Groovy.Statement} (h : w.States e role s) :
    s.isSome = role.writesLine := by
  cases h with
  | condition htag => rcases htag with rfl | rfl <;> rfl
  | call | otherwise | invokeStatic | choose | other => rfl

/-- The line of a statement as a step, if there is a statement. -/
def lineOf (w : Writer) (indent : Nat) (e : Xml.Element) (s : Option Groovy.Statement) :
    List Step :=
  (s.map fun s => Step.line indent (s.line w.options.escaping (w.opensBlock e))).toList

/-- The line that opening an element writes once its statement is known, and whether it opens a
block. -/
def write (w : Writer) (indent : Nat) (e : Xml.Element) : Option Groovy.Statement → Emission Bool
  | none => return false
  | some s => do
    Emission.line indent (s.line w.options.escaping (s.mayOpenBlock && e.hasChildren))
    return s.mayOpenBlock && e.hasChildren

/-- Opening an element with a known role looks for its statement and then writes it. -/
theorem opening_of_role {indent : Nat} {role : Role}
    (h : Role.ofName w.prefixes e.name = .ok role) :
    w.opening indent e =
      (w.statement e role >>= w.write indent e).after [.notice (.visiting indent e.name role)] := by
  unfold opening
  rw [h]
  change (w.statement e role >>= _).after _ = _
  congr 2

/-- An element opens with the notice of the visit, the remark on it if there is one, and the line of
what it says in its role, if it says something. -/
theorem opening_of_states (indent : Nat) {role : Role} {s : Option Groovy.Statement}
    (hrole : Role.ofName w.prefixes e.name = .ok role) (hs : w.States e role s) :
    w.opening indent e = ⟨List.map Step.notice
        (.visiting indent e.name role :: (role.remark? e).toList) ++ w.lineOf indent e s,
      .ok (w.opensBlock e)⟩ := by
  have hblock : w.opensBlock e = (role.mayOpenBlock && e.hasChildren) := by
    simp [opensBlock, role?, hrole, Except.toOption]
  rw [opening_of_role hrole, statement_of_states hs, Traced.bind_of_ok rfl]
  cases s with
  | none =>
    have hmay : role.mayOpenBlock = false := by cases hs <;> rfl
    simp [write, lineOf, hblock, hmay, Traced.after]
  | some s =>
    rw [← hs.mayOpenBlock_eq] at hblock
    have hwrite : w.write indent e (some s) =
        ⟨[.line indent (s.line w.options.escaping (s.mayOpenBlock && e.hasChildren))],
          .ok (s.mayOpenBlock && e.hasChildren)⟩ := rfl
    simp [hwrite, lineOf, hblock, Traced.after]

/-- An element with nothing wrong opens with notices and the line of its statement, if it says
one. -/
theorem opening_of_clean (indent : Nat) (h : w.complaint? Xml.Element.attr? e = none) :
    ∃ role s notices, Role.ofName w.prefixes e.name = .ok role ∧ w.States e role s ∧
      w.opening indent e =
        ⟨List.map Step.notice notices ++ w.lineOf indent e s, .ok (w.opensBlock e)⟩ := by
  rw [complaint?_eq] at h
  cases hrole : Role.ofName w.prefixes e.name with
  | error err => simp [hrole] at h
  | ok role =>
    rw [hrole] at h
    obtain ⟨s, hs⟩ := exists_states_of_clean h
    exact ⟨role, s, _, rfl, hs, opening_of_states indent hrole hs⟩

/-- What is wrong with an element ends its opening before it has written anything. -/
theorem opening_of_complaint (indent : Nat) {err : ConversionError}
    (h : w.complaint? Xml.Element.attr? e = some err) :
    ∃ notices, w.opening indent e = ⟨List.map Step.notice notices, .error err⟩ := by
  rw [complaint?_eq] at h
  cases hrole : Role.ofName w.prefixes e.name with
  | error cause =>
    obtain rfl : _ = err := by simpa [hrole] using h
    refine ⟨[], ?_⟩
    unfold opening
    rw [hrole]
    rfl
  | ok role =>
    rw [hrole] at h
    refine ⟨[.visiting indent e.name role], ?_⟩
    rw [opening_of_role hrole, statement_of_complaint h]
    rfl

end Writer

end GroovyViews
