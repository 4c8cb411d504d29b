import GroovyViews.Proofs.RoundTrip
import Mathlib.Data.List.Forall2

/-!
# What can be told from the line of an element

A generic element whose names have no colons and whose values are not code can be told from its
escaped line, except for white space around its values: the call that is read back tells its method,
its attributes in order and its text.
-/

namespace GroovyViews

open Groovy (Call Expression)

/-- The value is code: it stands between `${` and a closing brace and is no key of a message. -/
def IsCode (value : String) : Prop :=
  ['$', '\x7b'] <+: value.toList ∧ ¬['$', '\x7b', '%'] <+: value.toList ∧
    value.toList.getLast? = some '\x7d'

instance (value : String) : Decidable (IsCode value) := inferInstanceAs (Decidable (_ ∧ _ ∧ _))

/-- What an expression conveys of a value: the key of a message without the marks around it, or the
text without white space around it. -/
def Conveys (value : String) : Expression → Prop
  | .message key => ∃ cs, value.toList = '$' :: '\x7b' :: '%' :: cs ∧
      key = String.ofList cs.dropLast
  | .literal text => ¬['$', '\x7b', '%'] <+: value.toList ∧ text = Text.trim value
  | .code _ => False

/-- A value that is not code is conveyed by its expression and by no other. -/
theorem conveys_iff {value : String} (h : ¬IsCode value) {x : Expression} :
    Conveys value x ↔ x = .ofValue value := by
  have hliteral : ¬['$', '\x7b', '%'] <+: value.toList →
      (Conveys value x ↔ x = .literal (Text.trim value)) := by
    intro hplain
    cases x with
    | message key =>
      refine iff_of_false ?_ (by simp)
      rintro ⟨cs, hcs, -⟩
      exact hplain ⟨cs, hcs.symm⟩
    | literal text => simp [Conveys, hplain]
    | code text => simp [Conveys]
  unfold Expression.ofValue
  split
  · rename_i cs hcs
    cases x with
    | message key => simp [Conveys, hcs]
    | literal text =>
      refine iff_of_false ?_ (by simp)
      rintro ⟨hplain, -⟩
      exact hplain ⟨cs, hcs.symm⟩
    | code text => simp [Conveys]
  · rename_i cs hmessage hcs
    have hplain : ¬['$', '\x7b', '%'] <+: value.toList := by
      rintro ⟨rest, hrest⟩
      rw [hcs] at hrest
      simp only [List.cons_append, List.nil_append, List.cons.injEq, true_and] at hrest
      exact hmessage rest hrest.symm
    have hlast : cs.getLast? ≠ some '\x7d' := by
      intro hlast
      refine h ⟨⟨cs, hcs.symm⟩, hplain, ?_⟩
      rw [hcs, List.getLast?_cons, List.getLast?_cons, hlast]
      rfl
    rw [if_neg hlast]
    exact hliteral hplain
  · rename_i hmessage hcode
    refine hliteral ?_
    rintro ⟨rest, hrest⟩
    exact hmessage rest hrest.symm

namespace Writer

/-- A generic element that says a call from which it can be told: its names are names without
colons, and none of its values is code. -/
structure Recoverable (w : Writer) (e : Xml.Element) : Prop where
  /-- The names of the element and of its attributes are names, and so are the prefixes in its
  scope. -/
  named : e.tag.Named
  /-- The prefixes of the table are names. -/
  table : ∀ b ∈ w.prefixes.entries, b.isTidy = true
  /-- There is no colon in the local name of an attribute. -/
  localNames : ∀ a ∈ e.tag.attributes, ':' ∉ a.name.localName.toList
  /-- There is no colon in a prefix. -/
  prefixes : ∀ b ∈ w.prefixes.entries ++ e.tag.scope, ':' ∉ b.pfx.toList
  /-- No value of an attribute is code. -/
  values : ∀ a ∈ e.tag.attributes, ¬IsCode a.value
  /-- The text is not code. -/
  text : ∀ t, e.text? = some t → ¬IsCode t

/-- What is shown of an attribute is its key and what its value conveys. -/
def Shows (w : Writer) (e : Xml.Element) (a : Xml.Attribute) (shown : Groovy.Key × Expression) :
    Prop :=
  w.key e a.name = .ok shown.1 ∧ Conveys a.value shown.2

/-- The call tells all of the element: the method, for each attribute in order its key and what its
value conveys, and whether there is a text and what that conveys. -/
structure Tells (w : Writer) (e : Xml.Element) (call : Call) : Prop where
  /-- The method is that of the element. -/
  callee : ∃ qualifier tag, Role.ofName w.prefixes e.name = .ok (.call qualifier tag) ∧
    call.callee = Groovy.Statement.callee qualifier tag
  /-- The attributes are those of the element. -/
  attributes : List.Forall₂ (w.Shows e) e.tag.attributes call.attributes
  /-- The text is that of the element. -/
  text : Option.Rel Conveys e.text? call.text

variable {w : Writer} {e : Xml.Element} {call : Call}

/-- The key of an attribute of such an element can be told. -/
theorem Recoverable.key (h : w.Recoverable e) {a : Xml.Attribute} (ha : a ∈ e.tag.attributes)
    {key : Groovy.Key} (hkey : w.key e a.name = .ok key) : key.Unambiguous := by
  have hspelled := spelled_key h.table h.named ha hkey
  rcases key_cases hkey with rfl | ⟨uri, pfx, rfl, hfound⟩
  · exact ⟨hspelled, h.localNames a ha⟩
  · refine ⟨hspelled.1, hspelled.2, ?_⟩
    rcases hfound with htable | hscope
    · obtain ⟨b, hb, rfl⟩ := Layout.exists_mem_of_prefixOf? htable
      exact h.prefixes b (by simp [hb])
    · rcases Layout.exists_mem_of_scope_prefixOf? hscope with rfl | ⟨b, hb, rfl⟩
      · decide
      · exact h.prefixes b (by simp [hb])

/-- A value that is not code is data. -/
theorem isData_ofValue {value : String} (h : ¬IsCode value) :
    (Expression.ofValue value).isData = true := by
  have hconveys := (conveys_iff h).mpr rfl
  cases hx : Expression.ofValue value with
  | message _ | literal _ => rfl
  | code text =>
    rw [hx] at hconveys
    exact hconveys.elim

/-- Attributes become the arguments whose keys are theirs and that convey their values. -/
theorem mapM_named_iff {attributes : List Xml.Attribute} (h : ∀ a ∈ attributes, ¬IsCode a.value)
    {arguments : List Groovy.Argument} :
    attributes.mapM (w.named e) = .ok arguments ↔
      ∃ shown, List.Forall₂ (w.Shows e) attributes shown ∧
        arguments = shown.map fun a => Groovy.Argument.named a.1 a.2 := by
  induction attributes generalizing arguments with
  | nil =>
    constructor
    · intro hnil
      exact ⟨[], .nil, (Except.ok.inj hnil).symm⟩
    · rintro ⟨shown, hshown, rfl⟩
      cases hshown
      rfl
  | cons a rest ih =>
    have hrest := fun b hb => h b (List.mem_cons_of_mem a hb)
    have hvalue : ∀ x, Conveys a.value x ↔ x = .ofValue a.value :=
      fun _ => conveys_iff (h a (by simp))
    rw [List.mapM_cons]
    constructor
    · intro hok
      obtain ⟨first, hfirst, hok⟩ := exists_of_bind_eq_ok hok
      obtain ⟨others, hothers, hok⟩ := exists_of_bind_eq_ok hok
      obtain ⟨shown, hshown, rfl⟩ := (ih hrest).mp hothers
      cases hkey : w.key e a.name with
      | error err =>
        rw [named, hkey] at hfirst
        cases hfirst
      | ok key =>
        rw [named, hkey] at hfirst
        obtain rfl := Except.ok.inj hfirst
        refine ⟨(key, .ofValue a.value) :: shown, .cons ⟨hkey, (hvalue _).mpr rfl⟩ hshown, ?_⟩
        exact (Except.ok.inj hok).symm
    · rintro ⟨shown, hshown, rfl⟩
      cases hshown with
      | cons hfirst hothers =>
        obtain ⟨hkey, hconveys⟩ := hfirst
        rw [named, hkey, (ih hrest).mpr ⟨_, hothers, rfl⟩, ← (hvalue _).mp hconveys]
        rfl

/-- The texts that convey a text are its expression. -/
theorem rel_conveys_iff {text : Option String} (h : ∀ t, text = some t → ¬IsCode t)
    {shown : Option Expression} : Option.Rel Conveys text shown ↔ shown = text.map .ofValue := by
  cases text with
  | none => cases shown <;> simp
  | some t =>
    cases shown with
    | none => simp
    | some x => simpa using conveys_iff (h t rfl)

/-- The arguments that an element's line has are those of the call that tells all of it. -/
theorem Tells.arguments_eq (hrecoverable : w.Recoverable e) (h : w.Tells e call) :
    w.arguments e = .ok call.arguments := by
  rw [Writer.arguments_eq, (mapM_named_iff hrecoverable.values).mpr ⟨_, h.attributes, rfl⟩,
    Call.arguments, (rel_conveys_iff hrecoverable.text).mp h.text, Option.map_map]
  rfl

/-- An element with arguments has a call that tells all of it. -/
theorem exists_tells (hrecoverable : w.Recoverable e) {qualifier tag : String}
    (hrole : Role.ofName w.prefixes e.name = .ok (.call qualifier tag))
    {arguments : List Groovy.Argument} (hargs : w.arguments e = .ok arguments) :
    ∃ call, w.Tells e call := by
  rw [Writer.arguments_eq] at hargs
  cases hnamed : e.tag.attributes.mapM (w.named e) with
  | error err =>
    rw [hnamed] at hargs
    cases hargs
  | ok named =>
    obtain ⟨shown, hshown, -⟩ := (mapM_named_iff hrecoverable.values).mp hnamed
    exact ⟨⟨Groovy.Statement.callee qualifier tag, shown, e.text?.map .ofValue⟩,
      ⟨qualifier, tag, hrole, rfl⟩, hshown, (rel_conveys_iff hrecoverable.text).mpr rfl⟩

/-- The call that tells all of such an element can be told from its line. -/
theorem Tells.unambiguous (hrecoverable : w.Recoverable e) (h : w.Tells e call) :
    call.Unambiguous := by
  obtain ⟨qualifier, tag, hrole, hcallee⟩ := h.callee
  refine ⟨?_, ?_⟩
  · have hqualifier : Xml.Spelled qualifier :=
      .of_isTidy (Layout.isTidy_qualifier hrole hrecoverable.table)
    have htag : Xml.Spelled tag := by
      rw [(Layout.ofName_eq_call hrole).1]
      exact .of_isName hrecoverable.named.name
    have hdot : Xml.Spelled "." := by
      intro c hc
      obtain rfl : c = '.' := by simpa using hc
      decide
    rw [hcallee, Groovy.Statement.callee]
    split
    · exact htag
    · exact (hqualifier.append hdot).append htag
  · intro argument hargument
    rcases argument_cases (h.arguments_eq hrecoverable) argument hargument with
      ⟨a, ha, key, hkey, rfl⟩ | ⟨t, ht, rfl⟩
    · exact ⟨hrecoverable.key ha hkey, isData_ofValue (hrecoverable.values a ha)⟩
    · exact isData_ofValue (hrecoverable.text t ht)

/-- The line of such an element is that of the call that tells all of it. -/
theorem Tells.head_eq (hrecoverable : w.Recoverable e) (h : w.Tells e call) {qualifier tag : String}
    (hrole : Role.ofName w.prefixes e.name = .ok (.call qualifier tag))
    {arguments : List Groovy.Argument} (hargs : w.arguments e = .ok arguments)
    (escaping : Escaping) :
    (Groovy.Statement.call qualifier tag arguments).head escaping = call.render escaping := by
  obtain ⟨qualifier', tag', hrole', hcallee⟩ := h.callee
  obtain ⟨rfl, rfl⟩ := Role.call.inj (Except.ok.inj (hrole.symm.trans hrole'))
  obtain rfl := Except.ok.inj (hargs.symm.trans (h.arguments_eq hrecoverable))
  rw [Groovy.Statement.head, Call.render, hcallee]

/-- **An escaped call can be read back.** Let a generic element have names without colons and no
value that is code. Then what the reader finds in its escaped line is a call that tells all of the
element: the method, every attribute in order with its key and with what its value conveys, as a
text or as the key of a message, and whether there is a text and what that conveys. Hence the calls
that tell all of two such elements are the same if their lines are. -/
theorem read_head (h : w.Recoverable e) {qualifier tag : String}
    (hrole : Role.ofName w.prefixes e.name = .ok (.call qualifier tag))
    {arguments : List Groovy.Argument} (hargs : w.arguments e = .ok arguments) :
    (∃ call, Call.read ((Groovy.Statement.call qualifier tag arguments).head .backslash) =
      some call ∧ w.Tells e call) ∧
    ∀ (w' : Writer) (e' : Xml.Element) (qualifier' tag' : String)
      (arguments' : List Groovy.Argument), w'.Recoverable e' →
      Role.ofName w'.prefixes e'.name = .ok (.call qualifier' tag') →
      w'.arguments e' = .ok arguments' →
      (Groovy.Statement.call qualifier' tag' arguments').head .backslash =
        (Groovy.Statement.call qualifier tag arguments).head .backslash →
      ∀ call call', w.Tells e call → w'.Tells e' call' → call' = call := by
  refine ⟨?_, ?_⟩
  · obtain ⟨call, hcall⟩ := exists_tells h hrole hargs
    refine ⟨call, ?_, hcall⟩
    rw [hcall.head_eq h hrole hargs, Call.read_render (hcall.unambiguous h)]
  · intro w' e' qualifier' tag' arguments' h' hrole' hargs' hheads call call' hcall hcall'
    rw [hcall.head_eq h hrole hargs, hcall'.head_eq h' hrole' hargs'] at hheads
    have hread := Call.read_render (hcall.unambiguous h)
    have hread' := Call.read_render (hcall'.unambiguous h')
    rw [hheads, hread] at hread'
    exact (Option.some.inj hread').symm

/-- A list item with punctuation in its text and a title. -/
private def item (title : String) : Xml.Element :=
  ⟨⟨⟨none, "li"⟩, [⟨⟨none, "title"⟩, title⟩, ⟨⟨some "urn:x", "k"⟩, "$\x7b%Key\x7d"⟩], [],
    [⟨"x", "urn:x"⟩], ⟨1, 1⟩⟩, [.text " \"a\", b: $\\ "]⟩

/-- A writer that knows the prefix in the item. -/
private def lister : Writer := ⟨⟨[⟨"x", "urn:x"⟩]⟩, .default⟩

/-- A list item can be told from its line, but for the blanks around its title. -/
theorem read_head_item :
    lister.Recoverable (item "b") ∧
    (∃ arguments, lister.arguments (item "b") = .ok arguments ∧
      ∃ call, Call.read ((Groovy.Statement.call "" "li" arguments).head .backslash) = some call ∧
        lister.Tells (item "b") call) ∧
    ∀ call call', lister.Tells (item "b") call → lister.Tells (item " b ") call' →
      call' = call := by
  have htext : ∀ t ∈ (item "b").text?, ¬IsCode t := by decide
  have hrecoverable : lister.Recoverable (item "b") :=
    ⟨⟨by decide, by decide, by decide⟩, by decide, by decide, by decide, by decide, htext⟩
  have hrecoverable' : lister.Recoverable (item " b ") :=
    ⟨⟨by decide, by decide, by decide⟩, by decide, by decide, by decide, by decide, htext⟩
  obtain ⟨arguments, hargs⟩ : ∃ arguments, lister.arguments (item "b") = .ok arguments ∧
      lister.arguments (item " b ") = .ok arguments := ⟨_, rfl, by rfl⟩
  obtain ⟨hread, hsame⟩ := read_head hrecoverable rfl hargs.1
  exact ⟨hrecoverable, ⟨arguments, hargs.1, hread⟩,
    hsame lister _ _ _ _ hrecoverable' rfl hargs.2 rfl⟩

end Writer

end GroovyViews
