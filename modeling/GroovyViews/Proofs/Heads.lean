import GroovyViews.Proofs.Reading
import GroovyViews.Proofs.SingleLine
import GroovyViews.Proofs.Walk

/-!
# Lines that are read as heads

The line of an element whose names, values and text are well behaved is read as a head, and as one
that begins a block exactly if the element opens one.
-/

namespace GroovyViews

/-- A name of a document: a character with which a name may begin, and others. -/
def Xml.isName (s : String) : Bool :=
  s.toList.head?.any Xml.isNameStart && s.toList.all Xml.isNameChar

/-- There is no white space in the text. -/
def Text.isSolid (s : String) : Bool := s.toList.all (!isBlank ·)

/-- A prefix that is empty or a name. -/
def Xml.Binding.isTidy (b : Xml.Binding) : Bool := b.pfx.isEmpty || Xml.isName b.pfx

/-- A prefix that is empty or a name without white space. -/
def Xml.Binding.isPlain (b : Xml.Binding) : Bool := b.isTidy && Text.isSolid b.pfx

/-- The method that an element names ends in an opening brace. -/
def Xml.Element.methodOpens (e : Xml.Element) : Bool :=
  (e.attr? "method").any fun m => (Text.trim m).toList.getLast? = some '\x7b'

/-- An element that is written on one line: its tag and its prefixes are names, and its attributes
and its text have no line feed. -/
structure Xml.Element.Tidy (e : Xml.Element) : Prop where
  /-- The tag is a name. -/
  tag : Xml.isName e.name.localName = true
  /-- So are the prefixes in scope. -/
  prefixes : ∀ b ∈ e.tag.scope, b.isTidy = true
  /-- The names of the attributes are on one line. -/
  attributeNames : ∀ a ∈ e.tag.attributes, '\n' ∉ a.name.localName.toList
  /-- The values of the attributes are on one line. -/
  values : ∀ a ∈ e.tag.attributes, '\n' ∉ a.value.toList
  /-- The text is on one line. -/
  text : ∀ t, e.text? = some t → '\n' ∉ t.toList

instance (e : Xml.Element) : Decidable e.Tidy :=
  decidable_of_iff
    (Xml.isName e.name.localName = true ∧ (∀ b ∈ e.tag.scope, b.isTidy = true) ∧
      (∀ a ∈ e.tag.attributes, '\n' ∉ a.name.localName.toList ∧ '\n' ∉ a.value.toList) ∧
      ∀ t ∈ e.text?.toList, '\n' ∉ t.toList)
    ⟨fun ⟨htag, hpfx, hattr, htext⟩ =>
        ⟨htag, hpfx, fun a ha => (hattr a ha).1, fun a ha => (hattr a ha).2,
          fun t ht => htext t (Option.mem_toList.mpr ht)⟩,
      fun h => ⟨h.tag, h.prefixes, fun a ha => ⟨h.attributeNames a ha, h.values a ha⟩,
        fun t ht => h.text t (Option.mem_toList.mp ht)⟩⟩

/-- An element that is written on one line in such a way that the line shows its margin and whether
it begins a block: there is no white space in its tag, and the method that it names does not end in
an opening brace. -/
structure Xml.Element.Plain (e : Xml.Element) : Prop extends Xml.Element.Tidy e where
  /-- There is no white space in the tag. -/
  solid : Text.isSolid e.name.localName = true
  /-- The method does not end in an opening brace. -/
  method : e.methodOpens = false

instance (e : Xml.Element) : Decidable e.Plain :=
  decidable_of_iff (e.Tidy ∧ Text.isSolid e.name.localName = true ∧ e.methodOpens = false)
    ⟨fun ⟨htidy, hsolid, hmethod⟩ => ⟨htidy, hsolid, hmethod⟩,
      fun h => ⟨h.toTidy, h.solid, h.method⟩⟩

/-- The text begins with a character of a kind. -/
def Text.Begins (p : Char → Prop) (s : String) : Prop := ∃ c rest, s.toList = c :: rest ∧ p c

/-- What follows the beginning of a text does not matter. -/
theorem Text.Begins.append {p : Char → Prop} {s : String} (h : Begins p s) (t : String) :
    Begins p (s ++ t) := by
  obtain ⟨c, rest, hs, hc⟩ := h
  exact ⟨c, rest ++ t.toList, by simp [hs], hc⟩

/-- A name begins as names may begin. -/
theorem Xml.begins_of_isName {p : Char → Prop} {s : String} (h : isName s = true)
    (hp : ∀ c ∈ s.toList, isNameStart c = true → p c) : Text.Begins p s := by
  cases hs : s.toList with
  | nil => simp [isName, hs] at h
  | cons c rest =>
    have hstart : isNameStart c = true := by
      have hfirst := (Bool.and_eq_true_iff.mp h).1
      simpa [hs] using hfirst
    exact ⟨c, rest, hs, hp c (by simp [hs]) hstart⟩

/-- A call begins as its qualifier does, or as its tag does if there is none. -/
theorem Groovy.Statement.begins_head_call {p : Char → Prop} {qualifier tag : String}
    (hqualifier : qualifier.isEmpty = false → Text.Begins p qualifier) (htag : Text.Begins p tag)
    (arguments : List Argument) (escaping : Escaping) :
    Text.Begins p ((call qualifier tag arguments).head escaping) := by
  have hcallee : Text.Begins p (callee qualifier tag) := by
    unfold callee
    split
    case isTrue => exact htag
    case isFalse hempty => exact ((hqualifier (by simpa using hempty)).append _).append _
  exact ((hcallee.append _).append _).append _

namespace Layout

/-- The text begins with a character that is neither white space nor a closing brace. -/
abbrev BeginsHead (s : String) : Prop :=
  Text.Begins (fun c => Text.isBlank c = false ∧ c ≠ '\x7d') s

/-- A line without its margin that is read as a head, and that begins a block or not. -/
structure IsHead (block : Bool) (body : String) : Prop where
  /-- It begins with a character that is neither white space nor a closing brace. -/
  first : BeginsHead body
  /-- Its last character but for white space is an opening brace if it begins a block. -/
  last : lastInk? body.toList = some '\x7b' ↔ block = true
  /-- It is a single line. -/
  oneLine : Text.OneLine body

/-- A name holds no line feed. -/
theorem oneLine_of_isName {s : String} (h : Xml.isName s = true) : Text.OneLine s := by
  intro hmem
  have hchar := List.all_eq_true.mp (Bool.and_eq_true_iff.mp h).2 _ hmem
  exact absurd hchar (by decide)

/-- A name without white space begins a head. -/
theorem beginsHead_of_isName {s : String} (hname : Xml.isName s = true)
    (hsolid : Text.isSolid s = true) : BeginsHead s := by
  refine Xml.begins_of_isName hname fun c hc hstart => ⟨?_, ?_⟩
  · simpa using List.all_eq_true.mp hsolid c hc
  · rintro rfl
    exact absurd hstart (by decide)

open Groovy

/-- The last character of a line that is not white space is the brace of its block, if it has one
and its text ends in no other. -/
theorem lastInk?_line {s : Statement} {escaping : Escaping} (block : Bool)
    (hlast : lastInk? (s.head escaping).toList ≠ some '\x7b') :
    lastInk? (s.line escaping block).toList = some '\x7b' ↔ block = true := by
  cases block with
  | true =>
    have hend : lastInk? [' ', '\x7b'] = some '\x7b' := by decide
    simp [Statement.line, Statement.lineEnd, lastInk?_append, hend]
  | false =>
    have hend : lastInk? (s.lineEnd false).toList = none := by
      cases s <;> simp only [Statement.lineEnd] <;> decide
    simpa [Statement.line, lastInk?_append, hend] using hlast

/-- What follows the text of a statement is on the same line. -/
theorem oneLine_line {s : Statement} {escaping : Escaping} (block : Bool)
    (hline : Text.OneLine (s.head escaping)) : Text.OneLine (s.line escaping block) := by
  refine Text.oneLine_append.mpr ⟨hline, ?_⟩
  cases block <;> cases s <;> simp only [Statement.lineEnd] <;> decide

/-- The line of a statement is read as a head once its text is known to begin like one, to be on one
line and not to end in an opening brace. -/
theorem isHead_line {s : Statement} {escaping : Escaping} (block : Bool)
    (hfirst : BeginsHead (s.head escaping)) (hline : Text.OneLine (s.head escaping))
    (hlast : lastInk? (s.head escaping).toList ≠ some '\x7b') :
    IsHead block (s.line escaping block) where
  first := hfirst.append _
  last := lastInk?_line block hlast
  oneLine := oneLine_line block hline

variable {w : Writer} {e : Xml.Element}

/-- The prefix that a table gives to a namespace is one of its prefixes. -/
theorem exists_mem_of_prefixOf? {t : PrefixTable} {uri pfx : String}
    (h : t.prefixOf? uri = some pfx) : ∃ b ∈ t.entries, b.pfx = pfx := by
  obtain ⟨b, hb, rfl⟩ := Option.map_eq_some_iff.mp h
  exact ⟨b, List.mem_of_find?_eq_some hb, rfl⟩

/-- The prefix that a scope gives to a namespace is one of its prefixes or that of the reserved
namespace. -/
theorem exists_mem_of_scope_prefixOf? {scope : Xml.Scope} {uri pfx : String}
    (h : scope.prefixOf? uri = some pfx) : pfx = "xml" ∨ ∃ b ∈ scope, b.pfx = pfx := by
  unfold Xml.Scope.prefixOf? at h
  split at h
  · exact .inl (Option.some.inj h).symm
  · split at h
    case h_1 b hb =>
      split at h
      · cases h
      · exact .inr ⟨b, List.mem_of_find?_eq_some hb, Option.some.inj h⟩
    case h_2 => cases h

/-- A tidy prefix is on one line. -/
theorem oneLine_of_isTidy {b : Xml.Binding} (h : b.isTidy = true) : Text.OneLine b.pfx := by
  rcases Bool.or_eq_true_iff.mp h with hempty | hname
  · rw [String.isEmpty_iff.mp hempty]
    decide
  · exact oneLine_of_isName hname

/-- The key of an attribute of a tidy element is on one line. -/
theorem oneLine_key (htable : ∀ b ∈ w.prefixes.entries, b.isTidy = true) (htidy : e.Tidy)
    {a : Xml.Attribute} (ha : a ∈ e.tag.attributes) {key : Key} (hkey : w.key e a.name = .ok key) :
    key.OneLine := by
  have hname : Text.OneLine a.name.localName := htidy.attributeNames a ha
  rcases Writer.key_cases hkey with rfl | ⟨uri, pfx, rfl, htab | hscope⟩
  · exact hname
  · obtain ⟨b, hb, rfl⟩ := exists_mem_of_prefixOf? htab
    exact ⟨oneLine_of_isTidy (htable b hb), hname⟩
  · rcases exists_mem_of_scope_prefixOf? hscope with rfl | ⟨b, hb, rfl⟩
    · exact ⟨by decide, hname⟩
    · exact ⟨oneLine_of_isTidy (htidy.prefixes b hb), hname⟩

/-- The arguments of a tidy element are on one line. -/
theorem oneLine_arguments (htable : ∀ b ∈ w.prefixes.entries, b.isTidy = true)
    (htidy : e.Tidy) {arguments : List Argument} (h : w.arguments e = .ok arguments) :
    ∀ a ∈ arguments, a.OneLine := by
  intro argument hargument
  rcases Writer.argument_cases h argument hargument with
    ⟨a, ha, key, hkey, rfl⟩ | ⟨t, ht, rfl⟩
  · exact .named (oneLine_key htable htidy ha hkey) (htidy.values a ha)
  · exact .positional (htidy.text t ht)

/-- A call is named by the local name of its element, and qualified by a prefix of the table or by
nothing. -/
theorem ofName_eq_call {t : PrefixTable} {name : Xml.ExpandedName} {qualifier tag : String}
    (h : Role.ofName t name = .ok (.call qualifier tag)) :
    tag = name.localName ∧ (qualifier = "" ∨ ∃ b ∈ t.entries, b.pfx = qualifier) := by
  unfold Role.ofName PrefixTable.prefixOf at h
  cases huri : name.uri with
  | none => simp_all
  | some uri =>
    by_cases hcontrol : isControlUri uri = true
    · simp [huri, hcontrol] at h
    · cases hpfx : t.prefixOf? uri with
      | none => simp [huri, hcontrol, hpfx, Except.map] at h
      | some pfx =>
        obtain ⟨rfl, rfl⟩ : pfx = qualifier ∧ name.localName = tag := by
          simpa [huri, hcontrol, hpfx, Except.map] using h
        exact ⟨rfl, .inr (exists_mem_of_prefixOf? hpfx)⟩

/-- The qualifier of a call is empty or a name. -/
theorem isTidy_qualifier {qualifier tag : String}
    (hrole : Role.ofName w.prefixes e.name = .ok (.call qualifier tag))
    (htable : ∀ b ∈ w.prefixes.entries, b.isTidy = true) :
    (Xml.Binding.mk qualifier "").isTidy = true := by
  obtain ⟨-, rfl | ⟨b, hb, rfl⟩⟩ := ofName_eq_call hrole
  · rfl
  · exact htable b hb

/-- An attribute that a tidy element has is on one line. -/
theorem oneLine_attr? (htidy : e.Tidy) {n v : String} (h : e.attr? n = some v) :
    Text.OneLine v := by
  obtain ⟨a, ha, rfl⟩ := Option.map_eq_some_iff.mp h
  exact htidy.values a (List.mem_of_find?_eq_some ha)

/-- The text of what a tidy element says is on one line. -/
theorem oneLine_head {role : Role} {s : Statement}
    (hrole : Role.ofName w.prefixes e.name = .ok role) (hs : w.States e role (some s))
    (htable : ∀ b ∈ w.prefixes.entries, b.isTidy = true) (htidy : e.Tidy) :
    Text.OneLine (s.head w.options.escaping) := by
  cases hs with
  | call hargs =>
    obtain ⟨rfl, -⟩ := ofName_eq_call hrole
    exact Statement.oneLine_call _ (oneLine_of_isTidy (isTidy_qualifier hrole htable))
      (oneLine_of_isName htidy.tag) (oneLine_arguments htable htidy hargs)
  | condition _ htest =>
    exact Text.oneLine_append.mpr ⟨Text.oneLine_append.mpr
      ⟨by decide, Expression.oneLine_render _ (oneLine_attr? htidy htest)⟩, by decide⟩
  | otherwise => exact show Text.OneLine "else" by decide
  | invokeStatic hvar hclass hmethod =>
    simp only [Statement.head, Text.oneLine_append]
    exact ⟨⟨⟨⟨⟨by decide, oneLine_attr? htidy hvar⟩, by decide⟩,
      oneLine_attr? htidy hclass⟩, by decide⟩, oneLine_attr? htidy hmethod⟩

/-- A text that ends in a parenthesis does not end in an opening brace. -/
theorem lastInk?_append_paren (s : String) : lastInk? (s ++ ")").toList ≠ some '\x7b' := by
  have hparen : lastInk? ")".toList = some ')' := by decide
  rw [String.toList_append, lastInk?_append, hparen]
  simp

/-- The text of what an element says does not end in an opening brace, unless the method that it
names does. -/
theorem lastInk?_head {role : Role} {s : Statement} (hs : w.States e role (some s))
    (hmethod : role = .control .invokeStatic → e.methodOpens = false) :
    lastInk? (s.head w.options.escaping).toList ≠ some '\x7b' := by
  cases hs with
  | call | condition => exact lastInk?_append_paren _
  | otherwise => exact show lastInk? "else".toList ≠ some '\x7b' by decide
  | @invokeStatic var className method hvar hclass hattr =>
    have hdot : lastInk? ".".toList = some '.' := by decide
    have hlast : (Text.trim method).toList.getLast? ≠ some '\x7b' := by
      simpa [Xml.Element.methodOpens, hattr] using hmethod rfl
    rw [Text.trim, String.toList_ofList, getLast?_trimChars] at hlast
    simp only [Statement.head, String.toList_append, lastInk?_append, hdot]
    cases hmethod : lastInk? method.toList <;> simp_all

/-- The text of what a plain element says begins like a head. -/
theorem beginsHead_head {role : Role} {s : Statement}
    (hrole : Role.ofName w.prefixes e.name = .ok role) (hs : w.States e role (some s))
    (htable : ∀ b ∈ w.prefixes.entries, b.isPlain = true) (hplain : e.Plain) :
    BeginsHead (s.head w.options.escaping) := by
  cases hs with
  | @call qualifier tag arguments hargs =>
    obtain ⟨rfl, hqualifier⟩ := ofName_eq_call hrole
    refine Statement.begins_head_call (fun hempty => ?_)
      (beginsHead_of_isName hplain.tag hplain.solid) _ _
    obtain rfl | ⟨b, hb, rfl⟩ := hqualifier
    · cases hempty
    obtain ⟨hname, hsolid⟩ : Xml.isName b.pfx = true ∧ Text.isSolid b.pfx = true := by
      simpa [Xml.Binding.isPlain, Xml.Binding.isTidy, hempty] using htable b hb
    exact beginsHead_of_isName hname hsolid
  | condition =>
    have hif : BeginsHead "if(" := ⟨'i', ['f', '('], by decide, by decide, by decide⟩
    exact (hif.append _).append _
  | otherwise =>
    exact show BeginsHead "else" from ⟨'e', ['l', 's', 'e'], by decide, by decide, by decide⟩
  | invokeStatic =>
    have hdef : BeginsHead "def " := ⟨'d', ['e', 'f', ' '], by decide, by decide, by decide⟩
    exact ((((hdef.append _).append _).append _).append _).append _

/-- The line of a plain element is read as a head that begins a block exactly if the element opens
one. -/
theorem isHead_of_states {role : Role} {s : Statement}
    (hrole : Role.ofName w.prefixes e.name = .ok role) (hs : w.States e role (some s))
    (htable : ∀ b ∈ w.prefixes.entries, b.isPlain = true) (hplain : e.Plain) :
    IsHead (w.opensBlock e) (s.line w.options.escaping (w.opensBlock e)) := by
  have htidy : ∀ b ∈ w.prefixes.entries, b.isTidy = true := fun b hb =>
    (Bool.and_eq_true_iff.mp (htable b hb)).1
  exact isHead_line _ (beginsHead_head hrole hs htable hplain)
    (oneLine_head hrole hs htidy hplain.toTidy) (lastInk?_head hs fun _ => hplain.method)

end Layout

end GroovyViews
