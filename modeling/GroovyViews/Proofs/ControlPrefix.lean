import GroovyViews.Proofs.Agreement
import GroovyViews.Proofs.Converted
import GroovyViews.Proofs.Matching
import GroovyViews.Proofs.Qualifiers

/-!
# The prefix of the control namespace

A control tag is known by its namespace, and what is written for it does not depend on its prefix.
If the prefix of the control namespace is replaced by another one in a whole view, then only the
entry in the table changes, at its place, and with it one line of the preamble.
-/

namespace GroovyViews

open Xml (Binding Node Placed Scope StartTag)

/-- The binding with another prefix if it is one of the control namespace. -/
def Xml.Binding.rename (pfx : String) (b : Binding) : Binding :=
  if b.uri = controlUri then ⟨pfx, controlUri⟩ else b

/-- The same start tag but for the prefix with which it declares the control namespace. The two may
stand in different places, with other bindings around them. -/
def Xml.StartTag.Renames (pfx : String) (tag tag' : StartTag) : Prop :=
  tag'.name = tag.name ∧ tag'.attributes = tag.attributes ∧
    tag'.declarations = tag.declarations.map (Binding.rename pfx)

instance (pfx : String) : DecidableRel (StartTag.Renames pfx) :=
  fun _ _ => inferInstanceAs (Decidable (_ ∧ _ ∧ _))

/-- Renaming keeps the namespace. -/
@[simp] theorem Xml.Binding.uri_rename (pfx : String) (b : Binding) :
    (b.rename pfx).uri = b.uri := by
  unfold rename
  split
  case isTrue h => exact h.symm
  case isFalse => rfl

/-- The prefixes of other namespaces are not renamed. -/
theorem Xml.Binding.rename_of_ne {pfx : String} {b : Binding} (h : b.uri ≠ controlUri) :
    b.rename pfx = b :=
  if_neg h

/-- The declarations of nodes that match are the same but for the prefix of the control namespace.
-/
theorem declared_of_matches {pfx : String} {nodes nodes' : List Node}
    (h : Node.Matches (StartTag.Renames pfx) nodes nodes') (depth depth' : Nat)
    (outer outer' : Scope) :
    (Node.placedAll depth' outer' nodes').flatMap Placed.declared =
      ((Node.placedAll depth outer nodes).flatMap Placed.declared).map (Binding.rename pfx) := by
  induction h generalizing depth depth' outer outer' with
  | nil => rfl
  | @element tag tag' content content' rest rest' htag _ _ ihcontent ihrest =>
    have htag' : Placed.declared ⟨depth', outer', ⟨tag', content'⟩⟩ =
        (Placed.declared ⟨depth, outer, ⟨tag, content⟩⟩).map (Binding.rename pfx) := by
      simp only [Placed.declared, htag.2.2, List.filter_map]
      congr 2
      funext b
      simp
    simp only [Node.placedAll, Node.placed, List.cons_append, List.flatMap_cons,
      List.flatMap_append, List.map_append, htag', ihcontent (depth + 1) (depth' + 1) tag.scope,
      ihrest depth depth' outer]
  | @other n _ _ hn _ ih =>
    cases n with
    | element tag content => cases hn
    | text _ | comment _ | instruction _ _ => exact ih depth depth' outer outer'

/-- Repetitions stay repetitions under a map that keeps different things apart. -/
theorem eraseDups_map {f : Binding → Binding} {l : List Binding}
    (h : ∀ a ∈ l, ∀ b ∈ l, f a = f b → a = b) : (l.map f).eraseDups = l.eraseDups.map f := by
  -- From the end, since it is the first of equal bindings that stays.
  induction l using List.reverseRecOn with
  | nil => rfl
  | append_singleton l a ih =>
    have ih := ih fun b hb c hc => h b (by simp [hb]) c (by simp [hc])
    have hmem : f a ∈ l.map f ↔ a ∈ l := by
      refine ⟨fun hfa => ?_, List.mem_map_of_mem⟩
      obtain ⟨b, hb, heq⟩ := List.mem_map.mp hfa
      exact h b (by simp [hb]) a (by simp) heq ▸ hb
    have hlast (b : Binding) (m : List Binding) :
        ([b].removeAll m).eraseDups = if b ∈ m then [] else [b] := by
      by_cases hb : b ∈ m <;> simp [List.removeAll, List.eraseDups_cons, hb]
    rw [List.map_append, List.map_singleton, List.eraseDups_append, List.eraseDups_append,
      List.map_append, ih, hlast, hlast]
    by_cases ha : a ∈ l
    · rw [if_pos ha, if_pos (hmem.mpr ha), List.map_nil]
    · rw [if_neg ha, if_neg (hmem.not.mpr ha), List.map_singleton]

namespace PrefixTable.Represents

variable {t t' : PrefixTable} {declared : List Binding} {pfx : String}

/-- Renaming the control namespace in the declarations renames it in the table. -/
theorem entries_rename (ht : t.Represents declared)
    (ht' : t'.Represents (declared.map (Binding.rename pfx))) :
    t'.entries = t.entries.map (Binding.rename pfx) := by
  rw [ht'.entries, ht.entries]
  refine eraseDups_map fun a ha b hb heq => ht.oneToOne.eq_of_uri ha hb ?_
  rw [← a.uri_rename pfx, heq, b.uri_rename]

/-- All entries but that of the control namespace stay as they are, where they are. -/
theorem exists_entries_rename (ht : t.Represents declared)
    (ht' : t'.Represents (declared.map (Binding.rename pfx))) {p : String}
    (hp : ⟨p, controlUri⟩ ∈ declared) :
    ∃ before after, t.entries = before ++ ⟨p, controlUri⟩ :: after ∧
      t'.entries = before ++ ⟨pfx, controlUri⟩ :: after := by
  obtain ⟨before, after, hentries⟩ := List.append_of_mem (ht.mem_iff.mpr hp)
  have hnodup := ht.nodup_uri
  rw [hentries, List.map_append, List.map_cons, List.nodup_middle, List.nodup_cons,
    List.mem_append] at hnodup
  have hother : ∀ part : List Binding, controlUri ∉ part.map Binding.uri →
      part.map (Binding.rename pfx) = part := by
    intro part hpart
    calc part.map (Binding.rename pfx) = part.map id :=
          List.map_congr_left fun b hb => Binding.rename_of_ne fun heq =>
            hpart (List.mem_map.mpr ⟨b, hb, heq⟩)
      _ = part := List.map_id part
  refine ⟨before, after, hentries, ?_⟩
  rw [ht.entries_rename ht', hentries, List.map_append, List.map_cons,
    hother before fun h => hnodup.1 (.inl h), hother after fun h => hnodup.1 (.inr h)]
  rfl

/-- Renaming the control namespace makes no difference to the prefix of any other namespace. -/
theorem prefixOf?_rename (ht : t.Represents declared)
    (ht' : t'.Represents (declared.map (Binding.rename pfx))) {uri : String}
    (hcontrol : uri ≠ controlUri) (hbare : ¬BeginsWithBrace uri) :
    t'.prefixOf? uri = t.prefixOf? uri := by
  rw [prefixOf?_of_bare hbare, prefixOf?_of_bare hbare, ownerOf?, ownerOf?, ht.entries_rename ht',
    List.find?_map]
  have hsame : (fun b : Binding => b.uri == uri) ∘ Binding.rename pfx = fun b => b.uri == uri := by
    funext b
    simp
  rw [hsame]
  cases hfind : t.entries.find? fun b => b.uri == uri with
  | none => rfl
  | some b =>
    have huri : b.uri = uri := by simpa using List.find?_some hfind
    simp [Binding.rename_of_ne (huri ▸ hcontrol)]

end PrefixTable.Represents

/-- What the names in a start tag need so that the prefix of the control namespace is not asked for:
no namespace begins with a brace, and the namespaces of attributes are others than the control
namespace and have prefixes in the table or are reserved. -/
structure Xml.StartTag.Independent (t : PrefixTable) (tag : StartTag) : Prop where
  /-- The namespace of the element does not begin with a brace. -/
  name : ∀ uri, tag.name.uri = some uri → ¬BeginsWithBrace uri
  /-- The namespaces of attributes have prefixes that are not that of the control namespace. -/
  attributes : ∀ a ∈ tag.attributes, ∀ uri, a.name.uri = some uri →
    uri ≠ controlUri ∧ ¬BeginsWithBrace uri ∧ (uri = Xml.xmlUri ∨ (t.prefixOf? uri).isSome = true)

namespace Writer

variable {t t' : PrefixTable} {declared : List Binding} {pfx : String} {e e' : Xml.Element}

/-- Renaming the control namespace makes no difference to what is found at an element. -/
theorem agrees_of_renames (ht : t.Represents declared)
    (ht' : t'.Represents (declared.map (Binding.rename pfx))) (options : Options)
    (h : e.Matches (fun tag tag' => tag.Renames pfx tag' ∧ tag.Independent t) e') :
    Agrees ⟨t, options⟩ ⟨t', options⟩ Xml.Element.attr? Xml.Element.attr? e e' := by
  obtain ⟨⟨hname, hattributes, -⟩, hindependent⟩ := h.tag
  have hrole : Role.ofName t' e.name = Role.ofName t e.name := by
    unfold Role.ofName
    cases huri : e.name.uri with
    | none => rfl
    | some uri =>
      by_cases hcontrol : isControlUri uri = true
      · simp [hcontrol]
      · have hother : uri ≠ controlUri := by
          rintro rfl
          exact hcontrol rfl
        simp only [hcontrol, PrefixTable.prefixOf,
          ht.prefixOf?_rename ht' hother (hindependent.name uri huri)]
  refine ⟨rfl, ?_, h.hasChildren, ?_, ?_⟩
  · rw [role?, role?, ← hrole]
    exact congrArg (fun name => (Role.ofName t' name).toOption) hname
  · intro _ _ n _
    simp only [Xml.Element.attr?, hattributes]
  · refine fun _ _ _ => ⟨hattributes, h.text?, fun a ha => ?_⟩
    unfold key
    cases huri : a.name.uri with
    | none => rfl
    | some uri =>
      obtain ⟨hcontrol, hbare, hknown⟩ := hindependent.attributes a ha uri huri
      simp only [ht.prefixOf?_rename ht' hcontrol hbare]
      rcases hknown with rfl | hknown
      · rfl
      · obtain ⟨known, hknown⟩ := Option.isSome_iff_exists.mp hknown
        simp [hknown]

/-- The lines of the preamble for some entries of the table. -/
def bindingLines (entries : List Binding) : String :=
  String.join ((entries.filter fun b => !b.pfx.isEmpty).map fun b => preambleLine b ++ "\n")

/-- The preamble has the line of an entry with a prefix between those of the others. -/
theorem text_preamble_of_entries {w : Writer} {before after : List Binding} {b : Binding}
    (h : w.prefixes.entries = before ++ b :: after) (hb : b.pfx ≠ "") :
    Emission.text w.preamble = "// Namespaces\n" ++ bindingLines before ++ preambleLine b ++ "\n" ++
      bindingLines after ++ "\n\n" := by
  have hpfx : b.pfx.isEmpty = false := by simpa using hb
  rw [text_preamble, bound, h, List.filter_append, List.filter_cons_of_pos (by simp [hpfx])]
  simp only [bindingLines, List.map_append, List.map_cons, String.join_append, String.join_cons,
    String.append_assoc]

end Writer

namespace View

variable {source : String} {v : View}

/-- If no attribute is in the control namespace and no declared namespace begins with a brace, then
the prefix of the control namespace is not asked for in a view. -/
theorem independent_of_read (h : (View.read source).outcome = .ok v)
    (hattributes : ∀ p ∈ Node.placedAll 0 [] v.document.nodes, ∀ a ∈ p.element.tag.attributes,
      a.name.uri ≠ some controlUri)
    (hbare : ∀ b ∈ v.document.declared, ¬BeginsWithBrace b.uri) :
    ∀ p ∈ Node.placedAll 0 [] v.document.nodes, p.element.tag.Independent v.prefixes := by
  obtain ⟨hparse, ht⟩ := represents_of_read h
  have hreserved : ¬BeginsWithBrace Xml.xmlUri := by decide
  intro p hp
  constructor
  · intro uri huri
    by_cases hxml : uri = Xml.xmlUri
    · exact hxml ▸ hreserved
    · obtain ⟨pfx, hmem⟩ := exists_declared h hp huri hxml
      exact hbare _ hmem
  · intro a ha uri huri
    have hcontrol : uri ≠ controlUri := by
      rintro rfl
      exact hattributes p hp a ha huri
    rcases Xml.Document.isBoundIn_of_parse hparse p hp a ha uri huri with rfl | ⟨b, hb, -, rfl⟩
    · exact ⟨hcontrol, hreserved, .inl rfl⟩
    · by_cases hxml : b.uri = Xml.xmlUri
      · exact ⟨hcontrol, hxml ▸ hreserved, .inl hxml⟩
      · have hmem := covers_of_parse hparse p hp b hb hxml
        refine ⟨hcontrol, hbare b hmem, .inr ?_⟩
        rw [ht.prefixOf?_of_mem hmem (hbare b hmem)]
        rfl

end View

namespace Conversion

/-- How a conversion ends, once its view has been read. If there is no element to start at, nothing
is written. -/
theorem ending_of_read {c : Conversion} {v : View} (h : (View.read c.source).outcome = .ok v) :
    (Sink.unlimited.run c.emission).ending = match v.document.start? with
      | none => ⟨.error (.view (.emptyWrapper v.document.root.shownName)), []⟩
      | some start =>
        let w : Writer := ⟨v.prefixes, c.options⟩
        ⟨(w.element 0 start).outcome,
          Text.bytes (Emission.text w.preamble ++ Emission.text (w.element 0 start))⟩ := by
  rw [ending_eq, ending, entry_of_read h]
  cases v.document.start? with
  | none => rfl
  | some start => exact Writer.element_eq_ending _ start

open Writer (bindingLines preambleLine)

/-- **The prefix of the control namespace does not matter.** Take two views that have been read, of
which one has another prefix for the control namespace than the other, and which are the same apart
from that, in all but the positions of their elements. Neither prefix is empty, no attribute is in
the control namespace, and no declared namespace begins with a brace. With the same options both
conversions succeed or both fail. The tables have the same entries in the same order, but for the
prefix of the control namespace. Unless there is no element to start at, where both fail and write
nothing, the conversions write the same but for that prefix in the line of the preamble that it has;
this is so also where they fail. -/
theorem run_of_renamed_control (c c' : Conversion) (v v' : View) (p q : String)
    (hread : (View.read c.source).outcome = .ok v)
    (hread' : (View.read c'.source).outcome = .ok v') (hoptions : c'.options = c.options)
    (hp : p ≠ "") (hq : q ≠ "") (hbound : ⟨p, controlUri⟩ ∈ v.document.declared)
    (hmatches : v.document.Matches (StartTag.Renames q) v'.document)
    (hattributes : ∀ e ∈ Node.placedAll 0 [] v.document.nodes, ∀ a ∈ e.element.tag.attributes,
      a.name.uri ≠ some controlUri)
    (hbare : ∀ b ∈ v.document.declared, ¬BeginsWithBrace b.uri) :
    let run := Sink.unlimited.run c.emission
    let run' := Sink.unlimited.run c'.emission
    (run.outcome = .ok () ↔ run'.outcome = .ok ()) ∧
    ∃ before after, v.prefixes.entries = before ++ ⟨p, controlUri⟩ :: after ∧
      v'.prefixes.entries = before ++ ⟨q, controlUri⟩ :: after ∧
      ((run.outcome ≠ .ok () ∧ run.sink.stored = [] ∧ run'.sink.stored = []) ∨ ∃ body,
        run.sink.stored = Text.bytes ("// Namespaces\n" ++ bindingLines before ++
          preambleLine ⟨p, controlUri⟩ ++ "\n" ++ bindingLines after ++ "\n\n" ++ body) ∧
        run'.sink.stored = Text.bytes ("// Namespaces\n" ++ bindingLines before ++
          preambleLine ⟨q, controlUri⟩ ++ "\n" ++ bindingLines after ++ "\n\n" ++ body)) := by
  intro run run'
  -- The second table was made without the first one in mind, but of declarations that differ from
  -- those of the first view by the renaming alone.
  have hdeclared : v'.document.declared = v.document.declared.map (Binding.rename q) :=
    declared_of_matches hmatches.nodes 0 0 [] []
  have ht := (View.represents_of_read hread).2
  have ht' := (View.represents_of_read hread').2
  rw [hdeclared] at ht'
  obtain ⟨before, after, hentries, hentries'⟩ := ht.exists_entries_rename ht' hbound
  have hindependent := View.independent_of_read hread hattributes hbare
  have hmatches : v.document.Matches
      (fun tag tag' => tag.Renames q tag' ∧ tag.Independent v.prefixes) v'.document :=
    hmatches.imp fun e he _ htag => ⟨htag, hindependent e he⟩
  have hending : run.ending = _ := ending_of_read hread
  have hending' : run'.ending = _ := ending_of_read hread'
  rcases hmatches.start? fun _ _ htag => htag.1.1 with
    ⟨hstart, hstart'⟩ | ⟨start, start', hstart, hstart', hmatch⟩
  · rw [hstart] at hending
    rw [hstart'] at hending'
    obtain ⟨houtcome, hstored⟩ := Ending.mk.inj hending
    obtain ⟨houtcome', hstored'⟩ := Ending.mk.inj hending'
    have hfails : run.outcome ≠ .ok () := by simp [houtcome]
    have hfails' : run'.outcome ≠ .ok () := by simp [houtcome']
    exact ⟨iff_of_false hfails hfails', before, after, hentries, hentries',
      .inl ⟨hfails, hstored, hstored'⟩⟩
  · rw [hstart] at hending
    rw [hstart', hoptions] at hending'
    obtain ⟨houtcome, hstored⟩ := Ending.mk.inj hending
    obtain ⟨houtcome', hstored'⟩ := Ending.mk.inj hending'
    have halike := Writer.element_of_matches
      (fun _ _ => Writer.agrees_of_renames ht ht' c.options) hmatch 0
    refine ⟨?_, before, after, hentries, hentries',
      .inr ⟨Emission.text (Writer.element ⟨v.prefixes, c.options⟩ 0 start), ?_, ?_⟩⟩
    · rw [houtcome, houtcome']
      exact halike.ok_iff
    · rw [hstored, Writer.text_preamble_of_entries hentries hp]
    · rw [hstored', Writer.text_preamble_of_entries hentries' hq, halike.text]

/-- A branch in another namespace, which declares the control namespace once more. -/
private def branching (pfx : String) : Conversion :=
  ⟨"<a xmlns:x=\"u\" xmlns:" ++ pfx ++ "=\"jelly:core\" xmlns:y=\"w\"><" ++ pfx ++
    ":if test=\"$\x7bt\x7d\"><x:b y:k=\"1\" xml:lang=\"en\" xmlns:" ++ pfx ++
    "=\"jelly:core\"/></" ++ pfx ++ ":if></a>", none, .default⟩

/-- The control namespace has the second line of two preambles before one body. -/
theorem run_of_renamed_control_branching :
    let run := Sink.unlimited.run (branching "j").emission
    let run' := Sink.unlimited.run (branching "core").emission
    run'.outcome = .ok () ∧
    ∃ before after body, before ++ ⟨"j", controlUri⟩ :: after =
        [⟨"x", "u"⟩, ⟨"j", controlUri⟩, ⟨"y", "w"⟩] ∧
      run.sink.stored = Text.bytes ("// Namespaces\n" ++ bindingLines before ++
        preambleLine ⟨"j", controlUri⟩ ++ "\n" ++ bindingLines after ++ "\n\n" ++ body) ∧
      run'.sink.stored = Text.bytes ("// Namespaces\n" ++ bindingLines before ++
        preambleLine ⟨"core", controlUri⟩ ++ "\n" ++ bindingLines after ++ "\n\n" ++ body) := by
  have hall : ((View.read (branching "j").source).outcome.toOption.bind fun v =>
      (View.read (branching "core").source).outcome.toOption.map fun v' =>
        (decide (⟨"j", controlUri⟩ ∈ v.document.declared),
          decide (v.document.Matches (StartTag.Renames "core") v'.document),
          decide (∀ e ∈ Node.placedAll 0 [] v.document.nodes, ∀ a ∈ e.element.tag.attributes,
            a.name.uri ≠ some controlUri),
          decide (∀ b ∈ v.document.declared, ¬BeginsWithBrace b.uri), v.prefixes.entries)) =
      some (true, true, true, true, [⟨"x", "u"⟩, ⟨"j", controlUri⟩, ⟨"y", "w"⟩]) := by
    decide +kernel
  have hruns : (Sink.unlimited.run (branching "j").emission).outcome = .ok () := by
    decide +kernel
  obtain ⟨v, hread, hall⟩ := Option.bind_eq_some_iff.mp hall
  obtain ⟨v', hread', hall⟩ := Option.map_eq_some_iff.mp hall
  simp only [Prod.mk.injEq, decide_eq_true_eq] at hall
  obtain ⟨hbound, hmatches, hattributes, hbare, htable⟩ := hall
  obtain ⟨hiff, before, after, hentries, -, hwritten⟩ :=
    run_of_renamed_control (branching "j") (branching "core") v v' "j" "core"
      (eq_ok_of_toOption hread) (eq_ok_of_toOption hread') rfl (by decide) (by decide) hbound
      hmatches hattributes hbare
  rcases hwritten with ⟨hfails, -⟩ | ⟨body, hstored, hstored'⟩
  · exact absurd hruns hfails
  · exact ⟨hiff.mp hruns, before, after, body, hentries.symm.trans htable, hstored, hstored'⟩

end Conversion

end GroovyViews
