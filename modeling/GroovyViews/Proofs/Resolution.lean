import GroovyViews.Proofs.Declarations
import GroovyViews.Role
import Mathlib.Control.Monad.Basic

/-!
# Looking up the namespaces of a document

Every namespace of an element has a prefix in the table of its document. Whether it is found depends
on how it is written: a text that begins with a brace is taken for a namespace that stands between
braces already. Such a namespace is never found under its own name, but perhaps as another one.
-/

namespace GroovyViews

open Xml (Binding Node Placed)

/-- The text begins with an opening brace. -/
def BeginsWithBrace (uri : String) : Prop := uri.toList.head? = some '\x7b'

instance (uri : String) : Decidable (BeginsWithBrace uri) :=
  inferInstanceAs (Decidable (uri.toList.head? = some '\x7b'))

/-- A namespace between braces begins with one. -/
theorem beginsWithBrace_braced (uri : String) : BeginsWithBrace (Xml.braced uri) := by
  simp [BeginsWithBrace, Xml.braced]

/-- Braces hide nothing. -/
theorem braced_inj {a b : String} : Xml.braced a = Xml.braced b ↔ a = b := by
  simp [Xml.braced]

/-- No namespace stands between braces in itself. -/
theorem braced_ne (uri : String) : Xml.braced uri ≠ uri := by
  intro h
  have hlength := congrArg (fun s => s.toList.length) h
  simp only [Xml.braced, String.toList_append, List.length_append] at hlength
  have hopen : "\x7b".toList.length = 1 := by decide
  omega

namespace PrefixTable

variable {t : PrefixTable} {declared : List Binding} {uri inner : String}

/-- A namespace whose key stands between braces is looked up as what is between them. -/
theorem prefixOf?_of_key (h : key uri = Xml.braced inner) : t.prefixOf? uri = t.ownerOf? inner := by
  unfold prefixOf? ownerOf?
  rw [h]
  congr 2
  funext b
  rw [Bool.eq_iff_iff, beq_iff_eq, beq_iff_eq, braced_inj]

/-- A namespace that does not begin with a brace is looked up as it is. -/
theorem prefixOf?_of_bare (h : ¬BeginsWithBrace uri) : t.prefixOf? uri = t.ownerOf? uri :=
  prefixOf?_of_key (if_neg h)

/-- A namespace that begins with a brace has the prefix of what it stands for between braces, if
it does. -/
theorem prefixOf?_eq_some_iff_of_brace (ht : t.Represents declared) (h : BeginsWithBrace uri)
    {pfx : String} :
    t.prefixOf? uri = some pfx ↔ ∃ inner, uri = Xml.braced inner ∧ ⟨pfx, inner⟩ ∈ declared := by
  have hkey : key uri = uri := if_pos h
  constructor
  · intro hpfx
    obtain ⟨b, hfind, -⟩ := Option.map_eq_some_iff.mp hpfx
    have hfound := List.find?_some hfind
    have huri : uri = Xml.braced b.uri := by
      rw [hkey, beq_iff_eq] at hfound
      exact hfound.symm
    rw [prefixOf?_of_key (hkey.trans huri)] at hpfx
    exact ⟨b.uri, huri, ht.ownerOf?_iff.mp hpfx⟩
  · rintro ⟨inner, huri, hmem⟩
    rw [prefixOf?_of_key (hkey.trans huri)]
    exact ht.ownerOf?_iff.mpr hmem

end PrefixTable

namespace Role

variable {t : PrefixTable} {declared : List Binding} {name : Xml.ExpandedName} {uri : String}

/-- A namespace that is not taken for the control namespace makes a call with its prefix. -/
theorem ofName_eq_map (huri : name.uri = some uri) (hcontrol : uri ≠ controlUri)
    (hbraced : uri ≠ Xml.braced controlUri) :
    ofName t name = (t.prefixOf uri).map fun pfx => call pfx name.localName := by
  simp [ofName, huri, isControlUri, hcontrol, hbraced]

/-- A namespace that does not begin with a brace and is not the control namespace makes a call with
its own prefix. -/
theorem ofName_of_bare (ht : t.Represents declared) (huri : name.uri = some uri)
    (hbare : ¬BeginsWithBrace uri) (hcontrol : uri ≠ controlUri) {pfx : String}
    (hmem : ⟨pfx, uri⟩ ∈ declared) : ofName t name = .ok (.call pfx name.localName) := by
  have hbraced : uri ≠ Xml.braced controlUri := by
    rintro rfl
    exact hbare (beginsWithBrace_braced controlUri)
  have hprefix : t.prefixOf? uri = some pfx := by
    rw [PrefixTable.prefixOf?_of_bare hbare]
    exact ht.ownerOf?_iff.mpr hmem
  rw [ofName_eq_map huri hcontrol hbraced, PrefixTable.prefixOf, hprefix]
  rfl

/-- A namespace that begins with a brace is taken for the namespace between braces. -/
theorem ofName_of_brace (ht : t.Represents declared) (huri : name.uri = some uri)
    (hbrace : BeginsWithBrace uri) (hcontrol : uri ≠ controlUri) :
    (uri = Xml.braced controlUri ∧
      ofName t name = .ok (.control (.ofLocalName name.localName))) ∨
    (∃ pfx inner, uri = Xml.braced inner ∧ inner ≠ controlUri ∧ ⟨pfx, inner⟩ ∈ declared ∧
      ofName t name = .ok (.call pfx name.localName)) ∨
    (uri ≠ Xml.braced controlUri ∧ (∀ b ∈ declared, uri ≠ Xml.braced b.uri) ∧
      ofName t name = .error (.unresolvedNamespace uri)) := by
  by_cases hbraced : uri = Xml.braced controlUri
  · exact .inl ⟨hbraced, by simp [ofName, huri, isControlUri, hbraced]⟩
  right
  cases hprefix : t.prefixOf? uri with
  | some pfx =>
    obtain ⟨inner, rfl, hmem⟩ := (PrefixTable.prefixOf?_eq_some_iff_of_brace ht hbrace).mp hprefix
    refine .inl ⟨pfx, inner, rfl, fun hinner => hbraced (by rw [hinner]), hmem, ?_⟩
    rw [ofName_eq_map huri hcontrol hbraced, PrefixTable.prefixOf, hprefix]
    rfl
  | none =>
    refine .inr ⟨hbraced, fun b hb heq => ?_, ?_⟩
    · have hsome := (PrefixTable.prefixOf?_eq_some_iff_of_brace ht hbrace).mpr ⟨b.uri, heq, hb⟩
      simp [hsome] at hprefix
    · rw [ofName_eq_map huri hcontrol hbraced, PrefixTable.prefixOf, hprefix]
      rfl

end Role

namespace View

variable {source : String} {v : View}

/-- The table of a view that has been read is that of the declarations of its document. -/
theorem represents_of_read (h : (View.read source).outcome = .ok v) :
    Xml.Document.parse source = .ok v.document ∧ v.prefixes.Represents v.document.declared := by
  simp only [View.read, Traced.outcome_bind, Traced.outcome_ofExcept] at h
  cases hparse : Xml.Document.parse source with
  | error fault => simp [hparse, Except.bind] at h
  | ok d =>
    cases htable : (PrefixTable.ofDocument d).outcome with
    | error conflict => simp [hparse, htable, Except.bind] at h
    | ok table =>
      obtain rfl : (⟨d, table⟩ : View) = v := by
        simpa [hparse, htable, Except.bind] using h
      rw [PrefixTable.outcome_ofDocument hparse] at htable
      exact ⟨rfl, PrefixTable.empty_represents.of_foldlM htable⟩

/-- The namespace of an element is declared, unless it is the reserved one. -/
theorem exists_declared (h : (View.read source).outcome = .ok v) {p : Placed}
    (hp : p ∈ Node.placedAll 0 [] v.document.nodes) {uri : String}
    (huri : p.element.name.uri = some uri) (hxml : uri ≠ Xml.xmlUri) :
    ∃ pfx, ⟨pfx, uri⟩ ∈ v.document.declared := by
  obtain ⟨hparse, -⟩ := represents_of_read h
  obtain ⟨pfx, pos, hresolve⟩ := (Xml.Document.resolved_of_parse hparse p hp).name
  rw [show p.element.tag.name.uri = some uri from huri] at hresolve
  obtain ⟨b, hb, -, rfl⟩ := Xml.Assembly.exists_mem_of_resolve hresolve
  exact ⟨b.pfx, covers_of_parse hparse p hp b hb hxml⟩

/-- **The role of an element outside of the control namespace.** Its namespace has exactly one
prefix in the table of its view. The element is a call with that prefix exactly if the namespace
does not begin with a brace. If it does, then it is taken for the namespace between braces, so that
the element steers the view, or is a call with the prefix of another namespace, or is an error. -/
theorem role_of_element (source : String) (v : View) (h : (View.read source).outcome = .ok v)
    (p : Placed) (hp : p ∈ Node.placedAll 0 [] v.document.nodes) (uri : String)
    (huri : p.element.name.uri = some uri) (hcontrol : uri ≠ controlUri) (hxml : uri ≠ Xml.xmlUri) :
    ((∃ pfx, Role.ofName v.prefixes p.element.name = .ok (.call pfx p.element.name.localName) ∧
        ∀ q, ⟨q, uri⟩ ∈ v.prefixes.entries ↔ q = pfx) ↔ ¬BeginsWithBrace uri) ∧
    (BeginsWithBrace uri →
      (uri = Xml.braced controlUri ∧ Role.ofName v.prefixes p.element.name =
        .ok (.control (.ofLocalName p.element.name.localName))) ∨
      (∃ pfx inner, uri = Xml.braced inner ∧ inner ≠ controlUri ∧
        ⟨pfx, inner⟩ ∈ v.prefixes.entries ∧
        Role.ofName v.prefixes p.element.name = .ok (.call pfx p.element.name.localName)) ∨
      (uri ≠ Xml.braced controlUri ∧ (∀ b ∈ v.prefixes.entries, uri ≠ Xml.braced b.uri) ∧
        Role.ofName v.prefixes p.element.name = .error (.unresolvedNamespace uri))) := by
  obtain ⟨-, ht⟩ := represents_of_read h
  simp only [ht.mem_iff]
  by_cases hbrace : BeginsWithBrace uri
  · have hcases := Role.ofName_of_brace ht huri hbrace hcontrol
    refine ⟨iff_of_false ?_ (not_not.mpr hbrace), fun _ => hcases⟩
    rintro ⟨pfx, hrole, hbound⟩
    have hmem : ⟨pfx, uri⟩ ∈ v.document.declared := (hbound pfx).mpr rfl
    rcases hcases with ⟨-, hother⟩ | ⟨q, inner, rfl, -, hinner, hother⟩ | ⟨-, -, hother⟩
    · simp [hrole] at hother
    · obtain rfl : pfx = q := by simpa [hrole] using hother
      -- Both the namespace and what it stands for between braces would have this one prefix.
      have hsame := congrArg Binding.uri (ht.oneToOne.eq_of_pfx hmem hinner rfl)
      exact braced_ne inner hsame
    · simp [hrole] at hother
  · refine ⟨iff_of_true ?_ hbrace, fun hbegins => absurd hbegins hbrace⟩
    obtain ⟨pfx, hmem⟩ := exists_declared h hp huri hxml
    refine ⟨pfx, Role.ofName_of_bare ht huri hbrace hcontrol hmem, fun q => ⟨fun hq => ?_, ?_⟩⟩
    · exact congrArg Binding.pfx (ht.oneToOne.eq_of_uri hq hmem rfl)
    · rintro rfl
      exact hmem

/-- A namespace that only ends with a brace has its own prefix, also far away from the root. -/
theorem role_of_inner_element :
    ∃ v p, (View.read "<a><x:b xmlns:x=\"u\"><y:c xmlns:y=\"v\x7d\"/></x:b></a>").outcome = .ok v ∧
      p ∈ Node.placedAll 0 [] v.document.nodes ∧ p.element.name = ⟨some "v\x7d", "c"⟩ ∧
      ∃ pfx, Role.ofName v.prefixes p.element.name = .ok (.call pfx p.element.name.localName) ∧
        ∀ q, ⟨q, "v\x7d"⟩ ∈ v.prefixes.entries ↔ q = pfx := by
  have hnames : (View.read
      "<a><x:b xmlns:x=\"u\"><y:c xmlns:y=\"v\x7d\"/></x:b></a>").outcome.toOption.map (fun v =>
        (Node.placedAll 0 [] v.document.nodes).map fun p => p.element.name) =
      some [⟨none, "a"⟩, ⟨some "u", "b"⟩, ⟨some "v\x7d", "c"⟩] := by
    decide +kernel
  obtain ⟨v, hread, hv⟩ := Option.map_eq_some_iff.mp hnames
  have hread := eq_ok_of_toOption hread
  have hmem : (⟨some "v\x7d", "c"⟩ : Xml.ExpandedName) ∈
      (Node.placedAll 0 [] v.document.nodes).map fun p => p.element.name := by
    simp [hv]
  obtain ⟨p, hp, hname⟩ := List.mem_map.mp hmem
  have hrole := role_of_element _ v hread p hp "v\x7d" (by rw [hname]) (by decide) (by decide)
  exact ⟨v, p, hread, hp, hname, hrole.1.mpr (by decide)⟩

/-- A namespace that begins with a brace is declared, yet an element that uses it is an error. -/
theorem role_of_brace :
    ∃ v p, (View.read "<x:a xmlns:x=\"\x7bu\"/>").outcome = .ok v ∧
      p ∈ Node.placedAll 0 [] v.document.nodes ∧ p.element.name = ⟨some "\x7bu", "a"⟩ ∧
      ⟨"x", "\x7bu"⟩ ∈ v.prefixes.entries ∧
      Role.ofName v.prefixes p.element.name = .error (.unresolvedNamespace "\x7bu") := by
  have hall : (View.read "<x:a xmlns:x=\"\x7bu\"/>").outcome.toOption.map (fun v =>
        (v.prefixes.entries, (Node.placedAll 0 [] v.document.nodes).map fun p =>
          (p.element.name, Role.ofName v.prefixes p.element.name))) =
      some ([⟨"x", "\x7bu"⟩], [(⟨some "\x7bu", "a"⟩, .error (.unresolvedNamespace "\x7bu"))]) := by
    decide +kernel
  obtain ⟨v, hread, hv⟩ := Option.map_eq_some_iff.mp hall
  obtain ⟨hentries, hplaced⟩ := Prod.mk.inj hv
  obtain ⟨p, hp, hrole⟩ := List.map_eq_singleton_iff.mp hplaced
  obtain ⟨hname, hrole⟩ := Prod.mk.inj hrole
  exact ⟨v, p, eq_ok_of_toOption hread, by simp [hp], hname, by simp [hentries], hrole⟩

end View

end GroovyViews
