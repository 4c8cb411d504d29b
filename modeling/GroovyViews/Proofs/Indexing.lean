import GroovyViews.Proofs.Qualifiers
import Mathlib.Data.String.Basic

/-!
# A table with an index in each direction

The table of prefixes is searched from its beginning whenever something is looked up. A faster one
keeps the declarations in three places: by prefix, by namespace, and the prefixes in the order of
their declaration. This module describes such an index, which is changed in place, and shows that
the three places stay in step with each other and with the table, whatever is declared and however
many declarations are refused.
-/

namespace GroovyViews

open Xml (Binding)

/-- Declarations that are kept by prefix, by namespace and in order. Namespaces stand between
braces. -/
structure PrefixIndex where
  /-- The namespace of each prefix. -/
  prefixes : Std.ExtHashMap String String
  /-- The prefix of each namespace. -/
  uris : Std.ExtHashMap String String
  /-- The prefixes in the order of their first declaration. -/
  order : List String

namespace PrefixIndex

/-- No declarations. -/
def empty : PrefixIndex := ⟨∅, ∅, []⟩

/-- What is between the braces of a key; other texts stay as they are. -/
def unbraced (key : String) : String :=
  match key.toList with
  | '\x7b' :: rest => if rest.getLast? = some '\x7d' then String.ofList rest.dropLast else key
  | _ => key

/-- Takes in a declaration. The index is changed place by place, and an error leaves it as it is at
that moment. -/
def declare (b : Binding) : EStateM ViewError PrefixIndex Unit := do
  let key := Xml.braced b.uri
  match (← get).prefixes[b.pfx]? with
  | some existing =>
    if existing = key then return
    else throw (.prefixRebound b.pfx (unbraced existing) b.uri)
  | none =>
    match (← get).uris[key]? with
    | some existing => throw (.uriRebound b.uri existing b.pfx)
    | none =>
      modify fun m => { m with prefixes := m.prefixes.insert b.pfx key }
      modify fun m => { m with uris := m.uris.insert key b.pfx }
      modify fun m => { m with order := m.order ++ [b.pfx] }

/-- The index after declarations have been made, one after the other, whether they are refused or
not. -/
def after (m : PrefixIndex) : List Binding → PrefixIndex
  | [] => m
  | b :: rest =>
    match (declare b).run m with
    | .ok _ m' | .error _ m' => m'.after rest

/-- The declarations among these that are not refused. -/
def accepted (m : PrefixIndex) : List Binding → List Binding
  | [] => []
  | b :: rest =>
    match (declare b).run m with
    | .ok _ m' => b :: m'.accepted rest
    | .error _ m' => m'.accepted rest

/-- The declarations in the index, in the order in which they were first made. -/
def declarations (m : PrefixIndex) : List Binding :=
  m.order.filterMap fun pfx => m.prefixes[pfx]?.map fun key => ⟨pfx, unbraced key⟩

/-- The prefix of a namespace that is given bare or braced. -/
def prefixOf? (m : PrefixIndex) (uri : String) : Option String :=
  if uri.toList.head? = some '\x7b' then m.uris[uri]? else m.uris[Xml.braced uri]?

end PrefixIndex

namespace PrefixTable

variable {t : PrefixTable} {b : Binding}

/-- The table after declarations have been made, one after the other, whether they are refused or
not. -/
def after (t : PrefixTable) : List Binding → PrefixTable
  | [] => t
  | b :: rest =>
    match t.add b with
    | .ok t' => t'.after rest
    | .error _ => t.after rest

/-- A new entry gives its prefix a namespace and leaves the others alone. -/
theorem uriOf?_concat (h : t.uriOf? b.pfx = none) (pfx : String) :
    (PrefixTable.mk (t.entries ++ [b])).uriOf? pfx =
      if b.pfx = pfx then some b.uri else t.uriOf? pfx := by
  unfold uriOf? at h ⊢
  rw [Option.map_eq_none_iff] at h
  by_cases hpfx : b.pfx = pfx
  · subst hpfx
    simp [List.find?_append, h]
  · simp [List.find?_append, hpfx]

/-- A new entry gives its namespace a prefix and leaves the others alone. -/
theorem ownerOf?_concat (h : t.ownerOf? b.uri = none) (uri : String) :
    (PrefixTable.mk (t.entries ++ [b])).ownerOf? uri =
      if b.uri = uri then some b.pfx else t.ownerOf? uri := by
  unfold ownerOf? at h ⊢
  rw [Option.map_eq_none_iff] at h
  by_cases huri : b.uri = uri
  · subst huri
    simp [List.find?_append, h]
  · simp [List.find?_append, huri]

/-- A text is looked up as what is between its braces, or else as it is unless it begins with a
brace. -/
theorem key_eq_braced_iff {text uri : String} :
    key text = Xml.braced uri ↔ text = Xml.braced uri ∨ (text = uri ∧ ¬BeginsWithBrace uri) := by
  by_cases hbrace : BeginsWithBrace text
  · have hkey : key text = text := if_pos hbrace
    rw [hkey]
    constructor
    · exact .inl
    · rintro (htext | ⟨rfl, hbare⟩)
      · exact htext
      · exact absurd hbrace hbare
  · have hkey : key text = Xml.braced text := if_neg hbrace
    rw [hkey, braced_inj]
    constructor
    · rintro rfl
      exact .inr ⟨rfl, hbrace⟩
    · rintro (rfl | ⟨htext, -⟩)
      · exact absurd (beginsWithBrace_braced uri) hbrace
      · exact htext

/-- The prefix of a text is that of the namespace as which it is looked up. -/
theorem prefixOf?_eq_some_iff {text pfx : String} :
    t.prefixOf? text = some pfx ↔
      ∃ uri, key text = Xml.braced uri ∧ t.ownerOf? uri = some pfx := by
  constructor
  · intro hpfx
    obtain ⟨b, hfind, -⟩ := Option.map_eq_some_iff.mp hpfx
    have hkey : Xml.braced b.uri = key text := by simpa using List.find?_some hfind
    exact ⟨b.uri, hkey.symm, by rwa [prefixOf?_of_key hkey.symm] at hpfx⟩
  · rintro ⟨uri, hkey, howner⟩
    rwa [prefixOf?_of_key hkey]

end PrefixTable

namespace PrefixIndex

variable {m : PrefixIndex} {t : PrefixTable} {declared : List Binding} {b : Binding}

/-- What is between the braces of a braced namespace is the namespace, even if it has braces of its
own. -/
@[simp] theorem unbraced_braced (uri : String) : unbraced (Xml.braced uri) = uri := by
  have hchars : (Xml.braced uri).toList = '\x7b' :: (uri.toList ++ ['\x7d']) := by
    simp [Xml.braced]
  simp [unbraced, hchars]

/-! ## The four ways in which a declaration ends -/

/-- A declaration that is there changes nothing. -/
theorem run_declare_of_same (h : m.prefixes[b.pfx]? = some (Xml.braced b.uri)) :
    (declare b).run m = .ok () m := by
  simp [declare, EStateM.run_bind, h]

/-- A prefix that has another namespace is refused, and nothing is changed. -/
theorem run_declare_of_other_uri {key : String} (h : m.prefixes[b.pfx]? = some key)
    (hne : key ≠ Xml.braced b.uri) :
    (declare b).run m = .error (.prefixRebound b.pfx (unbraced key) b.uri) m := by
  simp [declare, EStateM.run_bind, h, hne]

/-- A namespace that has another prefix is refused, and nothing is changed. -/
theorem run_declare_of_other_pfx {pfx : String} (h : m.prefixes[b.pfx]? = none)
    (huri : m.uris[Xml.braced b.uri]? = some pfx) :
    (declare b).run m = .error (.uriRebound b.uri pfx b.pfx) m := by
  simp [declare, EStateM.run_bind, h, huri]

/-- A new declaration is put in all three places. -/
theorem run_declare_of_new (h : m.prefixes[b.pfx]? = none)
    (huri : m.uris[Xml.braced b.uri]? = none) :
    (declare b).run m = .ok () ⟨m.prefixes.insert b.pfx (Xml.braced b.uri),
      m.uris.insert (Xml.braced b.uri) b.pfx, m.order ++ [b.pfx]⟩ := by
  simp [declare, EStateM.run_bind, h, huri]

/-! ## In step with the table -/

/-- The index has what the table has. -/
structure Mirrors (m : PrefixIndex) (t : PrefixTable) : Prop where
  /-- Each prefix has the namespace that it has in the table, between braces. -/
  prefixes : ∀ pfx, m.prefixes[pfx]? = (t.uriOf? pfx).map Xml.braced
  /-- What has a prefix is a namespace between braces that has it in the table. -/
  uris : ∀ key pfx, m.uris[key]? = some pfx ↔
    ∃ uri, key = Xml.braced uri ∧ t.ownerOf? uri = some pfx
  /-- The prefixes are in the order of the table. -/
  order : m.order = t.entries.map Binding.pfx

/-- At first, neither has anything. -/
theorem empty_mirrors : empty.Mirrors .empty :=
  ⟨fun _ => by simp [empty, PrefixTable.empty, PrefixTable.uriOf?],
    fun _ _ => by simp [empty, PrefixTable.empty, PrefixTable.ownerOf?], rfl⟩

namespace Mirrors

/-- A namespace has the prefix that it has in the table. -/
theorem uris_braced (h : m.Mirrors t) (uri : String) :
    m.uris[Xml.braced uri]? = t.ownerOf? uri := by
  refine Option.ext fun pfx => ?_
  rw [h.uris]
  constructor
  · rintro ⟨uri', heq, hpfx⟩
    rwa [braced_inj.mp heq]
  · intro hpfx
    exact ⟨uri, rfl, hpfx⟩

/-- A new declaration keeps the index in step with the table. -/
theorem insert (h : m.Mirrors t) (hpfx : t.uriOf? b.pfx = none) (huri : t.ownerOf? b.uri = none) :
    Mirrors ⟨m.prefixes.insert b.pfx (Xml.braced b.uri), m.uris.insert (Xml.braced b.uri) b.pfx,
      m.order ++ [b.pfx]⟩ ⟨t.entries ++ [b]⟩ where
  prefixes pfx := by
    rw [Std.ExtHashMap.getElem?_insert, PrefixTable.uriOf?_concat hpfx, h.prefixes]
    by_cases heq : b.pfx = pfx <;> simp [heq]
  uris key pfx := by
    rw [Std.ExtHashMap.getElem?_insert]
    simp only [PrefixTable.ownerOf?_concat huri]
    by_cases heq : Xml.braced b.uri = key
    · subst heq
      simp [braced_inj]
    · -- Another key stands for another namespace, and the new entry has no part in it.
      rw [if_neg (by simpa using heq), h.uris]
      refine exists_congr fun uri => and_congr_right fun hkey => ?_
      rw [if_neg fun hsame => heq (by rw [hkey, hsame])]
  order := by simp [h.order]

/-- A declaration ends alike for the index and for the table. If it is refused, the index is what it
was, and else both are in step again. -/
theorem run_declare (h : m.Mirrors t) (b : Binding) :
    (∃ m' t', (declare b).run m = .ok () m' ∧ t.add b = .ok t' ∧ m'.Mirrors t') ∨
    ∃ err, (declare b).run m = .error err m ∧ t.add b = .error err := by
  have hprefixes := h.prefixes b.pfx
  have huris := h.uris_braced b.uri
  cases hpfx : t.uriOf? b.pfx with
  | some existing =>
    rw [hpfx, Option.map_some] at hprefixes
    by_cases hsame : existing = b.uri
    · subst hsame
      exact .inl ⟨m, t, run_declare_of_same hprefixes, by simp [PrefixTable.add, hpfx], h⟩
    · have hkey : Xml.braced existing ≠ Xml.braced b.uri := fun heq => hsame (braced_inj.mp heq)
      refine .inr ⟨.prefixRebound b.pfx existing b.uri, ?_, by simp [PrefixTable.add, hpfx, hsame]⟩
      rw [run_declare_of_other_uri hprefixes hkey, unbraced_braced]
  | none =>
    rw [hpfx, Option.map_none] at hprefixes
    cases howner : t.ownerOf? b.uri with
    | some existing =>
      rw [howner] at huris
      exact .inr ⟨_, run_declare_of_other_pfx hprefixes huris,
        by simp [PrefixTable.add, hpfx, howner]⟩
    | none =>
      rw [howner] at huris
      exact .inl ⟨_, _, run_declare_of_new hprefixes huris, by simp [PrefixTable.add, hpfx, howner],
        h.insert hpfx howner⟩

/-- After any declarations the index is in step with the table, which is that of the declarations
that have not been refused. -/
theorem after (h : m.Mirrors t) (ht : t.Represents declared) (calls : List Binding) :
    (m.after calls).Mirrors (t.after calls) ∧
      (t.after calls).Represents (declared ++ m.accepted calls) := by
  induction calls generalizing m t declared with
  | nil => exact ⟨h, by simpa [PrefixTable.after, accepted] using ht⟩
  | cons b rest ih =>
    rcases h.run_declare b with ⟨m', t', hrun, hadd, h'⟩ | ⟨err, hrun, hadd⟩
    · have ht' : t'.Represents (declared ++ [b]) := ht.of_foldlM (by simp [hadd])
      simpa [PrefixIndex.after, PrefixTable.after, accepted, hrun, hadd] using ih h' ht'
    · simpa [PrefixIndex.after, PrefixTable.after, accepted, hrun, hadd] using ih h ht

/-- The prefixes lead to the declared namespaces. -/
theorem prefixes_iff (h : m.Mirrors t) (ht : t.Represents declared) {pfx key : String} :
    m.prefixes[pfx]? = some key ↔ ∃ uri, key = Xml.braced uri ∧ ⟨pfx, uri⟩ ∈ declared := by
  rw [h.prefixes, Option.map_eq_some_iff]
  refine exists_congr fun uri => ?_
  rw [ht.uriOf?_iff, and_comm, eq_comm]

/-- The declared namespaces lead back to the prefixes. -/
theorem uris_iff (h : m.Mirrors t) (ht : t.Represents declared) {pfx key : String} :
    m.uris[key]? = some pfx ↔ ∃ uri, key = Xml.braced uri ∧ ⟨pfx, uri⟩ ∈ declared := by
  rw [h.uris]
  refine exists_congr fun uri => ?_
  rw [ht.ownerOf?_iff]

/-- The order lists the prefixes that have a namespace. -/
theorem mem_order_iff (h : m.Mirrors t) (ht : t.Represents declared) {pfx : String} :
    pfx ∈ m.order ↔ pfx ∈ m.prefixes := by
  rw [h.order, Std.ExtHashMap.mem_iff_isSome_getElem?, Option.isSome_iff_exists, List.mem_map]
  constructor
  · rintro ⟨b, hb, rfl⟩
    exact ⟨Xml.braced b.uri, (h.prefixes_iff ht).mpr ⟨b.uri, rfl, ht.mem_iff.mp hb⟩⟩
  · rintro ⟨key, hkey⟩
    obtain ⟨uri, -, hmem⟩ := (h.prefixes_iff ht).mp hkey
    exact ⟨⟨pfx, uri⟩, ht.mem_iff.mpr hmem, rfl⟩

/-- The declarations of the index are the entries of the table. -/
theorem declarations_eq (h : m.Mirrors t) (ht : t.Represents declared) :
    m.declarations = t.entries := by
  have hentry : ∀ b ∈ t.entries,
      ((fun pfx => m.prefixes[pfx]?.map fun key => Binding.mk pfx (unbraced key)) ∘ Binding.pfx) b =
        some b := by
    intro b hb
    have huri : t.uriOf? b.pfx = some b.uri := ht.uriOf?_iff.mpr (ht.mem_iff.mp hb)
    simp [h.prefixes, huri]
  rw [declarations, h.order, List.filterMap_map, List.filterMap_congr hentry, List.filterMap_some]

/-- The index gives the same prefix as the table. -/
theorem prefixOf?_eq (h : m.Mirrors t) (text : String) :
    m.prefixOf? text = t.prefixOf? text := by
  have hkey : m.prefixOf? text = m.uris[PrefixTable.key text]? := by
    unfold prefixOf? PrefixTable.key
    split <;> rfl
  refine Option.ext fun pfx => ?_
  rw [hkey, h.uris, PrefixTable.prefixOf?_eq_some_iff]

end Mirrors

/-- **An index in step.** Whatever declarations are made, one after the other, and however many of
them are refused, the index afterwards is as follows. A declaration that is refused leaves it as it
is. The order has no repetitions and lists the prefixes that have a namespace, and the two
directions are inverse to each other. Its declarations are those that were not refused, each where
it was first made and as it was made, and to repeat one of them changes nothing. A text has a prefix
if it is a declared namespace between braces, or a declared namespace that does not begin with a
brace. In all this the index agrees with the table of prefixes. -/
theorem after_in_step (calls : List Binding) :
    let m := empty.after calls
    let t := PrefixTable.empty.after calls
    (∀ b err m', (declare b).run m = .error err m' → m' = m) ∧
    m.order.Nodup ∧ (∀ pfx, pfx ∈ m.order ↔ pfx ∈ m.prefixes) ∧
    (∀ pfx key : String, m.prefixes[pfx]? = some key ↔ m.uris[key]? = some pfx) ∧
    m.declarations = (empty.accepted calls).eraseDups ∧
    (∀ b ∈ empty.accepted calls, (declare b).run m = .ok () m) ∧
    (∀ text pfx, m.prefixOf? text = some pfx ↔ ∃ uri, ⟨pfx, uri⟩ ∈ m.declarations ∧
      (text = Xml.braced uri ∨ (text = uri ∧ ¬BeginsWithBrace uri))) ∧
    m.Mirrors t ∧ m.declarations = t.entries ∧ (∀ text, m.prefixOf? text = t.prefixOf? text) ∧
    ∀ b err, t.add b = .error err ↔ (declare b).run m = .error err m := by
  intro m t
  obtain ⟨hm, ht⟩ : m.Mirrors t ∧ t.Represents (empty.accepted calls) := by
    simpa using empty_mirrors.after PrefixTable.empty_represents calls
  have hdeclarations : m.declarations = t.entries := hm.declarations_eq ht
  refine ⟨?_, ?_, fun pfx => hm.mem_order_iff ht, ?_, ?_, ?_, ?_, hm, hdeclarations,
    hm.prefixOf?_eq, ?_⟩
  · intro b err m' hrefused
    rcases hm.run_declare b with ⟨m'', t', hrun, -⟩ | ⟨err', hrun, -⟩
    · simp [hrun] at hrefused
    · rw [hrun] at hrefused
      injection hrefused with _ hsame
      exact hsame.symm
  · rw [hm.order]
    exact ht.nodup_pfx
  · intro pfx key
    rw [hm.prefixes_iff ht, hm.uris_iff ht]
  · rw [hdeclarations, ht.entries]
  · intro b hb
    exact run_declare_of_same ((hm.prefixes_iff ht).mpr ⟨b.uri, rfl, hb⟩)
  · intro text pfx
    rw [hm.prefixOf?_eq, PrefixTable.prefixOf?_eq_some_iff, hdeclarations]
    refine exists_congr fun uri => ?_
    rw [PrefixTable.key_eq_braced_iff, ht.ownerOf?_iff, ht.mem_iff, and_comm]
  · intro b err
    rcases hm.run_declare b with ⟨m', t', hrun, hadd, -⟩ | ⟨err', hrun, hadd⟩
    · simp [hrun, hadd]
    · simp [hrun, hadd]

end PrefixIndex

end GroovyViews
