import GroovyViews.PrefixTable
import GroovyViews.Proofs.Sequence
import Mathlib.Data.List.Induction

/-!
# Tables of prefixes

A table takes declarations one after the other as long as they are one-to-one. It then holds each of
them once, where it first occurred. The first declaration that does not fit with the ones before it
is refused, and which of its two halves is at fault decides the error.
-/

namespace GroovyViews

open Xml (Binding)

/-- Each prefix has one namespace, and each namespace has one prefix. -/
def OneToOne (declared : List Binding) : Prop :=
  ∀ a ∈ declared, ∀ b ∈ declared, a.pfx = b.pfx ↔ a.uri = b.uri

instance (declared : List Binding) : Decidable (OneToOne declared) :=
  inferInstanceAs (Decidable (∀ a ∈ declared, ∀ b ∈ declared, a.pfx = b.pfx ↔ a.uri = b.uri))

/-- The error of a declaration that does not fit with earlier ones. That its prefix has another
namespace counts before all else. -/
inductive Conflicts (earlier : List Binding) (b : Binding) : ViewError → Prop where
  /-- The prefix has another namespace. -/
  | pfx {uri : String} : ⟨b.pfx, uri⟩ ∈ earlier → uri ≠ b.uri →
      Conflicts earlier b (.prefixRebound b.pfx uri b.uri)
  /-- The prefix has no other namespace, but the namespace has another prefix. -/
  | uri {pfx : String} : (∀ uri, ⟨b.pfx, uri⟩ ∈ earlier → uri = b.uri) →
      ⟨pfx, b.uri⟩ ∈ earlier → pfx ≠ b.pfx → Conflicts earlier b (.uriRebound b.uri pfx b.pfx)

variable {earlier declared : List Binding} {b : Binding} {err : ViewError}

/-- A part of what is one-to-one is one-to-one. -/
theorem OneToOne.of_subset (h : OneToOne declared) (hsub : earlier ⊆ declared) :
    OneToOne earlier :=
  fun a ha b hb => h a (hsub ha) b (hsub hb)

/-- Declarations are equal if they share a prefix. -/
theorem OneToOne.eq_of_pfx (h : OneToOne declared) {a : Binding} (ha : a ∈ declared)
    (hb : b ∈ declared) (hpfx : a.pfx = b.pfx) : a = b := by
  have huri := (h a ha b hb).mp hpfx
  cases a
  cases b
  simp_all

/-- Declarations are equal if they share a namespace. -/
theorem OneToOne.eq_of_uri (h : OneToOne declared) {a : Binding} (ha : a ∈ declared)
    (hb : b ∈ declared) (huri : a.uri = b.uri) : a = b :=
  h.eq_of_pfx ha hb ((h a ha b hb).mpr huri)

/-- One more declaration is either one-to-one with those before it or in conflict with them. -/
theorem OneToOne.concat_or_conflicts (h : OneToOne earlier) (b : Binding) :
    OneToOne (earlier ++ [b]) ∨ ∃ err, Conflicts earlier b err := by
  by_cases hpfx : ∃ uri, ⟨b.pfx, uri⟩ ∈ earlier ∧ uri ≠ b.uri
  · obtain ⟨uri, hmem, hne⟩ := hpfx
    exact .inr ⟨_, .pfx hmem hne⟩
  have hpfx : ∀ uri, ⟨b.pfx, uri⟩ ∈ earlier → uri = b.uri := by
    intro uri hmem
    by_contra hne
    exact hpfx ⟨uri, hmem, hne⟩
  by_cases huri : ∃ pfx, ⟨pfx, b.uri⟩ ∈ earlier ∧ pfx ≠ b.pfx
  · obtain ⟨pfx, hmem, hne⟩ := huri
    exact .inr ⟨_, .uri hpfx hmem hne⟩
  have huri : ∀ pfx, ⟨pfx, b.uri⟩ ∈ earlier → pfx = b.pfx := by
    intro pfx hmem
    by_contra hne
    exact huri ⟨pfx, hmem, hne⟩
  have hb : ∀ a ∈ earlier, a.pfx = b.pfx ↔ a.uri = b.uri := by
    intro a ha
    constructor
    · intro heq
      exact hpfx a.uri (heq ▸ ha)
    · intro heq
      exact huri a.pfx (heq ▸ ha)
  left
  intro a ha c hc
  rcases List.mem_append.mp ha with ha | ha <;> rcases List.mem_append.mp hc with hc | hc
  · exact h a ha c hc
  · rw [List.mem_singleton.mp hc]
    exact hb a ha
  · rw [List.mem_singleton.mp ha, eq_comm, hb c hc, eq_comm]
  · rw [List.mem_singleton.mp ha, List.mem_singleton.mp hc]
    simp

/-- Declarations are one-to-one, or there is a first among them that is in conflict with the ones
before it. -/
theorem oneToOne_or_exists_conflict (declared : List Binding) :
    OneToOne declared ∨ ∃ earlier b later err, declared = earlier ++ b :: later ∧
      OneToOne earlier ∧ Conflicts earlier b err := by
  induction declared using List.reverseRecOn with
  | nil => exact .inl (by simp [OneToOne])
  | append_singleton declared b ih =>
    rcases ih with hone | ⟨earlier, c, later, err, rfl, hone, hc⟩
    · rcases hone.concat_or_conflicts b with hall | ⟨err, hc⟩
      · exact .inl hall
      · exact .inr ⟨declared, b, [], err, rfl, hone, hc⟩
    · exact .inr ⟨earlier, c, later ++ [b], err, by simp, hone, hc⟩

namespace PrefixTable

/-- The table of declarations that are one-to-one: each of them where it first occurs. -/
structure Represents (t : PrefixTable) (declared : List Binding) : Prop where
  /-- The entries are the declarations without later repetitions. -/
  entries : t.entries = declared.eraseDups
  /-- The declarations are one-to-one. -/
  oneToOne : OneToOne declared

/-- No declarations are in an empty table. -/
theorem empty_represents : empty.Represents [] := ⟨rfl, by simp [OneToOne]⟩

namespace Represents

variable {t t' : PrefixTable}

/-- The entries are the declarations, taken as a set. -/
theorem mem_iff (h : t.Represents declared) : b ∈ t.entries ↔ b ∈ declared := by
  rw [h.entries, List.mem_eraseDups]

/-- The only entry with a property is the one that is found. -/
theorem find?_eq_some (h : t.Represents declared) {p : Binding → Bool} (hb : b ∈ declared)
    (hp : p b = true) (honly : ∀ a ∈ declared, p a = true → a = b) :
    t.entries.find? p = some b := by
  cases hfind : t.entries.find? p with
  | none => exact absurd hp (List.find?_eq_none.mp hfind b (h.mem_iff.mpr hb))
  | some a =>
    have ha := h.mem_iff.mp (List.mem_of_find?_eq_some hfind)
    exact congrArg some (honly a ha (List.find?_some hfind))

/-- The namespace declared for a prefix. -/
theorem uriOf?_iff (h : t.Represents declared) {pfx uri : String} :
    t.uriOf? pfx = some uri ↔ ⟨pfx, uri⟩ ∈ declared := by
  rw [uriOf?, Option.map_eq_some_iff]
  constructor
  · rintro ⟨a, hfind, rfl⟩
    have hpfx : a.pfx = pfx := by simpa using List.find?_some hfind
    exact hpfx ▸ h.mem_iff.mp (List.mem_of_find?_eq_some hfind)
  · intro hmem
    refine ⟨⟨pfx, uri⟩, h.find?_eq_some hmem (by simp) fun a ha hpfx => ?_, rfl⟩
    exact h.oneToOne.eq_of_pfx ha hmem (by simpa using hpfx)

/-- The prefix declared for a namespace. -/
theorem ownerOf?_iff (h : t.Represents declared) {pfx uri : String} :
    t.ownerOf? uri = some pfx ↔ ⟨pfx, uri⟩ ∈ declared := by
  rw [ownerOf?, Option.map_eq_some_iff]
  constructor
  · rintro ⟨a, hfind, rfl⟩
    have huri : a.uri = uri := by simpa using List.find?_some hfind
    exact huri ▸ h.mem_iff.mp (List.mem_of_find?_eq_some hfind)
  · intro hmem
    refine ⟨⟨pfx, uri⟩, h.find?_eq_some hmem (by simp) fun a ha huri => ?_, rfl⟩
    exact h.oneToOne.eq_of_uri ha hmem (by simpa using huri)

/-- A repeated declaration changes nothing. -/
theorem add_of_mem (h : t.Represents declared) (hb : b ∈ declared) : t.add b = .ok t := by
  have huri : t.uriOf? b.pfx = some b.uri := h.uriOf?_iff.mpr hb
  simp [add, huri]

/-- A declaration that is one-to-one with those in the table is added to it. -/
theorem exists_add (h : t.Represents declared) (hone : OneToOne (declared ++ [b])) :
    ∃ t', t.add b = .ok t' ∧ t'.Represents (declared ++ [b]) := by
  have hlast : b ∈ declared ++ [b] := by simp
  by_cases hb : b ∈ declared
  · refine ⟨t, h.add_of_mem hb, ?_, hone⟩
    simp [h.entries, List.eraseDups_append, List.removeAll, hb]
  · have hpfx : t.uriOf? b.pfx = none := by
      refine Option.eq_none_iff_forall_ne_some.mpr fun uri huri => hb ?_
      have hmem := h.uriOf?_iff.mp huri
      exact hone.eq_of_pfx (List.mem_append_left _ hmem) hlast rfl ▸ hmem
    have huri : t.ownerOf? b.uri = none := by
      refine Option.eq_none_iff_forall_ne_some.mpr fun pfx hpfx => hb ?_
      have hmem := h.ownerOf?_iff.mp hpfx
      exact hone.eq_of_uri (List.mem_append_left _ hmem) hlast rfl ▸ hmem
    refine ⟨⟨t.entries ++ [b]⟩, by simp [add, hpfx, huri], ?_, hone⟩
    simp [h.entries, List.eraseDups_append, List.eraseDups_cons, List.removeAll, hb]

/-- A declaration in conflict with those in the table is refused. -/
theorem add_of_conflicts (h : t.Represents declared) (hc : Conflicts declared b err) :
    t.add b = .error err := by
  cases hc with
  | pfx hmem hne =>
    rw [add, h.uriOf?_iff.mpr hmem]
    exact if_neg hne
  | @uri pfx hsame hmem hne =>
    have hpfx : t.uriOf? b.pfx = none := by
      refine Option.eq_none_iff_forall_ne_some.mpr fun uri huri => hne ?_
      have hb := h.uriOf?_iff.mp huri
      rw [hsame uri hb] at hb
      exact congrArg Binding.pfx (h.oneToOne.eq_of_uri hmem hb rfl)
    rw [add, hpfx, h.ownerOf?_iff.mpr hmem]

/-- Declarations that are one-to-one with those in the table are added to it. -/
theorem exists_foldlM (h : t.Represents earlier) (hone : OneToOne (earlier ++ declared)) :
    ∃ t', declared.foldlM add t = .ok t' ∧ t'.Represents (earlier ++ declared) := by
  induction declared generalizing t earlier with
  | nil => exact ⟨t, rfl, by simpa using h⟩
  | cons b rest ih =>
    have hnext : OneToOne (earlier ++ [b]) := hone.of_subset (by simp)
    obtain ⟨next, hadd, hnext⟩ := h.exists_add hnext
    obtain ⟨t', hfold, ht'⟩ := ih hnext (by simpa using hone)
    refine ⟨t', ?_, by simpa using ht'⟩
    rw [List.foldlM_cons, hadd]
    exact hfold

/-- What has been added to a table is one-to-one with what was in it. -/
theorem of_foldlM (h : t.Represents earlier) (hfold : declared.foldlM add t = .ok t') :
    t'.Represents (earlier ++ declared) := by
  induction declared generalizing t earlier with
  | nil => simpa using Except.ok.inj hfold ▸ h
  | cons b rest ih =>
    rw [List.foldlM_cons] at hfold
    obtain ⟨next, hadd, hfold⟩ := exists_of_bind_eq_ok hfold
    rcases h.oneToOne.concat_or_conflicts b with hone | ⟨err, hc⟩
    · obtain ⟨next', hadd', hnext⟩ := h.exists_add hone
      obtain rfl : next' = next := by simpa [hadd] using hadd'.symm
      simpa using ih hnext hfold
    · simp [h.add_of_conflicts hc] at hadd

end Represents

/-- The table of declarations exists exactly if they are one-to-one, and it is then made of them,
each where it first occurs. -/
theorem foldlM_add_eq_ok_iff {t : PrefixTable} :
    declared.foldlM add empty = .ok t ↔ OneToOne declared ∧ t.entries = declared.eraseDups := by
  constructor
  · intro hfold
    have ht := empty_represents.of_foldlM hfold
    exact ⟨ht.oneToOne, ht.entries⟩
  · rintro ⟨hone, hentries⟩
    obtain ⟨t', hfold, ht'⟩ := empty_represents.exists_foldlM (by simpa using hone)
    have hsame : t'.entries = t.entries := hentries ▸ ht'.entries
    obtain rfl : t' = t := congrArg PrefixTable.mk hsame
    exact hfold

/-- The first declaration that is in conflict with the ones before it is the one that is refused. -/
theorem foldlM_add_eq_error_iff :
    declared.foldlM add empty = .error err ↔ ∃ earlier b later,
      declared = earlier ++ b :: later ∧ OneToOne earlier ∧ Conflicts earlier b err := by
  have hrefused : ∀ {earlier : List Binding} {b : Binding} {later : List Binding} {err : ViewError},
      declared = earlier ++ b :: later → OneToOne earlier → Conflicts earlier b err →
      declared.foldlM add empty = .error err := by
    rintro earlier b later err rfl hone hc
    obtain ⟨t, hfold, ht⟩ := empty_represents.exists_foldlM (by simpa using hone)
    rw [List.foldlM_append, hfold]
    change (b :: later).foldlM add t = _
    rw [List.foldlM_cons, ht.add_of_conflicts (by simpa using hc)]
    rfl
  constructor
  · intro hfold
    rcases oneToOne_or_exists_conflict declared with hone | ⟨earlier, b, later, err', hd, hone, hc⟩
    · obtain ⟨t, hok, -⟩ := empty_represents.exists_foldlM (by simpa using hone)
      simp [hok] at hfold
    · obtain rfl : err' = err := by simpa [hfold] using (hrefused hd hone hc).symm
      exact ⟨earlier, b, later, hd, hone, hc⟩
  · rintro ⟨earlier, b, later, hd, hone, hc⟩
    exact hrefused hd hone hc

end PrefixTable

end GroovyViews
