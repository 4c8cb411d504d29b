import GroovyViews.Proofs.ControlFlow

/-!
# Groups of alternatives

A group means the first of its alternatives whose test holds, or else its last resort. The lines
that are written for it do something else: each alternative is a condition on its own, and the last
resort belongs to the last test alone. The two agree as long as no test before the last one holds,
and in one more case.
-/

namespace GroovyViews

namespace Writer

open Script (Deed Realises)

/-- A tree of calls none of which can be mistaken for a condition or an alternative. -/
inductive Calls (w : Writer) : Xml.Element → Prop where
  /-- A call with calls inside of it. -/
  | call {e : Xml.Element} {qualifier tag : String} :
      w.role? e = some (.call qualifier tag) → (Role.call qualifier tag).isMistakable = false →
      (∀ c ∈ e.children, Calls w c) → Calls w e

/-- A group whose alternatives are all made of calls: some with a test, of which there is a last
one, and perhaps a last resort. -/
structure Group (w : Writer) (e : Xml.Element) (earlier : List Xml.Element) (last : Xml.Element)
    (no : Option Xml.Element) : Prop where
  /-- It is a group. -/
  role : w.role? e = some (.control .choose)
  /-- Its child elements are the alternatives. -/
  children : e.children = earlier ++ last :: no.toList
  /-- The alternatives before the last one have a test. -/
  earlier_when : ∀ b ∈ earlier, w.role? b = some (.control .when)
  /-- So has the last one. -/
  last_when : w.role? last = some (.control .when)
  /-- The last resort has none. -/
  otherwise : ∀ b ∈ no, w.role? b = some (.control .otherwise)
  /-- Each alternative has content. -/
  hasChildren : ∀ b ∈ e.children, b.hasChildren = true
  /-- The content is made of calls. -/
  calls : ∀ b ∈ e.children, ∀ c ∈ b.children, w.Calls c

variable {w : Writer} {e : Xml.Element}

/-- Calls are structured. -/
theorem Calls.structured (h : w.Calls e) : w.Structured e := by
  induction h with
  | call hrole hname _ ih => exact .call hrole hname ih

/-- Calls are always done. -/
theorem Calls.deeds_ne_nil (h : w.Calls e) (look : Lookup) (holds : String → Bool) :
    w.deeds look holds e.node ≠ [] := by
  cases h with
  | call hrole => simp [Xml.Element.node, deeds, hrole]

/-- There is nothing but calls among calls. -/
theorem Calls.role?_of_mem (h : w.Calls e) : ∀ {around : List Xml.Element} {s : Xml.Site},
    .enter s ∈ e.node.visits around → ∃ qualifier tag,
      w.role? s.element = some (.call qualifier tag) := by
  induction h with
  | @call e qualifier tag hrole _ _ ih =>
    intro around s hs
    rcases Xml.Element.enter_mem_visits.mp hs with rfl | ⟨c, hc, hs⟩
    · exact ⟨qualifier, tag, hrole⟩
    · exact ih c hc hs

/-- Content that is made of calls is not done for nothing. -/
theorem deedsAll_ne_nil (hchildren : e.hasChildren = true) (hcalls : ∀ c ∈ e.children, w.Calls c)
    (look : Lookup) (holds : String → Bool) : w.deedsAll look holds e.content ≠ [] := by
  obtain ⟨c, hc⟩ : ∃ c, c ∈ e.children := by
    apply List.exists_mem_of_ne_nil
    simpa [Xml.Element.hasChildren] using hchildren
  rw [deedsAll_eq, Ne, List.flatMap_eq_nil_iff]
  intro hnil
  exact (hcalls c hc).deeds_ne_nil look holds (hnil c hc)

/-- Alternatives whose tests do not hold are passed over. -/
theorem chosenOf_append {look : Lookup} {holds : String → Bool} {before : List Xml.Element}
    (hrole : ∀ b ∈ before, w.role? b = some (.control .when))
    (hfalse : ∀ b ∈ before, w.tested look holds b = false) (rest : List Xml.Element) :
    w.chosenOf look holds (before ++ rest) = w.chosenOf look holds rest := by
  induction before with
  | nil => rfl
  | cons b before ih =>
    have hrest := ih (fun c hc => hrole c (by simp [hc])) (fun c hc => hfalse c (by simp [hc]))
    rw [List.cons_append, chosenOf_when (hrole b (by simp)), hfalse b (by simp), hrest]
    rfl

/-- The first alternative whose test holds is the one that is meant. -/
theorem chosenOf_first {look : Lookup} {holds : String → Bool} {before : List Xml.Element}
    {b : Xml.Element} (hrole : ∀ c ∈ before ++ [b], w.role? c = some (.control .when))
    (hfalse : ∀ c ∈ before, w.tested look holds c = false)
    (hb : w.tested look holds b = true) (rest : List Xml.Element) :
    w.chosenOf look holds (before ++ b :: rest) = w.deedsAll look holds b.content := by
  rw [chosenOf_append (fun c hc => hrole c (by simp [hc])) hfalse,
    chosenOf_when (hrole b (by simp)), hb, if_pos rfl]

/-- Elements with a test do nothing exactly if no test holds, as what they guard is not nothing. -/
theorem flatMap_guarded_eq_nil_iff {look : Lookup} {holds : String → Bool}
    {elements : List Xml.Element}
    (hbody : ∀ b ∈ elements, w.deedsAll look holds b.content ≠ []) :
    elements.flatMap (w.guarded look holds) = [] ↔
      elements.countP (w.tested look holds) = 0 := by
  rw [List.flatMap_eq_nil_iff, List.countP_eq_zero]
  refine forall₂_congr fun b hb => ?_
  cases htested : w.tested look holds b with
  | false => simp [guarded, htested]
  | true => simp [guarded, htested, hbody b hb]

/-- An element with a test and a last resort do nothing exactly if the test does not hold and there
is no last resort. -/
theorem either_eq_nil_iff {look : Lookup} {holds : String → Bool} {yes : Xml.Element}
    {no : Option Xml.Element}
    (hbody : ∀ b ∈ yes :: no.toList, w.deedsAll look holds b.content ≠ []) :
    w.either look holds yes no = [] ↔ w.tested look holds yes = false ∧ no = none := by
  cases htested : w.tested look holds yes with
  | true => simp [either, htested, hbody yes (by simp)]
  | false =>
    cases no with
    | none => simp [either, htested, fallback]
    | some b => simp [either, htested, fallback, hbody b (by simp)]

/-- What the lines of a group do: each alternative before the last one by itself, and then the last
one or the last resort. -/
def untangled (w : Writer) (look : Lookup) (holds : String → Bool) (earlier : List Xml.Element)
    (last : Xml.Element) (no : Option Xml.Element) : List Deed :=
  earlier.flatMap (w.guarded look holds) ++ w.either look holds last no

namespace Group

variable {earlier : List Xml.Element} {last : Xml.Element} {no : Option Xml.Element}

/-- No element of a group names a method. -/
theorem role?_ne (h : w.Group e earlier last no) {around : List Xml.Element} {s : Xml.Site}
    (hs : .enter s ∈ e.node.visits around) :
    w.role? s.element ≠ some (.control .invokeStatic) := by
  rcases Xml.Element.enter_mem_visits.mp hs with rfl | ⟨b, hb, hs⟩
  · simp [h.role]
  · rcases Xml.Element.enter_mem_visits.mp hs with rfl | ⟨c, hc, hs⟩
    · rw [h.children, List.mem_append, List.mem_cons, Option.mem_toList] at hb
      rcases hb with hb | rfl | hb
      · simp [h.earlier_when b hb]
      · simp [h.last_when]
      · simp [h.otherwise b hb]
    · obtain ⟨qualifier, tag, hrole⟩ := (h.calls b hb c hc).role?_of_mem hs
      simp [hrole]

/-- The lines of a group do each alternative before the last one by itself. -/
theorem realises (h : w.Group e earlier last no)
    (htable : ∀ b ∈ w.prefixes.entries, b.isTidy = true)
    {around : List Xml.Element} (hreadable : Script.ReadableIn w around e) :
    Realises (w.items e.node) fun holds =>
      w.untangled Xml.Element.attr? holds earlier last no := by
  have hcontent : ∀ b ∈ e.children, Realises (w.itemsAll b.content)
      fun holds => w.deedsAll Xml.Element.attr? holds b.content := fun b hb =>
    realises_content fun c hc =>
      (h.calls b hb c hc).structured.realises htable _ ((hreadable.child hb).child hc)
  have hclean : ∀ b ∈ e.children, w.complaint? Xml.Element.attr? b = none := fun b hb =>
    (hreadable.child hb).self.clean
  have hchildren := h.hasChildren
  rw [items_of_choose h.role]
  rw [h.children] at hcontent hclean hchildren ⊢
  have hearlier : ∀ b ∈ earlier,
      Realises (w.items b.node) fun holds => w.guarded Xml.Element.attr? holds b := fun b hb =>
    realises_guarded (hclean b (by simp [hb])) (.inr rfl) (h.earlier_when b hb)
      (hchildren b (by simp [hb])) (hcontent b (by simp [hb]))
  have hlast := realises_branches (hclean last (by simp)) h.last_when h.otherwise
    (fun b hb => hchildren b (List.mem_append_right _ hb))
    (fun b hb => hcontent b (List.mem_append_right _ hb))
  rw [List.flatMap_append]
  exact (realises_flatMap hearlier).append hlast

/-- The lines of a group do what it means exactly if no test before the last one holds, or if just
one of them does, the last one does not and there is no last resort. -/
theorem untangled_eq_iff (h : w.Group e earlier last no) (look : Lookup) (holds : String → Bool) :
    w.untangled look holds earlier last no = w.deeds look holds e.node ↔
      (∀ b ∈ earlier, w.tested look holds b = false) ∨
        (earlier.countP (w.tested look holds) = 1 ∧ w.tested look holds last = false ∧
          no = none) := by
  have hbody : ∀ b ∈ e.children, w.deedsAll look holds b.content ≠ [] := fun b hb =>
    deedsAll_ne_nil (h.hasChildren b hb) (h.calls b hb) look holds
  rw [h.children] at hbody
  have hlast := either_eq_nil_iff fun b hb => hbody b (List.mem_append_right _ hb)
  rw [deeds_of_choose h.role, h.children, untangled]
  cases hfind : earlier.find? (w.tested look holds) with
  | none =>
    have hfalse : ∀ b ∈ earlier, w.tested look holds b = false := by
      simpa using List.find?_eq_none.mp hfind
    have hnil : earlier.flatMap (w.guarded look holds) = [] :=
      (flatMap_guarded_eq_nil_iff fun b hb => hbody b (by simp [hb])).mpr
        (by simpa [List.countP_eq_zero] using hfalse)
    rw [chosenOf_append h.earlier_when hfalse, chosenOf_branches h.last_when h.otherwise, hnil]
    exact ⟨fun _ => .inl hfalse, fun _ => rfl⟩
  | some b =>
    -- the group means `b` alone, so that nothing may be done before it or after it
    obtain ⟨htested, before, after, rfl, hbefore⟩ := List.find?_eq_some_iff_append.mp hfind
    have hfalse : ∀ c ∈ before, w.tested look holds c = false := by simpa using hbefore
    have hzero : before.countP (w.tested look holds) = 0 := by
      simpa [List.countP_eq_zero] using hfalse
    have hnil : before.flatMap (w.guarded look holds) = [] :=
      (flatMap_guarded_eq_nil_iff fun c hc => hbody c (by simp [hc])).mpr hzero
    have hafter : after.flatMap (w.guarded look holds) = [] ↔
        after.countP (w.tested look holds) = 0 :=
      flatMap_guarded_eq_nil_iff fun c hc => hbody c (by simp [hc])
    have hcount : (before ++ b :: after).countP (w.tested look holds) = 1 ↔
        after.countP (w.tested look holds) = 0 := by
      rw [List.countP_append, List.countP_cons, hzero, htested, if_pos rfl]
      omega
    have hsome : ¬ ∀ c ∈ before ++ b :: after, w.tested look holds c = false := by
      intro hall
      simp [hall b (by simp)] at htested
    have hwhen : ∀ c ∈ before ++ [b], w.role? c = some (.control .when) := fun c hc =>
      h.earlier_when c (by simp at hc ⊢; tauto)
    have hchosen := chosenOf_first hwhen hfalse htested (after ++ last :: no.toList)
    have hdone : (before ++ b :: after).flatMap (w.guarded look holds) =
        w.deedsAll look holds b.content ++ after.flatMap (w.guarded look holds) := by
      rw [List.flatMap_append, List.flatMap_cons, hnil, List.nil_append, guarded, htested,
        if_pos rfl]
    rw [List.append_assoc, List.cons_append, hchosen, hdone, List.append_assoc,
      List.append_right_eq_self, List.append_eq_nil_iff, hafter, hlast, hcount, or_iff_right hsome]

/-- The lines of a group do what it means, whichever tests hold, exactly if it has one test only. -/
theorem forall_untangled_eq_iff (h : w.Group e earlier last no)
    (hclean : ∀ b ∈ e.children, w.complaint? Xml.Element.attr? b = none) :
    (∀ holds, w.untangled Xml.Element.attr? holds earlier last no =
      w.deeds Xml.Element.attr? holds e.node) ↔ earlier = [] := by
  constructor
  · intro hall
    have htrue : ∀ b ∈ e.children, w.role? b = some (.control .when) →
        w.tested Xml.Element.attr? (fun _ => true) b = true := by
      intro b hb hwhen
      obtain ⟨_, _, -, -, htested⟩ := exists_condition (hclean b hb) (.inr rfl) hwhen
      exact htested _
    -- if all tests hold, then an earlier alternative is done and so is the last one
    rcases (h.untangled_eq_iff _ _).mp (hall fun _ => true) with hfalse | ⟨-, hfalse, -⟩
    · refine List.eq_nil_iff_forall_not_mem.mpr fun b hb => ?_
      exact absurd (hfalse b hb)
        (by simp [htrue b (by simp [h.children, hb]) (h.earlier_when b hb)])
    · exact absurd hfalse (by simp [htrue last (by simp [h.children]) h.last_when])
  · rintro rfl holds
    exact (h.untangled_eq_iff _ _).mpr (.inl (by simp))

end Group

/-- **Groups of alternatives.** If a group has alternatives made of calls, nothing is wrong with its
elements and each of them takes one line, then it is written in full to a sink without limits.
Whichever tests hold, the lines do each alternative before the last one by itself, and then the last
one or the last resort. This is what the group means, the first alternative whose test holds or else
the last resort, exactly if no test before the last one holds, or if just one of them does, the last
one does not and there is no last resort. It is so whichever tests hold exactly if there is only one
test. -/
theorem perform_group (w : Writer) (n : Nat) (e : Xml.Element) (earlier : List Xml.Element)
    (last : Xml.Element) (no : Option Xml.Element) (hgroup : w.Group e earlier last no)
    (hclean : ∀ s ∈ e.sites, w.complaint? Xml.Element.attr? s.element = none)
    (htable : ∀ b ∈ w.prefixes.entries, b.isTidy = true)
    (htidy : ∀ s ∈ e.sites, s.element.Tidy) :
    ∃ out, (Sink.unlimited.run (w.element n e)).outcome = .ok () ∧
      (Sink.unlimited.run (w.element n e)).sink.stored = Text.bytes out ∧
      (∀ holds, Script.perform holds out =
        some (w.untangled Xml.Element.attr? holds earlier last no)) ∧
      (∀ holds, Script.perform holds out = some (w.deeds Xml.Element.attr? holds e.node) ↔
        (∀ b ∈ earlier, w.tested Xml.Element.attr? holds b = false) ∨
          (earlier.countP (w.tested Xml.Element.attr? holds) = 1 ∧
            w.tested Xml.Element.attr? holds last = false ∧ no = none)) ∧
      ((∀ holds, Script.perform holds out = some (w.deeds Xml.Element.attr? holds e.node)) ↔
        earlier = []) := by
  have hsites : ∀ s ∈ e.sites, Script.Readable w s.element := fun s hs =>
    ⟨hclean s hs, htidy s hs, fun hrole =>
      absurd hrole (hgroup.role?_ne (Xml.Element.mem_sites.mp hs))⟩
  have hreadable : Script.ReadableIn w [] e := fun s hs =>
    hsites s (Xml.Element.mem_sites.mpr hs)
  obtain ⟨hok, hitems⟩ := Script.items?_element n htable hsites
  have hperform := (hgroup.realises htable hreadable).perform_eq hitems
  rw [Sink.run_unlimited]
  refine ⟨Emission.text (w.element n e), hok, rfl, hperform, ?_, ?_⟩
  · intro holds
    rw [hperform, Option.some.injEq]
    exact hgroup.untangled_eq_iff _ holds
  · simp only [hperform, Option.some.injEq]
    exact hgroup.forall_untangled_eq_iff fun b hb => (hreadable.child hb).self.clean

/-- An alternative with a call inside of it. -/
private def branch (localName : String) (attributes : List Xml.Attribute) (callName : String) :
    Xml.Element :=
  ⟨⟨⟨some controlUri, localName⟩, attributes, [], [⟨"j", controlUri⟩], ⟨1, 1⟩⟩,
    [.element ⟨⟨none, callName⟩, [], [], [⟨"j", controlUri⟩], ⟨1, 1⟩⟩ []]⟩

/-- An alternative with a test and a call inside of it. -/
private def whenBranch (test callName : String) : Xml.Element :=
  branch "when" [⟨⟨none, "test"⟩, test⟩] callName

/-- A group of two alternatives with a test and a last resort. -/
private def menu : Xml.Element :=
  ⟨⟨⟨some controlUri, "choose"⟩, [], [], [⟨"j", controlUri⟩], ⟨1, 1⟩⟩,
    [(whenBranch "$\x7ba\x7d" "p").node, (whenBranch "$\x7bb\x7d" "q").node,
      (branch "otherwise" [] "r").node]⟩

/-- A writer for the group. -/
private def menuWriter : Writer := ⟨⟨[]⟩, .default⟩

private theorem group_menu : menuWriter.Group menu [whenBranch "$\x7ba\x7d" "p"]
    (whenBranch "$\x7bb\x7d" "q") (some (branch "otherwise" [] "r")) where
  role := rfl
  children := rfl
  earlier_when := List.forall_mem_singleton.mpr rfl
  last_when := rfl
  otherwise := by rintro b ⟨⟩; rfl
  hasChildren := by decide
  calls := by
    have hcall : ∀ name, (Role.call "" name).isMistakable = false → menuWriter.Calls
        ⟨⟨⟨none, name⟩, [], [], [⟨"j", controlUri⟩], ⟨1, 1⟩⟩, []⟩ :=
      fun name hname => .call rfl hname nofun
    exact List.forall_mem_cons.mpr ⟨List.forall_mem_singleton.mpr (hcall "p" rfl),
      List.forall_mem_cons.mpr ⟨List.forall_mem_singleton.mpr (hcall "q" rfl),
        List.forall_mem_singleton.mpr (List.forall_mem_singleton.mpr (hcall "r" rfl))⟩⟩

/-- If only the first of the two tests holds, then the last resort is done all the same. If only the
second one does, then the lines do what the group means. -/
theorem perform_group_menu :
    ∃ out, (Sink.unlimited.run (menuWriter.element 0 menu)).outcome = .ok () ∧
      (Sink.unlimited.run (menuWriter.element 0 menu)).sink.stored = Text.bytes out ∧
      Script.perform (· == "a") out = some [.call "p()" [], .call "r()" []] ∧
      Script.perform (· == "b") out =
        some (menuWriter.deeds Xml.Element.attr? (· == "b") menu.node) := by
  obtain ⟨out, hok, hstored, hperform, hmeans, -⟩ :=
    perform_group menuWriter 0 menu _ _ _ group_menu (by decide +kernel) (by decide)
      (by decide +kernel)
  refine ⟨out, hok, hstored, (hperform _).trans ?_, (hmeans _).mpr (.inl ?_)⟩
  · decide +kernel
  · decide +kernel

end Writer

/-- Two alternatives whose tests both hold are both done, where the group means the first one. -/
theorem Conversion.perform_both_branches :
    let c : Conversion := ⟨"<j:choose xmlns:j=\"jelly:core\">" ++
      "<j:when test=\"$\x7ba\x7d\"><p/></j:when>" ++
      "<j:when test=\"$\x7bb\x7d\"><q/></j:when></j:choose>", none, .default⟩
    let preamble := "// Namespaces\nj = namespace(\"jelly:core\")\n\n\n"
    let lines := "  if(a) \x7b\n    p() \n  \x7d\n  if(b) \x7b\n    q() \n  \x7d\n"
    (Sink.unlimited.run c.emission).ending = ⟨.ok (), Text.bytes (preamble ++ lines)⟩ ∧
      Script.perform (fun _ => true) lines = some [.call "p()" [], .call "q()" []] ∧
      (c.entry.toOption.map fun (w, start) =>
        w.deeds Xml.Element.plainAttr? (fun _ => true) start.node) = some [.call "p()" []] := by
  decide +kernel

end GroovyViews
