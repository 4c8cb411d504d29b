import GroovyViews.Proofs.Capture

/-!
# What an `if` without child elements does to its siblings

A call is meant to run exactly if the tests of all `if`s around it hold. An `if` without child
elements is around nothing, yet its line takes the next sibling for what it guards. So the lines
run the calls that are meant exactly if nothing dangles and every call in that sibling would not
have run anyway when the test fails.
-/

namespace GroovyViews

open Script (Deed)

namespace Script.Deed

mutual

/-- The texts of a call and of those inside of it, in order. -/
def calls : Deed → List String
  | call text body => text :: callsAll body
  | binding _ => []

/-- The texts of the calls in a record, in order. -/
def callsAll : List Deed → List String
  | [] => []
  | d :: rest => calls d ++ callsAll rest

end

/-- The calls of a record that follows another one follow its calls. -/
@[simp] theorem callsAll_append (first second : List Deed) :
    callsAll (first ++ second) = callsAll first ++ callsAll second := by
  induction first with
  | nil => rfl
  | cons d first ih => simp [callsAll, ih]

end Script.Deed

mutual

/-- What is handed on from child elements to their element holds of the element of a node. -/
theorem Xml.Node.forall_of_children {p : Xml.Element → Prop}
    (step : ∀ e, (∀ c ∈ e.children, p c) → p e) : ∀ n : Xml.Node, ∀ e ∈ n.element?, p e
  | .element tag content, _, rfl =>
    step ⟨tag, content⟩ (Xml.Node.forallAll_of_children step content)
  | .text _, _, h | .comment _, _, h | .instruction _ _, _, h => nomatch h

/-- It holds of the elements among several nodes. -/
theorem Xml.Node.forallAll_of_children {p : Xml.Element → Prop}
    (step : ∀ e, (∀ c ∈ e.children, p c) → p e) : ∀ nodes : List Xml.Node,
    ∀ e ∈ nodes.filterMap Xml.Node.element?, p e
  | [], _, h => nomatch h
  | n :: rest, e, h => by
    have hfirst := Xml.Node.forall_of_children step n
    have hrest := Xml.Node.forallAll_of_children step rest
    obtain ⟨m, hm, he⟩ := List.mem_filterMap.mp h
    rcases List.mem_cons.mp hm with rfl | hm
    · exact hfirst e he
    · exact hrest e (List.mem_filterMap.mpr ⟨m, hm, he⟩)

end

/-- What is handed on from child elements to their element holds of every element. -/
theorem Xml.Element.children_induction {p : Xml.Element → Prop}
    (step : ∀ e, (∀ c ∈ e.children, p c) → p e) (e : Xml.Element) : p e :=
  Xml.Node.forall_of_children step e.node e rfl

open Xml.Element (sitesIn sitesIn_eq mem_sitesIn)

namespace Writer

/-- The element is a call. -/
def isCall (w : Writer) (e : Xml.Element) : Bool :=
  (w.role? e).any fun
    | .call _ _ => true
    | .control _ => false

/-- The tests of all `if`s among the elements hold. -/
def passes (w : Writer) (look : Lookup) (holds : String → Bool) (elements : List Xml.Element) :
    Bool :=
  elements.all fun e => decide (w.role? e ≠ some (.control .ifTag)) || w.tested look holds e

/-- The calls in an element that are meant to run: those for which the tests of all `if`s around
them hold. -/
def calledIn (w : Writer) (look : Lookup) (holds : String → Bool) (around : List Xml.Element)
    (e : Xml.Element) : List String :=
  ((e.sitesIn around).filter fun s => w.isCall s.element && w.passes look holds s.around).map
    fun s => w.saidText look s.element

/-- The element that takes over the tests of the `if`s without child elements before it. -/
def heir? (w : Writer) (elements : List Xml.Element) : Option Xml.Element :=
  elements.find? fun c => !w.isBare c

/-- Where the test of an `if` without child elements does not hold, no call is meant to run in the
element that takes it over. -/
def Undisturbed (w : Writer) (look : Lookup) (holds : String → Bool) (around : List Xml.Element)
    (elements : List Xml.Element) : Prop :=
  ∀ before b rest, elements = before ++ b :: rest → w.isBare b = true →
    w.tested look holds b = false → ∀ c ∈ w.heir? rest, w.calledIn look holds around c = []

/-- The child elements of all elements are undisturbed. -/
def Harmless (w : Writer) (look : Lookup) (holds : String → Bool) (around : List Xml.Element)
    (e : Xml.Element) : Prop :=
  ∀ s ∈ e.sitesIn around, w.Undisturbed look holds (s.element :: s.around) s.element.children

variable {w : Writer} {e : Xml.Element} {look : Lookup} {holds : String → Bool}
  {around elements : List Xml.Element}

/-- What is bare is an `if` without child elements. -/
theorem isBare_iff : w.isBare e = true ↔
    w.role? e = some (.control .ifTag) ∧ e.hasChildren = false := by
  simp [isBare]

/-- The tests of elements hold if that of the innermost holds and those of the others do. -/
theorem passes_cons : w.passes look holds (e :: around) =
    ((decide (w.role? e ≠ some (.control .ifTag)) || w.tested look holds e) &&
      w.passes look holds around) := rfl

/-- The heir of what comes after an element is one of the elements. -/
theorem mem_of_heir? {before rest : List Xml.Element} {b c : Xml.Element}
    (h : elements = before ++ b :: rest) (hc : c ∈ w.heir? rest) : c ∈ elements := by
  rw [h]
  exact List.mem_append_right _ (List.mem_cons_of_mem _ (List.mem_of_find?_eq_some hc))

/-- The calls that are meant to run in an element are itself, if it is one, and those in its child
elements. -/
theorem calledIn_eq (w : Writer) (look : Lookup) (holds : String → Bool)
    (around : List Xml.Element) (e : Xml.Element) :
    w.calledIn look holds around e =
      (if w.isCall e && w.passes look holds around then [w.saidText look e] else []) ++
        e.children.flatMap (w.calledIn look holds (e :: around)) := by
  have hinside : ∀ elements : List Xml.Element,
      ((elements.flatMap (sitesIn (e :: around))).filter fun s =>
        w.isCall s.element && w.passes look holds s.around).map
          (fun s => w.saidText look s.element) =
        elements.flatMap (w.calledIn look holds (e :: around)) := by
    intro elements
    induction elements with
    | nil => rfl
    | cons c rest ih =>
      rw [List.flatMap_cons, List.filter_append, List.map_append, ih, List.flatMap_cons]
      rfl
  rw [calledIn, sitesIn_eq, List.filter_cons, ← hinside]
  split <;> rfl

/-- No call is meant to run if each is inside of an `if` whose test does not hold. -/
theorem calledIn_eq_nil_iff : w.calledIn look holds around e = [] ↔
    ∀ s ∈ e.sitesIn around, w.isCall s.element = true → w.passes look holds s.around = false := by
  simp [calledIn]

/-- If no call is meant to run in an element, then none is in its child elements. -/
theorem calledIn_child (h : w.calledIn look holds around e = []) :
    ∀ c ∈ e.children, w.calledIn look holds (e :: around) c = [] := by
  rw [calledIn_eq, List.append_eq_nil_iff, List.flatMap_eq_nil_iff] at h
  exact h.2

/-- An element is harmless if its child elements are undisturbed and harmless. -/
theorem harmless_iff : w.Harmless look holds around e ↔
    w.Undisturbed look holds (e :: around) e.children ∧
      ∀ c ∈ e.children, w.Harmless look holds (e :: around) c := by
  simp only [Harmless]
  rw [sitesIn_eq]
  simp only [List.forall_mem_cons, List.forall_mem_flatMap]

/-- Elements are undisturbed if the first is no such `if`, or its heir is not disturbed by it, and
the others are. -/
theorem undisturbed_cons : w.Undisturbed look holds around (e :: elements) ↔
    (w.isBare e = true → w.tested look holds e = false →
      ∀ c ∈ w.heir? elements, w.calledIn look holds around c = []) ∧
    w.Undisturbed look holds around elements := by
  constructor
  · intro h
    refine ⟨h [] e elements rfl, ?_⟩
    intro before b rest heq
    exact h (e :: before) b rest (by rw [heq]; rfl)
  · rintro ⟨hfirst, hothers⟩ before b rest heq
    cases before with
    | nil =>
      obtain ⟨rfl, rfl⟩ := List.cons.inj heq
      exact hfirst
    | cons first before => exact hothers before b rest (List.cons.inj heq).2

/-- No call is meant to run in an `if` without child elements. -/
theorem calledIn_of_isBare (h : w.isBare e = true) : w.calledIn look holds around e = [] := by
  obtain ⟨hrole, hchildren⟩ := isBare_iff.mp h
  rw [calledIn_eq, Xml.Element.children, Xml.Element.filterMap_of_leaf hchildren]
  simp [isCall, hrole]

/-- The lines of several elements run no more calls than are meant to run. -/
theorem length_inTurn_le (h : ∀ c ∈ elements,
      (Deed.callsAll (w.done look holds c.node)).length ≤
        (w.calledIn look holds around c).length) (guard : Bool) :
    (Deed.callsAll (w.inTurn look holds guard elements)).length ≤
      (elements.flatMap (w.calledIn look holds around)).length := by
  induction elements generalizing guard with
  | nil => simp [inTurn, Deed.callsAll]
  | cons c rest ih =>
    have hfirst := h c (by simp)
    have hrest := ih fun d hd => h d (by simp [hd])
    rw [List.flatMap_cons, List.length_append]
    cases hc : w.isBare c with
    | true =>
      have hpassed := hrest (guard && w.tested look holds c)
      rw [inTurn_of_isBare hc]
      omega
    | false =>
      have hothers := hrest true
      rw [inTurn_of_not_isBare hc, Deed.callsAll_append, List.length_append]
      cases guard with
      | true =>
        rw [if_pos rfl]
        omega
      | false =>
        have hnil : (Deed.callsAll (if false = true then w.done look holds c.node else [])).length =
            0 := rfl
        omega

/-- Two lists none of which is longer than its counterpart are those if together they are. -/
theorem append_eq_append_iff_of_length_le {first second first' second' : List String}
    (hfirst : first.length ≤ first'.length) (hsecond : second.length ≤ second'.length) :
    first ++ second = first' ++ second' ↔ first = first' ∧ second = second' := by
  refine ⟨fun h => ?_, fun ⟨h, h'⟩ => by rw [h, h']⟩
  have hlength := congrArg List.length h
  rw [List.length_append, List.length_append] at hlength
  exact List.append_inj h (by omega)

/-- The lines of several elements run the calls that are meant exactly if these elements are
undisturbed, by tests passed on to them as well, and the lines of each do so that is not left
out. -/
theorem callsAll_inTurn_eq_iff
    (hlength : ∀ c ∈ elements, (Deed.callsAll (w.done look holds c.node)).length ≤
      (w.calledIn look holds around c).length)
    (hdone : ∀ c ∈ elements, w.isBare c = false →
      (Deed.callsAll (w.done look holds c.node) = w.calledIn look holds around c ↔
        w.Harmless look holds around c))
    (hnil : ∀ c ∈ elements, w.calledIn look holds around c = [] → w.Harmless look holds around c)
    (guard : Bool) :
    Deed.callsAll (w.inTurn look holds guard elements) =
        elements.flatMap (w.calledIn look holds around) ↔
      w.Undisturbed look holds around elements ∧
      (guard = false → ∀ c ∈ w.heir? elements, w.calledIn look holds around c = []) ∧
      ∀ c ∈ elements, w.Harmless look holds around c := by
  induction elements generalizing guard with
  | nil => simp [inTurn, Deed.callsAll, Undisturbed, heir?]
  | cons c rest ih =>
    have hrest := ih (fun d hd => hlength d (by simp [hd])) (fun d hd => hdone d (by simp [hd]))
      (fun d hd => hnil d (by simp [hd]))
    rw [List.flatMap_cons, undisturbed_cons, List.forall_mem_cons]
    cases hc : w.isBare c with
    | true =>
      have hcalled : w.calledIn look holds around c = [] := calledIn_of_isBare hc
      have hheir : w.heir? (c :: rest) = w.heir? rest := by simp [heir?, hc]
      have hharmless := hnil c (by simp) hcalled
      rw [inTurn_of_isBare hc, hcalled, List.nil_append, hrest, hheir]
      grind
    | false =>
      have hheir : w.heir? (c :: rest) = some c := by simp [heir?, hc]
      have hothers := hrest true
      rw [inTurn_of_not_isBare hc, Deed.callsAll_append, hheir]
      cases guard with
      | true =>
        rw [if_pos rfl, append_eq_append_iff_of_length_le (hlength c (by simp))
          (length_inTurn_le (fun d hd => hlength d (by simp [hd])) true), hdone c (by simp) hc,
          hothers]
        grind
      | false =>
        rw [append_eq_append_iff_of_length_le (by simp [Deed.callsAll])
          (length_inTurn_le (fun d hd => hlength d (by simp [hd])) true), hothers]
        have hcnil := hnil c (by simp)
        have hempty : Deed.callsAll (if false = true then w.done look holds c.node else []) = [] :=
          rfl
        rw [hempty]
        grind

/-- If no call is meant to run in an element, then nothing in it is disturbed. -/
theorem harmless_of_nil (e : Xml.Element) : ∀ {around : List Xml.Element},
    w.calledIn look holds around e = [] → w.Harmless look holds around e := by
  induction e using Xml.Element.children_induction with
  | step e ih =>
    intro around hnil
    refine harmless_iff.mpr ⟨?_, fun c hc => ih c hc (calledIn_child hnil c hc)⟩
    intro before b rest heq _ _ c hc
    exact calledIn_child hnil c (mem_of_heir? heq hc)

/-- The elements around a site are those around the tree and elements of the tree. -/
theorem mem_around_of_mem_sitesIn (e : Xml.Element) :
    ∀ {around : List Xml.Element} {s : Xml.Site}, s ∈ e.sitesIn around →
      (∀ i ∈ around, i ∈ s.around) ∧
        ∀ i ∈ s.around, i ∈ around ∨ ∃ s' ∈ e.sitesIn around, s'.element = i := by
  induction e using Xml.Element.children_induction with
  | step e ih =>
    intro around s hs
    rcases mem_sitesIn.mp hs with rfl | ⟨c, hc, hs⟩
    · exact ⟨fun i hi => hi, fun i hi => .inl hi⟩
    · obtain ⟨hin, hout⟩ := ih c hc hs
      refine ⟨fun i hi => hin i (List.mem_cons_of_mem _ hi), fun i hi => ?_⟩
      rcases hout i hi with hi | ⟨s', hs', rfl⟩
      · rcases List.mem_cons.mp hi with rfl | hi
        · exact .inr ⟨_, mem_sitesIn.mpr (.inl rfl), rfl⟩
        · exact .inl hi
      · exact .inr ⟨s', mem_sitesIn.mpr (.inr ⟨c, hc, hs'⟩), rfl⟩

/-- If the tests of some elements hold, then so do those of any among them. -/
theorem passes_of_subset {others : List Xml.Element} (h : ∀ i ∈ around, i ∈ others)
    (hpasses : w.passes look holds others = true) : w.passes look holds around = true :=
  List.all_eq_true.mpr fun i hi => List.all_eq_true.mp hpasses i (h i hi)

/-- Nothing is meant to run inside of an `if` whose test does not hold. -/
theorem calledIn_of_not_passes (hfails : w.passes look holds around = false) (e : Xml.Element) :
    w.calledIn look holds around e = [] := by
  refine calledIn_eq_nil_iff.mpr fun s hs _ => ?_
  by_contra hpasses
  rw [Bool.not_eq_false] at hpasses
  rw [passes_of_subset (mem_around_of_mem_sitesIn e hs).1 hpasses] at hfails
  cases hfails

namespace Mixed

/-- No element of such a tree names a method. -/
theorem role?_ne (h : w.Mixed e) : ∀ {around : List Xml.Element} {s : Xml.Site},
    s ∈ e.sitesIn around → w.role? s.element ≠ some (.control .invokeStatic) := by
  induction h with
  | @call e qualifier tag hrole _ _ ih =>
    intro around s hs
    rcases mem_sitesIn.mp hs with rfl | ⟨c, hc, hs⟩
    · simp [hrole]
    · exact ih c hc hs
  | @condition e hrole _ ih =>
    intro around s hs
    rcases mem_sitesIn.mp hs with rfl | ⟨c, hc, hs⟩
    · simp [hrole]
    · exact ih c hc hs

/-- The lines of an element run no more calls than are meant to run. -/
theorem length_done_le (h : w.Mixed e) : ∀ {around : List Xml.Element},
    w.passes look holds around = true →
    (Deed.callsAll (w.done look holds e.node)).length ≤
      (w.calledIn look holds around e).length := by
  induction h with
  | @call e qualifier tag hrole _ _ ih =>
    intro around hpasses
    have hinside : w.passes look holds (e :: around) = true := by simp [passes_cons, hrole, hpasses]
    have hchildren := length_inTurn_le (fun c hc => ih c hc hinside) true
    rw [done_of_call hrole, calledIn_eq]
    simp only [isCall, hrole, hpasses]
    simpa [Deed.callsAll, Deed.calls] using hchildren
  | @condition e hrole _ ih =>
    intro around hpasses
    rw [done_of_condition hrole, calledIn_eq]
    cases htested : w.tested look holds e with
    | true =>
      have hinside : w.passes look holds (e :: around) = true := by
        simp [passes_cons, htested, hpasses]
      have hchildren := length_inTurn_le (fun c hc => ih c hc hinside) true
      simpa [isCall, hrole] using hchildren
    | false => simp [Deed.callsAll]

/-- The lines of an element that is not left out run the calls that are meant exactly if nothing in
it is disturbed. -/
theorem callsAll_done_eq_iff (h : w.Mixed e) : ∀ {around : List Xml.Element},
    w.passes look holds around = true →
    (Deed.callsAll (w.done look holds e.node) = w.calledIn look holds around e ↔
      w.Harmless look holds around e) := by
  -- the child elements inside of an `if` whose test holds, or inside of a call
  have hchildren : ∀ {e : Xml.Element} {around : List Xml.Element},
      w.passes look holds (e :: around) = true → (∀ c ∈ e.children, w.Mixed c) →
      (∀ c ∈ e.children, ∀ {around : List Xml.Element}, w.passes look holds around = true →
        (Deed.callsAll (w.done look holds c.node) = w.calledIn look holds around c ↔
          w.Harmless look holds around c)) →
      (Deed.callsAll (w.inTurn look holds true e.children) =
        e.children.flatMap (w.calledIn look holds (e :: around)) ↔
          w.Harmless look holds around e) := by
    intro e around hpasses hmixed ih
    rw [callsAll_inTurn_eq_iff (fun c hc => (hmixed c hc).length_done_le hpasses)
      (fun c hc _ => ih c hc hpasses) (fun c _ => harmless_of_nil c), harmless_iff]
    simp
  induction h with
  | @call e qualifier tag hrole hname hmixed ih =>
    intro around hpasses
    have hinside : w.passes look holds (e :: around) = true := by simp [passes_cons, hrole, hpasses]
    have hcall : (w.isCall e && w.passes look holds around) = true := by
      simp [isCall, hrole, hpasses]
    rw [done_of_call hrole, calledIn_eq, if_pos hcall, ← hchildren hinside hmixed ih]
    simp [Deed.callsAll, Deed.calls]
  | @condition e hrole hmixed ih =>
    intro around hpasses
    have hcall : (w.isCall e && w.passes look holds around) = false := by simp [isCall, hrole]
    cases htested : w.tested look holds e with
    | true =>
      have hinside : w.passes look holds (e :: around) = true := by
        simp [passes_cons, htested, hpasses]
      rw [done_of_condition hrole, calledIn_eq, hcall, ← hchildren hinside hmixed ih, htested]
      simp
    | false =>
      have hinside : w.passes look holds (e :: around) = false := by
        simp [passes_cons, hrole, htested]
      have hnil : w.calledIn look holds around e = [] := by
        rw [calledIn_eq, hcall]
        simpa using fun c _ => calledIn_of_not_passes hinside c
      rw [done_of_condition hrole, htested, hnil]
      exact iff_of_true rfl (harmless_of_nil e hnil)

end Mixed

/-- The sites in a child element of a site are sites of the tree. -/
theorem mem_sitesIn_trans (e : Xml.Element) : ∀ {around : List Xml.Element} {p s : Xml.Site}
    {c : Xml.Element}, p ∈ e.sitesIn around → c ∈ p.element.children →
      s ∈ c.sitesIn (p.element :: p.around) → s ∈ e.sitesIn around := by
  induction e using Xml.Element.children_induction with
  | step e ih =>
    intro around p s c hp hc hs
    rcases mem_sitesIn.mp hp with rfl | ⟨d, hd, hp⟩
    · exact mem_sitesIn.mpr (.inr ⟨c, hc, hs⟩)
    · exact mem_sitesIn.mpr (.inr ⟨d, hd, ih d hd hp hc hs⟩)

/-- Nothing in an element is disturbed, whichever tests hold, exactly if each call in the heir of an
`if` without child elements is inside of an `if` with the same test. -/
theorem forall_harmless_iff (htests : ∀ s ∈ e.sites, w.role? s.element = some (.control .ifTag) →
      ∃ test, w.test? look s.element = some test) :
    (∀ holds, w.Harmless look holds [] e) ↔
      ∀ p ∈ e.sites, ∀ before b rest, p.element.children = before ++ b :: rest →
        w.isBare b = true → ∀ c ∈ w.heir? rest, ∀ s ∈ c.sitesIn (p.element :: p.around),
          w.isCall s.element = true → ∃ i ∈ s.around, w.role? i = some (.control .ifTag) ∧
            w.test? look i = w.test? look b := by
  constructor
  · intro hall p hp before b rest hchildren hbare c hc s hs hcall
    -- the assignment in which just the tests around the call hold
    let holds : String → Bool := fun test => s.around.any fun i =>
      decide (w.role? i = some (.control .ifTag)) && decide (w.test? look i = some test)
    have hsite : s ∈ e.sites := mem_sitesIn_trans e hp (mem_of_heir? hchildren hc) hs
    have hpasses : w.passes look holds s.around = true := by
      refine List.all_eq_true.mpr fun i hi => ?_
      by_cases hrole : w.role? i = some (.control .ifTag)
      · obtain ⟨s', hs', rfl⟩ :=
          ((mem_around_of_mem_sitesIn e hsite).2 i hi).resolve_left List.not_mem_nil
        obtain ⟨test, htest⟩ := htests s' hs' hrole
        have hholds : holds test = true :=
          List.any_eq_true.mpr ⟨s'.element, hi, by simp [hrole, htest]⟩
        simp [tested, htest, hholds]
      · simp [hrole]
    have htested : w.tested look holds b = true := by
      by_contra hfalse
      have hnil := hall holds p hp before b rest hchildren hbare (by simpa using hfalse) c hc
      rw [calledIn_eq_nil_iff.mp hnil s hs hcall] at hpasses
      cases hpasses
    obtain ⟨test, htest, hholds⟩ : ∃ test, w.test? look b = some test ∧ holds test = true := by
      simpa [tested, Option.any_eq_true] using htested
    obtain ⟨i, hi, hsame⟩ := List.any_eq_true.mp hholds
    simp only [Bool.and_eq_true, decide_eq_true_eq] at hsame
    exact ⟨i, hi, hsame.1, hsame.2.trans htest.symm⟩
  · intro h holds p hp before b rest hchildren hbare hfalse c hc
    refine calledIn_eq_nil_iff.mpr fun s hs hcall => ?_
    obtain ⟨i, hi, hrole, htest⟩ := h p hp before b rest hchildren hbare c hc s hs hcall
    have hfails : w.tested look holds i = false := by rw [tested, htest, ← hfalse, tested]
    by_contra hpasses
    rw [Bool.not_eq_false] at hpasses
    have hi' := List.all_eq_true.mp hpasses i hi
    simp [hrole, hfails] at hi'

/-- **An `if` without child elements captures its following sibling.** Let an element be a tree of
calls and of `if`s, with or without child elements, all of which can be written and read. It is
written in full to a sink without limits. If it ends, or a block in it ends, with an `if` without
child elements, the lines cannot be run. Otherwise they do an element only if the tests of all such
`if`s right before it hold. So the calls that are run are those that are meant, namely those for
which the tests of all `if`s around them hold, exactly if nothing dangles and, wherever the test of
an `if` without child elements fails, no call in the element after it is meant to run. This is so
whichever tests hold exactly if nothing dangles and each call in the element after such an `if` is
inside of an `if` with the same test. -/
theorem perform_mixed (w : Writer) (n : Nat) (e : Xml.Element) (hmixed : w.Mixed e)
    (hclean : ∀ s ∈ e.sites, w.complaint? Xml.Element.attr? s.element = none)
    (htable : ∀ b ∈ w.prefixes.entries, b.isTidy = true)
    (htidy : ∀ s ∈ e.sites, s.element.Tidy) :
    ∃ out, (Sink.unlimited.run (w.element n e)).outcome = .ok () ∧
      (Sink.unlimited.run (w.element n e)).sink.stored = Text.bytes out ∧
      (w.isBare e = true ∨ w.Dangles e → ∀ holds, Script.perform holds out = none) ∧
      (¬(w.isBare e = true ∨ w.Dangles e) → ∀ holds,
        Script.perform holds out = some (w.done Xml.Element.attr? holds e.node)) ∧
      (∀ holds, (Script.perform holds out).map Deed.callsAll =
          some (w.calledIn Xml.Element.attr? holds [] e) ↔
        ¬(w.isBare e = true ∨ w.Dangles e) ∧ w.Harmless Xml.Element.attr? holds [] e) ∧
      ((∀ holds, (Script.perform holds out).map Deed.callsAll =
          some (w.calledIn Xml.Element.attr? holds [] e)) ↔
        ¬(w.isBare e = true ∨ w.Dangles e) ∧
        ∀ p ∈ e.sites, ∀ before b rest, p.element.children = before ++ b :: rest →
          w.isBare b = true → ∀ c ∈ w.heir? rest, ∀ s ∈ c.sitesIn (p.element :: p.around),
            w.isCall s.element = true → ∃ i ∈ s.around, w.role? i = some (.control .ifTag) ∧
              w.test? Xml.Element.attr? i = w.test? Xml.Element.attr? b) := by
  have hreadable : ∀ s ∈ e.sites, Script.Readable w s.element := fun s hs =>
    ⟨hclean s hs, htidy s hs, fun hrole => absurd hrole (hmixed.role?_ne hs)⟩
  have hin : Script.ReadableIn w [] e := fun s hs => hreadable s (Xml.Element.mem_sites.mpr hs)
  obtain ⟨hok, hitems⟩ := Script.items?_element n htable hreadable
  have hnone : w.isBare e = true ∨ w.Dangles e → ∀ holds,
      Script.perform holds (Emission.text (w.element n e)) = none := by
    intro hdangling holds
    have hparts : Script.parts? (w.items e.node) = none := by
      rcases hdangling with hbare | hdangles
      · exact parts?_of_isBare hbare hin.self.clean
      · simpa using hdangles.fails hmixed hin []
    simp [Script.perform, hitems, Script.commands?, hparts]
  have hsome : ¬(w.isBare e = true ∨ w.Dangles e) → ∀ holds,
      Script.perform holds (Emission.text (w.element n e)) =
        some (w.done Xml.Element.attr? holds e.node) := by
    intro hsound holds
    rw [not_or, Bool.not_eq_true] at hsound
    have hrealises := (hmixed.leads htable hin hsound.1 hsound.2).realises
    simpa using hrealises.perform_eq hitems holds
  have hcalls : ∀ holds, (Script.perform holds (Emission.text (w.element n e))).map
      Deed.callsAll = some (w.calledIn Xml.Element.attr? holds [] e) ↔
        ¬(w.isBare e = true ∨ w.Dangles e) ∧ w.Harmless Xml.Element.attr? holds [] e := by
    intro holds
    by_cases hdangling : w.isBare e = true ∨ w.Dangles e
    · simp [hnone hdangling, hdangling]
    · rw [hsome hdangling, Option.map_some, Option.some_inj, hmixed.callsAll_done_eq_iff rfl,
        and_iff_right hdangling]
  have htests : ∀ s ∈ e.sites, w.role? s.element = some (.control .ifTag) →
      ∃ test, w.test? Xml.Element.attr? s.element = some test := by
    intro s hs hrole
    obtain ⟨-, _, -, -, htested⟩ := exists_condition (hclean s hs) (.inl rfl) hrole
    exact Option.isSome_iff_exists.mp (by simpa [tested] using htested fun _ => true)
  rw [Sink.run_unlimited]
  refine ⟨Emission.text (w.element n e), hok, rfl, hnone, hsome, hcalls, ?_⟩
  rw [← forall_harmless_iff htests, forall_congr' hcalls, forall_and, forall_const]

/-- An `if` with a test. -/
private def ifElement (test : String) (children : List Xml.Element) : Xml.Element :=
  ⟨⟨⟨some controlUri, "if"⟩, [⟨⟨none, "test"⟩, test⟩], [], [⟨"j", controlUri⟩], ⟨1, 1⟩⟩,
    children.map Xml.Element.node⟩

/-- A call without arguments. -/
private def callElement (name : String) (children : List Xml.Element) : Xml.Element :=
  ⟨⟨⟨none, name⟩, [], [], [⟨"j", controlUri⟩], ⟨1, 1⟩⟩, children.map Xml.Element.node⟩

/-- A call in which an `if` without child elements comes before another call, and a second one
before a call that is inside of an `if` with the same test. -/
private def page : Xml.Element :=
  callElement "a" [ifElement "$\x7bx\x7d" [], callElement "b" [],
    ifElement "$\x7by\x7d" [ifElement "$\x7by\x7d" [], callElement "c" []]]

/-- A writer for the page. -/
private def pageWriter : Writer := ⟨⟨[]⟩, .default⟩

private theorem mixed_page : pageWriter.Mixed page := by
  have hbare : ∀ test, pageWriter.Mixed (ifElement test []) := fun _ => .condition rfl nofun
  have hcall : ∀ name, (Role.call "" name).isMistakable = false →
      pageWriter.Mixed (callElement name []) := fun _ hname => .call rfl hname nofun
  have hinner : pageWriter.Mixed
      (ifElement "$\x7by\x7d" [ifElement "$\x7by\x7d" [], callElement "c" []]) :=
    .condition rfl (List.forall_mem_cons.mpr
      ⟨hbare _, List.forall_mem_singleton.mpr (hcall "c" rfl)⟩)
  exact .call rfl rfl (List.forall_mem_cons.mpr ⟨hbare _,
    List.forall_mem_cons.mpr ⟨hcall "b" rfl, List.forall_mem_singleton.mpr hinner⟩⟩)

private theorem not_dangles_page : ¬pageWriter.Dangles page := by
  -- a block does not dangle if its last element is not such an `if` and nothing in it dangles
  have hblock : ∀ e last, e.children.getLast? = some last → pageWriter.isBare last = false →
      (∀ c ∈ e.children, ¬pageWriter.Dangles c) → ¬pageWriter.Dangles e := by
    rintro e last hlast hbare hinside (⟨hlast', hbare'⟩ | ⟨hc, hdangles⟩)
    · rw [hlast, Option.some_inj] at hlast'
      rw [hlast', hbare'] at hbare
      cases hbare
    · exact hinside _ hc hdangles
  have hleaf : ∀ e : Xml.Element, e.children = [] → ¬pageWriter.Dangles e := by
    rintro e hnil (⟨hlast, -⟩ | ⟨hc, -⟩)
    · rw [hnil] at hlast
      cases hlast
    · rw [hnil] at hc
      cases hc
  have hinner := hblock
    (ifElement "$\x7by\x7d" [ifElement "$\x7by\x7d" [], callElement "c" []]) _ rfl rfl
    (List.forall_mem_cons.mpr ⟨hleaf _ rfl, List.forall_mem_singleton.mpr (hleaf _ rfl)⟩)
  exact hblock page _ rfl rfl (List.forall_mem_cons.mpr ⟨hleaf _ rfl,
    List.forall_mem_cons.mpr ⟨hleaf _ rfl, List.forall_mem_singleton.mpr hinner⟩⟩)

/-- If only the second test holds, then the call `b` is left out although nothing is around it that
does not hold. If only the first one does, then the lines run the calls that are meant. -/
theorem perform_mixed_page :
    ∃ out, (Sink.unlimited.run (pageWriter.element 0 page)).outcome = .ok () ∧
      (Sink.unlimited.run (pageWriter.element 0 page)).sink.stored = Text.bytes out ∧
      Script.perform (· == "y") out = some [.call "a()" [.call "c()" []]] ∧
      pageWriter.calledIn Xml.Element.attr? (· == "y") [] page = ["a()", "b()", "c()"] ∧
      ¬pageWriter.Harmless Xml.Element.attr? (· == "y") [] page ∧
      Script.perform (· == "x") out = some [.call "a()" [.call "b()" []]] ∧
      pageWriter.calledIn Xml.Element.attr? (· == "x") [] page = ["a()", "b()"] ∧
      pageWriter.Harmless Xml.Element.attr? (· == "x") [] page := by
  obtain ⟨out, hok, hstored, -, hperform, hcalls, -⟩ :=
    perform_mixed pageWriter 0 page mixed_page (by decide +kernel) (by decide) (by decide +kernel)
  have hsound : ¬(pageWriter.isBare page = true ∨ pageWriter.Dangles page) :=
    not_or.mpr ⟨by decide, not_dangles_page⟩
  have hsecond : Script.perform (· == "y") out = some [.call "a()" [.call "c()" []]] :=
    (hperform hsound _).trans (by decide +kernel)
  have hfirst : Script.perform (· == "x") out = some [.call "a()" [.call "b()" []]] :=
    (hperform hsound _).trans (by decide +kernel)
  refine ⟨out, hok, hstored, hsecond, by decide +kernel, ?_, hfirst, by decide +kernel, ?_⟩
  · intro hharmless
    have hmeant := (hcalls (· == "y")).mpr ⟨hsound, hharmless⟩
    rw [hsecond] at hmeant
    revert hmeant
    decide +kernel
  · refine ((hcalls (· == "x")).mp ?_).2
    rw [hfirst]
    decide +kernel

end Writer

/-- A call after an `if` without child elements is not run where the test of that `if` does not
hold, although the call is not inside of the `if`. -/
theorem Conversion.perform_captured_sibling :
    let c : Conversion := ⟨"<a xmlns:j=\"jelly:core\"><j:if test=\"$\x7bx\x7d\"/><b/></a>",
      none, .default⟩
    let preamble := "// Namespaces\nj = namespace(\"jelly:core\")\n\n\n"
    let lines := "a() \x7b\n  if(x)\n  b() \n\x7d\n"
    (Sink.unlimited.run c.emission).ending = ⟨.ok (), Text.bytes (preamble ++ lines)⟩ ∧
      Script.perform (fun _ => false) lines = some [.call "a()" []] ∧
      (c.entry.toOption.map fun found =>
        found.1.calledIn Xml.Element.plainAttr? (fun _ => false) [] found.2) =
          some ["a()", "b()"] := by
  decide +kernel

end GroovyViews
