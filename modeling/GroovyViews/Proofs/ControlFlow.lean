import GroovyViews.Proofs.Ending
import GroovyViews.Proofs.Meaning
import GroovyViews.Proofs.Phrases

/-!
# Control flow

The lines that are written for a view do what the view means, if each group of alternatives has one
test only. An `if` guards its block, an alternative stands right after the condition that it belongs
to, whatever is around the two, and a tag that is left out gives its content to the block around it.
-/

namespace GroovyViews

open Script (Deed Item Phrase Realises)

/-- All the elements of an element that has others around it are readable. -/
def Script.ReadableIn (w : Writer) (around : List Xml.Element) (e : Xml.Element) : Prop :=
  ∀ s, .enter s ∈ e.node.visits around → Script.Readable w s.element

namespace Script.ReadableIn

variable {w : Writer} {around : List Xml.Element} {e c : Xml.Element}

/-- The element itself is one of them. -/
theorem self (h : ReadableIn w around e) : Readable w e :=
  h ⟨around, e⟩ (Xml.Element.enter_mem_visits.mpr (.inl rfl))

/-- So are the elements of a child element, which has one more around it. -/
theorem child (h : ReadableIn w around e) (hc : c ∈ e.children) : ReadableIn w (e :: around) c :=
  fun s hs => h s (Xml.Element.enter_mem_visits.mpr (.inr ⟨c, hc, hs⟩))

end Script.ReadableIn

namespace Writer

variable {w : Writer} {e : Xml.Element}

/-- An element that may open a block and has child elements opens one. -/
theorem opensBlock_of_role {role : Role} (hrole : w.role? e = some role)
    (hmay : role.mayOpenBlock = true) (hchildren : e.hasChildren = true) :
    w.opensBlock e = true := by
  simp [opensBlock, hrole, hmay, hchildren]

/-- An element that says nothing does not show in the items. -/
theorem items_of_silent (hsaid : w.said? Xml.Element.attr? e = none) :
    w.items e.node = w.itemsAll e.content := by
  simp [Xml.Element.node, items, hsaid]

/-- The items of a group are those of its alternatives. -/
theorem items_of_choose (hrole : w.role? e = some (.control .choose)) :
    w.items e.node = e.children.flatMap fun b => w.items b.node := by
  have hsaid : w.said? Xml.Element.attr? e = none := by simp [said?, hrole, statementIn]
  rw [items_of_silent hsaid, itemsAll_eq, Xml.Element.children]

/-- An element that opens a block has the items of its content in it. -/
theorem items_of_block {s : Groovy.Statement} (hsaid : w.said? Xml.Element.attr? e = some s)
    (hopens : w.opensBlock e = true) :
    w.items e.node = [.block (w.textOf s) (w.itemsAll e.content)] := by
  simp [Xml.Element.node, items, hsaid, hopens]

/-- An element without child elements is a line without a block. -/
theorem items_of_leaf {s : Groovy.Statement} (hsaid : w.said? Xml.Element.attr? e = some s)
    (hchildren : e.hasChildren = false) : w.items e.node = [.leaf (w.textOf s)] := by
  have hopens : w.opensBlock e = false := by simp [opensBlock, hchildren]
  have hcontent : w.itemsAll e.content = [] := by
    rw [itemsAll_eq, Xml.Element.filterMap_of_leaf hchildren, List.flatMap_nil]
  simp [Xml.Element.node, items, hsaid, hopens, hcontent]

/-- Elements one after the other do what they mean if each of them does. -/
theorem realises_flatMap {elements : List Xml.Element}
    {meaning : Xml.Element → (String → Bool) → List Deed}
    (h : ∀ c ∈ elements, Realises (w.items c.node) (meaning c)) :
    Realises (elements.flatMap fun c => w.items c.node)
      fun holds => elements.flatMap fun c => meaning c holds := by
  induction elements with
  | nil => exact .nil
  | cons c rest ih =>
    have hfirst := h c (by simp)
    have hrest := ih fun d hd => h d (by simp [hd])
    exact hfirst.append hrest

/-- The content of an element does what it means if each child element does. -/
theorem realises_content
    (h : ∀ c ∈ e.children,
      Realises (w.items c.node) fun holds => w.deeds Xml.Element.attr? holds c.node) :
    Realises (w.itemsAll e.content) fun holds => w.deedsAll Xml.Element.attr? holds e.content := by
  rw [itemsAll_eq]
  exact (realises_flatMap h).congr fun holds => (w.deedsAll_eq _ holds e.content).symm

/-- The text of a call that cannot be mistaken plays the part of a call. -/
theorem exists_call {qualifier tag : String}
    (htable : ∀ b ∈ w.prefixes.entries, b.isTidy = true) (hreadable : Script.Readable w e)
    (hrole : w.role? e = some (.call qualifier tag))
    (hname : (Role.call qualifier tag).isMistakable = false) :
    ∃ s, w.said? Xml.Element.attr? e = some s ∧ Phrase.ofText (w.textOf s) = .call := by
  obtain ⟨hofName, hstates⟩ := states_of_role hrole hreadable.clean
  generalize w.said? Xml.Element.attr? e = s at hstates
  cases hstates with
  | @call _ _ arguments hargs =>
    obtain ⟨rfl, -⟩ := Layout.ofName_eq_call hofName
    exact ⟨_, rfl, Script.ofText_textOf_call w arguments (Layout.isTidy_qualifier hofName htable)
      hreadable.tidy.tag hname⟩

/-- A call does what it means if its content does. -/
theorem realises_call {qualifier tag : String}
    (htable : ∀ b ∈ w.prefixes.entries, b.isTidy = true) (hreadable : Script.Readable w e)
    (hrole : w.role? e = some (.call qualifier tag))
    (hname : (Role.call qualifier tag).isMistakable = false)
    (hcontent : Realises (w.itemsAll e.content)
      fun holds => w.deedsAll Xml.Element.attr? holds e.content) :
    Realises (w.items e.node) fun holds => w.deeds Xml.Element.attr? holds e.node := by
  obtain ⟨s, hsaid, htext⟩ := exists_call htable hreadable hrole hname
  have hdeeds : ∀ holds, w.deeds Xml.Element.attr? holds e.node =
      [.call (w.textOf s) (w.deedsAll Xml.Element.attr? holds e.content)] := by
    intro holds
    simp [Xml.Element.node, deeds, hrole, saidText, hsaid]
  cases hchildren : e.hasChildren with
  | true =>
    rw [items_of_block hsaid (opensBlock_of_role hrole rfl hchildren)]
    exact (Realises.block_call htext hcontent).congr fun holds => (hdeeds holds).symm
  | false =>
    rw [items_of_leaf hsaid hchildren]
    refine (Realises.leaf_call htext).congr fun holds => ?_
    rw [hdeeds, deedsAll_eq, Xml.Element.filterMap_of_leaf hchildren, List.flatMap_nil]

/-- A variable gets its value. -/
theorem realises_binding (hclean : w.complaint? Xml.Element.attr? e = none)
    (hrole : w.role? e = some (.control .invokeStatic)) (hchildren : e.hasChildren = false) :
    Realises (w.items e.node) fun holds => w.deeds Xml.Element.attr? holds e.node := by
  obtain ⟨-, hstates⟩ := states_of_role hrole hclean
  generalize hsaid : w.said? Xml.Element.attr? e = s at hstates
  cases hstates with
  | condition htag => rcases htag with h | h <;> cases h
  | invokeStatic =>
    rw [items_of_leaf hsaid hchildren]
    refine (Realises.leaf_binding (Script.ofText_textOf_definition w _ _ _)).congr fun holds => ?_
    simp [Xml.Element.node, deeds, hrole, saidText, hsaid]

/-- The text of an element with a test is that of a condition with the test. -/
theorem exists_condition (hclean : w.complaint? Xml.Element.attr? e = none) {tag : Control}
    (htag : tag = .ifTag ∨ tag = .when) (hrole : w.role? e = some (.control tag)) :
    ∃ s test, w.said? Xml.Element.attr? e = some s ∧
      Phrase.ofText (w.textOf s) = .condition test ∧
      ∀ holds, w.tested Xml.Element.attr? holds e = holds test := by
  obtain ⟨-, hstates⟩ := states_of_role hrole hclean
  generalize hsaid : w.said? Xml.Element.attr? e = s at hstates
  cases hstates with
  | condition _ htest =>
    refine ⟨_, _, rfl, Script.ofText_textOf_condition w _, fun holds => ?_⟩
    simp [tested, test?, htest]
  | otherwise | invokeStatic | choose | other => rcases htag with h | h <;> cases h

/-- What an element with a test guards is done if the test holds. -/
theorem realises_guarded (hclean : w.complaint? Xml.Element.attr? e = none) {tag : Control}
    (htag : tag = .ifTag ∨ tag = .when) (hrole : w.role? e = some (.control tag))
    (hchildren : e.hasChildren = true)
    (hcontent : Realises (w.itemsAll e.content)
      fun holds => w.deedsAll Xml.Element.attr? holds e.content) :
    Realises (w.items e.node) fun holds => w.guarded Xml.Element.attr? holds e := by
  obtain ⟨s, test, hsaid, htext, htested⟩ := exists_condition hclean htag hrole
  have hmay : (Role.control tag).mayOpenBlock = true := by rcases htag with rfl | rfl <;> rfl
  rw [items_of_block hsaid (opensBlock_of_role hrole hmay hchildren)]
  refine (Realises.condition htext hcontent).congr fun holds => ?_
  rw [guarded, htested]

/-- An element with a test, and the alternative right after it if there is one, do what one of them
guards. -/
theorem realises_branches {yes : Xml.Element} {no : Option Xml.Element}
    (hyes : w.complaint? Xml.Element.attr? yes = none) (hwhen : w.role? yes = some (.control .when))
    (hotherwise : ∀ b ∈ no, w.role? b = some (.control .otherwise))
    (hchildren : ∀ b ∈ yes :: no.toList, b.hasChildren = true)
    (hcontent : ∀ b ∈ yes :: no.toList, Realises (w.itemsAll b.content)
      fun holds => w.deedsAll Xml.Element.attr? holds b.content) :
    Realises ((yes :: no.toList).flatMap fun b => w.items b.node)
      fun holds => w.either Xml.Element.attr? holds yes no := by
  cases no with
  | none =>
    have hguarded := realises_guarded hyes (.inr rfl) hwhen (hchildren yes (by simp))
      (hcontent yes (by simp))
    simpa [either, fallback, guarded] using hguarded
  | some b =>
    have hrole := hotherwise b rfl
    obtain ⟨s, test, hsaid, htext, htested⟩ := exists_condition hyes (.inr rfl) hwhen
    have hsaid' : w.said? Xml.Element.attr? b = some .alternative := by
      simp [said?, hrole, statementIn]
    have hopens := opensBlock_of_role hwhen rfl (hchildren yes (by simp))
    have hopens' := opensBlock_of_role hrole rfl (hchildren b (by simp))
    have hitems : ((yes :: (some b).toList).flatMap fun b => w.items b.node) =
        [.block (w.textOf s) (w.itemsAll yes.content),
          .block (w.textOf .alternative) (w.itemsAll b.content)] := by
      simp [items_of_block hsaid hopens, items_of_block hsaid' hopens']
    rw [hitems]
    refine (Realises.condition_alternative htext (Script.ofText_textOf_alternative w)
      (hcontent yes (by simp)) (hcontent b (by simp))).congr fun holds => ?_
    rw [either, htested]
    rfl

/-- A view that is made of calls, of tags that are left out, of variables that get a value, of `if`
with content and of groups with one test, where no call can be mistaken for a condition or an
alternative. -/
inductive Structured (w : Writer) : Xml.Element → Prop where
  /-- A call. -/
  | call {e : Xml.Element} {qualifier tag : String} :
      w.role? e = some (.call qualifier tag) → (Role.call qualifier tag).isMistakable = false →
      (∀ c ∈ e.children, Structured w c) → Structured w e
  /-- An `if` with content. -/
  | guarded {e : Xml.Element} : w.role? e = some (.control .ifTag) → e.hasChildren = true →
      (∀ c ∈ e.children, Structured w c) → Structured w e
  /-- A group of an alternative with a test and perhaps one without, both with content. -/
  | branches {e yes : Xml.Element} {no : Option Xml.Element} :
      w.role? e = some (.control .choose) → e.children = yes :: no.toList →
      w.role? yes = some (.control .when) →
      (∀ b ∈ no, w.role? b = some (.control .otherwise)) →
      (∀ b ∈ e.children, b.hasChildren = true) →
      (∀ b ∈ e.children, ∀ c ∈ b.children, Structured w c) → Structured w e
  /-- A variable that gets a value. -/
  | binding {e : Xml.Element} : w.role? e = some (.control .invokeStatic) →
      e.hasChildren = false → Structured w e
  /-- A tag that is left out. -/
  | skipped {e : Xml.Element} {name : String} : w.role? e = some (.control (.other name)) →
      (∀ c ∈ e.children, Structured w c) → Structured w e

/-- A structured view does what it means. -/
theorem Structured.realises (h : w.Structured e)
    (htable : ∀ b ∈ w.prefixes.entries, b.isTidy = true) :
    ∀ around, Script.ReadableIn w around e →
      Realises (w.items e.node) fun holds => w.deeds Xml.Element.attr? holds e.node := by
  induction h with
  | call hrole hname _ ih =>
    intro around hreadable
    have hcontent := realises_content fun c hc => ih c hc _ (hreadable.child hc)
    exact realises_call htable hreadable.self hrole hname hcontent
  | guarded hrole hchildren _ ih =>
    intro around hreadable
    have hcontent := realises_content fun c hc => ih c hc _ (hreadable.child hc)
    have hguarded := realises_guarded hreadable.self.clean (.inl rfl) hrole hchildren hcontent
    refine hguarded.congr fun holds => ?_
    simp [Xml.Element.node, deeds, hrole, Writer.guarded]
  | @branches e yes no hrole hbranches hwhen hotherwise hchildren _ ih =>
    intro around hreadable
    have hcontent : ∀ b ∈ e.children, Realises (w.itemsAll b.content)
        fun holds => w.deedsAll Xml.Element.attr? holds b.content := fun b hb =>
      realises_content fun c hc => ih b hb c hc _ ((hreadable.child hb).child hc)
    have hyes := (hreadable.child (c := yes) (by simp [hbranches])).self.clean
    rw [items_of_choose hrole]
    rw [hbranches] at hchildren hcontent ⊢
    refine (realises_branches hyes hwhen hotherwise hchildren hcontent).congr fun holds => ?_
    rw [deeds_of_choose hrole, hbranches, chosenOf_branches hwhen hotherwise]
  | binding hrole hchildren =>
    intro around hreadable
    exact realises_binding hreadable.self.clean hrole hchildren
  | @skipped e _ hrole _ ih =>
    intro around hreadable
    have hcontent := realises_content fun c hc => ih c hc _ (hreadable.child hc)
    have hsaid : w.said? Xml.Element.attr? e = none := by simp [said?, hrole, statementIn]
    rw [items_of_silent hsaid]
    refine hcontent.congr fun holds => ?_
    simp [Xml.Element.node, deeds, hrole]

/-- **Control flow is kept.** If an element is structured and all its elements can be written and
read, then it is written in full to a sink without limits, and the lines do what the element means,
whichever tests hold. What it means goes by the attributes that are found, in whatever namespace
they are. It is the same with the attributes without a namespace if none of these is masked. -/
theorem perform_written (w : Writer) (n : Nat) (e : Xml.Element) (hstructured : w.Structured e)
    (htable : ∀ b ∈ w.prefixes.entries, b.isTidy = true)
    (hreadable : ∀ s ∈ e.sites, Script.Readable w s.element) :
    ∃ out, (Sink.unlimited.run (w.element n e)).outcome = .ok () ∧
      (Sink.unlimited.run (w.element n e)).sink.stored = Text.bytes out ∧
      (∀ holds, Script.perform holds out = some (w.deeds Xml.Element.attr? holds e.node)) ∧
      ((∀ s ∈ e.sites, w.unmasked s.element = true) → ∀ holds,
        Script.perform holds out = some (w.deeds Xml.Element.plainAttr? holds e.node)) := by
  have hrealises := hstructured.realises htable [] fun s hs =>
    hreadable s (Xml.Element.mem_sites.mpr hs)
  obtain ⟨hok, hitems⟩ := Script.items?_element n htable hreadable
  rw [Sink.run_unlimited]
  refine ⟨Emission.text (w.element n e), hok, rfl, hrealises.perform_eq hitems, ?_⟩
  intro hunmasked holds
  have hdeeds := deeds_of_unmasked holds [] e.node fun s hs =>
    hunmasked s (Xml.Element.mem_sites.mpr hs)
  rw [hrealises.perform_eq hitems, hdeeds]

/-- A tag for the view below. -/
private def tagOf (uri : Option String) (localName : String)
    (attributes : List (String × String)) : Xml.StartTag :=
  ⟨⟨uri, localName⟩, attributes.map fun (n, v) => ⟨⟨none, n⟩, v⟩, [],
    [⟨"j", controlUri⟩, ⟨"l", "/lib/layout"⟩], ⟨1, 1⟩⟩

/-- A view in which a tag that is left out stands between an `if` and a group. -/
private def panel : Xml.Element :=
  ⟨tagOf (some "/lib/layout") "if" [],
    [.element (tagOf (some controlUri) "invokeStatic"
        [("var", "v"), ("className", "C"), ("method", "m()")]) [],
     .element (tagOf (some controlUri) "if" [("test", "$\x7ba\x7d")])
      [.element (tagOf none "b" []) [.text "\x7d"]],
     .element (tagOf (some controlUri) "set" [])
      [.element (tagOf (some controlUri) "choose" [])
        [.element (tagOf (some controlUri) "when" [("test", "$\x7bb\x7d")])
          [.element (tagOf none "p" []) []],
         .element (tagOf (some controlUri) "otherwise" [])
          [.element (tagOf none "q" []) [.element (tagOf none "r" []) []]]]]]⟩

/-- A writer for the view. -/
private def panelWriter : Writer := ⟨⟨[⟨"l", "/lib/layout"⟩]⟩, .default⟩

/-- The view is structured. -/
private theorem structured_panel : panelWriter.Structured panel := by
  have hcall : ∀ {name : String} {content : List Xml.Node},
      (Role.call "" name).isMistakable = false →
      (∀ c ∈ content.filterMap Xml.Node.element?, panelWriter.Structured c) →
      panelWriter.Structured ⟨tagOf none name [], content⟩ :=
    fun hname hcontent => .call rfl hname hcontent
  have hb : panelWriter.Structured ⟨tagOf none "b" [], [.text "\x7d"]⟩ := hcall rfl nofun
  have hp : panelWriter.Structured ⟨tagOf none "p" [], []⟩ := hcall rfl nofun
  have hq : panelWriter.Structured ⟨tagOf none "q" [], [.element (tagOf none "r" []) []]⟩ :=
    hcall rfl (List.forall_mem_singleton.mpr (hcall rfl nofun))
  refine .call rfl rfl (List.forall_mem_cons.mpr ⟨.binding rfl rfl, List.forall_mem_cons.mpr
    ⟨.guarded rfl rfl (List.forall_mem_singleton.mpr hb), List.forall_mem_singleton.mpr ?_⟩⟩)
  refine .skipped rfl (List.forall_mem_singleton.mpr ?_)
  refine @Structured.branches _ _ _ (some _) rfl rfl rfl (by rintro b ⟨⟩; rfl) (by decide) ?_
  exact List.forall_mem_cons.mpr ⟨List.forall_mem_singleton.mpr hp,
    List.forall_mem_singleton.mpr (List.forall_mem_singleton.mpr hq)⟩

/-- The lines of the view do what is guarded by the test that holds. The call of the element around
it all is no condition, although its tag is that of one. -/
theorem perform_written_panel :
    ∃ out, (Sink.unlimited.run (panelWriter.element 1 panel)).outcome = .ok () ∧
      (Sink.unlimited.run (panelWriter.element 1 panel)).sink.stored = Text.bytes out ∧
      Script.perform (· == "a") out = some [.call "l.if()" [.binding "def v = C.m()",
        .call "b(\"\x7d\")" [], .call "q()" [.call "r()" []]]] ∧
      Script.perform (· == "b") out =
        some [.call "l.if()" [.binding "def v = C.m()", .call "p()" []]] := by
  have hclean : ∀ s ∈ panel.sites,
      panelWriter.complaint? Xml.Element.attr? s.element = none := by decide +kernel
  have htidy : ∀ s ∈ panel.sites, s.element.Tidy := by decide +kernel
  have hmethod : ∀ s ∈ panel.sites, panelWriter.role? s.element = some (.control .invokeStatic) →
      s.element.methodOpens = false := by decide +kernel
  obtain ⟨out, hok, hstored, -, hplain⟩ := perform_written panelWriter 1 panel structured_panel
    (by decide) fun s hs => ⟨hclean s hs, htidy s hs, hmethod s hs⟩
  have hunmasked : ∀ s ∈ panel.sites, panelWriter.unmasked s.element = true := by decide +kernel
  refine ⟨out, hok, hstored, (hplain hunmasked _).trans ?_, (hplain hunmasked _).trans ?_⟩
  · decide +kernel
  · decide +kernel

end Writer

/-- An `if` with a test in a namespace of its own before the one without a namespace is converted as
if the first were its test, and its content is done where the view means that nothing is. -/
theorem Conversion.perform_masked_test :
    let c : Conversion := ⟨"<j:if xmlns:j=\"jelly:core\" xmlns:x=\"urn:x\" " ++
      "x:test=\"$\x7ba\x7d\" test=\"$\x7bb\x7d\"><c/></j:if>", none, .default⟩
    let preamble := "// Namespaces\nj = namespace(\"jelly:core\")\nx = namespace(\"urn:x\")\n\n\n"
    let lines := "if(a) \x7b\n  c() \n\x7d\n"
    (Sink.unlimited.run c.emission).ending = ⟨.ok (), Text.bytes (preamble ++ lines)⟩ ∧
      Script.perform (· == "a") lines = some [.call "c()" []] ∧
      (c.entry.toOption.map fun (w, start) =>
        w.deeds Xml.Element.plainAttr? (· == "a") start.node) = some [] := by
  decide +kernel

end GroovyViews
