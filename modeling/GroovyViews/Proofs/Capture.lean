import GroovyViews.Proofs.ControlFlow

/-!
# Conditions without a block

An `if` without child elements is written without a block, so that it takes the next command for
what it guards. What that is, is decided by the element that comes next: its lines are done only if
the tests of all such `if`s right before it hold. If none comes next, the lines cannot be run at
all.
-/

namespace GroovyViews

namespace Script

/-- The items become commands, whatever comes after them, unless that is an alternative. The first
command may be left out, which `meaning` is told. -/
def Leads (items : List Item) (meaning : Bool → (String → Bool) → List Deed) : Prop :=
  ∃ (first : Command) (others : List Command),
    (∀ rest parts, parts? rest = some parts → Settled parts →
      parts? (items ++ rest) = some (.command first :: (others.map Part.command ++ parts))) ∧
    ∀ guard holds, meaning guard holds =
      (if guard then first.run holds else []) ++ Command.runAll holds others

/-- The items cannot become commands, whatever comes after them. -/
def Fails (items : List Item) : Prop := ∀ rest, parts? (items ++ rest) = none

/-- Items before others that cannot become commands cannot do so either. -/
theorem parts?_append_of_none (items : List Item) {rest : List Item} (h : parts? rest = none) :
    parts? (items ++ rest) = none := by
  induction items with
  | nil => exact h
  | cons item items ih => simp [parts?, ih]

/-- A block cannot become a command if what is in it cannot. -/
theorem fails_block {text : String} {body : List Item} (h : parts? body = none) :
    Fails [.block text body] := by
  intro rest
  rw [List.singleton_append, parts?]
  cases parts? rest <;> simp [before?, h]

namespace Leads

variable {items other body : List Item} {text test : String}
  {meaning second : Bool → (String → Bool) → List Deed} {inner : (String → Bool) → List Deed}

/-- What is meant may be said in another way. -/
theorem congr (h : Leads items meaning) (heq : ∀ guard holds, meaning guard holds =
    second guard holds) : Leads items second := by
  obtain ⟨first, others, hparts, hrun⟩ := h
  exact ⟨first, others, hparts, fun guard holds => heq guard holds ▸ hrun guard holds⟩

/-- Items that become a single command do all or nothing. -/
theorem of_command (command : Command) (inner : (String → Bool) → List Deed)
    (hparts : ∀ rest parts, parts? rest = some parts → Settled parts →
      parts? (items ++ rest) = some (.command command :: parts))
    (hrun : ∀ holds, command.run holds = inner holds) :
    Leads items fun guard holds => if guard then inner holds else [] := by
  refine ⟨command, [], hparts, fun guard holds => ?_⟩
  rw [hrun, Command.runAll, List.append_nil]

/-- If nothing takes the first command, then all commands do what they mean. -/
theorem realises (h : Leads items meaning) : Realises items (meaning true) := by
  obtain ⟨first, others, hparts, hrun⟩ := h
  refine ⟨first :: others, hparts, fun holds => ?_⟩
  rw [hrun, Command.runAll, if_pos rfl]

/-- Of items one after the other only the first ones may have their first command taken. -/
theorem append (h : Leads items meaning) (hother : Leads other second) :
    Leads (items ++ other) fun guard holds => meaning guard holds ++ second true holds := by
  obtain ⟨first, others, hparts, hrun⟩ := h
  obtain ⟨first', others', hparts', hrun'⟩ := hother
  refine ⟨first, others ++ first' :: others', ?_, ?_⟩
  · intro rest parts hrest hsettled
    rw [List.append_assoc, hparts _ _ (hparts' rest parts hrest hsettled) trivial]
    simp
  · intro guard holds
    dsimp only
    rw [hrun, hrun', if_pos rfl, Command.runAll_append, Command.runAll, List.append_assoc]

/-- A condition without a block takes the first command of what comes next. -/
theorem bare (htext : Phrase.ofText text = .condition test) (h : Leads items meaning) :
    Leads (.leaf text :: items) fun guard holds => meaning (guard && holds test) holds := by
  obtain ⟨first, others, hparts, hrun⟩ := h
  refine ⟨.condition test [first] [], others, ?_, ?_⟩
  · intro rest parts hrest hsettled
    have hnext := hsettled.map_append others
    rw [List.cons_append, Realises.parts?_leaf (hparts rest parts hrest hsettled), attach, htext]
    cases hcases : others.map Part.command ++ parts with
    | nil => rfl
    | cons part more =>
      rw [hcases] at hnext
      cases part with
      | command c => rfl
      | alternative no => exact hnext.elim
  · intro guard holds
    dsimp only
    rw [hrun]
    cases guard <;> cases hholds : holds test <;> simp [Command.run, Command.runAll, hholds]

/-- A call without a block. -/
theorem leaf_call (htext : Phrase.ofText text = .call) :
    Leads [.leaf text] fun guard _ => if guard then [.call text []] else [] := by
  refine of_command (.call text []) (fun _ => [.call text []]) ?_ fun _ => rfl
  intro rest parts hrest _
  simp [Realises.parts?_leaf hrest, attach, htext]

/-- A call does inside of it what its block means. -/
theorem block_call (htext : Phrase.ofText text = .call) (hbody : Realises body inner) :
    Leads [.block text body]
      fun guard holds => if guard then [.call text (inner holds)] else [] := by
  obtain ⟨commands, hrun, hattach⟩ := hbody.parts?_block
  refine of_command (.call text commands) (fun holds => [.call text (inner holds)]) ?_
    fun holds => ?_
  · intro rest parts hrest _
    rw [List.singleton_append, hattach text rest parts hrest, attach, htext]
    rfl
  · rw [Command.run, hrun]

/-- A condition with a block does what that means if its test holds. -/
theorem block_condition (htext : Phrase.ofText text = .condition test)
    (hbody : Realises body inner) : Leads [.block text body] fun guard holds =>
      if guard then (if holds test then inner holds else []) else [] := by
  obtain ⟨commands, hrun, hattach⟩ := hbody.parts?_block
  refine of_command (.condition test commands [])
    (fun holds => if holds test then inner holds else []) ?_ fun holds => ?_
  · intro rest parts hrest hsettled
    rw [List.singleton_append, hattach text rest parts hrest, attach, htext]
    cases parts with
    | nil => rfl
    | cons part parts =>
      cases part with
      | command c => rfl
      | alternative no => exact hsettled.elim
  · rw [Command.run, hrun, Command.runAll]

end Leads

end Script

open Script (Deed Item Leads Fails)

namespace Writer

/-- An `if` without child elements. Its line has no block. -/
def isBare (w : Writer) (e : Xml.Element) : Bool :=
  decide (w.role? e = some (.control .ifTag)) && !e.hasChildren

/-- A tree of calls, none of which can be mistaken for a condition or an alternative, and of `if`s
with or without child elements. -/
inductive Mixed (w : Writer) : Xml.Element → Prop where
  /-- A call. -/
  | call {e : Xml.Element} {qualifier tag : String} :
      w.role? e = some (.call qualifier tag) → (Role.call qualifier tag).isMistakable = false →
      (∀ c ∈ e.children, Mixed w c) → Mixed w e
  /-- An `if`. -/
  | condition {e : Xml.Element} : w.role? e = some (.control .ifTag) →
      (∀ c ∈ e.children, Mixed w c) → Mixed w e

/-- Somewhere in the element a block ends with an `if` without child elements. -/
inductive Dangles (w : Writer) : Xml.Element → Prop where
  /-- The block of the element itself does. -/
  | last {e c : Xml.Element} : e.children.getLast? = some c → w.isBare c = true → Dangles w e
  /-- A block further inside does. -/
  | inside {e c : Xml.Element} : c ∈ e.children → Dangles w c → Dangles w e

mutual

/-- What the lines of a node do if they are not left out. -/
def done (w : Writer) (look : Lookup) (holds : String → Bool) : Xml.Node → List Deed
  | .element tag content =>
    match w.role? ⟨tag, content⟩ with
    | some (.call _ _) =>
      [.call (w.saidText look ⟨tag, content⟩) (w.doneAll look holds true content)]
    | some (.control .ifTag) =>
      if w.tested look holds ⟨tag, content⟩ then w.doneAll look holds true content else []
    | _ => []
  | .text _ | .comment _ | .instruction _ _ => []

/-- What the lines of several nodes do. An `if` without child elements passes on whether its test
and those passed on to it hold. Any other element is left out if they do not. -/
def doneAll (w : Writer) (look : Lookup) (holds : String → Bool) (guard : Bool) :
    List Xml.Node → List Deed
  | [] => []
  | .element tag content :: rest =>
    if w.isBare ⟨tag, content⟩ then
      w.doneAll look holds (guard && w.tested look holds ⟨tag, content⟩) rest
    else
      (if guard then w.done look holds (.element tag content) else []) ++
        w.doneAll look holds true rest
  | .text _ :: rest | .comment _ :: rest | .instruction _ _ :: rest =>
    w.doneAll look holds guard rest

end

/-- What the lines of several elements do, as for nodes. -/
def inTurn (w : Writer) (look : Lookup) (holds : String → Bool) (guard : Bool) :
    List Xml.Element → List Deed
  | [] => []
  | e :: rest =>
    if w.isBare e then w.inTurn look holds (guard && w.tested look holds e) rest
    else (if guard then w.done look holds e.node else []) ++ w.inTurn look holds true rest

variable {w : Writer} {e : Xml.Element} {look : Lookup} {holds : String → Bool}

/-- Only the elements among several nodes do anything. -/
theorem doneAll_eq (guard : Bool) (nodes : List Xml.Node) : w.doneAll look holds guard nodes =
    w.inTurn look holds guard (nodes.filterMap Xml.Node.element?) := by
  induction nodes generalizing guard with
  | nil => simp only [doneAll, List.filterMap_nil, inTurn]
  | cons n rest ih =>
    cases n with
    | element tag content =>
      simp only [doneAll, ih, List.filterMap_cons, Xml.Node.element?, inTurn, Xml.Element.node]
    | text _ | comment _ | instruction _ _ =>
      simp only [doneAll, ih, List.filterMap_cons, Xml.Node.element?]

/-- An `if` without child elements passes its test on. -/
theorem inTurn_of_isBare (h : w.isBare e = true) (guard : Bool) (rest : List Xml.Element) :
    w.inTurn look holds guard (e :: rest) =
      w.inTurn look holds (guard && w.tested look holds e) rest := by
  rw [inTurn, if_pos h]

/-- Any other element is done if the tests passed on to it hold. -/
theorem inTurn_of_not_isBare (h : w.isBare e = false) (guard : Bool) (rest : List Xml.Element) :
    w.inTurn look holds guard (e :: rest) =
      (if guard then w.done look holds e.node else []) ++ w.inTurn look holds true rest := by
  rw [inTurn, if_neg (by simp [h])]

/-- The lines of a call do the call with what is in its block. -/
theorem done_of_call {qualifier tag : String} (hrole : w.role? e = some (.call qualifier tag)) :
    w.done look holds e.node =
      [.call (w.saidText look e) (w.inTurn look holds true e.children)] := by
  simp [Xml.Element.node, done, hrole, doneAll_eq, Xml.Element.children]

/-- The lines of an `if` do what is in its block if its test holds. -/
theorem done_of_condition (hrole : w.role? e = some (.control .ifTag)) :
    w.done look holds e.node =
      if w.tested look holds e then w.inTurn look holds true e.children else [] := by
  simp [Xml.Element.node, done, hrole, doneAll_eq, Xml.Element.children]

/-- An `if` without child elements is a line with its test. -/
theorem exists_items_of_isBare (hbare : w.isBare e = true)
    (hclean : w.complaint? Xml.Element.attr? e = none) :
    ∃ text test, w.items e.node = [.leaf text] ∧
      Script.Phrase.ofText text = .condition test ∧
      ∀ holds, w.tested Xml.Element.attr? holds e = holds test := by
  simp only [isBare, Bool.and_eq_true, decide_eq_true_eq, Bool.not_eq_true'] at hbare
  obtain ⟨s, test, hsaid, htext, htested⟩ := exists_condition hclean (.inl rfl) hbare.1
  exact ⟨w.textOf s, test, items_of_leaf hsaid hbare.2, htext, htested⟩

/-- The lines of elements, the last of which is no `if` without child elements, do what is done in
turn if those of each element do what is done for it. -/
theorem leads_elements {elements : List Xml.Element} (hne : elements ≠ [])
    (hlast : ∀ c ∈ elements.getLast?, w.isBare c = false)
    (hclean : ∀ c ∈ elements, w.complaint? Xml.Element.attr? c = none)
    (h : ∀ c ∈ elements, w.isBare c = false → Leads (w.items c.node) fun guard holds =>
      if guard then w.done Xml.Element.attr? holds c.node else []) :
    Leads (elements.flatMap fun c => w.items c.node)
      fun guard holds => w.inTurn Xml.Element.attr? holds guard elements := by
  induction elements with
  | nil => exact absurd rfl hne
  | cons c rest ih =>
    cases rest with
    | nil =>
      have hc := hlast c (by simp)
      rw [List.flatMap_singleton]
      refine (h c (by simp) hc).congr fun guard holds => ?_
      rw [inTurn_of_not_isBare hc, inTurn, List.append_nil]
    | cons d more =>
      have hrest := ih (by simp) (by simpa using hlast) (fun b hb => hclean b (by simp [hb]))
        (fun b hb => h b (by simp [hb]))
      rw [List.flatMap_cons]
      cases hc : w.isBare c with
      | true =>
        obtain ⟨text, test, hitems, htext, htested⟩ :=
          exists_items_of_isBare hc (hclean c (by simp))
        rw [hitems, List.singleton_append]
        refine (hrest.bare htext).congr fun guard holds => ?_
        rw [inTurn_of_isBare hc, htested]
      | false =>
        refine ((h c (by simp) hc).append hrest).congr fun guard holds => ?_
        rw [inTurn_of_not_isBare hc]

namespace Mixed

/-- So are the child elements. -/
theorem children (h : w.Mixed e) : ∀ c ∈ e.children, w.Mixed c := by
  cases h with
  | call _ _ hchildren => exact hchildren
  | condition _ hchildren => exact hchildren

/-- An element that is no `if` without child elements has its own line, and its child elements in a
block. -/
theorem leads_self (h : w.Mixed e) (htable : ∀ b ∈ w.prefixes.entries, b.isTidy = true)
    (hreadable : Script.Readable w e) (hbare : w.isBare e = false)
    (hbody : e.hasChildren = true → Leads (e.children.flatMap fun c => w.items c.node)
      fun guard holds => w.inTurn Xml.Element.attr? holds guard e.children) :
    Leads (w.items e.node) fun guard holds =>
      if guard then w.done Xml.Element.attr? holds e.node else [] := by
  have hitems : w.itemsAll e.content = e.children.flatMap fun c => w.items c.node := by
    rw [itemsAll_eq, Xml.Element.children]
  cases h with
  | call hrole hname _ =>
    obtain ⟨s, hsaid, htext⟩ := exists_call htable hreadable hrole hname
    have hdone : ∀ holds, w.done Xml.Element.attr? holds e.node =
        [.call (w.textOf s) (w.inTurn Xml.Element.attr? holds true e.children)] := by
      intro holds
      rw [done_of_call hrole, saidText, hsaid]
      rfl
    cases hchildren : e.hasChildren with
    | true =>
      rw [items_of_block hsaid (opensBlock_of_role hrole rfl hchildren), hitems]
      refine (Leads.block_call htext (hbody hchildren).realises).congr fun guard holds => ?_
      rw [hdone]
    | false =>
      rw [items_of_leaf hsaid hchildren]
      refine (Leads.leaf_call htext).congr fun guard holds => ?_
      rw [hdone, Xml.Element.children, Xml.Element.filterMap_of_leaf hchildren, inTurn]
  | condition hrole _ =>
    have hchildren : e.hasChildren = true := by simpa [isBare, hrole] using hbare
    obtain ⟨s, test, hsaid, htext, htested⟩ := exists_condition hreadable.clean (.inl rfl) hrole
    rw [items_of_block hsaid (opensBlock_of_role hrole rfl hchildren), hitems]
    refine (Leads.block_condition htext (hbody hchildren).realises).congr fun guard holds => ?_
    rw [done_of_condition hrole, htested]

/-- The lines of an element in which nothing dangles do what is done for it. -/
theorem leads (h : w.Mixed e) (htable : ∀ b ∈ w.prefixes.entries, b.isTidy = true) :
    ∀ {around : List Xml.Element}, Script.ReadableIn w around e → w.isBare e = false →
      ¬w.Dangles e → Leads (w.items e.node) fun guard holds =>
        if guard then w.done Xml.Element.attr? holds e.node else [] := by
  -- the block of an element, given what is known of its child elements
  have hblock : ∀ {e : Xml.Element} {around : List Xml.Element}, Script.ReadableIn w around e →
      ¬w.Dangles e → (∀ c ∈ e.children, ∀ {around : List Xml.Element},
        Script.ReadableIn w around c → w.isBare c = false → ¬w.Dangles c →
          Leads (w.items c.node) fun guard holds =>
            if guard then w.done Xml.Element.attr? holds c.node else []) →
      e.hasChildren = true → Leads (e.children.flatMap fun c => w.items c.node)
        fun guard holds => w.inTurn Xml.Element.attr? holds guard e.children := by
    intro e around hreadable hdangles ih hchildren
    refine leads_elements (by simpa [Xml.Element.hasChildren] using hchildren) ?_ ?_ ?_
    · intro c hc
      exact eq_false_of_ne_true fun hbare => hdangles (.last hc hbare)
    · exact fun c hc => (hreadable.child hc).self.clean
    · exact fun c hc hbare => ih c hc (hreadable.child hc) hbare fun hd => hdangles (.inside hc hd)
  induction h with
  | call hrole hname hmixed ih =>
    intro around hreadable hbare hdangles
    exact leads_self (.call hrole hname hmixed) htable hreadable.self hbare
      (hblock hreadable hdangles ih)
  | condition hrole hmixed ih =>
    intro around hreadable hbare hdangles
    exact leads_self (.condition hrole hmixed) htable hreadable.self hbare
      (hblock hreadable hdangles ih)

/-- An element with child elements is a line with a block. -/
theorem exists_block (h : w.Mixed e) (hclean : w.complaint? Xml.Element.attr? e = none)
    (hchildren : e.hasChildren = true) :
    ∃ text, w.items e.node = [.block text (e.children.flatMap fun c => w.items c.node)] := by
  obtain ⟨role, hrole, hmay, hwrites⟩ : ∃ role, w.role? e = some role ∧
      role.mayOpenBlock = true ∧ role.writesLine = true := by
    cases h with
    | call hrole => exact ⟨_, hrole, rfl, rfl⟩
    | condition hrole => exact ⟨_, hrole, rfl, rfl⟩
  obtain ⟨-, hstates⟩ := states_of_role hrole hclean
  cases hsaid : w.said? Xml.Element.attr? e with
  | none =>
    have hsome := hstates.isSome_eq
    rw [hsaid, hwrites] at hsome
    cases hsome
  | some s =>
    refine ⟨w.textOf s, ?_⟩
    rw [items_of_block hsaid (opensBlock_of_role hrole hmay hchildren), itemsAll_eq,
      Xml.Element.children]

end Mixed

/-- An `if` without child elements cannot be run if nothing follows it. -/
theorem parts?_of_isBare (hbare : w.isBare e = true)
    (hclean : w.complaint? Xml.Element.attr? e = none) :
    Script.parts? (w.items e.node) = none := by
  obtain ⟨text, test, hitems, htext, -⟩ := exists_items_of_isBare hbare hclean
  rw [hitems, Script.Realises.parts?_leaf rfl]
  simp [Script.attach, htext]

/-- If a block ends with an `if` without child elements, the lines cannot be run. -/
theorem Dangles.fails (h : w.Dangles e) : ∀ {around : List Xml.Element}, w.Mixed e →
    Script.ReadableIn w around e → Fails (w.items e.node) := by
  induction h with
  | @last e c hlast hbare =>
    intro around hmixed hreadable
    obtain ⟨before, hchildren⟩ := List.getLast?_eq_some_iff.mp hlast
    obtain ⟨text, hitems⟩ := hmixed.exists_block hreadable.self.clean
      (by simp [Xml.Element.hasChildren, hchildren])
    have hc := hreadable.child (c := c) (by simp [hchildren])
    rw [hitems]
    refine Script.fails_block ?_
    rw [hchildren, List.flatMap_append, List.flatMap_singleton]
    exact Script.parts?_append_of_none _ (parts?_of_isBare hbare hc.self.clean)
  | @inside e c hc _ ih =>
    intro around hmixed hreadable
    obtain ⟨before, after, hchildren⟩ := List.append_of_mem hc
    obtain ⟨text, hitems⟩ := hmixed.exists_block hreadable.self.clean
      (by simp [Xml.Element.hasChildren, hchildren])
    rw [hitems]
    refine Script.fails_block ?_
    rw [hchildren, List.flatMap_append, List.flatMap_cons]
    exact Script.parts?_append_of_none _ (ih (hmixed.children c hc) (hreadable.child hc) _)

end Writer

end GroovyViews
