import GroovyViews.Proofs.Layout
import GroovyViews.Proofs.Script

/-!
# The items of a written view

Reading back the lines that an element has written gives one item for each element that writes a
line, with the items of its content in its block if it opens one and after it if not. The items of
an element that writes no line are those of its content. All this follows the tree alone; the lines
have lost nothing of it but the elements that write none.
-/

namespace GroovyViews

open Script (Item)
open Xml (Site Visit)

namespace Writer

/-- The statement that an element says in a role, if it says one and has what it takes. -/
def statementIn (w : Writer) (look : Lookup) (e : Xml.Element) : Role → Option Groovy.Statement
  | .call qualifier tag => (w.arguments e).toOption.map (.call qualifier tag)
  | .control .ifTag | .control .when => (look e "test").map fun v => .condition (.ofValue v)
  | .control .otherwise => some .alternative
  | .control .invokeStatic => do
    some (.definition (← look e "var") (← look e "className") (← look e "method"))
  | .control .choose | .control (.other _) => none

/-- The statement that an element says, if it says one. -/
def said? (w : Writer) (look : Lookup) (e : Xml.Element) : Option Groovy.Statement :=
  (w.role? e).bind (w.statementIn look e)

/-- The text of a statement without white space at its end. -/
def textOf (w : Writer) (s : Groovy.Statement) : String :=
  String.ofList ((s.head w.options.escaping).toList.rdropWhile Text.isBlank)

variable {w : Writer} {e : Xml.Element}

/-- The statement that an element says in its role is the one that it says. -/
theorem States.eq_statementIn {role : Role} {s : Option Groovy.Statement}
    (h : w.States e role s) : s = w.statementIn Xml.Element.attr? e role := by
  cases h with
  | call hargs => simp [statementIn, hargs, Except.toOption]
  | condition htag htest => rcases htag with rfl | rfl <;> simp [statementIn, htest]
  | otherwise | choose | other => rfl
  | invokeStatic hvar hclass hmethod => simp [statementIn, hvar, hclass, hmethod]

/-- What an element says is what it says in its role. -/
theorem States.said?_eq {role : Role} {s : Option Groovy.Statement}
    (hrole : Role.ofName w.prefixes e.name = .ok role) (h : w.States e role s) :
    w.said? Xml.Element.attr? e = s := by
  simp [said?, role?, hrole, Except.toOption, h.eq_statementIn]

/-- An element with nothing wrong says in its role what it says. -/
theorem states_of_role {role : Role} (hrole : w.role? e = some role)
    (hclean : w.complaint? Xml.Element.attr? e = none) :
    Role.ofName w.prefixes e.name = .ok role ∧ w.States e role (w.said? Xml.Element.attr? e) := by
  obtain ⟨role', s, -, hname, hs, -⟩ := opening_of_clean 0 hclean
  obtain rfl : role' = role := by simpa [role?, hname, Except.toOption] using hrole
  rw [hs.said?_eq hname]
  exact ⟨hname, hs⟩

mutual

/-- The items of a node. -/
def items (w : Writer) : Xml.Node → List Item
  | .element tag content =>
    match w.said? Xml.Element.attr? ⟨tag, content⟩ with
    | none => w.itemsAll content
    | some s =>
      if w.opensBlock ⟨tag, content⟩ then [.block (w.textOf s) (w.itemsAll content)]
      else .leaf (w.textOf s) :: w.itemsAll content
  | .text _ | .comment _ | .instruction _ _ => []

/-- The items of several nodes. -/
def itemsAll (w : Writer) : List Xml.Node → List Item
  | [] => []
  | n :: rest => w.items n ++ w.itemsAll rest

end

end Writer

namespace Script

open Groovy (Statement)
open Layout (blanks)

variable {w : Writer} {e : Xml.Element}

/-- An element that can be written and whose line can be read. -/
structure Readable (w : Writer) (e : Xml.Element) : Prop where
  /-- Nothing is wrong with the element. -/
  clean : w.complaint? Xml.Element.attr? e = none
  /-- The element is written on one line. -/
  tidy : e.Tidy
  /-- If it names a method, that does not end in an opening brace. -/
  method : w.role? e = some (.control .invokeStatic) → e.methodOpens = false

/-- A text that a reader finds on its line: it can be told from the margin and from a closing brace,
and it does not end in an opening one. -/
structure IsText (text : String) : Prop where
  /-- It does not begin with a blank. -/
  first : Text.Begins (· ≠ ' ') text
  /-- It is not just a closing brace. -/
  ink : ∃ c ∈ text.toList, Text.isBlank c = false ∧ c ≠ '\x7d'
  /-- It does not end in an opening brace. -/
  last : Layout.lastInk? text.toList ≠ some '\x7b'
  /-- It is on a single line. -/
  oneLine : Text.OneLine text

/-- A name does not begin with a blank. -/
theorem beginsText_of_isName {name : String} (h : Xml.isName name = true) :
    Text.Begins (· ≠ ' ') name := by
  refine Xml.begins_of_isName h fun c _ hstart => ?_
  rintro rfl
  exact absurd hstart (by decide)

/-- A reader finds what a readable element says on its line. -/
theorem isText_head {role : Role} {s : Statement}
    (hrole : Role.ofName w.prefixes e.name = .ok role) (hs : w.States e role (some s))
    (htable : ∀ b ∈ w.prefixes.entries, b.isTidy = true) (hreadable : Readable w e) :
    IsText (s.head w.options.escaping) where
  first := by
    cases hs with
    | @call qualifier tag arguments hargs =>
      obtain ⟨rfl, -⟩ := Layout.ofName_eq_call hrole
      refine Statement.begins_head_call (fun hempty => ?_)
        (beginsText_of_isName hreadable.tidy.tag) _ _
      have hname : Xml.isName qualifier = true := by
        simpa [Xml.Binding.isTidy, hempty] using Layout.isTidy_qualifier hrole htable
      exact beginsText_of_isName hname
    | condition | otherwise | invokeStatic => simp [Text.Begins, Statement.head]
  ink := by
    have hparen : Text.isBlank '(' = false ∧ '(' ≠ '\x7d' := by decide
    have hletter : Text.isBlank 'e' = false ∧ 'e' ≠ '\x7d' := by decide
    cases hs with
    | call | condition => exact ⟨'(', by simp [Statement.head], hparen⟩
    | otherwise | invokeStatic => exact ⟨'e', by simp [Statement.head], hletter⟩
  last := Layout.lastInk?_head hs fun h => hreadable.method (by
    simp [Writer.role?, hrole, Except.toOption, h])
  oneLine := Layout.oneLine_head hrole hs htable hreadable.tidy

/-- A reader finds the text of a statement on its line. -/
theorem textOf_line {s : Statement} {escaping : Escaping} (block : Bool)
    (h : IsText (s.head escaping)) (n : Nat) :
    textOf (blanks n ++ (s.line escaping block).toList) =
      String.ofList ((s.head escaping).toList.rdropWhile Text.isBlank) := by
  obtain ⟨c, rest, hfirst, hc⟩ := h.first
  have hmargin : (blanks n ++ (s.line escaping block).toList).dropWhile (· = ' ') =
      (s.head escaping).toList ++ (s.lineEnd block).toList := by
    rw [List.dropWhile_append_of_pos (by simp [blanks]), Statement.line, String.toList_append,
      hfirst, List.cons_append, List.dropWhile_cons_of_neg (by simp [hc])]
  rw [textOf, hmargin, Layout.opens_blanks_append (Layout.lastInk?_line block h.last)]
  cases block with
  | true =>
    have hend : (s.lineEnd true).toList = [' '] ++ ['\x7b'] := by
      simp [Statement.lineEnd]
    rw [hend, ← List.append_assoc, List.rdropWhile_concat_neg _ _ _ (by decide), if_pos rfl,
      List.dropLast_concat, List.rdropWhile_concat_pos _ _ _ (by decide)]
  | false =>
    have hend : (s.lineEnd false).toList = [' '] ∨ (s.lineEnd false).toList = [] := by
      cases s <;> simp [Statement.lineEnd]
    rcases hend with hend | hend
    · rw [hend, List.rdropWhile_concat_pos _ _ _ (by decide)]
      rfl
    · rw [hend, List.append_nil]
      rfl

/-- Reading the line of a statement begins a block or adds a leaf. -/
theorem step_line {s : Statement} {block : Bool} (h : IsText (s.head w.options.escaping)) (n : Nat)
    (state : State) :
    step state (blanks n ++ (s.line w.options.escaping block).toList) =
      some (if block then ⟨(w.textOf s, state.items) :: state.pending, []⟩
        else ⟨state.pending, state.items ++ [.leaf (w.textOf s)]⟩) := by
  obtain ⟨c, hmem, hc, hbrace⟩ := h.ink
  have hcloses : Layout.closes (blanks n ++ (s.line w.options.escaping block).toList) = false :=
    Layout.closes_eq_false (by simp [Statement.line, hmem]) hc hbrace
  rw [step, hcloses, Layout.opens_blanks_append (Layout.lastInk?_line block h.last),
    textOf_line block h]
  cases block <;> rfl

/-- Reading a closing brace makes an item of the innermost block. -/
theorem step_brace (n : Nat) (text : String) (before items : List Item)
    (pending : List (String × List Item)) :
    step ⟨(text, before) :: pending, items⟩ (blanks n ++ ['\x7d']) =
      some ⟨pending, before ++ [.block text items]⟩ := by
  rw [step, Layout.closes_brace]
  rfl

/-- What entering a readable element writes is nothing, if it says nothing, or else the line of what
it says. -/
theorem visitText_enter_cases (indent : Nat)
    (htable : ∀ b ∈ w.prefixes.entries, b.isTidy = true) (site : Site)
    (hsite : Readable w site.element) :
    (w.said? Xml.Element.attr? site.element = none ∧ w.opensBlock site.element = false ∧
      w.visitText indent (.enter site) = "") ∨
    ∃ s, w.said? Xml.Element.attr? site.element = some s ∧
      IsText (s.head w.options.escaping) ∧
      w.visitText indent (.enter site) = (Step.line (indent + site.depth)
        (s.line w.options.escaping (w.opensBlock site.element))).text := by
  obtain ⟨role, st, hrole, hst, hcases⟩ := Writer.exists_states indent hsite.clean
  rw [hst.said?_eq hrole]
  rcases hcases with ⟨hnone, -, hopens, htext⟩ | ⟨s, rfl, -, htext⟩
  · exact .inl ⟨hnone, hopens, htext⟩
  · exact .inr ⟨s, rfl, isText_head hrole hst htable hsite, htext⟩

/-- A reader of what the visits write finds the items and has the same blocks open as before,
whatever comes next. -/
def ReadsItems (w : Writer) (indent : Nat) (visits : List Visit) (found : List Item) : Prop :=
  ∀ (pending : List (String × List Item)) (items : List Item) (rest : List Char),
    (Layout.lines ((visits.flatMap fun v => (w.visitText indent v).toList) ++ rest)).foldlM step
        ⟨pending, items⟩ =
      (Layout.lines rest).foldlM step ⟨pending, items ++ found⟩

/-- Without visits the reader finds no item. -/
theorem ReadsItems.nil (w : Writer) (indent : Nat) : ReadsItems w indent [] [] := by
  intro pending items rest
  simp

/-- The items of visits that follow others are found after theirs. -/
theorem ReadsItems.append {indent : Nat} {first second : List Visit} {found found' : List Item}
    (hfirst : ReadsItems w indent first found) (hsecond : ReadsItems w indent second found') :
    ReadsItems w indent (first ++ second) (found ++ found') := by
  intro pending items rest
  rw [List.flatMap_append, List.append_assoc, hfirst, hsecond, List.append_assoc]

/-- A reader who comes to an element, goes through its content and leaves it finds the item of the
element. -/
theorem readsItems_element (indent : Nat)
    (htable : ∀ b ∈ w.prefixes.entries, b.isTidy = true) {tag : Xml.StartTag}
    {content : List Xml.Node} {around : List Xml.Element} {visits : List Visit}
    (hsite : Readable w ⟨tag, content⟩)
    (hcontent : ReadsItems w indent visits (w.itemsAll content)) :
    ReadsItems w indent
      (.enter ⟨around, ⟨tag, content⟩⟩ :: (visits ++ [.leave ⟨around, ⟨tag, content⟩⟩]))
      (w.items (.element tag content)) := by
  intro pending items rest
  have hbrace : "\x7d".toList = ['\x7d'] := by decide
  rw [List.flatMap_cons, List.flatMap_append, List.flatMap_singleton, List.append_assoc,
    List.append_assoc, Writer.items]
  rcases visitText_enter_cases indent htable ⟨around, ⟨tag, content⟩⟩ hsite with
    ⟨hsaid, hopens, htext⟩ | ⟨s, hsaid, hline, htext⟩
  · have hleave : w.visitText indent (.leave ⟨around, ⟨tag, content⟩⟩) = "" := by
      simp [Writer.visitText, Writer.visit, hopens, Emission.text]
    rw [htext, hsaid, hleave]
    simpa using hcontent pending items rest
  · rw [htext, hsaid, Layout.lines_line (Layout.oneLine_line _ hline.oneLine), List.foldlM_cons,
      step_line hline]
    dsimp only
    cases hopens : w.opensBlock ⟨tag, content⟩ with
    | false =>
      have hleave : w.visitText indent (.leave ⟨around, ⟨tag, content⟩⟩) = "" := by
        simp [Writer.visitText, Writer.visit, hopens, Emission.text]
      have hleaf := hcontent pending (items ++ [.leaf (w.textOf s)]) rest
      rw [List.append_assoc] at hleaf
      rw [hleave]
      simpa using hleaf
    | true =>
      have hleave : w.visitText indent (.leave ⟨around, ⟨tag, content⟩⟩) =
          (Step.line (indent + around.length) "\x7d").text := by
        simp [Writer.visitText, Writer.visit, hopens, Emission.text, Emission.line, Site.depth]
      rw [hleave]
      change (Layout.lines (_ ++ _)).foldlM step ⟨(_, items) :: pending, []⟩ = _
      rw [hcontent, Layout.lines_line (by decide), List.foldlM_cons, hbrace, step_brace]
      rfl

mutual

/-- A reader of what a node has written finds the items of the node. -/
theorem readsItems_visits (indent : Nat) (htable : ∀ b ∈ w.prefixes.entries, b.isTidy = true)
    (around : List Xml.Element) : ∀ n : Xml.Node,
    (∀ s, .enter s ∈ n.visits around → Readable w s.element) →
    ReadsItems w indent (n.visits around) (w.items n)
  | .element tag content, hreadable => by
    have hcontent := readsItems_visitsAll indent htable (⟨tag, content⟩ :: around) content
      fun s hs => hreadable s (by simp [Xml.Node.visits, hs])
    exact readsItems_element indent htable
      (hreadable ⟨around, ⟨tag, content⟩⟩ (by simp [Xml.Node.visits])) hcontent
  | .text _, _ | .comment _, _ | .instruction _ _, _ => .nil w indent

/-- A reader of what several nodes have written finds the items of the nodes. -/
theorem readsItems_visitsAll (indent : Nat) (htable : ∀ b ∈ w.prefixes.entries, b.isTidy = true)
    (around : List Xml.Element) : ∀ nodes : List Xml.Node,
    (∀ s, .enter s ∈ Xml.Node.visitsAll around nodes → Readable w s.element) →
    ReadsItems w indent (Xml.Node.visitsAll around nodes) (w.itemsAll nodes)
  | [], _ => .nil w indent
  | n :: rest, hreadable => by
    have hfirst := readsItems_visits indent htable around n fun s hs =>
      hreadable s (by simp [Xml.Node.visitsAll, hs])
    have hrest := readsItems_visitsAll indent htable around rest fun s hs =>
      hreadable s (by simp [Xml.Node.visitsAll, hs])
    exact hfirst.append hrest

end

/-- An element all of whose elements are readable is written in full, and the items of the text are
those of the element. -/
theorem items?_element (n : Nat) {e : Xml.Element}
    (htable : ∀ b ∈ w.prefixes.entries, b.isTidy = true)
    (hreadable : ∀ s ∈ e.sites, Readable w s.element) :
    (w.element n e).outcome = .ok () ∧
      items? (Emission.text (w.element n e)) = some (w.items e.node) := by
  obtain ⟨hok, htext⟩ := Writer.element_of_clean n fun s hs => (hreadable s hs).clean
  have hreads := readsItems_visits n htable [] e.node
    (fun s hs => hreadable s (Xml.Element.mem_sites.mpr hs)) [] [] []
  refine ⟨hok, ?_⟩
  rw [htext, items?, String.toList_join, List.flatMap_map]
  have hlines : Layout.lines [] = [] := rfl
  rw [List.append_nil, hlines] at hreads
  simp [Xml.Element.visits, hreads]

end Script

end GroovyViews
