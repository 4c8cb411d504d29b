import GroovyViews.Proofs.Heads

/-!
# The layout of a Groovy view

A reader of the lines finds in them the blocks that the walk through the tree has opened and closed.
Indentation and nesting are not the same: every element deepens the indentation of what is in it,
but only some open a block. The margin of a head therefore tells how many elements are around it,
and the height of the reader's stack tells how many of these have opened a block.
-/

namespace GroovyViews.Layout

open Xml (Site Visit)

variable {w : Writer}

/-- The margin of a line with an indentation. -/
def blanks (indent : Nat) : List Char := List.replicate (2 * indent) ' '

/-- The margins of the blocks that are open inside of some elements. -/
def stackOf (w : Writer) (indent : Nat) : List Xml.Element → List (List Char)
  | [] => []
  | e :: around =>
    if w.opensBlock e then blanks (indent + around.length) :: stackOf w indent around
    else stackOf w indent around

/-- The head of an element that writes a line. -/
def headOf (w : Writer) (indent : Nat) (s : Site) : Head :=
  ⟨(w.visitText indent (.enter s)).toList.dropLast, s.around.countP w.opensBlock⟩

/-- There are as many blocks open as elements around have opened one. -/
theorem length_stackOf (w : Writer) (indent : Nat) (around : List Xml.Element) :
    (stackOf w indent around).length = around.countP w.opensBlock := by
  induction around with
  | nil => rfl
  | cons e around ih => by_cases h : w.opensBlock e <;> simp [stackOf, h, ih]

/-- A margin is white space. -/
theorem isBlank_of_mem_blanks {n : Nat} : ∀ b ∈ blanks n, Text.isBlank b = true := by
  intro b hb
  rw [List.eq_of_mem_replicate hb]
  decide

/-- What a step writes on one line is read as one line. -/
theorem lines_line {body : String} (h : Text.OneLine body) (n : Nat) (rest : List Char) :
    lines ((Step.line n body).text.toList ++ rest) = (blanks n ++ body.toList) :: lines rest := by
  have hfeed : '\n' ∉ blanks n ++ body.toList := by
    rw [List.mem_append, not_or]
    refine ⟨fun hmem => ?_, h⟩
    exact absurd (List.eq_of_mem_replicate hmem) (by decide)
  simpa [Step.text, Step.indentation, blanks] using lines_append hfeed rest

/-- A line begins a block if the last character of its text that is not white space is a brace. -/
theorem opens_blanks_append {block : Bool} {body : List Char}
    (h : lastInk? body = some '\x7b' ↔ block = true) (n : Nat) :
    opens (blanks n ++ body) = block := by
  have hmargin : lastInk? (blanks n) = none := by
    simpa [lastInk?] using isBlank_of_mem_blanks
  rw [opens, getLast?_trimChars, lastInk?_append, hmargin, Option.or_none, decide_eq_decide.mpr h]
  exact Bool.decide_coe block

/-- The margin of a head is what stands before its text, and it begins a block as its text says. -/
theorem margin_and_opens_head {block : Bool} {body : String} (h : IsHead block body) (n : Nat) :
    margin (blanks n ++ body.toList) = blanks n ∧ opens (blanks n ++ body.toList) = block := by
  obtain ⟨c, rest, hbody, hc, -⟩ := h.first
  refine ⟨?_, opens_blanks_append h.last n⟩
  rw [hbody, margin_append isBlank_of_mem_blanks hc]

/-- A head does not close a block. -/
theorem closes_head {block : Bool} {body : String} (h : IsHead block body) {n : Nat} :
    closes (blanks n ++ body.toList) = false := by
  obtain ⟨c, rest, hbody, hc, hbrace⟩ := h.first
  exact closes_eq_false (by simp [hbody]) hc hbrace

/-- A closing brace closes a block. -/
theorem closes_brace {n : Nat} : closes (blanks n ++ ['\x7d']) = true := by
  have hdrop : (blanks n).dropWhile Text.isBlank = [] := by
    simpa using isBlank_of_mem_blanks (n := n)
  rw [closes, trimChars_append_cons _ (by decide), hdrop]
  rfl

/-- Reading a head records it and puts its margin on the stack if it begins a block. -/
theorem step_head {block : Bool} {body : String} (h : IsHead block body) (n : Nat) (s : State) :
    step s (blanks n ++ body.toList) =
      some ⟨if block then blanks n :: s.stack else s.stack,
        s.heads ++ [⟨blanks n ++ body.toList, s.stack.length⟩]⟩ := by
  obtain ⟨hmargin, hopens⟩ := margin_and_opens_head h n
  simp [step, closes_head h, hmargin, hopens]

/-- Reading a closing brace takes the innermost block off the stack if it has the same margin. -/
theorem step_brace (n : Nat) (stack : List (List Char)) (heads : List Head) :
    step ⟨blanks n :: stack, heads⟩ (blanks n ++ ['\x7d']) = some ⟨stack, heads⟩ := by
  rw [step, closes_brace, margin_append isBlank_of_mem_blanks (by decide)]
  simp

/-- A site whose element can be written and whose line can be read. -/
structure PlainSite (w : Writer) (s : Site) : Prop where
  /-- Nothing is wrong with the element. -/
  clean : w.complaint? Xml.Element.attr? s.element = none
  /-- The element is plain. -/
  plain : s.element.Plain

/-- What entering a plain element writes is nothing, if it writes no line, or else a head that
begins a block if the element opens one. -/
theorem visitText_cases (indent : Nat) (htable : ∀ b ∈ w.prefixes.entries, b.isPlain = true)
    {s : Site} (hs : PlainSite w s) :
    (w.writesLine s.element = false ∧ w.opensBlock s.element = false ∧
      w.visitText indent (.enter s) = "") ∨
    ∃ body, w.writesLine s.element = true ∧ IsHead (w.opensBlock s.element) body ∧
      w.visitText indent (.enter s) = (Step.line (indent + s.depth) body).text := by
  obtain ⟨role, st, hrole, hst, hcases⟩ := Writer.exists_states indent hs.clean
  rcases hcases with ⟨-, hsilent⟩ | ⟨statement, rfl, hline, htext⟩
  · exact .inl hsilent
  · exact .inr ⟨_, hline, isHead_of_states hrole hst htable hs.plain, htext⟩

/-- The head of an element is its margin and its text. -/
theorem headOf_eq {indent : Nat} {s : Site} {body : String}
    (h : w.visitText indent (.enter s) = (Step.line (indent + s.depth) body).text) :
    headOf w indent s =
      ⟨blanks (indent + s.depth) ++ body.toList, s.around.countP w.opensBlock⟩ := by
  rw [headOf, h]
  simp [Step.text, Step.indentation, blanks]

/-- The heads that visits write. -/
def headsOf (w : Writer) (indent : Nat) (visits : List Visit) : List Head :=
  ((visits.filterMap Visit.entered?).filter fun s => w.writesLine s.element).map (headOf w indent)

/-- A reader who is inside of the elements `before` and reads what the visits write meets their
heads and is then inside of the elements `after`, whatever comes next. -/
def ReadsAs (w : Writer) (indent : Nat) (visits : List Visit) (before after : List Xml.Element) :
    Prop :=
  ∀ (heads : List Head) (rest : List Char),
    (lines ((visits.flatMap fun v => (w.visitText indent v).toList) ++ rest)).foldlM step
        ⟨stackOf w indent before, heads⟩ =
      (lines rest).foldlM step ⟨stackOf w indent after, heads ++ headsOf w indent visits⟩

/-- Without visits the reader stays where it is. -/
theorem ReadsAs.nil (indent : Nat) (around : List Xml.Element) :
    ReadsAs w indent [] around around := by
  intro heads rest
  simp [headsOf]

/-- Visits one after the other are read one after the other. -/
theorem ReadsAs.append {indent : Nat} {first second : List Visit}
    {before between after : List Xml.Element} (hfirst : ReadsAs w indent first before between)
    (hsecond : ReadsAs w indent second between after) :
    ReadsAs w indent (first ++ second) before after := by
  intro heads rest
  rw [List.flatMap_append, List.append_assoc, hfirst, hsecond]
  simp [headsOf]

/-- Entering an element gives its head and puts the margin of its block on the stack. -/
theorem readsAs_enter (indent : Nat) (htable : ∀ b ∈ w.prefixes.entries, b.isPlain = true)
    {s : Site} (hs : PlainSite w s) :
    ReadsAs w indent [.enter s] s.around (s.element :: s.around) := by
  intro heads rest
  rw [List.flatMap_singleton]
  rcases visitText_cases indent htable hs with ⟨hline, hopens, htext⟩ | ⟨body, hline, hhead, htext⟩
  · simp [htext, headsOf, stackOf, hopens, hline]
  · rw [htext, lines_line hhead.oneLine, List.foldlM_cons, step_head hhead]
    simp [headsOf, hline, headOf_eq htext, length_stackOf, stackOf, Site.depth]

/-- Leaving an element takes the margin of its block off the stack. -/
theorem readsAs_leave (w : Writer) (indent : Nat) (s : Site) :
    ReadsAs w indent [.leave s] (s.element :: s.around) s.around := by
  intro heads rest
  have hheads : headsOf w indent [.leave s] = [] := rfl
  rw [List.flatMap_singleton, hheads, List.append_nil]
  cases hopens : w.opensBlock s.element with
  | false =>
    have htext : w.visitText indent (.leave s) = "" := by
      simp [Writer.visitText, Writer.visit, hopens, Emission.text]
    simp [htext, stackOf, hopens]
  | true =>
    have htext : w.visitText indent (.leave s) = (Step.line (indent + s.depth) "\x7d").text := by
      simp [Writer.visitText, Writer.visit, hopens, Emission.text, Emission.line]
    have hbrace : "\x7d".toList = ['\x7d'] := by decide
    rw [htext, lines_line (by decide), List.foldlM_cons, stackOf, if_pos hopens, hbrace, Site.depth,
      step_brace]
    rfl

mutual

/-- A reader comes out of a node with the stack that it had before. -/
theorem readsAs_visits (indent : Nat) (htable : ∀ b ∈ w.prefixes.entries, b.isPlain = true)
    (around : List Xml.Element) : ∀ n : Xml.Node,
    (∀ s, .enter s ∈ n.visits around → PlainSite w s) →
    ReadsAs w indent (n.visits around) around around
  | .element tag content, hsites => by
    have hcontent := readsAs_visitsAll indent htable (⟨tag, content⟩ :: around) content fun s hs =>
      hsites s (by simp [Xml.Node.visits, hs])
    have henter := readsAs_enter indent htable
      (hsites ⟨around, ⟨tag, content⟩⟩ (by simp [Xml.Node.visits]))
    have hleave := readsAs_leave w indent ⟨around, ⟨tag, content⟩⟩
    exact henter.append (hcontent.append hleave)
  | .text _, _ | .comment _, _ | .instruction _ _, _ => .nil indent around

/-- A reader comes out of several nodes with the stack that it had before. -/
theorem readsAs_visitsAll (indent : Nat) (htable : ∀ b ∈ w.prefixes.entries, b.isPlain = true)
    (around : List Xml.Element) : ∀ nodes : List Xml.Node,
    (∀ s, .enter s ∈ Xml.Node.visitsAll around nodes → PlainSite w s) →
    ReadsAs w indent (Xml.Node.visitsAll around nodes) around around
  | [], _ => .nil indent around
  | n :: rest, hsites => by
    have hfirst := readsAs_visits indent htable around n fun s hs =>
      hsites s (by simp [Xml.Node.visitsAll, hs])
    have hrest := readsAs_visitsAll indent htable around rest fun s hs =>
      hsites s (by simp [Xml.Node.visitsAll, hs])
    exact hfirst.append hrest

end

/-- **The layout of a view.** If an element is written in full to a sink without limits, and nothing
in it can be mistaken for a line end or a brace at the end of a line, then a reader of the lines
never meets a closing brace without an open block of the same margin and comes out with no block
open. The heads that it meets are one for each element that writes a line, in document order. The
margin of a head is two blanks for each element around it, whether that writes a line or not, beside
those at the start; the height of the stack at a head is the number of elements around it that open
a block; and a head begins a block exactly if its element does. -/
theorem read_written (w : Writer) (n : Nat) (e : Xml.Element)
    (hok : (Sink.unlimited.run (w.element n e)).outcome = .ok ())
    (htable : ∀ b ∈ w.prefixes.entries, b.isPlain = true)
    (hplain : ∀ s ∈ e.sites, s.element.Plain) :
    ∃ out heads, (Sink.unlimited.run (w.element n e)).sink.stored = Text.bytes out ∧
      read out = some ⟨[], heads⟩ ∧
      heads.map (fun h =>
          (String.ofList (h.line ++ ['\n']), margin h.line, opens h.line, h.height)) =
        (e.sites.filter fun s => w.writesLine s.element).map fun s =>
          (Emission.text (w.opening (n + s.depth) s.element),
            List.replicate (2 * (n + s.depth)) ' ', w.opensBlock s.element,
            s.around.countP w.opensBlock) := by
  rw [Sink.run_unlimited] at hok ⊢
  have hclean := Writer.clean_of_element_ok hok
  have hsites : ∀ s ∈ e.sites, PlainSite w s := fun s hs => ⟨hclean s hs, hplain s hs⟩
  refine ⟨Emission.text (w.element n e), headsOf w n e.visits, rfl, ?_, ?_⟩
  · have hread := readsAs_visits n htable [] e.node
      (fun s hs => hsites s (Xml.Element.mem_sites.mpr hs)) [] []
    rw [(Writer.element_of_clean n hclean).2, read, String.toList_join, List.flatMap_map]
    simpa [lines, stackOf, Xml.Element.visits] using hread
  · rw [headsOf, List.map_map]
    apply List.map_congr_left
    intro s hs
    obtain ⟨hmem, hline⟩ := List.mem_filter.mp hs
    rcases visitText_cases n htable (hsites s hmem) with ⟨hnone, -, -⟩ | ⟨body, -, hhead, htext⟩
    · simp [hline] at hnone
    · obtain ⟨hmargin, hopens⟩ := margin_and_opens_head hhead (n + s.depth)
      simp only [Function.comp_apply, headOf_eq htext, hmargin, hopens, ← Writer.visitText_enter,
        htext]
      simp [Step.text, Step.indentation, blanks, String.append_assoc]

/-- A tag for the tree below. -/
private def tag (uri : Option String) (localName : String) (attributes : List (String × String)) :
    Xml.StartTag :=
  ⟨⟨uri, localName⟩, attributes.map fun (n, v) => ⟨⟨none, n⟩, v⟩, [],
    [⟨"j", controlUri⟩, ⟨"l", "/lib/layout"⟩], ⟨1, 1⟩⟩

/-- A page in which elements that open a block, elements that write a line without one and elements
that write nothing at all are around each other. -/
private def page : Xml.Element :=
  ⟨tag (some "/lib/layout") "layout" [("title", "$\x7btitle\x7d")],
    [.element (tag (some controlUri) "choose" [])
      [.element (tag (some controlUri) "when" [("test", "$\x7ba\x7d")])
        [.element (tag none "b" []) [.text "\x7d"]],
       .element (tag (some controlUri) "otherwise" []) [.element (tag none "i" []) []]],
     .element (tag (some controlUri) "invokeStatic"
        [("var", "v"), ("className", "C"), ("method", "m")])
      [.element (tag none "p" [("class", "\x7b")]) []],
     .element (tag (some controlUri) "set" []) [.element (tag none "q" []) []]]⟩

/-- A writer for the page. -/
private def pageWriter : Writer := ⟨⟨[⟨"l", "/lib/layout"⟩]⟩, .default⟩

/-- In the page, written from the indentation of one level on, the margins follow the depths and the
heights of the stack follow the blocks. -/
theorem read_written_page :
    ∃ out heads, (Sink.unlimited.run (pageWriter.element 1 page)).sink.stored = Text.bytes out ∧
      read out = some ⟨[], heads⟩ ∧
      heads.map (fun h => ((margin h.line).length, opens h.line, h.height)) =
        [(2, true, 0), (6, true, 1), (8, false, 2), (6, true, 1), (8, false, 2), (4, false, 1),
          (6, false, 1), (6, false, 1)] := by
  obtain ⟨out, heads, hstored, hread, hheads⟩ :=
    read_written pageWriter 1 page rfl (by decide) (by decide +kernel)
  refine ⟨out, heads, hstored, hread, ?_⟩
  have hshape := congrArg (List.map fun h => (h.2.1.length, h.2.2)) hheads
  rw [List.map_map, List.map_map] at hshape
  exact hshape.trans (by decide +kernel)

end GroovyViews.Layout
