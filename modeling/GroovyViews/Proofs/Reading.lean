import GroovyViews.Text
import Mathlib.Data.List.DropRight
import Mathlib.Data.List.TakeWhile

/-!
# Reading a Groovy view line by line

A reader of the lines alone finds the blocks of a view: a line that ends in an opening brace begins
a block, and a line with nothing but a closing brace ends the innermost one. All other lines, and
those that begin a block, are heads.
-/

namespace GroovyViews.Layout

/-- The lines of a text: what ends in a line feed, and what is left after the last one. -/
def lines : List Char → List (List Char)
  | [] => []
  | c :: cs =>
    if c = '\n' then [] :: lines cs
    else
      match lines cs with
      | [] => [[c]]
      | line :: rest => (c :: line) :: rest

/-- The white space at the beginning of a line. -/
def margin (line : List Char) : List Char := line.takeWhile Text.isBlank

/-- The line ends in an opening brace, apart from white space. -/
def opens (line : List Char) : Bool := (Text.trimChars line).getLast? = some '\x7b'

/-- The line is a closing brace, apart from white space. -/
def closes (line : List Char) : Bool := Text.trimChars line = ['\x7d']

/-- A line that is not a closing brace. -/
structure Head where
  /-- The line. -/
  line : List Char
  /-- The number of blocks that are open before it. -/
  height : Nat
  deriving DecidableEq

/-- What a reader knows. -/
structure State where
  /-- The margins of the lines whose blocks are open, the innermost first. -/
  stack : List (List Char)
  /-- The heads so far. -/
  heads : List Head
  deriving DecidableEq

/-- Reads a line. A closing brace needs an open block that began at the same margin. -/
def step (s : State) (line : List Char) : Option State :=
  if closes line then
    match s.stack with
    | [] => none
    | top :: rest => if top = margin line then some ⟨rest, s.heads⟩ else none
  else
    some ⟨if opens line then margin line :: s.stack else s.stack,
      s.heads ++ [⟨line, s.stack.length⟩]⟩

/-- Reads a text from its first line on. -/
def read (text : String) : Option State := (lines text.toList).foldlM step ⟨[], []⟩

/-- A line ends at the first line feed. -/
theorem lines_append {line : List Char} (h : '\n' ∉ line) (rest : List Char) :
    lines (line ++ '\n' :: rest) = line :: lines rest := by
  induction line with
  | nil => simp [lines]
  | cons c line ih =>
    have hc : c ≠ '\n' := by
      rintro rfl
      simp at h
    have hline : '\n' ∉ line := fun hmem => h (by simp [hmem])
    simp [lines, hc, ih hline]

/-- The last character that is not white space. -/
def lastInk? (line : List Char) : Option Char := line.reverse.find? fun c => !Text.isBlank c

/-- The last character of a line that is not white space stands in its second part unless that is
blank. -/
theorem lastInk?_append (a b : List Char) :
    lastInk? (a ++ b) = (lastInk? b).or (lastInk? a) := by
  simp [lastInk?, List.find?_append]

/-- A trimmed line ends with its last character that is not white space. -/
theorem getLast?_trimChars (line : List Char) :
    (Text.trimChars line).getLast? = lastInk? line := by
  have hmargin : lastInk? (line.takeWhile Text.isBlank) = none := by
    simp only [lastInk?, List.find?_eq_none, List.mem_reverse, Bool.not_eq_true', Bool.not_eq_false]
    intro c hc
    exact List.mem_takeWhile_imp hc
  calc (Text.trimChars line).getLast?
      = ((line.dropWhile Text.isBlank).reverse.dropWhile Text.isBlank).head? := by
        simp [Text.trimChars]
    _ = lastInk? (line.dropWhile Text.isBlank) := by
        rw [lastInk?, List.find?_not_eq_head?_dropWhile]
    _ = lastInk? (line.takeWhile Text.isBlank ++ line.dropWhile Text.isBlank) := by
        rw [lastInk?_append, hmargin, Option.or_none]
    _ = lastInk? line := by rw [List.takeWhile_append_dropWhile]

variable {blanks rest : List Char} {c : Char}

/-- The margin of a line ends at the first character that is not white space. -/
theorem margin_append (hblanks : ∀ b ∈ blanks, Text.isBlank b = true)
    (hc : Text.isBlank c = false) : margin (blanks ++ c :: rest) = blanks := by
  rw [margin, List.takeWhile_append_of_pos hblanks, List.takeWhile_cons_of_neg (by simp [hc]),
    List.append_nil]

/-- Dropping from the front of a list goes no further than to an element that stays. -/
theorem dropWhile_append_cons {p : Char → Bool} (hc : p c = false) (before : List Char) :
    (before ++ c :: rest).dropWhile p = before.dropWhile p ++ c :: rest := by
  rw [List.dropWhile_append]
  split
  case isTrue hempty =>
    rw [List.isEmpty_iff.mp hempty, List.dropWhile_cons_of_neg (by simp [hc]), List.nil_append]
  case isFalse => rfl

/-- Dropping from the end of a list goes no further than to an element that stays. -/
theorem rdropWhile_append_cons {p : Char → Bool} (hc : p c = false) (before : List Char) :
    (before ++ c :: rest).rdropWhile p = before ++ c :: rest.rdropWhile p := by
  rw [List.rdropWhile, List.reverse_append, List.reverse_cons, List.append_assoc,
    List.singleton_append, dropWhile_append_cons hc]
  simp [List.rdropWhile]

/-- A line trimmed at both ends keeps its first character that is not white space and what stands
between that and its last one. -/
theorem trimChars_append_cons (before : List Char) (hc : Text.isBlank c = false) :
    Text.trimChars (before ++ c :: rest) =
      before.dropWhile Text.isBlank ++ c :: rest.rdropWhile Text.isBlank := by
  rw [Text.trimChars, dropWhile_append_cons hc]
  exact rdropWhile_append_cons hc _

/-- A line with a character that is neither white space nor a closing brace does not close. -/
theorem closes_eq_false {line : List Char} (hmem : c ∈ line) (hc : Text.isBlank c = false)
    (hbrace : c ≠ '\x7d') : closes line = false := by
  obtain ⟨before, rest, rfl⟩ := List.append_of_mem hmem
  rw [closes, trimChars_append_cons before hc, decide_eq_false_iff_not]
  intro heq
  have hmem : c ∈ ['\x7d'] := heq ▸ by simp
  exact hbrace (List.mem_singleton.mp hmem)

end GroovyViews.Layout
