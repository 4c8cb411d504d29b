import GroovyViews.Proofs.Reading

/-!
# Running a Groovy view

A view is run in three steps. A reader of the lines finds the blocks and gives a tree of items. The
items become commands: an `if` guards its block, or the single command after it if it has none, and
an `else` belongs to the `if` right before it. The commands are then carried out, given which tests
hold, and leave a record of calls and bindings, with all that is done inside of a call.
-/

namespace GroovyViews.Script

/-- A line together with what stands in the block that it begins, if it begins one. -/
inductive Item where
  /-- A line without a block. -/
  | leaf (text : String)
  /-- A line that begins a block. -/
  | block (text : String) (body : List Item)

/-- The text of a line without its margin, without the brace that opens a block and without the
white space before that and at the end. -/
def textOf (line : List Char) : String :=
  let text := (line.dropWhile (· = ' ')).rdropWhile Text.isBlank
  String.ofList (if Layout.opens line then text.dropLast.rdropWhile Text.isBlank else text)

/-- What a reader knows. -/
structure State where
  /-- The lines whose blocks are open, the innermost first, each with the items before it. -/
  pending : List (String × List Item)
  /-- The items so far in the innermost block. -/
  items : List Item

/-- Reads a line. A closing brace needs an open block. -/
def step (s : State) (line : List Char) : Option State :=
  if Layout.closes line then
    match s.pending with
    | [] => none
    | (text, before) :: rest => some ⟨rest, before ++ [.block text s.items]⟩
  else if Layout.opens line then some ⟨(textOf line, s.items) :: s.pending, []⟩
  else some ⟨s.pending, s.items ++ [.leaf (textOf line)]⟩

/-- The items of a text, all of whose blocks have to be closed. -/
def items? (text : String) : Option (List Item) := do
  let s ← (Layout.lines text.toList).foldlM step ⟨[], []⟩
  if s.pending.isEmpty then some s.items else none

/-- A command. -/
inductive Command where
  /-- A call with what is done inside of it. -/
  | call (text : String) (body : List Command)
  /-- A variable that gets a value. -/
  | binding (text : String)
  /-- A condition, with what is done if its test holds and what is done if not. -/
  | condition (test : String) (yes no : List Command)

/-- The part that a line plays by the way it begins. -/
inductive Phrase where
  /-- A condition. -/
  | condition (test : String)
  /-- The alternative to a condition. -/
  | alternative
  /-- A variable that gets a value. -/
  | binding
  /-- A call. -/
  | call
  deriving DecidableEq

/-- The part that a text plays, by the word before its first parenthesis. The test of a condition is
all that stands between that parenthesis and the last one. -/
def Phrase.ofText (text : String) : Phrase :=
  let word := text.toList.takeWhile (· ≠ '(')
  if word = ['i', 'f'] then .condition (String.ofList (text.toList.drop 3).dropLast)
  else if word = ['e', 'l', 's', 'e'] then .alternative
  else if ['d', 'e', 'f', ' '].isPrefixOf word then .binding
  else .call

/-- A command, or an alternative for which the condition has not been found yet. -/
inductive Part where
  /-- A command. -/
  | command (c : Command)
  /-- An alternative. -/
  | alternative (no : List Command)

/-- The command, if it is one. -/
def Part.command? : Part → Option Command
  | command c => some c
  | alternative _ => none

/-- Puts a line and the commands of its block, if it has one, before the parts that follow it. A
condition takes the alternative that follows it. Without a block, a condition or an alternative
takes the command that follows it in place of one. -/
def attach (text : String) (block : Option (List Command)) (parts : List Part) :
    Option (List Part) :=
  match Phrase.ofText text with
  | .call => some (.command (.call text (block.getD [])) :: parts)
  | .binding => if block.isNone then some (.command (.binding text) :: parts) else none
  | .condition test =>
    match block, parts with
    | some yes, .alternative no :: rest => some (.command (.condition test yes no) :: rest)
    | some yes, _ => some (.command (.condition test yes []) :: parts)
    | none, .command c :: .alternative no :: rest =>
      some (.command (.condition test [c] no) :: rest)
    | none, .command c :: rest => some (.command (.condition test [c] []) :: rest)
    | none, _ => none
  | .alternative =>
    match block, parts with
    | some no, _ => some (.alternative no :: parts)
    | none, .command c :: rest => some (.alternative [c] :: rest)
    | none, _ => none

mutual

/-- An item, with the commands of its block, before the parts that follow it. -/
def before? (parts : List Part) : Item → Option (List Part)
  | .leaf text => attach text none parts
  | .block text body => do
    let commands ← (← parts? body).mapM Part.command?
    attach text (some commands) parts

/-- The parts of items, put together from the last one on. -/
def parts? : List Item → Option (List Part)
  | [] => some []
  | item :: rest => do before? (← parts? rest) item

end

/-- The commands of items, where no alternative may be left over. -/
def commands? (items : List Item) : Option (List Command) := do
  (← parts? items).mapM Part.command?

/-- Something that was done. -/
inductive Deed where
  /-- A call with what was done inside of it. -/
  | call (text : String) (body : List Deed)
  /-- A variable got a value. -/
  | binding (text : String)

namespace Deed

mutual

/-- Deeds can be compared. -/
def decEq : (a b : Deed) → Decidable (a = b)
  | call s as, call t bs =>
    match decEqAll as bs with
    | isTrue h => if hst : s = t then isTrue (by rw [hst, h]) else isFalse (by simp [hst])
    | isFalse h => isFalse (by simp [h])
  | binding s, binding t => if hst : s = t then isTrue (by rw [hst]) else isFalse (by simp [hst])
  | call _ _, binding _ | binding _, call _ _ => isFalse nofun

/-- Records of deeds can be compared. -/
def decEqAll : (as bs : List Deed) → Decidable (as = bs)
  | [], [] => isTrue rfl
  | a :: as, b :: bs =>
    match decEq a b, decEqAll as bs with
    | isTrue h, isTrue hs => isTrue (by rw [h, hs])
    | isFalse h, _ => isFalse (by simp [h])
    | _, isFalse hs => isFalse (by simp [hs])
  | [], _ :: _ | _ :: _, [] => isFalse nofun

end

instance : DecidableEq Deed := decEq

end Deed

namespace Command

mutual

/-- What a command does, given which tests hold. -/
def run (holds : String → Bool) : Command → List Deed
  | call text body => [.call text (runAll holds body)]
  | binding text => [.binding text]
  | condition test yes no => if holds test then runAll holds yes else runAll holds no

/-- What several commands do, one after the other. -/
def runAll (holds : String → Bool) : List Command → List Deed
  | [] => []
  | c :: rest => run holds c ++ runAll holds rest

end

end Command

/-- What the lines of a text do, given which tests hold. -/
def perform (holds : String → Bool) (text : String) : Option (List Deed) := do
  return Command.runAll holds (← commands? (← items? text))

/-- Commands that follow others run after them. -/
@[simp] theorem Command.runAll_append (holds : String → Bool) (first second : List Command) :
    Command.runAll holds (first ++ second) =
      Command.runAll holds first ++ Command.runAll holds second := by
  induction first with
  | nil => rfl
  | cons c first ih => simp [Command.runAll, ih]

/-- Parts that are all commands leave no alternative over. -/
theorem mapM_command? (commands : List Command) :
    (commands.map Part.command).mapM Part.command? = some commands := by
  induction commands with
  | nil => rfl
  | cons c commands ih => simp [Part.command?, ih]

/-- The parts do not begin with an alternative that a condition before them would take. -/
def Settled : List Part → Prop
  | .alternative _ :: _ => False
  | _ => True

/-- Parts that begin with commands are settled if what follows these is. -/
theorem Settled.map_append {parts : List Part} (h : Settled parts) (commands : List Command) :
    Settled (commands.map Part.command ++ parts) := by
  cases commands with
  | nil => exact h
  | cons c commands => trivial

/-- The items become commands that do what is meant, whatever comes after them, unless that is an
alternative. -/
def Realises (items : List Item) (meaning : (String → Bool) → List Deed) : Prop :=
  ∃ commands : List Command,
    (∀ rest parts, parts? rest = some parts → Settled parts →
      parts? (items ++ rest) = some (commands.map Part.command ++ parts)) ∧
    ∀ holds, Command.runAll holds commands = meaning holds

namespace Realises

variable {items body other : List Item} {text : String}
  {meaning first second : (String → Bool) → List Deed}

/-- No items do nothing. -/
theorem nil : Realises [] fun _ => [] :=
  ⟨[], fun _ _ hparts _ => hparts, fun _ => rfl⟩

/-- What is meant may be said in another way. -/
theorem congr (h : Realises items first) (heq : ∀ holds, first holds = second holds) :
    Realises items second := by
  obtain ⟨commands, hcommands, hrun⟩ := h
  exact ⟨commands, hcommands, fun holds => (hrun holds).trans (heq holds)⟩

/-- Items one after the other do one after the other what they mean. -/
theorem append (hfirst : Realises items first) (hsecond : Realises other second) :
    Realises (items ++ other) fun holds => first holds ++ second holds := by
  obtain ⟨commands, hcommands, hrun⟩ := hfirst
  obtain ⟨commands', hcommands', hrun'⟩ := hsecond
  refine ⟨commands ++ commands', ?_, ?_⟩
  · intro rest parts hparts hsettled
    have hrest := hcommands' rest parts hparts hsettled
    rw [List.append_assoc, hcommands _ _ hrest (hsettled.map_append commands')]
    simp
  · intro holds
    rw [Command.runAll_append, hrun, hrun']

/-- Items that are all there is become the commands. -/
theorem exists_commands? (h : Realises items meaning) :
    ∃ commands, commands? items = some commands ∧
      ∀ holds, Command.runAll holds commands = meaning holds := by
  obtain ⟨commands, hcommands, hrun⟩ := h
  have hparts := hcommands [] [] rfl trivial
  rw [List.append_nil, List.append_nil] at hparts
  exact ⟨commands, by rw [commands?, hparts]; exact mapM_command? commands, hrun⟩

/-- A block is put with its line before the parts that follow. -/
theorem parts?_block (h : Realises body meaning) :
    ∃ commands, (∀ holds, Command.runAll holds commands = meaning holds) ∧
      ∀ text rest parts, parts? rest = some parts →
        parts? (.block text body :: rest) = attach text (some commands) parts := by
  obtain ⟨commands, hcommands, hrun⟩ := h.exists_commands?
  refine ⟨commands, hrun, ?_⟩
  intro text rest parts hparts
  have hbody : (do (← parts? body).mapM Part.command?) = some commands := hcommands
  simp only [parts?, before?, hparts, Option.bind_eq_bind, Option.bind_some] at hbody ⊢
  rw [← Option.bind_assoc, hbody, Option.bind_some]

/-- A line without a block, put before the parts that follow. -/
theorem parts?_leaf {rest : List Item} {parts : List Part} (h : parts? rest = some parts) :
    parts? (.leaf text :: rest) = attach text none parts := by
  simp [parts?, before?, h]

/-- A call without a block. -/
theorem leaf_call (htext : Phrase.ofText text = .call) :
    Realises [.leaf text] fun _ => [.call text []] := by
  refine ⟨[.call text []], ?_, fun _ => rfl⟩
  intro rest parts hparts _
  simp [parts?_leaf hparts, attach, htext]

/-- A variable that gets a value. -/
theorem leaf_binding (htext : Phrase.ofText text = .binding) :
    Realises [.leaf text] fun _ => [.binding text] := by
  refine ⟨[.binding text], ?_, fun _ => rfl⟩
  intro rest parts hparts _
  simp [parts?_leaf hparts, attach, htext]

/-- A call does inside of it what its block means. -/
theorem block_call (htext : Phrase.ofText text = .call) (hbody : Realises body meaning) :
    Realises [.block text body] fun holds => [.call text (meaning holds)] := by
  obtain ⟨commands, hrun, hattach⟩ := hbody.parts?_block
  refine ⟨[.call text commands], ?_, fun holds => ?_⟩
  · intro rest parts hparts _
    rw [List.singleton_append, hattach text rest parts hparts, attach, htext]
    rfl
  · simp [Command.runAll, Command.run, hrun]

/-- A condition does what its block means if its test holds. -/
theorem condition {test : String} (htext : Phrase.ofText text = .condition test)
    (hbody : Realises body meaning) :
    Realises [.block text body] fun holds => if holds test then meaning holds else [] := by
  obtain ⟨commands, hrun, hattach⟩ := hbody.parts?_block
  refine ⟨[.condition test commands []], ?_, fun holds => ?_⟩
  · intro rest parts hparts hsettled
    rw [List.singleton_append, hattach text rest parts hparts, attach, htext]
    cases parts with
    | nil => rfl
    | cons part parts =>
      cases part with
      | command c => rfl
      | alternative no => exact hsettled.elim
  · simp [Command.runAll, Command.run, hrun]

/-- A condition and the alternative right after it do what the one or the other block means. -/
theorem condition_alternative {test text' : String}
    (htext : Phrase.ofText text = .condition test) (htext' : Phrase.ofText text' = .alternative)
    (hbody : Realises body first) (hother : Realises other second) :
    Realises [.block text body, .block text' other]
      fun holds => if holds test then first holds else second holds := by
  obtain ⟨yes, hyes, hattach⟩ := hbody.parts?_block
  obtain ⟨no, hno, hattach'⟩ := hother.parts?_block
  refine ⟨[.condition test yes no], ?_, fun holds => ?_⟩
  · intro rest parts hparts _
    have hrest : parts? (.block text' other :: rest) = some (.alternative no :: parts) := by
      rw [hattach' text' rest parts hparts, attach, htext']
    rw [List.cons_append, List.singleton_append, hattach text _ _ hrest, attach, htext]
    rfl
  · simp [Command.runAll, Command.run, hyes, hno]

/-- A text does what its items mean. -/
theorem perform_eq (h : Realises items meaning) (hitems : items? text = some items)
    (holds : String → Bool) : perform holds text = some (meaning holds) := by
  obtain ⟨commands, hcommands, hrun⟩ := h.exists_commands?
  simp [perform, hitems, hcommands, hrun]

end Realises

end GroovyViews.Script
