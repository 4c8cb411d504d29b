import GroovyViews.CommandLine
import Mathlib.Tactic.SplitIfs

/-!
# What arguments ask for

Up to a double hyphen flags and paths may stand in any order, behind it there are only paths. What
has been said after some flags and paths depends on how often each flag is among them and on the
paths alone, and so does whether they are refused.
-/

namespace GroovyViews

/-- All options are those for some flags. -/
theorem Options.exists_flags (options : Options) :
    ∃ strict escape, options = .ofFlags strict escape := by
  obtain ⟨unknownTags, escaping⟩ := options
  cases unknownTags <;> cases escaping
  · exact ⟨false, false, rfl⟩
  · exact ⟨false, true, rfl⟩
  · exact ⟨true, false, rfl⟩
  · exact ⟨true, true, rfl⟩

namespace Arguments

/-- The argument is one of the two flags. -/
def isFlag (arg : String) : Bool := arg == "--strict" || arg == "--escape-strings"

/-- The argument is a path even where flags may stand: it is not a hyphen with something behind
it. -/
def isPath (arg : String) : Bool :=
  match arg.toList with
  | '-' :: _ :: _ => false
  | _ => true

/-- The arguments name an input and an output and set the flags. In front of a double hyphen, if
there is one, each flag stands as often as it is set, once or not at all, and all else there and
behind it are the two paths. -/
def Asks (args : List String) (input output : String) (strict escape : Bool) : Prop :=
  ∃ front rest, (args = front ∧ rest = [] ∨ args = front ++ "--" :: rest) ∧
    (∀ arg ∈ front, isFlag arg ∨ isPath arg) ∧
    front.count "--strict" = strict.toNat ∧ front.count "--escape-strings" = escape.toNat ∧
    front.filter isPath ++ rest = [input, output] ∧ input ≠ "" ∧ output ≠ ""

/-- What the arguments have said after some more flags and paths. -/
def add (a : Arguments) (args : List String) : Arguments :=
  ⟨a.strict || args.contains "--strict", a.escape || args.contains "--escape-strings",
    a.paths ++ args.filter isPath⟩

/-- Some more flags and paths are not refused: no flag is given twice, and there are at most two
paths, none of them empty. -/
def Admits (a : Arguments) (args : List String) : Prop :=
  a.strict.toNat + args.count "--strict" ≤ 1 ∧ a.escape.toNat + args.count "--escape-strings" ≤ 1 ∧
    (args.filter isPath = [] ∨ a.paths.length + (args.filter isPath).length ≤ 2) ∧ "" ∉ args

instance (a : Arguments) (args : List String) : Decidable (a.Admits args) :=
  inferInstanceAs (Decidable (_ ∧ _ ∧ _ ∧ _))

variable {a : Arguments} {arg input output : String} {args front rest : List String}

/-- A path is none of the arguments that begin with two hyphens. -/
theorem ne_of_isPath (h : isPath arg = true) :
    arg ≠ "--" ∧ arg ≠ "--strict" ∧ arg ≠ "--escape-strings" ∧ arg ≠ "--help" ∧
      arg ≠ "--version" := by
  refine ⟨?_, ?_, ?_, ?_, ?_⟩ <;> rintro rfl <;> revert h <;> decide

/-- Reading a path adds it. -/
theorem readOne_of_isPath (h : isPath arg = true) (a : Arguments) :
    a.readOne arg = match a.addPath? arg with
      | some a => .more a
      | none => .decided .misuse := by
  obtain ⟨hhyphens, hstrict, hescape, hhelp, hversion⟩ := ne_of_isPath h
  rw [readOne, if_neg hhyphens, if_neg hstrict, if_neg hescape, if_neg hhelp, if_neg hversion]
  unfold isPath at h
  split
  · simp_all
  · simp_all
  · simp_all
  · rfl

/-- A flag or a path is refused or adds to what has been said. -/
theorem readOne_of_plain (h : isFlag arg ∨ isPath arg) (a : Arguments) :
    a.readOne arg = if a.Admits [arg] then .more (a.add [arg]) else .decided .misuse := by
  by_cases hpath : isPath arg = true
  · obtain ⟨-, hstrict, hescape, -, -⟩ := ne_of_isPath hpath
    have hadmits : a.Admits [arg] ↔ arg ≠ "" ∧ a.paths.length < 2 := by
      have hstrict' := a.strict.toNat_le
      have hescape' := a.escape.toNat_le
      rw [Admits, List.count_cons_of_ne hstrict, List.count_cons_of_ne hescape,
        List.filter_cons_of_pos hpath]
      simp only [List.count_nil, List.filter_nil, List.length_singleton, List.mem_singleton]
      grind
    have hadd : a.add [arg] = { a with paths := a.paths ++ [arg] } := by
      simp [add, hpath, hstrict.symm, hescape.symm]
    rw [readOne_of_isPath hpath, hadd, addPath?]
    by_cases hfits : arg ≠ "" ∧ a.paths.length < 2
    · rw [if_pos (hadmits.mpr hfits), if_neg (by simpa using hfits)]
    · have hrefused : (arg.isEmpty || decide (a.paths.length ≥ 2)) = true := by
        rw [Bool.or_eq_true, String.isEmpty_iff, decide_eq_true_iff]
        grind
      rw [if_neg (mt hadmits.mp hfits), if_pos hrefused]
  · rw [or_iff_left hpath, isFlag, Bool.or_eq_true, beq_iff_eq, beq_iff_eq] at h
    have hword : List.filter isPath [arg] = [] := by simp [hpath]
    have hne : "" ∉ [arg] := by obtain rfl | rfl := h <;> decide
    obtain ⟨strict, escape, paths⟩ := a
    obtain rfl | rfl := h
    · cases strict <;> cases escape <;> simp [readOne, Admits, add, hword]
    · cases strict <;> cases escape <;> simp [readOne, Admits, add, hword]

/-- An argument that is neither a flag nor a path, nor a double hyphen, decides, and never for a
conversion. -/
theorem readOne_of_not_plain (hflag : isFlag arg = false) (hpath : isPath arg = false)
    (hhyphens : arg ≠ "--") (a : Arguments) :
    ∃ i, a.readOne arg = .decided i ∧
      ∀ input output options, i ≠ .convert input output options := by
  have hflags : arg ≠ "--strict" ∧ arg ≠ "--escape-strings" := by simpa [isFlag] using hflag
  rw [readOne, if_neg hhyphens, if_neg hflags.1, if_neg hflags.2]
  unfold isPath at hpath
  split_ifs
  · exact ⟨.help, rfl, by simp⟩
  · exact ⟨.version, rfl, by simp⟩
  · split at hpath
    · split
      · exact ⟨.help, rfl, by simp⟩
      · exact ⟨.version, rfl, by simp⟩
      · exact ⟨.misuse, rfl, by simp⟩
      · simp_all
    · cases hpath

/-- Only a double hyphen lets nothing but paths follow. -/
theorem readOne_ne_pathsOnly (h : arg ≠ "--") (a : Arguments) : a.readOne arg ≠ .pathsOnly := by
  by_cases hplain : isFlag arg ∨ isPath arg
  · rw [readOne_of_plain hplain]
    split_ifs <;> simp
  · simp only [not_or, Bool.not_eq_true] at hplain
    obtain ⟨i, hi, -⟩ := readOne_of_not_plain hplain.1 hplain.2 h a
    simp [hi]

/-- A flag is given at most once if it is so by the first argument and, after it, by the others. -/
theorem count_flag_cons (given : Bool) (flag arg : String) (args : List String) :
    given.toNat + (arg :: args).count flag ≤ 1 ↔ given.toNat + [arg].count flag ≤ 1 ∧
      (given || [arg].contains flag).toNat + args.count flag ≤ 1 := by
  by_cases h : arg = flag
  · subst h
    have hone : [arg].count arg = 1 := by simp
    have hcontains : [arg].contains arg = true := by simp
    rw [List.count_cons_self, hone, hcontains, Bool.or_true, Bool.toNat_true]
    omega
  · have hzero : [arg].count flag = 0 := by simp [List.count_cons_of_ne h]
    have hcontains : [arg].contains flag = false := by simp [Ne.symm h]
    have hgiven := given.toNat_le
    rw [List.count_cons_of_ne h, hzero, hcontains, Bool.or_false]
    omega

/-- Several flags and paths are admitted if the first is and, after it, the others are. -/
theorem admits_cons : a.Admits (arg :: args) ↔ a.Admits [arg] ∧ (a.add [arg]).Admits args := by
  have hpaths : ((arg :: args).filter isPath = [] ∨
      a.paths.length + ((arg :: args).filter isPath).length ≤ 2) ↔
      ([arg].filter isPath = [] ∨ a.paths.length + ([arg].filter isPath).length ≤ 2) ∧
      (args.filter isPath = [] ∨
        (a.paths ++ [arg].filter isPath).length + (args.filter isPath).length ≤ 2) := by
    by_cases h : isPath arg = true
    · cases hrest : args.filter isPath with
      | nil => simp [h, hrest]
      | cons path paths =>
        rw [List.filter_cons_of_pos h, List.filter_cons_of_pos h, hrest]
        simp only [reduceCtorEq, false_or, List.filter_nil, List.length_append, List.length_cons,
          List.length_nil]
        omega
    · simp [h]
  simp only [Admits, add]
  rw [count_flag_cons a.strict, count_flag_cons a.escape, hpaths]
  simp only [List.mem_cons, List.not_mem_nil, or_false, not_or]
  constructor
  · rintro ⟨⟨hstrict, hstrict'⟩, ⟨hescape, hescape'⟩, ⟨hpath, hpath'⟩, hempty, hempty'⟩
    exact ⟨⟨hstrict, hescape, hpath, hempty⟩, hstrict', hescape', hpath', hempty'⟩
  · rintro ⟨⟨hstrict, hescape, hpath, hempty⟩, hstrict', hescape', hpath', hempty'⟩
    exact ⟨⟨hstrict, hstrict'⟩, ⟨hescape, hescape'⟩, ⟨hpath, hpath'⟩, hempty, hempty'⟩

/-- Arguments are added one after the other. -/
theorem add_cons (a : Arguments) (arg : String) (args : List String) :
    a.add (arg :: args) = (a.add [arg]).add args := by
  have happend : (arg :: args).filter isPath = [arg].filter isPath ++ args.filter isPath := by
    rw [← List.filter_append, List.singleton_append]
  simp [add, happend, Bool.or_assoc]

/-- Flags and paths are refused or add to what has been said. -/
theorem readAll_append (h : ∀ arg ∈ front, isFlag arg ∨ isPath arg) (a : Arguments) :
    a.readAll (front ++ rest) = if a.Admits front then (a.add front).readAll rest else .misuse := by
  induction front generalizing a with
  | nil =>
    have hadmits : a.Admits [] := by simp [Admits, Bool.toNat_le]
    have hadd : a.add [] = a := by simp [add]
    rw [if_pos hadmits, hadd, List.nil_append]
  | cons arg front ih =>
    rw [List.cons_append, readAll, readOne_of_plain (h arg (by simp))]
    by_cases hfirst : a.Admits [arg]
    · rw [if_pos hfirst]
      dsimp only
      rw [ih fun other hother => h other (by simp [hother]), add_cons a arg front]
      simp only [admits_cons, hfirst, true_and]
    · rw [if_neg hfirst, if_neg fun hall => hfirst (admits_cons.mp hall).1]

/-- Arguments behind others that are no double hyphen count only by how they are read. -/
theorem readAll_append_congr (hfront : "--" ∉ front)
    (h : ∀ a : Arguments, a.readAll args = a.readAll rest) (a : Arguments) :
    a.readAll (front ++ args) = a.readAll (front ++ rest) := by
  induction front generalizing a with
  | nil => exact h a
  | cons arg front ih =>
    rw [List.mem_cons, not_or] at hfront
    rw [List.cons_append, List.cons_append, readAll, readAll]
    cases hone : a.readOne arg with
    | more a => exact ih hfront.2 a
    | decided i => rfl
    | pathsOnly => exact absurd hone (readOne_ne_pathsOnly (Ne.symm hfront.1) a)

/-- Flags may stand anywhere among paths. -/
theorem readAll_of_perm {words moved : List String} (h : ∀ arg ∈ words, isFlag arg ∨ isPath arg)
    (hperm : words.Perm moved) (hpaths : words.filter isPath = moved.filter isPath)
    (rest : List String) (a : Arguments) :
    a.readAll (words ++ rest) = a.readAll (moved ++ rest) := by
  have hadmits : a.Admits words ↔ a.Admits moved := by
    simp only [Admits, hperm.count_eq, hpaths, hperm.mem_iff]
  have hadd : a.add words = a.add moved := by
    have hcontains : ∀ flag, words.contains flag = moved.contains flag := by
      intro flag
      rw [Bool.eq_iff_iff, List.contains_iff_mem, List.contains_iff_mem, hperm.mem_iff]
    rw [add, add, hcontains, hcontains, hpaths]
  rw [readAll_append h, readAll_append fun arg harg => h arg (hperm.mem_iff.mpr harg), hadd]
  simp only [hadmits]

/-- Paths alone ask for a conversion if with those before there are two, and none is empty. -/
theorem readPaths_eq_convert_iff {o : Options} :
    a.readPaths rest = .convert input output o ↔
      a.paths ++ rest = [input, output] ∧ "" ∉ rest ∧ a.options = o := by
  induction rest generalizing a with
  | nil =>
    rw [readPaths, finish]
    split
    · simp_all [and_assoc]
    · rename_i hpaths
      simpa using fun h => absurd h (hpaths input output)
  | cons path rest ih =>
    rw [readPaths, addPath?]
    by_cases hrefused : path.isEmpty || a.paths.length ≥ 2
    · rw [if_pos hrefused]
      simp only [Bool.or_eq_true, String.isEmpty_iff, decide_eq_true_iff] at hrefused
      refine iff_of_false (by simp) ?_
      rintro ⟨hpaths, hnonempty, -⟩
      have hlength := congrArg List.length hpaths
      simp only [List.length_append, List.length_cons, List.length_nil] at hlength
      obtain rfl | hlong := hrefused
      · simp at hnonempty
      · omega
    · rw [if_neg hrefused]
      simp only [Bool.or_eq_true, String.isEmpty_iff, decide_eq_true_iff, not_or] at hrefused
      dsimp only
      rw [ih]
      simp [options, Ne.symm hrefused.1]

/-- A flag is given at most once and is set if it is given exactly if it is given as often as it is
set. -/
theorem count_eq_toNat_iff {flag : String} {given : Bool} :
    args.count flag = given.toNat ↔ args.count flag ≤ 1 ∧ args.contains flag = given := by
  have hpos : flag ∈ args ↔ 0 < args.count flag := List.count_pos_iff.symm
  cases given with
  | false =>
    rw [← Bool.not_eq_true, List.contains_iff_mem, hpos, Bool.toNat_false]
    omega
  | true =>
    rw [List.contains_iff_mem, hpos, Bool.toNat_true]
    omega

/-- The options tell which flags have been given. -/
theorem ofFlags_inj {strict escape strict' escape' : Bool} :
    Options.ofFlags strict escape = .ofFlags strict' escape' ↔
      strict = strict' ∧ escape = escape' := by
  cases strict <;> cases escape <;> cases strict' <;> cases escape' <;> simp [Options.ofFlags]

/-- Flags and paths, followed by a double hyphen and paths or by nothing, are read up to there and
then as paths. -/
theorem readAll_of_split (hsplit : args = front ∧ rest = [] ∨ args = front ++ "--" :: rest)
    (hfront : ∀ arg ∈ front, isFlag arg ∨ isPath arg) (a : Arguments) :
    a.readAll args = if a.Admits front then (a.add front).readPaths rest else .misuse := by
  obtain ⟨rfl, rfl⟩ | rfl := hsplit
  · rw [← List.append_nil args, readAll_append hfront, List.append_nil, readAll, readPaths]
  · rw [readAll_append hfront, readAll, readOne, if_pos rfl]

/-- Flags and paths, followed by a double hyphen and paths or by nothing, ask for a conversion if
they set the flags and name two paths. -/
theorem ofArguments_of_split (hsplit : args = front ∧ rest = [] ∨ args = front ++ "--" :: rest)
    (hfront : ∀ arg ∈ front, isFlag arg ∨ isPath arg) {strict escape : Bool} :
    Invocation.ofArguments args = .convert input output (.ofFlags strict escape) ↔
      front.count "--strict" = strict.toNat ∧ front.count "--escape-strings" = escape.toNat ∧
      front.filter isPath ++ rest = [input, output] ∧ input ≠ "" ∧ output ≠ "" := by
  have hread : (empty.add front).readPaths rest = .convert input output (.ofFlags strict escape) ↔
      front.filter isPath ++ rest = [input, output] ∧ "" ∉ rest ∧
        front.contains "--strict" = strict ∧ front.contains "--escape-strings" = escape := by
    rw [readPaths_eq_convert_iff, options, ofFlags_inj]
    simp [add, empty]
  have hempty : front.filter isPath ++ rest = [input, output] →
      (input ≠ "" ∧ output ≠ "" ↔ "" ∉ front ∧ "" ∉ rest) := by
    intro hpaths
    have hpath : isPath "" = true := by decide
    have hmem : "" ∈ front.filter isPath ++ rest ↔ "" = input ∨ "" = output := by simp [hpaths]
    rw [List.mem_append, List.mem_filter, and_iff_left hpath] at hmem
    grind
  have hadmits : front.filter isPath ++ rest = [input, output] →
      (empty.Admits front ↔ front.count "--strict" ≤ 1 ∧ front.count "--escape-strings" ≤ 1 ∧
        "" ∉ front) := by
    intro hpaths
    have hlength := congrArg List.length hpaths
    simp only [List.length_append, List.length_cons, List.length_nil] at hlength
    have hfew : (front.filter isPath).length ≤ 2 := by omega
    simp [Admits, empty, hfew]
  rw [Invocation.ofArguments, readAll_of_split hsplit hfront, count_eq_toNat_iff,
    count_eq_toNat_iff]
  split_ifs with hfits
  · rw [hread]
    grind
  · grind

/-- There are only flags and paths up to the first argument that is neither. -/
theorem exists_front (args : List String) : ∃ front, (∀ arg ∈ front, isFlag arg ∨ isPath arg) ∧
    (args = front ∨ ∃ arg rest, args = front ++ arg :: rest ∧ ¬(isFlag arg ∨ isPath arg)) := by
  induction args with
  | nil => exact ⟨[], by simp, .inl rfl⟩
  | cons arg args ih =>
    by_cases harg : isFlag arg ∨ isPath arg
    · obtain ⟨front, hfront, hsplit⟩ := ih
      refine ⟨arg :: front, by simpa using ⟨harg, hfront⟩, ?_⟩
      simpa using hsplit
    · exact ⟨[], by simp, .inr ⟨arg, args, rfl, harg⟩⟩

/-- The arguments ask for a conversion exactly if they name an input and an output and set the
flags for its options. -/
theorem ofArguments_eq_convert_iff {strict escape : Bool} :
    Invocation.ofArguments args = .convert input output (.ofFlags strict escape) ↔
      Asks args input output strict escape := by
  constructor
  · intro h
    obtain ⟨front, hfront, rfl | ⟨arg, rest, rfl, harg⟩⟩ := exists_front args
    · have hsplit : args = args ∧ ([] : List String) = [] := ⟨rfl, rfl⟩
      exact ⟨args, [], .inl hsplit, hfront, (ofArguments_of_split (.inl hsplit) hfront).mp h⟩
    by_cases hhyphens : arg = "--"
    · subst hhyphens
      exact ⟨front, rest, .inr rfl, hfront, (ofArguments_of_split (.inr rfl) hfront).mp h⟩
    · rw [not_or, Bool.not_eq_true, Bool.not_eq_true] at harg
      obtain ⟨i, hi, hne⟩ := readOne_of_not_plain harg.1 harg.2 hhyphens (empty.add front)
      rw [Invocation.ofArguments, readAll_append hfront, readAll, hi] at h
      split_ifs at h
      exact absurd h (hne _ _ _)
  · rintro ⟨front, rest, hsplit, hfront, hasks⟩
    exact (ofArguments_of_split hsplit hfront).mpr hasks

end Arguments

end GroovyViews
