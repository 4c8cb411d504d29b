import GroovyViews.Proofs.Saving
import Mathlib.Data.List.Infix

/-!
# How saving ends

Three things can be wrong at once when a view is saved: the directory for the new file, the view,
and the destination. They are met in this order, so the first of them decides how saving ends,
whatever the other two are like. The directory is that of the path without its last name.
-/

namespace GroovyViews

namespace Path

/-- The name stands for an entry of a directory. -/
structure IsOrdinary (name : String) : Prop where
  /-- There is something in it. -/
  nonempty : name ≠ ""
  /-- It does not stand for a directory by its position. -/
  notDots : isDots name = false
  /-- It is a single name. -/
  noSlash : '/' ∉ name.toList
  /-- The system can hold it. -/
  noNul : ∀ c ∈ name.toList, c.toNat ≠ 0

/-- The text is made of names with slashes between them, one or more at a time. -/
inductive Spells : String → List String → Prop where
  /-- There is no name in an empty text. -/
  | empty : Spells "" []
  /-- A name by itself. -/
  | last (name : String) : Spells name [name]
  /-- A name before other names. -/
  | cons {text : String} {names : List String} (name : String) (more : Nat) :
      Spells text names → names ≠ [] →
      Spells (name ++ String.ofList (List.replicate (more + 1) '/') ++ text) (name :: names)

/-- A name does not begin with a slash. -/
theorem IsOrdinary.head?_ne {name : String} (h : IsOrdinary name) : name.toList.head? ≠ some '/' :=
  fun hhead => h.noSlash (List.mem_of_head? hhead)

/-- A name does not end with a slash. -/
theorem IsOrdinary.getLast?_ne {name : String} (h : IsOrdinary name) :
    name.toList.getLast? ≠ some '/' :=
  fun hlast => h.noSlash (List.mem_of_getLast? hlast)

/-- A name is neither of the two that stand for a directory by its position. -/
theorem IsOrdinary.ne_dots {name : String} (h : IsOrdinary name) : name ≠ "." ∧ name ≠ ".." := by
  simpa [isDots] using h.notDots

/-- A text without slashes is one piece. -/
theorem splitAtSlashes_of_noSlash {word : List Char} (h : '/' ∉ word) :
    splitAtSlashes word = [word] := by
  induction word with
  | nil => rfl
  | cons c word ih =>
    obtain ⟨hc, hword⟩ := not_or.mp (mt List.mem_cons.mpr h)
    simp [splitAtSlashes, Ne.symm hc, ih hword]

/-- A slash ends the first piece. -/
theorem splitAtSlashes_append {word : List Char} (h : '/' ∉ word) (rest : List Char) :
    splitAtSlashes (word ++ '/' :: rest) = word :: splitAtSlashes rest := by
  induction word with
  | nil => simp [splitAtSlashes]
  | cons c word ih =>
    obtain ⟨hc, hword⟩ := not_or.mp (mt List.mem_cons.mpr h)
    simp [splitAtSlashes, Ne.symm hc, ih hword]

/-- Slashes at the beginning of a text are not part of any name. -/
theorem names_replicate_append (n : Nat) (text : String) :
    Path.names ⟨String.ofList (List.replicate n '/') ++ text⟩ = Path.names ⟨text⟩ := by
  induction n with
  | zero => simp
  | succ n ih =>
    rw [← ih]
    simp [names, pieces, List.replicate_succ, splitAtSlashes]

/-- A name with slashes behind it is the first name. -/
theorem names_cons {name : String} (h : IsOrdinary name) (more : Nat) (text : String) :
    Path.names ⟨name ++ String.ofList (List.replicate (more + 1) '/') ++ text⟩ =
      name :: Path.names ⟨text⟩ := by
  rw [← names_replicate_append more text]
  have hchars : (name ++ String.ofList (List.replicate (more + 1) '/') ++ text).toList =
      name.toList ++ '/' :: (String.ofList (List.replicate more '/') ++ text).toList := by
    simp [List.replicate_succ]
  simp [names, pieces, hchars, splitAtSlashes_append h.noSlash, h.nonempty]

namespace Spells

variable {text : String} {names : List String}

section

variable (h : Spells text names) (hordinary : ∀ name ∈ names, IsOrdinary name)

include h hordinary

/-- The names of a path are those that its text is made of. -/
theorem names_eq : Path.names ⟨text⟩ = names := by
  induction h with
  | empty => rfl
  | last name =>
    have hname := hordinary name (by simp)
    simp [Path.names, pieces, splitAtSlashes_of_noSlash hname.noSlash, hname.nonempty]
  | cons name more _ _ ih =>
    rw [names_cons (hordinary name (by simp)), ih fun n hn => hordinary n (by simp [hn])]

/-- The path does not begin with a slash. -/
theorem isAbsolute_eq : Path.isAbsolute ⟨text⟩ = false := by
  cases h with
  | empty => rfl
  | last => simpa [isAbsolute] using (hordinary text (by simp)).head?_ne
  | cons name more _ _ =>
    have hname := hordinary name (by simp)
    simpa [isAbsolute, hname.nonempty] using hname.head?_ne

/-- The path does not end with a slash. -/
theorem slashAtEnd_eq : Path.slashAtEnd ⟨text⟩ = false := by
  induction h with
  | empty => rfl
  | last name => simpa [slashAtEnd] using (hordinary name (by simp)).getLast?_ne
  | @cons text names name more h hne ih =>
    have hordinary : ∀ n ∈ names, IsOrdinary n := fun n hn => hordinary n (by simp [hn])
    have htext : text ≠ "" := by
      rintro rfl
      exact hne (h.names_eq hordinary).symm
    simpa [slashAtEnd, htext] using ih hordinary

/-- The system can hold the path. -/
theorem hasNul_eq : Path.hasNul ⟨text⟩ = false := by
  induction h with
  | empty => rfl
  | last name => simpa [hasNul] using (hordinary name (by simp)).noNul
  | cons name more _ _ ih =>
    have hname := hordinary name (by simp)
    have hrest := ih fun n hn => hordinary n (by simp [hn])
    have hslashes : ∀ c ∈ List.replicate (more + 1) '/', c.toNat ≠ 0 := by
      intro c hc
      rw [List.eq_of_mem_replicate hc]
      decide
    simp only [hasNul, List.any_eq_false, decide_eq_true_eq] at hrest ⊢
    intro c hc
    simp only [String.toList_append, String.toList_ofList, List.mem_append] at hc
    rcases hc with (hc | hc) | hc
    · exact hname.noNul c hc
    · exact hslashes c hc
    · exact hrest c hc

/-- The directory of the path has all its names but the last. -/
theorem directory_eq : Path.directory ⟨text⟩ = names.dropLast := by
  have hkept : names.filter (· ≠ ".") = names := by
    refine List.filter_eq_self.mpr fun name hname => ?_
    simpa using (hordinary name hname).ne_dots.1
  rw [Path.directory, h.names_eq hordinary, hkept]

end

end Spells

/-- The system takes the path of a new file in the directory of the path. -/
def TakesNewFile (p : Path) : Prop := p.directoryLength + Disk.stagedNameLength ≤ maxPathLength

/-- The system takes the path itself and all names in it. -/
def IsTaken (p : Path) : Prop := p.isTooLong = false ∧ ∀ name ∈ p.names, isLongName name = false

instance (p : Path) : Decidable p.TakesNewFile := inferInstanceAs (Decidable (_ ≤ _))

instance (p : Path) : Decidable p.IsTaken := inferInstanceAs (Decidable (_ ∧ _))

end Path

namespace Disk

variable {d : Disk}

/-- The directory that names lead to from the working directory is there and all directories on the
way to it are, under names that the system takes. -/
def HasDirectory (d : Disk) (names : List String) : Prop :=
  (∀ name ∈ names, Path.isLongName name = false) ∧
    ∀ part ∈ names.inits, d.isDirectory (d.home ++ part) = true

instance (d : Disk) (names : List String) : Decidable (d.HasDirectory names) :=
  inferInstanceAs (Decidable (_ ∧ _))

/-- A directory is there if the one around it is and it is there itself. -/
theorem hasDirectory_concat {names : List String} {name : String} :
    d.HasDirectory (names ++ [name]) ↔ d.HasDirectory names ∧ Path.isLongName name = false ∧
      d.isDirectory (d.home ++ (names ++ [name])) = true := by
  simp only [HasDirectory, List.mem_inits, List.prefix_concat_iff, List.mem_append,
    List.mem_singleton]
  constructor
  · rintro ⟨hnames, hparts⟩
    exact ⟨⟨fun n hn => hnames n (.inl hn), fun part hpart => hparts part (.inr hpart)⟩,
      hnames name (.inr rfl), hparts _ (.inl rfl)⟩
  · rintro ⟨⟨hnames, hparts⟩, hname, hlast⟩
    refine ⟨?_, ?_⟩
    · rintro n (hn | rfl)
      · exact hnames n hn
      · exact hname
    · rintro part (rfl | hpart)
      · exact hlast
      · exact hparts part hpart

/-- Names may be followed in two parts. -/
theorem enter_append (here : Place) (first second : List String) :
    d.enter here (first ++ second) = d.enter here first >>= fun there => d.enter there second := by
  induction first generalizing here with
  | nil => rfl
  | cons name first ih =>
    simp only [List.cons_append, enter]
    split
    · exact ih here
    split
    · exact ih here.dropLast
    split
    · rfl
    cases d.get? (here ++ [name]) with
    | none => rfl
    | some entry =>
      cases entry with
      | directory _ => exact ih (here ++ [name])
      | file _ _ => rfl

/-- An ordinary name leads into the directory with that name if there is one that the system takes,
and else nowhere. -/
theorem enter_singleton_cases (d : Disk) {name : String} (hname : Path.IsOrdinary name)
    (here : Place) :
    ((Path.isLongName name = false ∧ d.isDirectory (here ++ [name]) = true) ∧
        d.enter here [name] = .ok (here ++ [name])) ∨
      (¬(Path.isLongName name = false ∧ d.isDirectory (here ++ [name]) = true) ∧
        ∃ err, d.enter here [name] = .error err) := by
  obtain ⟨hdot, hdots⟩ := hname.ne_dots
  cases hlong : Path.isLongName name with
  | true => exact .inr ⟨by simp, .nameTooLong, by simp [enter, hdot, hdots, hlong]⟩
  | false =>
    cases hentry : d.get? (here ++ [name]) with
    | none =>
      exact .inr ⟨by simp [isDirectory_iff, hentry], .notFound,
        by simp [enter, hdot, hdots, hlong, hentry]⟩
    | some entry =>
      cases entry with
      | directory _ =>
        exact .inl ⟨⟨rfl, isDirectory_iff.mpr ⟨_, hentry⟩⟩,
          by simp [enter, hdot, hdots, hlong, hentry]⟩
      | file _ _ =>
        exact .inr ⟨by simp [isDirectory_iff, hentry], .notADirectory,
          by simp [enter, hdot, hdots, hlong, hentry]⟩

/-- Ordinary names lead from the working directory to the directory with these names if it is there,
and else nowhere. -/
theorem enter_cases {names : List String} (hordinary : ∀ name ∈ names, Path.IsOrdinary name) :
    (d.HasDirectory names ∧ d.enter d.home names = .ok (d.home ++ names)) ∨
      (¬d.HasDirectory names ∧ ∃ err, d.enter d.home names = .error err) := by
  -- The names are followed from the first one on, so what the last one does comes after the others.
  induction names using List.reverseRecOn with
  | nil =>
    refine .inl ⟨?_, by simp [enter]⟩
    simp [HasDirectory, isDirectory_iff, get?_of_standing]
  | append_singleton names name ih =>
    rw [hasDirectory_concat, enter_append, ← List.append_assoc]
    rcases ih fun n hn => hordinary n (by simp [hn]) with ⟨hdir, henter⟩ | ⟨hdir, err, henter⟩
    · rw [henter]
      rcases d.enter_singleton_cases (hordinary name (by simp)) (d.home ++ names) with
        ⟨hthere, hlast⟩ | ⟨hthere, err, hlast⟩
      · exact .inl ⟨⟨hdir, hthere⟩, hlast⟩
      · exact .inr ⟨fun h => hthere h.2, err, hlast⟩
    · exact .inr ⟨fun h => hdir h.1, err, by rw [henter]; rfl⟩

/-- Ordinary names lead to the directory with these names if it is there. -/
theorem enter_of_hasDirectory {names : List String}
    (hordinary : ∀ name ∈ names, Path.IsOrdinary name) (hdir : d.HasDirectory names) :
    d.enter d.home names = .ok (d.home ++ names) := by
  rcases d.enter_cases hordinary with ⟨-, henter⟩ | ⟨hnone, -⟩
  · exact henter
  · exact absurd hdir hnone

section Destination

variable {path : String} {names : List String} (hspells : Path.Spells path names)
  (hordinary : ∀ name ∈ names, Path.IsOrdinary name)

include hspells hordinary

/-- The path starts at the working directory. -/
theorem startOf_eq : d.startOf ⟨path⟩ = d.home := by
  simp [startOf, hspells.isAbsolute_eq hordinary]

/-- The names of the directory are followed from the working directory, also if there is none. -/
theorem enter_directory_eq :
    d.enter (if Path.isBare ⟨path⟩ then d.home else d.startOf ⟨path⟩) (Path.directory ⟨path⟩) =
      d.enter d.home names.dropLast := by
  rw [startOf_eq hspells hordinary, ite_self, hspells.directory_eq hordinary]

/-- If the directory is there, then a new file can be made in it. -/
theorem exists_stage_ok (hdir : d.HasDirectory names.dropLast)
    (hnew : Path.TakesNewFile ⟨path⟩) : ∃ place staged, d.stage ⟨path⟩ = .ok (place, staged) := by
  have hlength : ¬Path.maxPathLength < Path.directoryLength ⟨path⟩ + stagedNameLength :=
    not_lt.mpr hnew
  have henter := enter_of_hasDirectory
    (fun n hn => hordinary n (List.mem_of_mem_dropLast hn)) hdir
  rw [stage, if_neg hlength, enter_directory_eq hspells hordinary, henter]
  exact ⟨_, _, rfl⟩

/-- If the directory is not there, then no file is made. -/
theorem exists_stage_error (hdir : ¬d.HasDirectory names.dropLast) :
    ∃ err, d.stage ⟨path⟩ = .error err := by
  rcases d.enter_cases fun n hn => hordinary n (List.mem_of_mem_dropLast hn) with
    ⟨hthere, -⟩ | ⟨-, err, henter⟩
  · exact absurd hthere hdir
  · rw [stage, enter_directory_eq hspells hordinary, henter]
    split
    · exact ⟨_, rfl⟩
    · exact ⟨err, rfl⟩

/-- The path leads to the place with its names if their directory is there. -/
theorem locate_eq (hne : names ≠ []) (hdir : d.HasDirectory names.dropLast)
    (htaken : Path.IsTaken ⟨path⟩) : d.locate ⟨path⟩ = .ok (.entry (d.home ++ names)) := by
  obtain ⟨hlength, hnames⟩ := htaken
  rw [hspells.names_eq hordinary] at hnames
  have hlast := List.getLast?_eq_getLast_of_ne_nil hne
  have hmem := List.getLast_mem hne
  have hdots := (hordinary _ hmem).notDots
  have hplace : d.home ++ names.dropLast ++ [names.getLast hne] = d.home ++ names := by
    rw [List.append_assoc, List.dropLast_append_getLast hne]
  have henter := enter_of_hasDirectory
    (fun n hn => hordinary n (List.mem_of_mem_dropLast hn)) hdir
  simp only [locate, hspells.hasNul_eq hordinary, hlength, hspells.names_eq hordinary, hlast,
    startOf_eq hspells hordinary, henter, Bool.false_eq_true, if_false]
  simp [Bind.bind, Except.bind, hdots, hnames _ hmem, hplace, pure, Except.pure]

end Destination

section Moving

variable {place target : Place} (hlacks : d.Lacks place) {content : List UInt8} {mode : Nat}
  {p : Path} (hnul : p.hasNul = false) (hslash : p.slashAtEnd = false)
  (hlocate : d.locate p = .ok (.entry target))

include hlacks hnul hslash hlocate

/-- The new file cannot be moved to where a directory stands. -/
theorem move_of_directory (hdir : d.isDirectory target = true) :
    (d.insert place (.file content mode)).move place p = .error .isADirectory := by
  obtain ⟨bits, hentry⟩ := isDirectory_iff.mp hdir
  have hne : target ≠ place := by
    rintro rfl
    simp [get?_of_lacks hlacks] at hentry
  have hthere : (d.insert place (.file content mode)).locate p = .ok (.entry target) :=
    (locate_insert_iff hlacks p).mpr hlocate
  simp [move, hnul, hthere, hslash, get?_insert_of_ne d hne, hentry, Bind.bind, Except.bind]

/-- It can be moved to any other place. -/
theorem exists_move_ok (hdir : d.isDirectory target = false) :
    ∃ done, (d.insert place (.file content mode)).move place p = .ok done := by
  have hthere : (d.insert place (.file content mode)).locate p = .ok (.entry target) :=
    (locate_insert_iff hlacks p).mpr hlocate
  -- The new file may itself stand at the destination, and it is no directory.
  have hfree : ∀ bits, (d.insert place (.file content mode)).get? target ≠
      some (.directory bits) := by
    intro bits
    by_cases hsame : target = place
    · simp [hsame, get?_insert_self d hlacks.notStanding]
    · rw [get?_insert_of_ne d hsame]
      intro hentry
      simp [isDirectory_iff.mpr ⟨_, hentry⟩] at hdir
  simp only [move, hnul, hthere, hslash, get?_insert_self d hlacks.notStanding, Bind.bind,
    Except.bind, Bool.false_eq_true, if_false]
  exact ⟨_, rfl⟩

end Moving

/-- Nothing can be moved to an empty path. -/
theorem move_of_empty (d : Disk) (source : Place) : d.move source ⟨""⟩ = .error .notFound := by
  have hlocate : d.locate ⟨""⟩ = .error .notFound := by
    simp [locate, Path.hasNul, Path.isTooLong, Path.names, Path.pieces, Path.splitAtSlashes,
      Path.isAbsolute]
  simp [move, Path.hasNul, hlocate, Bind.bind, Except.bind]

end Disk

namespace Conversion

variable {c : Conversion} {d : Disk} {path : String}

/-- Without a new file nothing else is tried. -/
theorem outcome_saveTo_of_stage_error {err : OsError} (h : d.stage ⟨path⟩ = .error err) :
    (c.saveTo path d).result.outcome = .error (.io (.staging err)) := by
  simp [saveTo, saveThrough, h]

variable {place : Place} {staged : Disk} {text : String}

/-- The conversion ends as its text says. -/
theorem outcome_emission (c : Conversion) : c.emission.outcome = c.text.map fun _ => () := by
  unfold Conversion.text
  cases c.emission.outcome <;> rfl

/-- With a new file the conversion comes next. -/
theorem outcome_saveTo_of_text_error {err : ConversionError}
    (h : d.stage ⟨path⟩ = .ok (place, staged)) (htext : c.text = .error err) :
    (c.saveTo path d).result.outcome = .error err := by
  have hemission : c.emission.outcome = .error err := by
    rw [outcome_emission, htext]
    rfl
  simp [saveTo, saveThrough, h, Sink.run_unlimited, hemission]

/-- Once the view is converted, the move of the new file decides. -/
theorem exists_outcome_saveTo (h : d.stage ⟨path⟩ = .ok (place, staged))
    (htext : c.text = .ok text) : ∃ content mode, (c.saveTo path d).result.outcome =
      (((d.insert place (.file content mode)).move place ⟨path⟩).map
        fun _ => ()).mapError .placement := by
  have hemission : c.emission.outcome = .ok () := by
    rw [outcome_emission, htext]
    rfl
  obtain ⟨hlacks, rfl⟩ := Disk.exists_of_stage_ok h
  simp only [saveTo, saveThrough, h, Sink.run_unlimited, hemission, Disk.insert_insert,
    Disk.handOn_none hlacks]
  generalize (Option.map Entry.mode _).getD d.newFileMode = mode
  refine ⟨Text.bytes c.emission.text, mode, ?_⟩
  generalize Disk.move _ place ⟨path⟩ = moved
  cases moved <;> rfl

/-- **How saving ends.** Let a path be empty or made of ordinary names, with slashes between them.
If the directory of the path, which has all its names but the last, is not there, then saving ends
with an error of input and output, whatever the view is. Otherwise, if a new file can be made there,
saving ends with the error of the conversion if that fails, whatever stands at the destination. If
it succeeds, then the new file cannot be put in its place if the path is empty or leads to a
directory, and else all is well. A system may refuse paths or names for their length alone, so it is
assumed where it matters that it takes them. -/
theorem saveTo_outcome (c : Conversion) (d : Disk) (path : String) (names : List String)
    (hspells : Path.Spells path names) (hordinary : ∀ name ∈ names, Path.IsOrdinary name) :
    let outcome := (c.saveTo path d).result.outcome
    (¬d.HasDirectory names.dropLast → ∃ err, outcome = .error (.io (.staging err))) ∧
    (d.HasDirectory names.dropLast → Path.TakesNewFile ⟨path⟩ →
      (∀ err, c.text = .error err → outcome = .error err) ∧
      ∀ text, c.text = .ok text →
        (names = [] → outcome = .error (.placement .notFound)) ∧
        (names ≠ [] → Path.IsTaken ⟨path⟩ →
          (d.isDirectory (d.home ++ names) = true →
            outcome = .error (.placement .isADirectory)) ∧
          (d.isDirectory (d.home ++ names) = false → outcome = .ok ()))) := by
  intro outcome
  refine ⟨fun hdir => ?_, fun hdir hnew => ?_⟩
  · obtain ⟨err, hstage⟩ := Disk.exists_stage_error hspells hordinary hdir
    exact ⟨err, outcome_saveTo_of_stage_error hstage⟩
  obtain ⟨place, staged, hstage⟩ := Disk.exists_stage_ok hspells hordinary hdir hnew
  refine ⟨fun err htext => outcome_saveTo_of_text_error hstage htext, fun text htext => ?_⟩
  obtain ⟨content, mode, houtcome⟩ := exists_outcome_saveTo hstage htext
  obtain ⟨hlacks, -⟩ := Disk.exists_of_stage_ok hstage
  refine ⟨fun hnil => ?_, fun hne htaken => ?_⟩
  · subst hnil
    cases hspells
    rw [Disk.move_of_empty] at houtcome
    exact houtcome
  · have hlocate := Disk.locate_eq hspells hordinary hne hdir htaken
    have hnul := hspells.hasNul_eq hordinary
    have hslash := hspells.slashAtEnd_eq hordinary
    refine ⟨fun hthere => ?_, fun hthere => ?_⟩
    · rw [Disk.move_of_directory hlacks hnul hslash hlocate hthere] at houtcome
      exact houtcome
    · obtain ⟨done, hmove⟩ := Disk.exists_move_ok hlacks hnul hslash hlocate hthere
      rw [hmove] at houtcome
      exact houtcome

/-- A working directory with a directory in it that has another directory and a file in it. -/
private def shelf : Disk :=
  ⟨[(["h", "a"], .directory 0o755), (["h", "a", "b"], .directory 0o755),
    (["h", "a", "f"], .file [] 0o600)], ["h"], 0o022⟩

/-- A view, and a text that is none. -/
private def leaf : Conversion := ⟨"<p/>", none, .default⟩
private def scrap : Conversion := ⟨"<p", none, .default⟩

/-- The names in use. -/
private theorem isOrdinary_of_subset {names : List String} (h : names ⊆ ["a", "b", "f", "x"]) :
    ∀ name ∈ names, Path.IsOrdinary name := by
  intro name hname
  have hname := h hname
  simp only [List.mem_cons, List.not_mem_nil, or_false] at hname
  rcases hname with rfl | rfl | rfl | rfl
  all_goals exact ⟨by decide, by decide, by decide, by simp⟩

/-- The text that is no view is refused for its directory if that is missing, and for itself even if
a directory stands at the destination. The view is refused at that directory and at the empty path
only. -/
theorem saveTo_outcome_shelf :
    (∃ err, (scrap.saveTo "x/b" shelf).result.outcome = .error (.io (.staging err))) ∧
    (scrap.saveTo "a//b" shelf).result.outcome = .error (.view (.malformed .noRoot)) ∧
    (leaf.saveTo "a//b" shelf).result.outcome = .error (.placement .isADirectory) ∧
    (leaf.saveTo "" shelf).result.outcome = .error (.placement .notFound) ∧
    (leaf.saveTo "a/f" shelf).result.outcome = .ok () := by
  have hscrap : scrap.text = .error (.view (.malformed .noRoot)) := by decide +kernel
  have hleaf : leaf.text = .ok "// Namespaces\n\n\np() \n" := by decide +kernel
  have hxb : Path.Spells "x/b" ["x", "b"] := .cons "x" 0 (.last "b") (by simp)
  have hab : Path.Spells "a//b" ["a", "b"] := .cons "a" 1 (.last "b") (by simp)
  have haf : Path.Spells "a/f" ["a", "f"] := .cons "a" 0 (.last "f") (by simp)
  obtain ⟨hmissing, -⟩ := saveTo_outcome scrap shelf _ _ hxb (isOrdinary_of_subset (by simp))
  obtain ⟨-, hbad⟩ := saveTo_outcome scrap shelf _ _ hab (isOrdinary_of_subset (by simp))
  obtain ⟨-, hdirectory⟩ := saveTo_outcome leaf shelf _ _ hab (isOrdinary_of_subset (by simp))
  obtain ⟨-, hempty⟩ := saveTo_outcome leaf shelf _ _ .empty (isOrdinary_of_subset (by simp))
  obtain ⟨-, hfile⟩ := saveTo_outcome leaf shelf _ _ haf (isOrdinary_of_subset (by simp))
  refine ⟨hmissing (by decide +kernel), ?_, ?_, ?_, ?_⟩
  · exact (hbad (by decide +kernel) (by decide +kernel)).1 _ hscrap
  · exact (((hdirectory (by decide +kernel) (by decide +kernel)).2 _ hleaf).2 (by simp)
      (by decide +kernel)).1 (by decide +kernel)
  · exact ((hempty (by decide +kernel) (by decide +kernel)).2 _ hleaf).1 rfl
  · exact (((hfile (by decide +kernel) (by decide +kernel)).2 _ hleaf).2 (by simp)
      (by decide +kernel)).2 (by decide +kernel)

end Conversion

end GroovyViews
