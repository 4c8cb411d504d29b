import GroovyViews.Draft
import GroovyViews.Proofs.Running

/-!
# The settings of a draft

A draft is made by calls in any number and order, while the files may change between any two of
them. A call for a file reads it as it is then. The first file without a text ends the making.
Otherwise each field has the value that the last call gives it, or the one that it has in an empty
draft, and the source and its path come from one and the same call.
-/

namespace GroovyViews

namespace Draft

/-- What can be asked of a draft. -/
inductive Setting where
  /-- The view is loaded from a file. -/
  | inputFile (path : String)
  /-- The view is given. -/
  | source (text : String)
  /-- What happens to tags that are not supported is set. -/
  | unknownTags (unknownTags : UnknownTags)
  /-- How literals are written is set. -/
  | escaping (escaping : Escaping)
  /-- All options are set. -/
  | options (options : Options)
  deriving DecidableEq, Repr

/-- What a setting is about. -/
inductive Field where
  /-- The text of the view. -/
  | source
  /-- The file that it comes from. -/
  | path
  /-- What happens to tags that are not supported. -/
  | unknownTags
  /-- How literals are written. -/
  | escaping
  deriving DecidableEq, Repr

/-- The fields that a setting sets. -/
def Setting.fields : Setting → List Field
  | inputFile _ | source _ => [.source, .path]
  | unknownTags _ => [.unknownTags]
  | escaping _ => [.escaping]
  | options _ => [.unknownTags, .escaping]

/-- The files at some moment: what reading yields for each path. -/
abbrev Files := String → Except OsError (List UInt8)

/-- The files of a disk. -/
def Files.ofDisk (disk : Disk) : Files := fun path => disk.read ⟨path⟩

/-- What happens while a draft is made. -/
inductive Event where
  /-- Something is asked of the draft. -/
  | call (setting : Setting)
  /-- The files change, in whatever way. -/
  | change (files : Files)

/-- Does what is asked of a draft. -/
def apply (d : Draft) (files : Files) : Setting → Traced Notice ConversionError Draft
  | .inputFile path => d.load path (files path)
  | .source text => pure (d.withSource text)
  | .unknownTags unknownTags => pure (d.withUnknownTags unknownTags)
  | .escaping escaping => pure (d.withEscaping escaping)
  | .options options => pure (d.withOptions options)

/-- Makes a draft, beginning with this one and with these files. -/
def make (d : Draft) (files : Files) : List Event → Traced Notice ConversionError Draft
  | [] => pure d
  | .call setting :: rest => do
    let d ← d.apply files setting
    d.make files rest
  | .change files :: rest => d.make files rest

/-- A call with the files that it finds. -/
structure Call where
  /-- What is asked. -/
  setting : Setting
  /-- The files at that moment. -/
  files : Files

/-- The calls among some events, each with the files that it finds. -/
def calls (files : Files) : List Event → List Call
  | [] => []
  | .call setting :: rest => ⟨setting, files⟩ :: calls files rest
  | .change files :: rest => calls files rest

namespace Call

/-- The error of a call that finds no text. -/
def failure? (c : Call) : Option ConversionError :=
  match c.setting with
  | .inputFile path =>
    match loadedText (c.files path) with
    | .error reason => some (.io (.unreadable path reason))
    | .ok _ => none
  | _ => none

/-- The text of the view that a call sets, with the path of its file if it comes from one. -/
def origin? (c : Call) : Option (Option String × Option String) :=
  match c.setting with
  | .inputFile path => (loadedText (c.files path)).toOption.map fun text => (some text, some path)
  | .source text => some (some text, none)
  | _ => none

/-- What a call sets to happen to tags that are not supported. -/
def unknownTags? (c : Call) : Option UnknownTags :=
  match c.setting with
  | .unknownTags unknownTags => some unknownTags
  | .options options => some options.unknownTags
  | _ => none

/-- The way in which a call sets literals to be written. -/
def escaping? (c : Call) : Option Escaping :=
  match c.setting with
  | .escaping escaping => some escaping
  | .options options => some options.escaping
  | _ => none

/-- The call supplies a text, and it comes from the file with that path if there is one. -/
inductive Supplies : Call → String → Option String → Prop where
  /-- The text is given. -/
  | given {text : String} {files : Files} : Supplies ⟨.source text, files⟩ text none
  /-- The text is that of a file at the moment of the call. -/
  | loaded {path text : String} {files : Files} : files path = .ok (Text.bytes text) →
      Supplies ⟨.inputFile path, files⟩ text (some path)

end Call

/-- The draft after some calls none of which fails: each field has the value that was given last. -/
def after (d : Draft) (cs : List Call) : Draft :=
  let origin := (cs.filterMap Call.origin?).getLast?.getD (d.source, d.path)
  ⟨origin.1, origin.2, (cs.filterMap Call.unknownTags?).getLast?.getD d.options.unknownTags,
    (cs.filterMap Call.escaping?).getLast?.getD d.options.escaping⟩

variable {d : Draft} {files : Files} {cs : List Call} {c : Call}
  {content : Except OsError (List UInt8)}

/-! ## Loading a file -/

/-- What is set beside the source may be set before or after that is loaded. -/
theorem load_bind_pure {set : Draft → Draft} (path : String)
    (hset : ∀ source path, set { d with source, path } = { set d with source, path }) :
    (d.load path content >>= fun d => pure (set d)) = (set d).load path content := by
  cases h : loadedText content with
  | error reason =>
    rw [load_of_error h, load_of_error h]
    rfl
  | ok text =>
    rw [load_of_ok h, load_of_ok h, ← hset]
    rfl

/-! ## The last values -/

/-- The value given last is that of the rest, if there is one, and else that of the first. -/
theorem getLast?_filterMap_cons {α β : Type} (gives : α → Option β) (a : α) (l : List α) (b : β) :
    ((a :: l).filterMap gives).getLast?.getD b =
      (l.filterMap gives).getLast?.getD ((gives a).getD b) := by
  cases h : gives a with
  | none => simp [h]
  | some b' => simp [h, List.getLast?_cons]

/-- A call is followed by the others as if the draft had been what it makes of it. -/
theorem after_cons (d : Draft) (c : Call) (cs : List Call) :
    d.after (c :: cs) = (d.after [c]).after cs := by
  have hone : ∀ {β : Type} (gives : Call → Option β) (b : β),
      ([c].filterMap gives).getLast?.getD b = (gives c).getD b := by
    intro β gives b
    rw [getLast?_filterMap_cons]
    rfl
  simp only [after, getLast?_filterMap_cons _ c cs, hone]

/-- A call fails, or it sets its fields. -/
theorem outcome_apply (d : Draft) (files : Files) (setting : Setting) :
    (d.apply files setting).outcome =
      (Call.failure? ⟨setting, files⟩).elim (.ok (d.after [⟨setting, files⟩])) .error := by
  cases setting with
  | inputFile path =>
    cases h : loadedText (files path) with
    | error reason => simp [apply, load_of_error h, Call.failure?, h]
    | ok text =>
      simp [apply, load_of_ok h, Call.failure?, h, after, Call.origin?, Call.unknownTags?,
        Call.escaping?, Except.toOption]
  | source _ | unknownTags _ | escaping _ | options _ => rfl

/-- The first call that fails decides the error, and if there is none then the fields are set. -/
theorem outcome_make (d : Draft) (files : Files) (events : List Event) :
    (d.make files events).outcome =
      ((calls files events).findSome? Call.failure?).elim (.ok (d.after (calls files events)))
        .error := by
  induction events generalizing d files with
  | nil => rfl
  | cons event rest ih =>
    cases event with
    | change files => exact ih d files
    | call setting =>
      rw [make, calls, List.findSome?_cons, Traced.outcome_bind, outcome_apply]
      cases Call.failure? ⟨setting, files⟩ with
      | some err => rfl
      | none =>
        rw [after_cons d _ (calls files rest)]
        exact ih _ files

namespace Call

/-- Only a call for a file without a text fails. -/
theorem exists_failure?_iff : (∃ err, c.failure? = some err) ↔
    ∃ path, c.setting = .inputFile path ∧ ¬∃ text, c.files path = .ok (Text.bytes text) := by
  obtain ⟨setting, files⟩ := c
  cases setting with
  | inputFile path =>
    simp only [← loadedText_eq_ok_iff]
    cases h : loadedText (files path) <;> simp [failure?, h]
  | source _ | unknownTags _ | escaping _ | options _ => simp [failure?]

/-- What supplies a text sets the source. -/
theorem Supplies.mem_fields {text : String} {path : Option String} (h : c.Supplies text path) :
    Field.source ∈ c.setting.fields := by
  cases h <;> simp [Setting.fields]

/-- A call that does not fail supplies a text, or it has nothing to do with the source. -/
theorem origin?_cases (h : c.failure? = none) :
    (c.origin? = none ∧ Field.source ∉ c.setting.fields) ∨
    ∃ text path, c.origin? = some (some text, path) ∧ c.Supplies text path := by
  obtain ⟨setting, files⟩ := c
  cases setting with
  | inputFile path =>
    cases hread : loadedText (files path) with
    | error reason => simp [failure?, hread] at h
    | ok text =>
      refine .inr ⟨text, some path, ?_, .loaded (loadedText_eq_ok_iff.mp hread)⟩
      simp [origin?, hread, Except.toOption]
  | source text => exact .inr ⟨text, none, rfl, .given⟩
  | unknownTags _ | escaping _ | options _ => exact .inl ⟨rfl, by simp [Setting.fields]⟩

/-- A call that does not fail has no source exactly if it is not about it. -/
theorem origin?_eq_none_iff (h : c.failure? = none) :
    c.origin? = none ↔ Field.source ∉ c.setting.fields := by
  rcases origin?_cases h with ⟨hnone, hfield⟩ | ⟨text, path, hsome, hsupplies⟩
  · simp [hnone, hfield]
  · simp [hsome, hsupplies.mem_fields]

end Call

/-- After calls none of which fails there is no source if none of them is about it, and otherwise
the source and the path are those that the last of these calls supplies. -/
theorem origin_after (h : ∀ c ∈ cs, c.failure? = none) :
    ((empty.after cs).source = none ∧ ∀ c ∈ cs, Field.source ∉ c.setting.fields) ∨
    ∃ before c rest text, cs = before ++ c :: rest ∧
      (∀ b ∈ rest, Field.source ∉ b.setting.fields) ∧
      (empty.after cs).source = some text ∧ c.Supplies text (empty.after cs).path := by
  cases hlast : (cs.filterMap Call.origin?).getLast? with
  | none =>
    refine .inl ⟨by simp [after, hlast, empty], fun c hc => ?_⟩
    rw [← Call.origin?_eq_none_iff (h c hc)]
    exact List.filterMap_eq_nil_iff.mp (List.getLast?_eq_none_iff.mp hlast) c hc
  | some origin =>
    -- The last call that is about the source is the first one from behind.
    obtain ⟨rest, c, before, hsplit, hc, hrest⟩ := List.findSome?_eq_some_iff.mp
      (List.getLast?_filterMap.symm.trans hlast)
    have hcs : cs = before.reverse ++ c :: rest.reverse := by
      rw [← cs.reverse_reverse, hsplit]
      simp
    have hmem : ∀ b ∈ rest, b ∈ cs := fun b hb => by simp [hcs, hb]
    rcases Call.origin?_cases (h c (by simp [hcs])) with
      ⟨hnone, -⟩ | ⟨text, path, hsome, hsupplies⟩
    · rw [hnone] at hc
      cases hc
    · obtain rfl := Option.some.inj (hsome.symm.trans hc)
      refine .inr ⟨before.reverse, c, rest.reverse, text, hcs, ?_, ?_, ?_⟩
      · intro b hb
        have hb' := List.mem_reverse.mp hb
        exact (Call.origin?_eq_none_iff (h b (hmem b hb'))).mp (hrest b hb')
      · simp [after, hlast]
      · simpa [after, hlast] using hsupplies

/-- A draft after calls none of which fails is built from what was given last. Only a source can be
missing. -/
theorem build_after (h : ∀ c ∈ cs, c.failure? = none) :
    (∀ err, (empty.after cs).build = .error err ↔
      err = .io .noSource ∧ ∀ c ∈ cs, Field.source ∉ c.setting.fields) ∧
    ∀ made, (empty.after cs).build = .ok made →
      (∃ before c rest, cs = before ++ c :: rest ∧ c.Supplies made.source made.path ∧
        ∀ b ∈ rest, Field.source ∉ b.setting.fields) ∧
      made.options = (empty.after cs).options := by
  rcases origin_after h with
    ⟨hsource, hnone⟩ | ⟨before, c, rest, text, hcs, hrest, hsource, hsupplies⟩
  · have hbuild : (empty.after cs).build = .error (.io .noSource) := by simp [build, hsource]
    rw [hbuild]
    refine ⟨fun err => ?_, fun made hmade => by cases hmade⟩
    rw [and_iff_left hnone, Except.error.injEq, eq_comm]
  · have hbuild : (empty.after cs).build =
        .ok ⟨text, (empty.after cs).path, (empty.after cs).options⟩ := by simp [build, hsource]
    rw [hbuild]
    refine ⟨fun err => iff_of_false (by simp) fun hnone => ?_, fun made hmade => ?_⟩
    · exact hnone.2 c (by simp [hcs]) hsupplies.mem_fields
    · obtain rfl := Except.ok.inj hmade
      exact ⟨⟨before, c, rest, hcs, hsupplies, hrest⟩, rfl⟩

/-! ## The order of calls -/

/-- What is set beside the source may be set before or after a file is loaded. -/
theorem load_swap {a : Setting} (h : Field.source ∉ a.fields) (d : Draft) (path : String) :
    (d.load path content >>= fun d => d.apply files a) =
      d.apply files a >>= fun d => d.load path content := by
  cases a with
  | inputFile _ | source _ => simp [Setting.fields] at h
  | unknownTags _ | escaping _ | options _ => exact load_bind_pure path fun _ _ => rfl

/-- Two settings of different fields may be made in either order. -/
theorem apply_swap {a b : Setting} (h : ∀ field ∈ a.fields, field ∉ b.fields) (d : Draft)
    (files : Files) :
    (d.apply files a >>= fun d => d.apply files b) =
      d.apply files b >>= fun d => d.apply files a := by
  cases a with
  | inputFile path => exact load_swap (h .source (by simp [Setting.fields])) d path
  | source _ | unknownTags _ | escaping _ | options _ =>
    cases b with
    | inputFile path =>
      symm
      exact load_swap (fun hfield => h _ hfield (by simp [Setting.fields])) d path
    | source _ | unknownTags _ | escaping _ | options _ =>
      simp [Setting.fields] at h <;> rfl

/-- A call that is not for a file sets its fields alike whatever the files are. -/
theorem apply_eq_of_ne {a : Setting} (h : ∀ path, a ≠ .inputFile path) (d : Draft)
    (files other : Files) : d.apply files a = d.apply other a := by
  cases a with
  | inputFile path => exact absurd rfl (h path)
  | source _ | unknownTags _ | escaping _ | options _ => rfl

/-- What follows some events may be replaced by what does the same to every draft. -/
theorem make_congr {x y : List Event} (h : ∀ d files, make d files x = make d files y)
    (before : List Event) (d : Draft) (files : Files) :
    d.make files (before ++ x) = d.make files (before ++ y) := by
  induction before generalizing d files with
  | nil => exact h d files
  | cons event rest ih =>
    cases event with
    | change files => exact ih d files
    | call setting => exact bind_congr fun d => ih d files

/-- Neighbouring calls that set different fields may change places. -/
theorem make_swap {a b : Setting} (h : ∀ field ∈ a.fields, field ∉ b.fields)
    (before rest : List Event) (d : Draft) (files : Files) :
    d.make files (before ++ .call a :: .call b :: rest) =
      d.make files (before ++ .call b :: .call a :: rest) := by
  refine make_congr (fun d files => ?_) before d files
  simp only [make, ← bind_assoc, apply_swap h]

/-- A call that is not for a file may change places with a change of the files. -/
theorem make_change_swap {a : Setting} (h : ∀ path, a ≠ .inputFile path) (other : Files)
    (before rest : List Event) (d : Draft) (files : Files) :
    d.make files (before ++ .call a :: .change other :: rest) =
      d.make files (before ++ .change other :: .call a :: rest) := by
  refine make_congr (fun d files => ?_) before d files
  simp only [make, apply_eq_of_ne h d files other]

/-- **The last call wins.** Let a draft be made by any calls, while the files change in any way
between them. The making fails exactly if a call is for a file that cannot be read as a text at
that moment, and the first such call decides the error. Otherwise the draft can be built exactly if
some call is about the source. Then the source is that of the last call about it, which is the text
of the file at that moment if the call is for a file, and the path is that of this file or there is
none. Each option is the one that was set last, or the default. Calls that set different fields may
change places, and so may a change of the files and a call that is not for a file. -/
theorem make_last_wins (files : Files) (events : List Event) :
    let cs := calls files events
    let drafted := (empty.make files events).outcome
    ((∃ err, drafted = .error err) ↔ ∃ c ∈ cs, ∃ path, c.setting = .inputFile path ∧
      ¬∃ text, c.files path = .ok (Text.bytes text)) ∧
    (∀ err, drafted = .error err ↔ cs.findSome? Call.failure? = some err) ∧
    (∀ d, drafted = .ok d →
      (∀ err, d.build = .error err ↔
        err = .io .noSource ∧ ∀ c ∈ cs, Field.source ∉ c.setting.fields) ∧
      ∀ made, d.build = .ok made →
        (∃ before c rest, cs = before ++ c :: rest ∧ c.Supplies made.source made.path ∧
          ∀ b ∈ rest, Field.source ∉ b.setting.fields) ∧
        made.options.unknownTags = (cs.filterMap Call.unknownTags?).getLast?.getD .skip ∧
        made.options.escaping = (cs.filterMap Call.escaping?).getLast?.getD .verbatim) ∧
    (∀ before a b rest, (∀ field ∈ a.fields, field ∉ b.fields) →
      empty.make files (before ++ .call a :: .call b :: rest) =
        empty.make files (before ++ .call b :: .call a :: rest)) ∧
    ∀ before a other rest, (∀ path, a ≠ .inputFile path) →
      empty.make files (before ++ .call a :: .change other :: rest) =
        empty.make files (before ++ .change other :: .call a :: rest) := by
  intro cs drafted
  have hdrafted : drafted = (cs.findSome? Call.failure?).elim (.ok (empty.after cs)) .error :=
    outcome_make empty files events
  have herror : ∀ err, drafted = .error err ↔ cs.findSome? Call.failure? = some err := by
    intro err
    rw [hdrafted]
    cases cs.findSome? Call.failure? <;> simp
  refine ⟨?_, herror, ?_, fun before a b rest h => make_swap h before rest empty files,
    fun before a other rest h => make_change_swap h other before rest empty files⟩
  · simp only [herror, ← Option.isSome_iff_exists, List.findSome?_isSome_iff]
    simp only [Option.isSome_iff_exists, Call.exists_failure?_iff]
  · intro d hd
    rw [hdrafted] at hd
    cases hfailure : cs.findSome? Call.failure? with
    | some err => simp [hfailure] at hd
    | none =>
      obtain rfl : empty.after cs = d := by simpa [hfailure] using hd
      obtain ⟨herror, hok⟩ := build_after (List.findSome?_eq_none_iff.mp hfailure)
      refine ⟨herror, fun made hmade => ?_⟩
      obtain ⟨hsupplies, hoptions⟩ := hok made hmade
      rw [hoptions]
      exact ⟨hsupplies, rfl, rfl⟩

/-- The files of a disk with one file. -/
private def drawer (text : String) : Files :=
  .ofDisk ⟨[(["h", "a"], .file (Text.bytes text) 0o644)], ["h"], 0o022⟩

/-- A source is given and then loaded, the file changes, and one of the options is set once more. -/
private def restless : List Event :=
  [.call (.source "<s/>"), .call (.options ⟨.reject, .backslash⟩), .call (.inputFile "a"),
    .change (drawer "<n/>"), .call (.escaping .verbatim)]

/-- The text of the file is that from before the change, and the option that is not set again stays.
If the file is gone when it is to be loaded, then there is an error. -/
theorem make_last_wins_restless :
    (empty.make (drawer "<o/>") restless).outcome =
      .ok ⟨some "<o/>", some "a", ⟨.reject, .verbatim⟩⟩ ∧
    (∃ before c rest, calls (drawer "<o/>") restless = before ++ c :: rest ∧
      c.Supplies "<o/>" (some "a") ∧ ∀ b ∈ rest, Field.source ∉ b.setting.fields) ∧
    (empty.make (drawer "<o/>") (.change (.ofDisk .empty) :: restless)).outcome =
      .error (.io (.unreadable "a" (.system .notFound))) := by
  have hmade : (empty.make (drawer "<o/>") restless).outcome =
      .ok ⟨some "<o/>", some "a", ⟨.reject, .verbatim⟩⟩ := by decide +kernel
  obtain ⟨-, -, hok, -⟩ := make_last_wins (drawer "<o/>") restless
  obtain ⟨-, herror, -⟩ := make_last_wins (drawer "<o/>") (.change (.ofDisk .empty) :: restless)
  exact ⟨hmade, ((hok _ hmade).2 _ rfl).1, (herror _).mpr (by decide +kernel)⟩

end Draft

end GroovyViews
