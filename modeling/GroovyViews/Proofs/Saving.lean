import GroovyViews.Disk.Save
import GroovyViews.Proofs.Ending

/-!
# Saving is all or nothing

The new file has a name that nothing on the disk has. As long as it stands there, nothing else is
changed, and to remove it gives back the disk as it was. A path leads to the same place with it and
without it, so to move it there changes this one place only.

A run that fails has removed the new file when it returns, with one exception: where the move itself
fails, the error holds the new file, and to drop the error removes it.
-/

namespace GroovyViews

namespace Disk

variable {d : Disk} {place other : Place} {entry : Entry}

/-- A new entry gets the permission bits that were asked for and that the umask leaves. -/
theorem testBit_newMode (d : Disk) (requested i : Nat) :
    (d.newMode requested).testBit i = (requested.testBit i && !d.umask.testBit i) := by
  simp only [newMode, Nat.testBit_xor, Nat.testBit_and]
  cases requested.testBit i <;> cases d.umask.testBit i <;> rfl

/-- The place is not one on the way to the working directory, and there is no entry for it. -/
structure Lacks (d : Disk) (place : Place) : Prop where
  /-- The directories on the way to the working directory are elsewhere. -/
  notStanding : ¬place <+: d.home
  /-- No entry is at the place. -/
  noEntry : ∀ e ∈ d.entries, e.1 ≠ place

/-- A second entry at a place takes that of the first. -/
theorem insertEntry_insertEntry (place : Place) (first second : Entry)
    (entries : List (Place × Entry)) :
    insertEntry place second (insertEntry place first entries) =
      insertEntry place second entries := by
  induction entries with
  | nil => simp [insertEntry]
  | cons e rest ih =>
    by_cases h : e.1 = place
    · simp [insertEntry, h]
    · simp [insertEntry, h, ih]

/-- What is put at a place second replaces what was put there first. -/
theorem insert_insert (d : Disk) (place : Place) (first second : Entry) :
    (d.insert place first).insert place second = d.insert place second := by
  simp [insert, insertEntry_insertEntry]

/-- To remove what was put where nothing was gives back the disk as it was. -/
theorem erase_insert (h : d.Lacks place) (entry : Entry) :
    (d.insert place entry).erase place = d := by
  obtain ⟨entries, home, umask⟩ := d
  have hnone := h.noEntry
  have hentries : (insertEntry place entry entries).filter (fun e => !decide (e.1 = place)) =
      entries := by
    clear h
    induction entries with
    | nil => simp [insertEntry]
    | cons e rest ih =>
      have he : e.1 ≠ place := hnone e (by simp)
      have hrest := ih fun e' he' => hnone e' (by simp [he'])
      simp [insertEntry, he, hrest]
  simpa [insert, erase] using hentries

/-- What is put at a place is found there. -/
theorem lookup_insertEntry_self (place : Place) (entry : Entry) (entries : List (Place × Entry)) :
    (insertEntry place entry entries).lookup place = some entry := by
  induction entries with
  | nil => simp [insertEntry]
  | cons e rest ih =>
    obtain ⟨key, previous⟩ := e
    by_cases hkey : key = place
    · simp [insertEntry, hkey]
    · have hne : (place == key) = false := by simpa using Ne.symm hkey
      simp [insertEntry, hkey, List.lookup_cons, hne, ih]

/-- What is put at a place is not found at any other. -/
theorem lookup_insertEntry_of_ne (hne : other ≠ place) (entry : Entry)
    (entries : List (Place × Entry)) :
    (insertEntry place entry entries).lookup other = entries.lookup other := by
  have hplace : (other == place) = false := by simpa using hne
  induction entries with
  | nil => simp [insertEntry, List.lookup_cons, hplace]
  | cons e rest ih =>
    obtain ⟨key, previous⟩ := e
    by_cases hkey : key = place
    · simp [insertEntry, hkey, List.lookup_cons, hplace]
    · simp [insertEntry, hkey, List.lookup_cons, ih]

/-- Putting something at a place does not move the working directory. -/
@[simp] theorem home_insert (d : Disk) (place : Place) (entry : Entry) :
    (d.insert place entry).home = d.home := rfl

/-- A place is a directory if that is what is found there, with whatever permission bits. -/
theorem isDirectory_iff : d.isDirectory place = true ↔
    ∃ mode, d.get? place = some (.directory mode) := by
  unfold isDirectory
  cases d.get? place with
  | none => simp
  | some entry => cases entry <;> simp [Entry.isDirectory]

/-- The directories on the way to the working directory are always there. -/
theorem get?_of_standing (h : place <+: d.home) :
    d.get? place = some (.directory standingMode) := by
  simp [get?, h]

/-- What stands elsewhere is given by the entries. -/
theorem get?_of_not_standing (h : ¬place <+: d.home) : d.get? place = d.entries.lookup place := by
  simp [get?, h]

/-- What is no directory does not stand on the way to the working directory. -/
theorem not_standing_of_isDirectory (h : d.isDirectory place = false) : ¬place <+: d.home := by
  intro hstanding
  rw [isDirectory_iff.mpr ⟨_, get?_of_standing hstanding⟩] at h
  cases h

/-- What is put at a place is found there, unless the working directory is inside. -/
theorem get?_insert_self (d : Disk) (hplace : ¬place <+: d.home) (entry : Entry) :
    (d.insert place entry).get? place = some entry := by
  rw [get?_of_not_standing (d := d.insert place entry) hplace]
  exact lookup_insertEntry_self place entry d.entries

/-- What is put at a place does not change what is found at any other. -/
theorem get?_insert_of_ne (d : Disk) (hne : other ≠ place) (entry : Entry) :
    (d.insert place entry).get? other = d.get? other := by
  simp [get?, insert, lookup_insertEntry_of_ne hne]

/-- Nothing stands at a place that there is no entry for. -/
theorem get?_of_lacks (h : d.Lacks place) : d.get? place = none := by
  rw [get?_of_not_standing h.notStanding, List.lookup_eq_none_iff]
  intro e he
  simpa using (h.noEntry e he).symm

/-- No name of a list is longer than the longest one. -/
theorem length_le_foldl_max (names : List String) (n : Nat) :
    n ≤ names.foldl (fun n name => max n name.length) n ∧
      ∀ name ∈ names, name.length ≤ names.foldl (fun n name => max n name.length) n := by
  induction names generalizing n with
  | nil => simp
  | cons first rest ih =>
    obtain ⟨hstart, hrest⟩ := ih (max n first.length)
    rw [List.foldl_cons]
    refine ⟨by omega, ?_⟩
    intro name hname
    rcases List.mem_cons.mp hname with rfl | hname
    · omega
    · exact hrest name hname

/-- The fresh name is none of the names on the disk, because it is longer than all of them. -/
theorem freshName_not_mem (d : Disk) : d.freshName ∉ d.home ++ d.entries.flatMap (·.1) := by
  intro hmem
  have hle := (length_le_foldl_max _ 0).2 _ hmem
  have htmp : ".tmp".length = 4 := by decide
  have hlength : d.freshName.length = 4 +
      (d.home ++ d.entries.flatMap (·.1)).foldl (fun n name => max n name.length) 0 := by
    simp only [freshName, String.length_append, String.length_ofList, List.length_replicate, htmp]
  omega

/-- There is nothing with the fresh name in any directory. -/
theorem lacks_freshName (d : Disk) (here : Place) : d.Lacks (here ++ [d.freshName]) := by
  constructor
  · intro hstanding
    exact d.freshName_not_mem (List.mem_append_left _ (hstanding.subset (by simp)))
  · intro e he heq
    refine d.freshName_not_mem (List.mem_append_right _ (List.mem_flatMap.mpr ⟨e, he, ?_⟩))
    simp [heq]

/-- A path that passes through directories does so whether there is a file at a place or not, if
nothing else was there. -/
theorem enter_insert_iff (hlacks : d.Lacks place) {content : List UInt8} {mode : Nat}
    (names : List String) {here target : Place} :
    (d.insert place (.file content mode)).enter here names = .ok target ↔
      d.enter here names = .ok target := by
  induction names generalizing here with
  | nil => rfl
  | cons name rest ih =>
    simp only [enter]
    split
    · exact ih
    split
    · exact ih
    split
    · rfl
    by_cases h : here ++ [name] = place
    · simp only [h, get?_insert_self d hlacks.notStanding, get?_of_lacks hlacks, reduceCtorEq]
    · rw [get?_insert_of_ne d h]
      cases d.get? (here ++ [name]) with
      | none => rfl
      | some entry =>
        cases entry with
        | directory _ => exact ih
        | file _ _ => rfl

/-- A path leads to the same place whether there is a file at some place or not. -/
theorem locate_insert_iff (hlacks : d.Lacks place) {content : List UInt8} {mode : Nat} (p : Path)
    {target : Target} :
    (d.insert place (.file content mode)).locate p = .ok target ↔ d.locate p = .ok target := by
  have hstart : (d.insert place (.file content mode)).startOf p = d.startOf p := rfl
  have henter : ∀ here, (d.insert place (.file content mode)).enter (d.startOf p)
      p.names.dropLast = .ok here ↔ d.enter (d.startOf p) p.names.dropLast = .ok here :=
    fun here => enter_insert_iff hlacks p.names.dropLast
  simp only [locate, hstart]
  split
  · rfl
  split
  · rfl
  cases p.names.getLast? with
  | none => rfl
  | some name =>
    cases hd : d.enter (d.startOf p) p.names.dropLast with
    | ok here => rw [(henter here).mpr hd]
    | error err =>
      cases hi : (d.insert place (.file content mode)).enter (d.startOf p) p.names.dropLast with
      | ok here =>
        rw [henter, hd] at hi
        cases hi
      | error err' => simp [Bind.bind, Except.bind]

/-- A path that does not end with a slash finds what stands at its place. -/
theorem find?_of_locate {p : Path} (hlocate : d.locate p = .ok (.entry place))
    (hslash : p.slashAtEnd = false) : d.find? p = d.get? place := by
  rw [find?, hlocate, hslash]
  cases hentry : d.get? place <;> simp [hentry]

/-- A new file is made with a fresh name, empty and with the bits of a new file. -/
theorem exists_of_stage_ok {p : Path} {staged : Disk} (h : d.stage p = .ok (place, staged)) :
    d.Lacks place ∧ staged = d.insert place (.file [] d.newFileMode) := by
  unfold stage at h
  split at h
  · cases h
  · obtain ⟨here, -, h⟩ := exists_of_bind_eq_ok h
    cases h
    exact ⟨d.lacks_freshName here, rfl⟩

/-- The file that a path leads to, or that nothing is there yet, with the permission bits that a
file saved there gets. -/
inductive Receives (d : Disk) (place : Place) : Nat → Prop where
  /-- A file is replaced and hands its permission bits on. -/
  | replaced {content : List UInt8} {mode : Nat} : d.get? place = some (.file content mode) →
      Receives d place mode
  /-- A new file gets the bits that the umask leaves of those asked for. -/
  | new {mode : Nat} : d.get? place = none →
      (∀ i, mode.testBit i = (Nat.testBit 0o666 i && !d.umask.testBit i)) → Receives d place mode

section NewFile

variable (hlacks : d.Lacks place) {content : List UInt8} {mode : Nat} {p : Path}

include hlacks

/-- Where permission bits can be set, the new file gets those of what stands where the path leads
to, if something does. -/
theorem handOn_none : (d.insert place (.file content mode)).handOn place p none =
    .ok (d.insert place (.file content
      ((((d.insert place (.file content mode)).find? p).map Entry.mode).getD mode))) := by
  unfold handOn
  cases (d.insert place (.file content mode)).find? p with
  | none => rfl
  | some entry =>
    simp only [setMode, get?_insert_self d hlacks.notStanding, insert_insert]
    rfl

/-- Handing permission bits on, if it succeeds, does what it does where they can be set. -/
theorem handOn_of_ok {refusal : Option OsError} {finished : Disk}
    (h : (d.insert place (.file content mode)).handOn place p refusal = .ok finished) :
    finished = d.insert place (.file content
      ((((d.insert place (.file content mode)).find? p).map Entry.mode).getD mode)) := by
  cases refusal with
  | none =>
    rw [handOn_none hlacks] at h
    exact (Except.ok.inj h).symm
  | some e =>
    unfold handOn at h
    cases hfind : (d.insert place (.file content mode)).find? p with
    | none =>
      rw [hfind] at h
      exact (Except.ok.inj h).symm
    | some entry =>
      rw [hfind] at h
      cases h

/-- To move the new file puts it where the path leads and leaves no trace of it elsewhere. -/
theorem exists_of_move_ok {done : Disk}
    (h : (d.insert place (.file content mode)).move place p = .ok done) :
    ∃ target, d.locate p = .ok (.entry target) ∧ p.slashAtEnd = false ∧
      d.isDirectory target = false ∧ done = d.insert target (.file content mode) := by
  unfold move at h
  split at h
  · cases h
  · obtain ⟨target, hlocate, h⟩ := exists_of_bind_eq_ok h
    rw [locate_insert_iff hlacks] at hlocate
    split at h
    · cases h
    · rename_i target
      split at h
      · cases h
      · rename_i hslash
        rw [get?_insert_self d hlacks.notStanding] at h
        split at h
        · cases h
        · rename_i hsource hdirectory
          cases hsource
          cases h
          refine ⟨target, hlocate, by simpa using hslash, ?_, by rw [erase_insert hlacks]⟩
          rw [← Bool.not_eq_true, isDirectory_iff]
          rintro ⟨mode, hentry⟩
          -- The directory would not be the new file, because at its place there was nothing.
          have htarget : target ≠ place := by
            rintro rfl
            simp [get?_of_lacks hlacks] at hentry
          rw [get?_insert_of_ne d htarget] at hdirectory
          exact hdirectory mode hentry
        · cases h

/-- The permission bits that the new file is given before it is moved are those that a file saved
there gets. -/
theorem receives_find? {target : Place} (hlocate : d.locate p = .ok (.entry target))
    (hslash : p.slashAtEnd = false) (hdirectory : d.isDirectory target = false) :
    d.Receives target ((((d.insert place (.file content d.newFileMode)).find? p).map
      Entry.mode).getD d.newFileMode) := by
  have hnew := d.testBit_newMode 0o666
  rw [find?_of_locate ((locate_insert_iff hlacks p).mpr hlocate) hslash]
  by_cases htarget : target = place
  · subst target
    rw [get?_insert_self d hlacks.notStanding]
    exact .new (get?_of_lacks hlacks) hnew
  · rw [get?_insert_of_ne d htarget]
    cases hentry : d.get? target with
    | none => exact .new hentry hnew
    | some entry =>
      cases entry with
      | directory _ => simp [isDirectory_iff.mpr ⟨_, hentry⟩] at hdirectory
      | file old bits => exact .replaced hentry

end NewFile

end Disk

namespace Conversion

/-- What saving under a path can come to. -/
inductive Saves (c : Conversion) (path : String) (d : Disk) : Saved → Prop where
  /-- Saving fails before the new file is moved, and the disk is as it was. -/
  | failed {err : ConversionError} {notices : List Notice} : (∀ e, err ≠ .placement e) →
      Saves c path d ⟨d, none, notices, .error err⟩
  /-- The new file cannot be moved, and the error holds it. -/
  | unplaced {e : OsError} {temporary : Place} {content : List UInt8} {mode : Nat}
      {notices : List Notice} : d.Lacks temporary →
      Saves c path d
        ⟨d.insert temporary (.file content mode), some temporary, notices, .error (.placement e)⟩
  /-- The converted view stands where the path leads to. -/
  | done {place : Place} {text : String} {mode : Nat} {notices : List Notice} :
      d.locate ⟨path⟩ = .ok (.entry place) → d.isDirectory place = false → c.text = .ok text →
      d.Receives place mode →
      Saves c path d ⟨d.insert place (.file (Text.bytes text) mode), none, notices, .ok ()⟩

/-- Saving to a new file that is empty at first comes to one of these. -/
theorem saves_saveThrough (c : Conversion) (room : Option Nat) (refusesFlush : Bool)
    (refusal : Option OsError) (path : String) (d : Disk) :
    c.Saves path d (c.saveThrough ⟨[], room, refusesFlush⟩ refusal path d) := by
  cases hstage : d.stage ⟨path⟩ with
  | error err =>
    simp only [saveThrough, hstage]
    exact .failed (by simp)
  | ok stage =>
    obtain ⟨temporary, staged⟩ := stage
    obtain ⟨hlacks, rfl⟩ := Disk.exists_of_stage_ok hstage
    simp only [saveThrough, hstage, Disk.insert_insert]
    cases hrun : (Sink.run ⟨[], room, refusesFlush⟩ c.emission).outcome with
    | error err =>
      dsimp only
      rw [Disk.erase_insert hlacks]
      refine .failed ?_
      rintro e rfl
      rcases Sink.error_of_run hrun with houtcome | ⟨cause, hcause⟩
      · cases isAboutView_of_outcome houtcome
      · cases hcause
    | ok _ =>
      obtain ⟨hok, hstored⟩ := Sink.stored_of_run_ok hrun
      rw [hstored, List.nil_append]
      dsimp only
      split
      · rw [Disk.erase_insert hlacks]
        exact .failed (by simp)
      · rename_i finished hhandOn
        obtain rfl := Disk.handOn_of_ok hlacks hhandOn
        split
        · exact .unplaced hlacks
        · rename_i done hmove
          obtain ⟨place, hlocate, hslash, hdirectory, rfl⟩ := Disk.exists_of_move_ok hlacks hmove
          exact .done hlocate hdirectory (by simp [text, hok])
            (Disk.receives_find? hlacks hlocate hslash hdirectory)

/-- Saving on a disk with enough room comes to one of these. -/
theorem saves_saveTo (c : Conversion) (path : String) (d : Disk) :
    c.Saves path d (c.saveTo path d) :=
  c.saves_saveThrough none false none path d

namespace Saves

variable {c : Conversion} {path : String} {d : Disk} {saved : Saved}

/-- If saving has failed, then the disk is what it was once the error is dropped. -/
theorem drop_of_error {err : ConversionError} (h : c.Saves path d saved)
    (herr : saved.result.outcome = .error err) : saved.drop = d := by
  cases h with
  | failed => rfl
  | unplaced hlacks => exact Disk.erase_insert hlacks _
  | done => cases herr

/-- If saving has succeeded, then the converted view stands where the path leads to. -/
theorem exists_of_ok (h : c.Saves path d saved) (hok : saved.result.outcome = .ok ()) :
    ∃ place text mode, d.locate ⟨path⟩ = .ok (.entry place) ∧ c.text = .ok text ∧
      d.Receives place mode ∧ saved.drop = saved.disk ∧
      saved.disk = d.insert place (.file (Text.bytes text) mode) ∧
      saved.disk.get? place = some (.file (Text.bytes text) mode) ∧
      ∀ other, other ≠ place → saved.disk.get? other = d.get? other := by
  cases h with
  | failed | unplaced => cases hok
  | done hlocate hdirectory htext hreceives =>
    refine ⟨_, _, _, hlocate, htext, hreceives, rfl, rfl, ?_, ?_⟩
    · exact Disk.get?_insert_self d (Disk.not_standing_of_isDirectory hdirectory) _
    · intro other hother
      exact Disk.get?_insert_of_ne d hother _

end Saves

/-- **Saving is all or nothing.** Whatever the disk, the path and the view are, however much the new
file takes in and whether or not its permission bits can be set: if saving fails, at whatever stage,
then the disk is what it was once the error is dropped. It is so already when saving returns, unless
the new file could not be moved to its place; in this case the error holds the new file, which
stands where there was nothing and is all that has changed. If saving succeeds, then there is a
place that the path leads to, from the root or from the working directory, and this one place is all
that has changed. It holds a file with the converted view, which has the permission bits of the file
that it replaces or, if there was none, those asked for that the umask leaves. With no limit to what
the new file takes in and permission bits that can be set, this is `Conversion.saveTo`. -/
theorem saveThrough_all_or_nothing (c : Conversion) (room : Option Nat) (refusesFlush : Bool)
    (refusal : Option OsError) (path : String) (d : Disk) :
    let saved := c.saveThrough ⟨[], room, refusesFlush⟩ refusal path d
    (∀ err, saved.result.outcome = .error err → saved.drop = d ∧
      ((∀ e, err ≠ .placement e) → saved.held = none ∧ saved.disk = d) ∧
      ∀ e, err = .placement e → ∃ temporary content mode, saved.held = some temporary ∧
        d.get? temporary = none ∧ saved.disk = d.insert temporary (.file content mode) ∧
        ∀ other, other ≠ temporary → saved.disk.get? other = d.get? other) ∧
    (saved.result.outcome = .ok () → ∃ place text mode,
      d.locate ⟨path⟩ = .ok (.entry place) ∧ c.text = .ok text ∧ d.Receives place mode ∧
      saved.drop = saved.disk ∧ saved.disk = d.insert place (.file (Text.bytes text) mode) ∧
      saved.disk.get? place = some (.file (Text.bytes text) mode) ∧
      ∀ other, other ≠ place → saved.disk.get? other = d.get? other) := by
  intro saved
  have hsaves : c.Saves path d saved := c.saves_saveThrough room refusesFlush refusal path d
  refine ⟨fun err herr => ⟨hsaves.drop_of_error herr, ?_⟩, hsaves.exists_of_ok⟩
  clear_value saved
  cases hsaves with
  | failed hother =>
    refine ⟨fun _ => ⟨rfl, rfl⟩, ?_⟩
    rintro e rfl
    exact absurd (Except.error.inj herr) (hother e)
  | unplaced hlacks =>
    refine ⟨fun hother => absurd (Except.error.inj herr).symm (hother _), fun e _ => ?_⟩
    exact ⟨_, _, _, rfl, Disk.get?_of_lacks hlacks, rfl,
      fun other hother => Disk.get?_insert_of_ne d hother _⟩
  | done => cases herr

/-- A working directory with a directory and a file in it that only its owner may use. -/
private def chest : Disk :=
  ⟨[(["h", "d"], .directory 0o755), (["h", "f"], .file [] 0o600)], ["h"], 0o022⟩

/-- A view of one tag. -/
private def tile : Conversion := ⟨"<p/>", none, .default⟩

/-- At the directory the new file stays until the error is dropped. If its permission bits cannot be
set, then it is removed at once. Under a path from the root the file is replaced and keeps its bits.
-/
theorem saveThrough_all_or_nothing_chest :
    (∃ temporary content mode, (tile.saveTo "d" chest).held = some temporary ∧
      chest.get? temporary = none ∧
      (tile.saveTo "d" chest).disk = chest.insert temporary (.file content mode)) ∧
    (tile.saveTo "d" chest).drop = chest ∧
    (tile.saveThrough .unlimited (some .notPermitted) "f" chest).disk = chest ∧
    (tile.saveTo "/h/f" chest).disk.get? ["h", "f"] =
      some (.file (Text.bytes "// Namespaces\n\n\np() \n") 0o600) := by
  have hplacement : (tile.saveTo "d" chest).result.outcome = .error (.placement .isADirectory) := by
    decide +kernel
  have hrefused : (tile.saveThrough .unlimited (some .notPermitted) "f" chest).result.outcome =
      .error (.io (.permissions .notPermitted)) := by
    decide +kernel
  have hok : (tile.saveTo "/h/f" chest).result.outcome = .ok () := by decide +kernel
  have htile : tile.text = .ok "// Namespaces\n\n\np() \n" := by decide +kernel
  have hlocated : chest.locate ⟨"/h/f"⟩ = .ok (.entry ["h", "f"]) := by decide +kernel
  obtain ⟨hdrop, -, hheld⟩ :=
    (saveThrough_all_or_nothing tile none false none "d" chest).1 _ hplacement
  obtain ⟨-, hremoved, -⟩ :=
    (saveThrough_all_or_nothing tile none false (some .notPermitted) "f" chest).1 _ hrefused
  obtain ⟨place, text, mode, hlocate, htext, hreceives, -, -, hget, -⟩ :=
    (saveThrough_all_or_nothing tile none false none "/h/f" chest).2 hok
  obtain rfl : ["h", "f"] = place := by simpa [hlocated] using hlocate
  obtain rfl : _ = text := Except.ok.inj (htile.symm.trans htext)
  refine ⟨?_, hdrop, (hremoved (by simp)).2, ?_⟩
  · obtain ⟨temporary, content, mode, htemporary, hnone, hdisk, -⟩ := hheld _ rfl
    exact ⟨temporary, content, mode, htemporary, hnone, hdisk⟩
  · have hstanding : chest.get? ["h", "f"] = some (.file [] 0o600) := by decide
    cases hreceives with
    | replaced hfile =>
      obtain ⟨-, rfl⟩ := Entry.file.inj (Option.some.inj (hstanding.symm.trans hfile))
      exact hget
    | new hnone => cases hstanding.symm.trans hnone

end Conversion

end GroovyViews
