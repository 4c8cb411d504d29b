import GroovyViews.Proofs.Arguments
import GroovyViews.Proofs.Converted
import GroovyViews.Proofs.Saving

/-!
# A run of the program

A run that is asked to convert a file converts the text of the file and saves it, with the options
that the flags stand for. It succeeds exactly if the file can be read as text and saving succeeds,
and then it has changed the place of the output only. Every other run leaves the disk as it was.
-/

namespace GroovyViews

/-- Bytes that can be read as a text are the bytes of that text. -/
theorem Text.ofBytes?_eq_some_iff {bs : List UInt8} {s : String} :
    ofBytes? bs = some s ↔ bs = bytes s := by
  have hdata : bs = bytes s ↔ (⟨bs.toArray⟩ : ByteArray) = s.toByteArray := by
    rw [bytes, ByteArray.ext_iff, ← Array.toList_inj]
    rfl
  rw [ofBytes?, hdata, String.fromUTF8?]
  split
  · rw [Option.some_inj, ← String.toByteArray_inj]
    rfl
  · rename_i hvalid
    refine iff_of_false (by simp) fun heq => hvalid ?_
    rw [heq]
    exact s.isValidUTF8

namespace Draft

variable {content : Except OsError (List UInt8)}

/-- A file has a text if it can be read and holds the bytes of that text. -/
theorem loadedText_eq_ok_iff {text : String} :
    loadedText content = .ok text ↔ content = .ok (Text.bytes text) := by
  cases content with
  | error err => simp [loadedText]
  | ok bytes =>
    rw [loadedText, Except.ok.injEq, ← Text.ofBytes?_eq_some_iff]
    cases Text.ofBytes? bytes <;> simp

/-- A file with a text is loaded. -/
theorem load_of_ok {text : String} (h : loadedText content = .ok text) (d : Draft)
    (path : String) :
    d.load path content = ⟨[.loaded path (Text.bytes text).length],
      .ok { d with source := some text, path := some path }⟩ := by
  simp only [load, h]
  rfl

/-- A file without a text is an error. -/
theorem load_of_error {reason : LoadError} (h : loadedText content = .error reason) (d : Draft)
    (path : String) : d.load path content = .fail (.io (.unreadable path reason)) := by
  simp only [load, h]

end Draft

namespace Conversion

/-- A sequence is like its rest if its first part only gives a notice. -/
theorem alike_notice {α : Type} (n : Notice) (x : Emission α) :
    Emission.Alike Eq (Emission.notice n >>= fun _ => x) x := by
  refine ⟨?_, (Emission.Alike.refl (fun _ => rfl) x).outcome⟩
  rw [Emission.text_bind_of_ok rfl]
  exact String.empty_append

/-- Where a view comes from has no part in what it is converted to. -/
theorem alike_path (source : String) (path : Option String) (options : Options) :
    Emission.Alike Eq (emission ⟨source, path, options⟩) (emission ⟨source, none, options⟩) := by
  have hrefl {α : Type} (x : Emission α) : Emission.Alike Eq x x := .refl (fun _ => rfl) x
  refine .bind (hrefl _) fun view => .bind (hrefl _) fun start => ?_
  cases path with
  | none => exact hrefl _
  | some path => exact alike_notice _ _

variable {c c' : Conversion}

/-- Conversions that are alike do the same to a disk and end alike. -/
theorem saveTo_of_alike (h : c.emission.Alike Eq c'.emission) (path : String) (d : Disk) :
    (c.saveTo path d).disk = (c'.saveTo path d).disk ∧
      (c.saveTo path d).result.outcome = (c'.saveTo path d).result.outcome := by
  simp only [saveTo, saveThrough, Sink.run_unlimited, h.text, h.outcome_eq]
  split
  · exact ⟨rfl, rfl⟩
  split
  · exact ⟨rfl, rfl⟩
  split
  · exact ⟨rfl, rfl⟩
  split <;> exact ⟨rfl, rfl⟩

end Conversion

namespace CommandLine

/-- The file to convert is one with a text, which is what is converted, or there is an error. -/
theorem conversion_cases (input : String) (options : Options)
    (content : Except OsError (List UInt8)) :
    (∃ source, content = .ok (Text.bytes source) ∧
      (conversion input options content).outcome = .ok ⟨source, some input, options⟩) ∨
    (¬∃ source, content = .ok (Text.bytes source)) ∧
      ∃ err, (conversion input options content).outcome = .error err := by
  cases htext : Draft.loadedText content with
  | ok source =>
    refine .inl ⟨source, Draft.loadedText_eq_ok_iff.mp htext, ?_⟩
    simp only [conversion, Draft.load_of_ok htext]
    rfl
  | error reason =>
    refine .inr ⟨?_, .io (.unreadable input reason), ?_⟩
    · rintro ⟨source, h⟩
      rw [Draft.loadedText_eq_ok_iff.mpr h] at htext
      cases htext
    · simp only [conversion, Draft.load_of_error htext]
      rfl

/-- A run whose arguments ask for no conversion changes nothing. -/
theorem run_of_not_asks {args : List String}
    (h : ¬∃ input output strict escape, Arguments.Asks args input output strict escape) (d : Disk) :
    (run args d).disk = d ∧ ((run args d).exit = 2 ∨
      (run args d).exit = 0 ∧ (run args d).output ∈ [helpText, versionText]) := by
  unfold run
  cases hargs : Invocation.ofArguments args with
  | help => exact ⟨rfl, .inr ⟨rfl, by simp⟩⟩
  | version => exact ⟨rfl, .inr ⟨rfl, by simp⟩⟩
  | misuse => exact ⟨rfl, .inl rfl⟩
  | convert input output options =>
    obtain ⟨strict, escape, rfl⟩ := options.exists_flags
    exact absurd ⟨input, output, strict, escape, Arguments.ofArguments_eq_convert_iff.mp hargs⟩ h

/-- A run that is asked for a conversion saves the converted text of the input, or it fails and
changes nothing. -/
theorem run_of_asks {args : List String} {input output : String} {strict escape : Bool}
    (h : Arguments.Asks args input output strict escape) (d : Disk) :
    (∃ source, d.read ⟨input⟩ = .ok (Text.bytes source) ∧
      (Conversion.saveTo ⟨source, none, .ofFlags strict escape⟩ output d).result.outcome = .ok () ∧
      (run args d).exit = 0 ∧
      (run args d).disk =
        (Conversion.saveTo ⟨source, none, .ofFlags strict escape⟩ output d).disk) ∨
    (¬∃ source, d.read ⟨input⟩ = .ok (Text.bytes source) ∧
      (Conversion.saveTo ⟨source, none, .ofFlags strict escape⟩ output d).result.outcome = .ok ()) ∧
      (run args d).exit = 1 ∧ (run args d).disk = d := by
  have hargs := Arguments.ofArguments_eq_convert_iff.mpr h
  simp only [run, hargs]
  rcases conversion_cases input (.ofFlags strict escape) (d.read ⟨input⟩) with
    ⟨source, hread, hconversion⟩ | ⟨hunreadable, err, hconversion⟩
  · rw [hconversion]
    dsimp only
    obtain ⟨hdisk, houtcome⟩ := Conversion.saveTo_of_alike
      (Conversion.alike_path source (some input) (.ofFlags strict escape)) output d
    have hsource : ∀ other, d.read ⟨input⟩ = .ok (Text.bytes other) → other = source := by
      intro other hother
      rw [hread] at hother
      exact (Text.bytes_inj.mp (Except.ok.inj hother)).symm
    have hsaves := Conversion.saves_saveTo ⟨source, some input, .ofFlags strict escape⟩ output d
    cases hend : (Conversion.saveTo ⟨source, some input, .ofFlags strict escape⟩ output
        d).result.outcome with
    | error err =>
      refine .inr ⟨?_, rfl, hsaves.drop_of_error hend⟩
      rintro ⟨other, hother, hsaved⟩
      rw [hsource other hother, ← houtcome, hend] at hsaved
      cases hsaved
    | ok _ => exact .inl ⟨source, hread, houtcome ▸ hend, rfl, hdisk⟩
  · rw [hconversion]
    exact .inr ⟨fun ⟨source, hread, _⟩ => hunreadable ⟨source, hread⟩, rfl, rfl⟩

/-- **The command line converts and saves, or leaves the disk alone.** Let the arguments name an
input and an output and set the flags. Then the run succeeds exactly if the input can be read as
text and saving this text, converted with the options of the flags, succeeds. If it does, the disk
differs only at the place that the output leads to, where the converted text is now; otherwise the
exit status is 1 and the disk is what it was. If the arguments ask for nothing of this kind, the
disk is what it was, too: they are refused with status 2, or help or the version is printed. And
flags may stand anywhere among the paths in front of a double hyphen: the whole report is the
same. -/
theorem run_converts_or_keeps (args : List String) (d : Disk) :
    (∀ input output strict escape, Arguments.Asks args input output strict escape →
      ((run args d).exit = 0 ↔ ∃ source, d.read ⟨input⟩ = .ok (Text.bytes source) ∧
        (Conversion.saveTo ⟨source, none, .ofFlags strict escape⟩ output d).result.outcome =
          .ok ()) ∧
      ((run args d).exit = 0 → ∃ source place text mode,
        d.read ⟨input⟩ = .ok (Text.bytes source) ∧ d.locate ⟨output⟩ = .ok (.entry place) ∧
        Conversion.text ⟨source, none, .ofFlags strict escape⟩ = .ok text ∧
        (run args d).disk.get? place = some (.file (Text.bytes text) mode) ∧
        ∀ other, other ≠ place → (run args d).disk.get? other = d.get? other) ∧
      ((run args d).exit ≠ 0 → (run args d).exit = 1 ∧ (run args d).disk = d)) ∧
    ((¬∃ input output strict escape, Arguments.Asks args input output strict escape) →
      (run args d).disk = d ∧ ((run args d).exit = 2 ∨
        (run args d).exit = 0 ∧ (run args d).output ∈ [helpText, versionText])) ∧
    (∀ first words moved rest, args = first ++ words ++ rest → "--" ∉ first →
      (∀ arg ∈ words, Arguments.isFlag arg ∨ Arguments.isPath arg) → words.Perm moved →
      words.filter Arguments.isPath = moved.filter Arguments.isPath →
      run (first ++ moved ++ rest) d = run args d) := by
  refine ⟨?_, fun h => run_of_not_asks h d, ?_⟩
  · intro input output strict escape h
    rcases run_of_asks h d with ⟨source, hread, hsaved, hexit, hdisk⟩ | ⟨hno, hexit, hdisk⟩
    · refine ⟨iff_of_true hexit ⟨source, hread, hsaved⟩, fun _ => ?_, fun hne => absurd hexit hne⟩
      obtain ⟨place, text, mode, hlocate, htext, -, -, -, hthere, helsewhere⟩ :=
        (Conversion.saves_saveTo _ output d).exists_of_ok hsaved
      rw [hdisk]
      exact ⟨source, place, text, mode, hread, hlocate, htext, hthere, helsewhere⟩
    · have hne : (run args d).exit ≠ 0 := by simp [hexit]
      exact ⟨iff_of_false hne hno, fun h => absurd h hne, fun _ => ⟨hexit, hdisk⟩⟩
  · rintro first words moved rest rfl hfirst hwords hperm hpaths
    have hread := Arguments.readAll_append_congr hfirst
      (Arguments.readAll_of_perm hwords hperm hpaths rest) Arguments.empty
    have hargs : Invocation.ofArguments (first ++ moved ++ rest) =
        Invocation.ofArguments (first ++ words ++ rest) := by
      rw [Invocation.ofArguments, Invocation.ofArguments, List.append_assoc, List.append_assoc,
        hread]
    rw [run, run, hargs]

/-- A disk with a view to convert and an older result. -/
private def workplace : Disk :=
  ⟨[(["h", "in"], .file (Text.bytes "<p title='$'>x</p>") 0o644), (["h", "out"], .file [] 0o600)],
    ["h"], 0o022⟩

/-- With a flag among the paths and a path behind a double hyphen the view is converted with that
flag, wherever the flag stands, and the older result is replaced. To ask for help as well changes
nothing. -/
theorem run_converts_or_keeps_workplace :
    Arguments.Asks ["in", "--escape-strings", "--", "out"] "in" "out" false true ∧
    (run ["in", "--escape-strings", "--", "out"] workplace).exit = 0 ∧
    (∃ source place text mode, workplace.read ⟨"in"⟩ = .ok (Text.bytes source) ∧
      workplace.locate ⟨"out"⟩ = .ok (.entry place) ∧
      Conversion.text ⟨source, none, .ofFlags false true⟩ = .ok text ∧
      (run ["in", "--escape-strings", "--", "out"] workplace).disk.get? place =
        some (.file (Text.bytes text) mode) ∧
      ∀ other, other ≠ place →
        (run ["in", "--escape-strings", "--", "out"] workplace).disk.get? other =
          workplace.get? other) ∧
    run ["--escape-strings", "in", "--", "out"] workplace =
      run ["in", "--escape-strings", "--", "out"] workplace ∧
    (run ["in", "--help", "out"] workplace).disk = workplace := by
  have hasks : Arguments.Asks ["in", "--escape-strings", "--", "out"] "in" "out" false true :=
    ⟨["in", "--escape-strings"], ["out"], .inr rfl, by decide, by decide, by decide, by decide,
      by decide, by decide⟩
  have hexit : (run ["in", "--escape-strings", "--", "out"] workplace).exit = 0 := by
    decide +kernel
  obtain ⟨hconverts, -, hmoved⟩ :=
    run_converts_or_keeps ["in", "--escape-strings", "--", "out"] workplace
  have hhelp : ¬∃ input output strict escape,
      Arguments.Asks ["in", "--help", "out"] input output strict escape := by
    rintro ⟨input, output, strict, escape, h⟩
    have hargs : Invocation.ofArguments ["in", "--help", "out"] = .help := by decide
    rw [Arguments.ofArguments_eq_convert_iff.mpr h] at hargs
    cases hargs
  refine ⟨hasks, hexit, (hconverts _ _ _ _ hasks).2.1 hexit, ?_, ?_⟩
  · exact hmoved [] ["in", "--escape-strings"] ["--escape-strings", "in"] ["--", "out"] rfl
      (by decide) (by decide) (by decide) (by decide)
  · exact ((run_converts_or_keeps ["in", "--help", "out"] workplace).2.1 hhelp).1

end CommandLine

end GroovyViews
