import GroovyViews.Conversion
import GroovyViews.Proofs.Masking
import GroovyViews.Proofs.Walk
import Mathlib.Control.Monad.Basic
import Mathlib.Data.List.TakeWhile

/-!
# How a conversion ends

A conversion looks at the text, then at the declarations, then for the element to start at, and then
at the elements in document order, and ends with the first thing that is wrong. Up to the elements
nothing is written. After that everything is written that stands before the first element with
something wrong, so that the blocks around this element stay open.

What is wrong with an element depends on how its attributes are looked up. The lines take the first
attribute with the right local name, in whatever namespace it is. An attribute that ought to be
there without a namespace can therefore be masked by one that only shares its local name.
-/

namespace GroovyViews

/-- How a conversion ends and what it has written by then. -/
structure Ending where
  /-- Success or the error. -/
  outcome : Except ConversionError Unit
  /-- The bytes written. -/
  written : List UInt8
  deriving DecidableEq

/-- How a run on a sink ends and what is then in the sink. -/
def SinkRun.ending (run : SinkRun) : Ending := ⟨run.outcome, run.sink.stored⟩

/-- The element to start at: the root, or its first child element if the root is a wrapper. -/
def Xml.Document.start? (d : Xml.Document) : Option Xml.Element :=
  if View.isWrapper d.root then d.root.children.head? else some d.root

namespace Writer

/-- The first element in document order with something wrong. -/
def firstWrong? (w : Writer) (look : Lookup) (start : Xml.Element) : Option Xml.Site :=
  start.sites.find? fun s => (w.complaint? look s.element).isSome

/-- The visits of a walk that come before the first element with something wrong. -/
def cleanVisits (w : Writer) (look : Lookup) (start : Xml.Element) : List Xml.Visit :=
  start.visits.takeWhile fun v => (w.objection? look v).isNone

/-- The ending of a conversion from an element on: the complaint about the first element with
something wrong, if there is one, and what the preamble and the visits before it write. -/
def ending (w : Writer) (look : Lookup) (start : Xml.Element) : Ending where
  outcome := match (w.firstWrong? look start).bind fun s => w.complaint? look s.element with
    | none => .ok ()
    | some err => .error err
  written := Text.bytes (Emission.text w.preamble ++
    String.join ((w.cleanVisits look start).map (w.visitText 0)))

/-- No attribute masks what the first element with something wrong is missing: where that element
lacks an attribute without a namespace, it has none of that local name in any namespace. -/
def Unmasked (w : Writer) (start : Xml.Element) : Prop :=
  ∀ s name, w.firstWrong? Xml.Element.plainAttr? start = some s →
    w.complaint? Xml.Element.plainAttr? s.element =
      some (.view (.missingAttribute name s.element.shownName s.element.position)) →
    s.element.attr? name = none

end Writer

namespace Conversion

/-- The table and the element that a text gives to start from, or what is wrong before any element
is looked at: the text, then its declarations, then a wrapper with nothing in it. -/
def beginning (source : String) : Except ViewError (PrefixTable × Xml.Element) :=
  match Xml.Document.parse source with
  | .error fault => .error (.malformed fault)
  | .ok d =>
    match (PrefixTable.ofDocument d).outcome with
    | .error conflict => .error conflict
    | .ok table =>
      match d.start? with
      | none => .error (.emptyWrapper d.root.shownName)
      | some start => .ok (table, start)

/-- What a conversion starts from: the beginning of its text, with the options passed on. -/
def entry (c : Conversion) : Except ViewError (Writer × Xml.Element) :=
  (beginning c.source).map fun first => (⟨first.1, c.options⟩, first.2)

/-- The ending of a conversion: nothing is written before there is something to start from. -/
def ending (c : Conversion) (look : Lookup) : Ending :=
  match c.entry with
  | .error err => ⟨.error (.view err), []⟩
  | .ok (w, start) => w.ending look start

end Conversion

namespace Writer

variable {w : Writer} {look : Lookup} {start : Xml.Element}

/-- Either there is nothing wrong with any element, or the walk comes to a first one with something
wrong. -/
theorem clean_or_exists_first (w : Writer) (look : Lookup) (start : Xml.Element) :
    (∀ s ∈ start.sites, w.complaint? look s.element = none) ∨
    ∃ before s after err, start.visits = before ++ .enter s :: after ∧
      (∀ t, .enter t ∈ before → w.complaint? look t.element = none) ∧
      w.complaint? look s.element = some err := by
  cases hfirst : w.firstWrong? look start with
  | none =>
    refine .inl fun s hs => ?_
    simpa using List.find?_eq_none.mp hfirst s hs
  | some s =>
    obtain ⟨hwrong, earlier, later, hsites, hearlier⟩ := List.find?_eq_some_iff_append.mp hfirst
    obtain ⟨err, herr⟩ := Option.isSome_iff_exists.mp hwrong
    obtain ⟨before, after, hvisits, hbefore⟩ := Xml.Element.exists_visits_of_sites hsites
    refine .inr ⟨before, s, after, err, hvisits, fun t ht => ?_, herr⟩
    have hmem : t ∈ earlier := hbefore ▸ Xml.Visit.mem_entered.mpr ht
    simpa using hearlier t hmem

/-- The ending if there is nothing wrong with any element. -/
theorem ending_of_clean (hclean : ∀ s ∈ start.sites, w.complaint? look s.element = none) :
    w.ending look start = ⟨.ok (), Text.bytes (Emission.text w.preamble ++
      String.join (start.visits.map (w.visitText 0)))⟩ := by
  have hfirst : w.firstWrong? look start = none := by
    refine List.find?_eq_none.mpr fun s hs => ?_
    simp [hclean s hs]
  have hvisits : w.cleanVisits look start = start.visits := by
    refine List.takeWhile_eq_self_iff.mpr fun v hv => ?_
    have hnone := objection?_eq_none (fun s hs => hclean s (Xml.Element.mem_sites.mpr hs)) v hv
    rw [hnone, Option.isNone_none]
  rw [ending, hfirst, hvisits]
  rfl

section First

variable {before after : List Xml.Visit} {s : Xml.Site}
  (hvisits : start.visits = before ++ .enter s :: after)
  (hclean : ∀ t, .enter t ∈ before → w.complaint? look t.element = none)

include hvisits hclean

/-- The first element with something wrong is where the walk first comes to one. -/
theorem firstWrong?_eq {err : ConversionError} (herr : w.complaint? look s.element = some err) :
    w.firstWrong? look start = some s := by
  have hbefore : (before.filterMap Xml.Visit.entered?).find?
      (fun s => (w.complaint? look s.element).isSome) = none := by
    refine List.find?_eq_none.mpr fun t ht => ?_
    simp [hclean t (Xml.Visit.mem_entered.mp ht)]
  simp [firstWrong?, Xml.Element.sites_of_visits hvisits, List.find?_append, hbefore, herr]

/-- The visits before the first element with something wrong begin with those before a given one, if
nothing is wrong up to there. -/
theorem cleanVisits_eq : w.cleanVisits look start =
    before ++ (.enter s :: after).takeWhile fun v => (w.objection? look v).isNone := by
  have hpass : ∀ v ∈ before, (w.objection? look v).isNone = true := by
    intro v hv
    rw [objection?_eq_none hclean v hv, Option.isNone_none]
  rw [cleanVisits, hvisits, List.takeWhile_append_of_pos hpass]

/-- The ending if there is something wrong with an element. -/
theorem ending_of_complaint {err : ConversionError}
    (herr : w.complaint? look s.element = some err) :
    w.ending look start = ⟨.error err, Text.bytes (Emission.text w.preamble ++
      String.join (before.map (w.visitText 0)))⟩ := by
  have hstop : (w.objection? look (.enter s)).isNone = false := by simp [objection?, herr]
  have hcut : w.cleanVisits look start = before := by
    rw [cleanVisits_eq hvisits hclean, List.takeWhile_cons, hstop]
    simp
  rw [ending, firstWrong?_eq hvisits hclean herr, Option.bind_some, herr, hcut]

/-- If there is nothing wrong with the next element either, then it is written as well. -/
theorem length_written_of_clean (hs : w.complaint? look s.element = none) :
    (Text.bytes (Emission.text w.preamble ++ String.join (before.map (w.visitText 0)))).length +
      (Text.bytes (w.visitText 0 (.enter s))).length ≤ (w.ending look start).written.length := by
  have hpass : (w.objection? look (.enter s)).isNone = true := by simp [objection?, hs]
  have hcut : w.cleanVisits look start =
      before ++ .enter s :: after.takeWhile fun v => (w.objection? look v).isNone := by
    rw [cleanVisits_eq hvisits hclean, List.takeWhile_cons, hpass, if_pos rfl]
  rw [ending, hcut]
  simp only [List.map_append, List.map_cons, String.join_append, String.join_cons,
    Text.bytes_append, List.length_append]
  omega

end First

/-- An element that writes a line writes at least one byte. -/
theorem length_visitText_pos {s : Xml.Site} (hs : w.complaint? Xml.Element.attr? s.element = none)
    (hline : w.writesLine s.element = true) :
    0 < (Text.bytes (w.visitText 0 (.enter s))).length := by
  obtain ⟨role, st, -, -, hsome, htext⟩ := exists_visitText_eq 0 hs
  obtain ⟨statement, rfl⟩ := Option.isSome_iff_exists.mp (hsome.symm.trans hline)
  have hfeed : (Text.bytes "\n").length = 1 := by decide
  rw [htext]
  simp only [lineOf, Option.map_some, Option.toList_some, List.map_cons, List.map_nil,
    String.join_cons, String.join_nil, Step.text, Text.bytes_append, List.length_append, hfeed]
  omega

/-- The ending is the same whether namespaces count or not exactly if nothing masks what the first
element with something wrong is missing. A masked element shows either in the error or in its own
line, which is written where there should be nothing. -/
theorem ending_eq_iff (w : Writer) (start : Xml.Element) :
    w.ending Xml.Element.attr? start = w.ending Xml.Element.plainAttr? start ↔
      w.Unmasked start := by
  rcases w.clean_or_exists_first Xml.Element.plainAttr? start with
    hclean | ⟨before, s, after, err, hvisits, hclean, herr⟩
  · have hattr : ∀ s ∈ start.sites, w.complaint? Xml.Element.attr? s.element = none :=
      fun s hs => complaint?_attr_of_plain (hclean s hs)
    rw [ending_of_clean hclean, ending_of_clean hattr]
    refine ⟨fun _ => ?_, fun _ => rfl⟩
    intro s name hfirst hmissing
    have hmem : s ∈ start.sites := List.mem_of_find?_eq_some hfirst
    simp [hclean s hmem] at hmissing
  · have hattr : ∀ t, .enter t ∈ before → w.complaint? Xml.Element.attr? t.element = none :=
      fun t ht => complaint?_attr_of_plain (hclean t ht)
    have hunmasked : w.Unmasked start ↔ w.complaint? Xml.Element.attr? s.element = some err := by
      rw [complaint?_attr_iff herr, Unmasked, firstWrong?_eq hvisits hclean herr]
      constructor
      · intro h name hname
        exact h s name rfl (by rw [herr, hname])
      · rintro h t name ht hname
        obtain rfl : s = t := Option.some.inj ht
        exact h name (Option.some.inj (herr.symm.trans hname))
    rw [hunmasked, ending_of_complaint hvisits hclean herr]
    cases hs : w.complaint? Xml.Element.attr? s.element with
    | some other => simp [ending_of_complaint hvisits hattr hs]
    | none =>
      have hlength := length_written_of_clean hvisits hattr hs
      have hpos := length_visitText_pos hs (writesLine_of_masked herr hs)
      simp only [reduceCtorEq, iff_false]
      intro heq
      simp only [heq] at hlength
      omega

/-- Writing an element ends with the complaint about the first element with something wrong, and
writes what the visits before it write. -/
theorem element_eq_ending (w : Writer) (start : Xml.Element) :
    w.ending Xml.Element.attr? start = ⟨(w.element 0 start).outcome,
      Text.bytes (Emission.text w.preamble ++ Emission.text (w.element 0 start))⟩ := by
  rcases w.clean_or_exists_first Xml.Element.attr? start with
    hclean | ⟨before, s, after, err, hvisits, hclean, herr⟩
  · obtain ⟨houtcome, htext⟩ := element_of_clean 0 hclean
    rw [ending_of_clean hclean, houtcome, htext]
  · obtain ⟨houtcome, htext⟩ := element_of_complaint 0 hvisits hclean herr
    rw [ending_of_complaint hvisits hclean herr, houtcome, htext]

/-- The step of the preamble for a declaration. -/
def preambleStep (b : Xml.Binding) : Step :=
  if b.pfx.isEmpty then .notice (.defaultNamespaceOmitted b.uri) else .line 0 (preambleLine b)

/-- The preamble is a heading, a step for each declaration and two empty lines. -/
theorem preamble_eq (w : Writer) :
    w.preamble = ⟨.line 0 "// Namespaces" ::
      (w.prefixes.entries.map preambleStep ++ [.line 0 "", .line 0 ""]), .ok ()⟩ := by
  have hstep : (fun b : Xml.Binding =>
      if b.pfx.isEmpty then Emission.notice (.defaultNamespaceOmitted b.uri)
        else Emission.line 0 (preambleLine b)) = fun b => .report (preambleStep b) := by
    funext b
    unfold preambleStep
    cases b.pfx.isEmpty <;> rfl
  have hforM := Traced.forM_of_ok (l := w.prefixes.entries) fun b _ =>
    Traced.outcome_report (ε := ConversionError) (preambleStep b)
  rw [← List.forM_eq_forM] at hforM
  unfold preamble
  rw [hstep, hforM]
  simp only [Traced.trace_report, ← List.map_eq_flatMap]
  rfl

/-- The preamble always succeeds. -/
theorem outcome_preamble (w : Writer) : w.preamble.outcome = .ok () := by
  rw [preamble_eq]

/-- The writer with its options changed. -/
def mapOptions (w : Writer) (change : Options → Options) : Writer :=
  { w with options := change w.options }

/-- Writes a view from an element on. -/
def whole (w : Writer) (start : Xml.Element) : Emission Unit := do
  w.preamble
  w.element 0 start
  .report .flush

/-- Writing a view from an element on ends as its elements tell. -/
theorem whole_eq_ending (w : Writer) (start : Xml.Element) :
    w.ending Xml.Element.attr? start =
      ⟨(w.whole start).outcome, Text.bytes (Emission.text (w.whole start))⟩ := by
  rw [element_eq_ending, whole, Emission.text_bind_of_ok w.outcome_preamble,
    Traced.bind_of_ok w.outcome_preamble]
  cases helement : (w.element 0 start).outcome with
  | ok _ =>
    rw [Emission.text_bind_of_ok helement, Traced.bind_of_ok helement]
    simp [Emission.text, Step.text, Traced.after]
  | error err =>
    rw [Emission.text_bind_of_error helement, Traced.bind_of_error helement]
    rfl

end Writer

/-- The view gives the element to start at. If there is none, the wrapper is empty. -/
theorem View.outcome_start (v : View) :
    v.start.outcome = match v.document.start? with
      | none => .error (.emptyWrapper v.document.root.shownName)
      | some e => .ok e := by
  unfold View.start Xml.Document.start?
  cases hwrapper : View.isWrapper v.document.root with
  | false => simp [hwrapper]
  | true =>
    rw [if_pos hwrapper, if_pos rfl]
    cases v.document.root.children with
    | nil => rfl
    | cons first others => cases others <;> rfl

namespace Conversion

/-- Reads what a conversion starts from. -/
def prepare (c : Conversion) : Reading (Writer × Xml.Element) := do
  let view ← View.read c.source
  let start ← view.start
  return (⟨view.prefixes, c.options⟩, start)

/-- A conversion reads what it starts from, gives a notice of its file if there is one, and then
writes. -/
theorem emission_eq (c : Conversion) :
    c.emission = Emission.ofReading c.prepare >>= fun (w, start) => (w.whole start).after
      (c.path.map fun path => Step.notice (.converting path start.shownName)).toList := by
  unfold emission
  simp only [prepare, Emission.ofReading_bind, bind_assoc]
  cases c.path <;> rfl

/-- The outcome of the reading. -/
theorem outcome_prepare (c : Conversion) : c.prepare.outcome = c.entry := by
  simp only [prepare, entry, beginning, View.read, Traced.outcome_bind, Traced.outcome_ofExcept,
    View.outcome_start]
  cases Xml.Document.parse c.source with
  | error fault => rfl
  | ok d =>
    cases htable : (PrefixTable.ofDocument d).outcome with
    | error conflict => simp [Except.bind, Except.map, htable]
    | ok table => cases hstart : d.start? <;> simp [Except.bind, Except.map, htable, hstart]

/-- What a conversion starts from, once its view has been read. -/
theorem entry_of_read {c : Conversion} {v : View} (h : (View.read c.source).outcome = .ok v) :
    c.entry = match v.document.start? with
      | none => .error (.emptyWrapper v.document.root.shownName)
      | some start => .ok (⟨v.prefixes, c.options⟩, start) := by
  rw [← outcome_prepare, prepare, Traced.outcome_bind, h]
  simp only [Except.bind, Traced.outcome_bind, View.outcome_start]
  cases v.document.start? <;> rfl

/-- A conversion ends as its elements tell, with attributes looked up in whatever namespace. -/
theorem ending_eq (c : Conversion) :
    (Sink.unlimited.run c.emission).ending = c.ending Xml.Element.attr? := by
  rw [Sink.run_unlimited, SinkRun.ending, ending]
  cases hentry : c.entry with
  | error err =>
    have hreading : (Emission.ofReading c.prepare).outcome = .error (.view err) := by
      simp [Emission.ofReading, Traced.adapt, outcome_prepare, hentry]
    rw [emission_eq, Emission.text_bind_of_error hreading, Traced.bind_of_error hreading]
    simp
  | ok entry =>
    obtain ⟨w, start⟩ := entry
    have hreading : (Emission.ofReading c.prepare).outcome = .ok (w, start) := by
      simp [Emission.ofReading, Traced.adapt, outcome_prepare, hentry]
    have hnotice : Emission.text ((w.whole start).after
        (c.path.map fun path => Step.notice (.converting path start.shownName)).toList) =
        Emission.text (w.whole start) := by
      cases c.path <;> simp [Emission.text, Traced.after, Step.text]
    rw [emission_eq, Emission.text_bind_of_ok hreading, Traced.bind_of_ok hreading]
    simp only [hnotice, Emission.text_ofReading, String.empty_append, w.whole_eq_ending start]
    rfl

/-- A conversion by itself ends with an error that lies in the view, if it ends with one. -/
theorem isAboutView_of_outcome {c : Conversion} {err : ConversionError}
    (h : c.emission.outcome = .error err) : err.isAboutView = true := by
  have hending := congrArg Ending.outcome c.ending_eq
  rw [Sink.run_unlimited, SinkRun.ending, h, ending] at hending
  cases hentry : c.entry with
  | error cause =>
    rw [hentry] at hending
    cases hending
    rfl
  | ok entry =>
    obtain ⟨w, start⟩ := entry
    rw [hentry] at hending
    rcases w.clean_or_exists_first Xml.Element.attr? start with
      hclean | ⟨before, s, after, cause, hvisits, hclean, hcause⟩
    · simp [Writer.ending_of_clean hclean] at hending
    · obtain rfl : err = cause := by
        simpa [Writer.ending_of_complaint hvisits hclean hcause] using hending
      exact Writer.isAboutView_of_complaint? hcause

/-- The conversion with its options changed. -/
def mapOptions (c : Conversion) (change : Options → Options) : Conversion :=
  { c with options := change c.options }

/-- The options have no part in what a conversion starts from but to be passed on. -/
theorem entry_mapOptions (c : Conversion) (change : Options → Options) :
    (c.mapOptions change).entry =
      c.entry.map fun entry => (entry.1.mapOptions change, entry.2) := by
  have hsource : (c.mapOptions change).source = c.source := rfl
  rw [entry, entry, hsource]
  cases beginning c.source <;> rfl

/-- How a conversion with its options changed ends, beside what the conversion starts from. -/
theorem ending_mapOptions (c : Conversion) (change : Options → Options) :
    (Sink.unlimited.run (c.mapOptions change).emission).ending = match c.entry with
      | .error err => ⟨.error (.view err), []⟩
      | .ok (w, start) => (w.mapOptions change).ending Xml.Element.attr? start := by
  rw [ending_eq, ending, entry_mapOptions]
  cases c.entry <;> rfl

/-- **How a conversion ends.** On a sink without limits it ends with the first thing that is wrong:
the text, its declarations, an empty wrapper, and then the first element in document order that has
something wrong; it succeeds if there is nothing of all this. Before the elements nothing is
written, and then everything that comes before the first element with something wrong. Attributes
are looked up in whatever namespace. The ending is the one that attributes without a namespace would
give exactly if nothing masks what the first element with something wrong is missing. -/
theorem run_unlimited_ending (c : Conversion) :
    (Sink.unlimited.run c.emission).ending = c.ending Xml.Element.attr? ∧
      ((Sink.unlimited.run c.emission).ending = c.ending Xml.Element.plainAttr? ↔
        ∀ w start, c.entry = .ok (w, start) → w.Unmasked start) := by
  refine ⟨c.ending_eq, ?_⟩
  rw [ending_eq, ending, ending]
  cases hentry : c.entry with
  | error err => simp
  | ok entry =>
    obtain ⟨w, start⟩ := entry
    simp [Writer.ending_eq_iff]

/-- An `if` whose only test is in a namespace of its own is converted as if that were its test,
where it ought to be refused for want of one. -/
theorem ending_masked_test :
    let c : Conversion := ⟨"<j:if xmlns:j=\"jelly:core\" xmlns:x=\"urn:x\" x:test=\"$\x7ba\x7d\"/>",
      none, .default⟩
    let preamble := "// Namespaces\nj = namespace(\"jelly:core\")\nx = namespace(\"urn:x\")\n\n\n"
    (Sink.unlimited.run c.emission).ending = ⟨.ok (), Text.bytes (preamble ++ "if(a)\n")⟩ ∧
      c.ending Xml.Element.plainAttr? =
        ⟨.error (.view (.missingAttribute "test" "j:if" ⟨1, 1⟩)), Text.bytes preamble⟩ := by
  decide +kernel

end Conversion

end GroovyViews
