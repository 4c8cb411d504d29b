import GroovyViews.Proofs.Account
import GroovyViews.Proofs.Ending
import GroovyViews.Proofs.Qualifiers

/-!
# Warnings

Whatever a conversion leaves out of its result it warns of: the other child elements of a wrapper, a
default namespace, control tags that are not supported, and the content of static calls as far as it
has no block to go in. There are no warnings beside these. They come in document order, and the
first element with something wrong ends them as it ends the writing.
-/

namespace GroovyViews

/-- A notice of something that is left out of the result. -/
def Notice.warns (n : Notice) : Bool := n.level = .warn

/-- The warning of a wrapper with more than one child element, of which only the first is converted.
-/
def Xml.Document.surplus? (d : Xml.Document) : Option Notice :=
  if View.isWrapper d.root ∧ 1 < d.root.children.length then
    d.root.children.head?.map fun first =>
      .siblingsIgnored d.root.shownName (d.root.children.length - 1) first.shownName
  else none

/-- The default namespace that a document declares. -/
def Xml.Document.defaultNamespace? (d : Xml.Document) : Option String :=
  (d.declared.find? fun b => b.pfx.isEmpty).map (·.uri)

/-- The warning of an element that is left out or that has content without a block. -/
def Xml.Element.omission? (e : Xml.Element) : Option Notice :=
  if e.name.uri.any isControlUri then
    match Control.ofLocalName e.name.localName with
    | .other _ => some (.tagSkipped e.shownName e.position)
    | .invokeStatic =>
      if e.hasChildren then some (.contentWithoutBlock e.shownName e.position) else none
    | .ifTag | .choose | .when | .otherwise => none
  else none

/-- The warnings among some steps. -/
def warningsOf (steps : List Step) : List Notice :=
  (steps.filterMap Step.notice?).filter Notice.warns

/-- The warnings of steps that follow others follow theirs. -/
@[simp] theorem warningsOf_append (first second : List Step) :
    warningsOf (first ++ second) = warningsOf first ++ warningsOf second := by
  simp [warningsOf, List.filterMap_append]

/-- The warnings among steps that are notices are those among the notices. -/
@[simp] theorem warningsOf_notices (notices : List Notice) :
    warningsOf (notices.map Step.notice) = notices.filter Notice.warns := by
  rw [warningsOf, List.filterMap_map]
  exact congrArg (List.filter _) (List.filterMap_some)

/-- A line is no warning. -/
@[simp] theorem warningsOf_line (indent : Nat) (text : String) (steps : List Step) :
    warningsOf (.line indent text :: steps) = warningsOf steps := rfl

/-- Parts that come one after the other warn one after the other. -/
theorem warningsOf_flatMap {β : Type} (f : β → List Step) (parts : List β) :
    warningsOf (parts.flatMap f) = parts.flatMap fun b => warningsOf (f b) := by
  induction parts with
  | nil => rfl
  | cons b parts ih => simp [ih]

/-- A warning of an element names it and tells where it is. -/
theorem Xml.Element.message_of_omission {e : Xml.Element} {n : Notice} (h : e.omission? = some n) :
    ∃ before after,
      n.message = before ++ e.shownName ++ "> at " ++ e.position.describe ++ after := by
  unfold omission? at h
  split at h
  case isFalse => cases h
  case isTrue =>
    cases htag : Control.ofLocalName e.name.localName with
    | ifTag | choose | when | otherwise => simp [htag] at h
    | invokeStatic =>
      obtain ⟨-, rfl⟩ : e.hasChildren = true ∧ _ = n := by simpa [htag] using h
      exact ⟨"Children of <", " have no block to go in", rfl⟩
    | other name =>
      obtain rfl : _ = n := by simpa [htag] using h
      exact ⟨"Skipping unsupported control tag <", "", (String.append_empty).symm⟩

namespace Traced

variable {ε α β : Type}

/-- There is no warning in what a computation reports. -/
def Silent (x : Traced Notice ε α) : Prop := ∀ n ∈ x.trace, n.warns = false

/-- An outcome alone warns of nothing. -/
theorem silent_ofExcept (outcome : Except ε α) : Silent (ofExcept outcome) := by simp [Silent]

/-- A report that is no warning warns of nothing. -/
theorem silent_report {n : Notice} (h : n.warns = false) : Silent (report n : Traced _ ε Unit) := by
  simpa [Silent] using h

/-- Computations that warn of nothing do not do so in sequence. -/
theorem Silent.bind {x : Traced Notice ε α} {f : α → Traced Notice ε β} (hx : x.Silent)
    (hf : ∀ a, (f a).Silent) : (x >>= f).Silent := by
  intro n hn
  rw [trace_bind] at hn
  rcases List.mem_append.mp hn with hn | hn
  · exact hx n hn
  · cases houtcome : x.outcome with
    | ok a => exact hf a n (by simpa [houtcome] using hn)
    | error err => simp [houtcome] at hn

/-- What has no warning in it is without warnings as a part of an emission. -/
theorem Silent.filter_eq_nil {x : Traced Notice ε α} (h : x.Silent) :
    x.trace.filter Notice.warns = [] :=
  List.filter_eq_nil_iff.mpr fun n hn => by simp [h n hn]

end Traced

/-- Noting a declaration warns of nothing. -/
theorem PrefixTable.silent_note (t : PrefixTable) (b : Xml.Binding) : (t.note b).Silent := by
  refine (Traced.silent_ofExcept _).bind fun t' => ?_
  cases t.entries.contains b with
  | true => exact (Traced.silent_ofExcept (.ok ())).bind fun _ => Traced.silent_ofExcept (.ok t')
  | false => exact (Traced.silent_report rfl).bind fun _ => Traced.silent_ofExcept (.ok t')

/-- Making the table of a document warns of nothing. -/
theorem PrefixTable.silent_ofDocument (d : Xml.Document) : (ofDocument d).Silent := by
  have hfold : ∀ (declared : List Xml.Binding) (t : PrefixTable),
      (declared.foldlM note t).Silent := by
    intro declared
    induction declared with
    | nil => exact fun t => Traced.silent_ofExcept (.ok t)
    | cons b rest ih =>
      intro t
      rw [List.foldlM_cons]
      exact (t.silent_note b).bind ih
  refine (hfold _ _).bind fun t => ?_
  exact (Traced.silent_report rfl).bind fun _ => Traced.silent_ofExcept (.ok t)

namespace View

/-- Reading a view warns of nothing. -/
theorem silent_read (source : String) : (View.read source).Silent := by
  refine (Traced.silent_ofExcept _).bind fun d => (PrefixTable.silent_ofDocument d).bind fun t => ?_
  exact (Traced.silent_report rfl).bind fun _ => Traced.silent_ofExcept (.ok _)

/-- The element to start at is found with a warning if it leaves others out. -/
theorem trace_start (v : View) : v.start.trace = v.document.surplus?.toList := by
  unfold View.start Xml.Document.surplus?
  cases hwrapper : View.isWrapper v.document.root with
  | false => simp [hwrapper]
  | true =>
    simp only [hwrapper, if_true, true_and]
    cases v.document.root.children with
    | nil => rfl
    | cons first others => cases others <;> rfl

end View

namespace Writer

variable {w : Writer} {e : Xml.Element}

/-- The steps of the preamble for declarations warn of those without a prefix. -/
theorem warningsOf_preambleSteps (bindings : List Xml.Binding) :
    warningsOf (bindings.map preambleStep) =
      (bindings.filter fun b => b.pfx.isEmpty).map fun b => .defaultNamespaceOmitted b.uri := by
  induction bindings with
  | nil => rfl
  | cons b rest ih =>
    rw [List.map_cons, ← List.singleton_append, warningsOf_append, ih]
    cases hempty : b.pfx.isEmpty with
    | true => simp [warningsOf, preambleStep, hempty, Step.notice?, Notice.warns, Notice.level]
    | false => simp [warningsOf, preambleStep, hempty, Step.notice?]

/-- The preamble warns of the default namespace. -/
theorem warningsOf_preamble {d : Xml.Document} (h : w.prefixes.Represents d.declared) :
    warningsOf w.preamble.trace =
      (d.defaultNamespace?.map .defaultNamespaceOmitted).toList := by
  have hsteps : warningsOf w.preamble.trace = warningsOf (w.prefixes.entries.map preambleStep) := by
    rw [preamble_eq, warningsOf_line, warningsOf_append]
    exact List.append_nil _
  rw [hsteps, warningsOf_preambleSteps, Xml.Document.defaultNamespace?]
  cases hfind : d.declared.find? fun b => b.pfx.isEmpty with
  | none =>
    have hnone : w.prefixes.entries.filter (fun b => b.pfx.isEmpty) = [] := by
      refine List.filter_eq_nil_iff.mpr fun b hb => ?_
      exact List.find?_eq_none.mp hfind b (h.mem_iff.mp hb)
    simp [hnone]
  | some b =>
    have hpfx : b.pfx = "" := by simpa using List.find?_some hfind
    have hb := h.mem_iff.mpr (List.mem_of_find?_eq_some hfind)
    have hone : w.prefixes.entries.filter (fun b => b.pfx.isEmpty) = [b] := by
      rw [← filter_pfx_eq_singleton h.nodup_pfx hb]
      refine List.filter_congr fun a _ => ?_
      rw [Bool.eq_iff_iff]
      simp [hpfx]
    simp [hone]

/-- What is remarked on does not depend on the table. -/
theorem remark?_eq_omission? (w : Writer) (e : Xml.Element) :
    (w.role? e).bind (Role.remark? e) = e.omission? := by
  unfold role? Role.ofName Xml.Element.omission?
  cases huri : e.name.uri with
  | none => rfl
  | some uri =>
    cases hcontrol : isControlUri uri with
    | true =>
      simp only [Option.any_some, hcontrol, if_true, Except.toOption, Option.bind_some]
      cases Control.ofLocalName e.name.localName <;> rfl
    | false =>
      unfold PrefixTable.prefixOf
      cases hpfx : w.prefixes.prefixOf? uri <;>
        simp [hcontrol, hpfx, Except.map, Except.toOption, Role.remark?]

/-- The notice of a visit is no warning. -/
theorem filter_arrival (w : Writer) (indent : Nat) (e : Xml.Element) :
    (w.arrival indent e).filter Notice.warns = [] := by
  unfold arrival
  cases w.role? e <;> rfl

/-- A remark is a warning. -/
theorem filter_omission (e : Xml.Element) :
    e.omission?.toList.filter Notice.warns = e.omission?.toList := by
  refine List.filter_eq_self.mpr fun n hn => ?_
  unfold Xml.Element.omission? at hn
  split at hn
  case isFalse => simp at hn
  case isTrue =>
    split at hn
    · obtain rfl := List.mem_singleton.mp hn
      rfl
    · split at hn
      · obtain rfl := List.mem_singleton.mp hn
        rfl
      · simp at hn
    all_goals simp at hn

/-- A visit without an objection warns of what the element that it enters leaves out. -/
theorem warningsOf_visit_of_clean (indent : Nat) {v : Xml.Visit}
    (h : w.objection? Xml.Element.attr? v = none) :
    warningsOf (w.visit indent v).trace =
      (v.entered?.bind fun s => s.element.omission?).toList := by
  cases v with
  | leave s =>
    simp only [visit]
    cases w.opensBlock s.element <;> rfl
  | enter s =>
    have hline : ∀ line : Option String,
        warningsOf (line.map (Step.line (indent + s.depth))).toList = [] := by
      intro line
      cases line <;> rfl
    rw [visit_eq_visitBy, visitBy_of_clean indent h, remark?_eq_omission?, warningsOf_append,
      warningsOf_notices, List.filter_append, filter_arrival, filter_omission, hline]
    simp

/-- An objection ends its visit without a warning. -/
theorem warningsOf_visit_of_complaint (indent : Nat) {s : Xml.Site} {err : ConversionError}
    (h : w.complaint? Xml.Element.attr? s.element = some err) :
    warningsOf (w.visit indent (.enter s)).trace = [] := by
  rw [visit_eq_visitBy, visitBy_of_complaint indent h, warningsOf_notices, filter_arrival]

/-- Visits of elements with nothing wrong warn of what these leave out. -/
theorem warningsOf_visits (indent : Nat) {visits : List Xml.Visit}
    (h : ∀ s, .enter s ∈ visits → w.complaint? Xml.Element.attr? s.element = none) :
    warningsOf (visits.flatMap fun v => (w.visit indent v).trace) =
      (visits.filterMap Xml.Visit.entered?).filterMap fun s => s.element.omission? := by
  rw [warningsOf_flatMap, List.filterMap_filterMap, List.filterMap_eq_flatMap_toList]
  refine List.flatMap_congr fun v hv => ?_
  exact warningsOf_visit_of_clean indent (objection?_eq_none h v hv)

/-- The elements that a walk comes to before the first one with something wrong. -/
def cleanSites (w : Writer) (start : Xml.Element) : List Xml.Site :=
  start.sites.takeWhile fun s => (w.complaint? Xml.Element.attr? s.element).isNone

/-- The walk to the first element with something wrong enters the elements before it. -/
theorem cleanSites_eq {start : Xml.Element} {before after : List Xml.Visit} {s : Xml.Site}
    {err : ConversionError} (hvisits : start.visits = before ++ .enter s :: after)
    (hclean : ∀ t, .enter t ∈ before → w.complaint? Xml.Element.attr? t.element = none)
    (herr : w.complaint? Xml.Element.attr? s.element = some err) :
    w.cleanSites start = before.filterMap Xml.Visit.entered? ∧
      start.sites = w.cleanSites start ++ s :: after.filterMap Xml.Visit.entered? := by
  have hsites := Xml.Element.sites_of_visits hvisits
  have hpass : ∀ t ∈ before.filterMap Xml.Visit.entered?,
      (w.complaint? Xml.Element.attr? t.element).isNone = true :=
    fun t ht => by simp [hclean t (Xml.Visit.mem_entered.mp ht)]
  have hcut : w.cleanSites start = before.filterMap Xml.Visit.entered? := by
    rw [cleanSites, hsites, List.takeWhile_append_of_pos hpass, List.takeWhile_cons, herr]
    simp
  exact ⟨hcut, hcut ▸ hsites⟩

/-- Writing an element warns of what the elements in it leave out, up to the first one with
something wrong. -/
theorem warningsOf_element (w : Writer) (indent : Nat) (e : Xml.Element) :
    warningsOf (w.element indent e).trace =
      (w.cleanSites e).filterMap fun s => s.element.omission? := by
  rw [element_eq_forM]
  rcases w.clean_or_exists_first Xml.Element.attr? e with
    hclean | ⟨before, s, after, err, hvisits, hclean, herr⟩
  · have hall : w.cleanSites e = e.sites :=
      List.takeWhile_eq_self_iff.mpr fun s hs => by simp [hclean s hs]
    have hvisits := fun s hs => hclean s (Xml.Element.mem_sites.mpr hs)
    rw [Traced.forM_of_ok (visits_of_clean indent hvisits), hall]
    exact warningsOf_visits indent hvisits
  · have hs : w.objection? Xml.Element.attr? (.enter s) = some err := herr
    obtain ⟨notices, hvisit⟩ := visit_of_complaint indent hs
    rw [hvisits, Traced.forM_of_error (visits_of_clean indent hclean)
      (congrArg Traced.outcome hvisit), warningsOf_append,
      warningsOf_visit_of_complaint indent herr, List.append_nil,
      (cleanSites_eq hvisits hclean herr).1]
    exact warningsOf_visits indent hclean

/-- The writing ends with an error exactly if there is an element behind those with nothing wrong,
and then with what is wrong with that one. -/
theorem outcome_ending_eq_error_iff (w : Writer) (start : Xml.Element) (err : ConversionError) :
    (w.ending Xml.Element.attr? start).outcome = .error err ↔ ∃ s later,
      start.sites = w.cleanSites start ++ s :: later ∧
        w.complaint? Xml.Element.attr? s.element = some err := by
  rcases w.clean_or_exists_first Xml.Element.attr? start with
    hclean | ⟨before, s, after, err', hvisits, hclean, herr⟩
  · rw [ending_of_clean hclean]
    refine iff_of_false (by simp) ?_
    rintro ⟨s, later, hsites, herr⟩
    simp [hclean s (by simp [hsites])] at herr
  · have hsites := (cleanSites_eq hvisits hclean herr).2
    rw [ending_of_complaint hvisits hclean herr]
    constructor
    · intro h
      exact ⟨s, _, hsites, Except.error.inj h ▸ herr⟩
    · rintro ⟨t, later, hother, herr'⟩
      obtain ⟨rfl, -⟩ := List.cons.inj (List.append_cancel_left (hsites.symm.trans hother))
      rw [Option.some.inj (herr.symm.trans herr')]

/-- Writing a view from an element on warns of the default namespace and of what the elements leave
out. -/
theorem warningsOf_whole {d : Xml.Document} (h : w.prefixes.Represents d.declared)
    (start : Xml.Element) :
    warningsOf (w.whole start).trace =
      (d.defaultNamespace?.map .defaultNamespaceOmitted).toList ++
        (w.cleanSites start).filterMap fun s => s.element.omission? := by
  rw [whole, Traced.bind_of_ok w.outcome_preamble, Traced.after, warningsOf_append,
    warningsOf_preamble h, Traced.trace_bind, warningsOf_append, warningsOf_element]
  cases (w.element 0 start).outcome <;> simp [warningsOf, Step.notice?]

end Writer

namespace Conversion

variable {c : Conversion} {v : View} {start : Xml.Element}

/-- What a conversion starts from is read with a warning if it leaves other elements out. -/
theorem prepare_eq (hread : (View.read c.source).outcome = .ok v)
    (hstart : v.start.outcome = .ok start) :
    c.prepare = ⟨(View.read c.source).trace ++ v.document.surplus?.toList,
      .ok (⟨v.prefixes, c.options⟩, start)⟩ := by
  rw [prepare, Traced.bind_of_ok hread, Traced.bind_of_ok hstart, ← v.trace_start]
  simp [Traced.after]

/-- A wrapper with other elements gives a warning and no other notice. -/
theorem filter_surplus (d : Xml.Document) :
    d.surplus?.toList.filter Notice.warns = d.surplus?.toList := by
  unfold Xml.Document.surplus?
  split
  · cases d.root.children.head? <;> rfl
  · rfl

/-- A conversion warns of what it has left out before the writing, and then of what the writing
leaves out. -/
theorem warningsOf_emission (hread : (View.read c.source).outcome = .ok v)
    (hstart : v.start.outcome = .ok start) :
    warningsOf c.emission.trace = v.document.surplus?.toList ++
      warningsOf (Writer.whole ⟨v.prefixes, c.options⟩ start).trace := by
  have hpath : warningsOf
      (c.path.map fun path => Step.notice (.converting path start.shownName)).toList = [] := by
    cases c.path <;> rfl
  have hreading : Emission.ofReading c.prepare =
      ⟨((View.read c.source).trace ++ v.document.surplus?.toList).map Step.notice,
        .ok (⟨v.prefixes, c.options⟩, start)⟩ := by
    rw [prepare_eq hread hstart]
    rfl
  rw [emission_eq, hreading, Traced.bind_of_ok rfl]
  simp only [Traced.after, warningsOf_append, warningsOf_notices, List.filter_append,
    (View.silent_read c.source).filter_eq_nil, filter_surplus, hpath, List.nil_append]

/-- **Warnings account for everything left out.** Of a view that has been read and has an element to
start at, a conversion on a sink without limits warns as follows, and of nothing else: of the other
child elements of a wrapper if it has more than one, of the default namespace if one is declared,
and then in document order of each control tag that is not supported and each static call with child
elements, up to the first element with something wrong, which is the one that ends the run. The
warning of an element has its name and its position in it. -/
theorem warnings_of_run (c : Conversion) (v : View) (start : Xml.Element)
    (hread : (View.read c.source).outcome = .ok v) (hstart : v.start.outcome = .ok start) :
    let w : Writer := ⟨v.prefixes, c.options⟩
    (Sink.unlimited.run c.emission).notices.filter Notice.warns =
      v.document.surplus?.toList ++
        (v.document.defaultNamespace?.map .defaultNamespaceOmitted).toList ++
        (w.cleanSites start).filterMap (fun s => s.element.omission?) ∧
    (∀ err, (Sink.unlimited.run c.emission).outcome = .error err ↔ ∃ s later,
      start.sites = w.cleanSites start ++ s :: later ∧
        w.complaint? Xml.Element.attr? s.element = some err) ∧
    ∀ s ∈ w.cleanSites start, ∀ n, s.element.omission? = some n → ∃ before after, n.message =
      before ++ s.element.shownName ++ "> at " ++ s.element.position.describe ++ after := by
  intro w
  have htable := (View.represents_of_read hread).2
  refine ⟨?_, fun err => ?_, fun s _ n hn => s.element.message_of_omission hn⟩
  · rw [Sink.run_unlimited, List.append_assoc, ← w.warningsOf_whole htable]
    exact warningsOf_emission hread hstart
  · have hentry : c.entry = .ok (w, start) := by rw [← outcome_prepare, prepare_eq hread hstart]
    have hending : (Sink.unlimited.run c.emission).ending = w.ending Xml.Element.attr? start := by
      rw [ending_eq, ending, hentry]
    rw [← w.outcome_ending_eq_error_iff, ← hending]
    rfl

/-- A wrapper with three child elements, of which the first has a tag that is not supported, a
static call with content, and then an `if` without a test. -/
private def sparing : Conversion :=
  ⟨"<j:jelly xmlns:j=\"jelly:core\" xmlns=\"urn:d\"><p><j:set/><j:invokeStatic var=\"v\" " ++
    "className=\"C\" method=\"m\"><q/></j:invokeStatic><j:if/><j:set/></p><r/><s/></j:jelly>",
    none, .default⟩

/-- What is left out after the `if` is not warned of. -/
theorem warnings_of_run_sparing :
    ∃ v start, (View.read sparing.source).outcome = .ok v ∧ v.start.outcome = .ok start ∧
      (Sink.unlimited.run sparing.emission).notices.filter Notice.warns =
        [.siblingsIgnored "j:jelly" 2 "p", .defaultNamespaceOmitted "urn:d",
          .tagSkipped "j:set" ⟨1, 48⟩, .contentWithoutBlock "j:invokeStatic" ⟨1, 56⟩] := by
  have hall : ((View.read sparing.source).outcome.toOption.bind fun v =>
      v.start.outcome.toOption.map fun start => v.document.surplus?.toList ++
        (v.document.defaultNamespace?.map .defaultNamespaceOmitted).toList ++
        (Writer.cleanSites ⟨v.prefixes, sparing.options⟩ start).filterMap
          fun s => s.element.omission?) =
      some [.siblingsIgnored "j:jelly" 2 "p", .defaultNamespaceOmitted "urn:d",
        .tagSkipped "j:set" ⟨1, 48⟩, .contentWithoutBlock "j:invokeStatic" ⟨1, 56⟩] := by
    decide +kernel
  obtain ⟨v, hread, hall⟩ := Option.bind_eq_some_iff.mp hall
  obtain ⟨start, hstart, hall⟩ := Option.map_eq_some_iff.mp hall
  have hread := eq_ok_of_toOption hread
  have hstart := eq_ok_of_toOption hstart
  exact ⟨v, start, hread, hstart, (warnings_of_run sparing v start hread hstart).1.trans hall⟩

end Conversion

end GroovyViews
