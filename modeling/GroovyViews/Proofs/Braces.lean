import GroovyViews.Proofs.Spelling
import Mathlib.Data.List.Infix

/-!
# Braces in texts

The braces of a text are well nested if no beginning of it has more closing than opening ones and
the whole has as many of the one as of the other. To compose texts, the braces are followed from an
arbitrary height on: `net` is by how much a text raises the height, and `Stays` says that it never
leads below zero. Only the braces of a text matter for both.
-/

namespace GroovyViews.Text

/-- The braces of a text are well nested. -/
structure WellNested (s : String) : Prop where
  /-- No beginning has more closing than opening braces. -/
  beginnings : ∀ p, p <+: s.toList → p.count '\x7d' ≤ p.count '\x7b'
  /-- There are as many opening as closing braces. -/
  total : s.toList.count '\x7b' = s.toList.count '\x7d'

instance (s : String) : Decidable (WellNested s) :=
  decidable_of_iff ((∀ p ∈ s.toList.inits, p.count '\x7d' ≤ p.count '\x7b') ∧
      s.toList.count '\x7b' = s.toList.count '\x7d')
    ⟨fun ⟨hbeginnings, htotal⟩ =>
        ⟨fun p hp => hbeginnings p ((List.mem_inits p _).mpr hp), htotal⟩,
      fun h => ⟨fun p hp => h.beginnings p ((List.mem_inits p _).mp hp), h.total⟩⟩

/-- The opening braces less the closing ones. -/
def net (cs : List Char) : Int := (cs.count '\x7b' : Int) - cs.count '\x7d'

/-- Followed from a height on, the braces never lead below zero. -/
def Stays (h : Int) (cs : List Char) : Prop := ∀ p, p <+: cs → 0 ≤ h + net p

/-- No characters do not change the height. -/
@[simp] theorem net_nil : net [] = 0 := rfl

/-- Two texts change the height by what each of them does. -/
@[simp] theorem net_append (cs ds : List Char) : net (cs ++ ds) = net cs + net ds := by
  simp only [net, List.count_append]
  omega

/-- A single character changes the height by one at most. -/
theorem net_singleton_ge (c : Char) : -1 ≤ net [c] := by
  have hcount : List.count '\x7d' [c] ≤ 1 := List.count_le_length
  simp only [net]
  omega

/-- Where there are no braces, the height itself must not be below zero. -/
theorem stays_nil {h : Int} : Stays h [] ↔ 0 ≤ h := by
  simp [Stays, List.prefix_nil]

/-- The braces of two texts are followed one after the other. -/
theorem stays_append {h : Int} {cs ds : List Char} :
    Stays h (cs ++ ds) ↔ Stays h cs ∧ Stays (h + net cs) ds := by
  constructor
  · intro hstays
    refine ⟨fun p hp => hstays p (hp.trans (List.prefix_append cs ds)), fun p hp => ?_⟩
    have hwhole := hstays (cs ++ p) ((List.prefix_append_right_inj cs).mpr hp)
    rw [net_append] at hwhole
    omega
  · rintro ⟨hfirst, hsecond⟩ p hp
    rcases List.prefix_or_prefix_of_prefix hp (List.prefix_append cs ds) with hshort | ⟨q, rfl⟩
    · exact hfirst p hshort
    · have hrest := hsecond q ((List.prefix_append_right_inj cs).mp hp)
      rw [net_append]
      omega

/-- The braces are followed from the first character on. -/
theorem stays_cons {h : Int} {c : Char} {cs : List Char} :
    Stays h (c :: cs) ↔ Stays h [c] ∧ Stays (h + net [c]) cs := by
  rw [← List.singleton_append, stays_append]

/-- A height from which braces are followed is not below zero. -/
theorem Stays.nonneg {h : Int} {cs : List Char} (hstays : Stays h cs) : 0 ≤ h := by
  have hnil := hstays [] List.nil_prefix
  rw [net_nil] at hnil
  omega

/-- From further up, the braces lead less far down. -/
theorem Stays.mono {h h' : Int} {cs : List Char} (hstays : Stays h cs) (hle : h ≤ h') :
    Stays h' cs := by
  intro p hp
  have hlow := hstays p hp
  omega

/-- A single character is followed from one height to the next. -/
theorem stays_singleton {h : Int} {c : Char} : Stays h [c] ↔ 0 ≤ h ∧ 0 ≤ h + net [c] := by
  constructor
  · intro hstays
    exact ⟨hstays.nonneg, hstays [c] List.prefix_rfl⟩
  · rintro ⟨hnil, hwhole⟩ p hp
    rcases List.prefix_cons_iff.mp hp with rfl | ⟨q, rfl, hq⟩
    · simpa using hnil
    · rw [List.prefix_nil.mp hq]
      exact hwhole

/-- A text is well nested if its braces, followed from the ground, stay above it and come back. -/
theorem wellNested_iff {s : String} :
    WellNested s ↔ net s.toList = 0 ∧ Stays 0 s.toList := by
  constructor
  · intro hs
    have htotal := hs.total
    refine ⟨by simp only [net]; omega, fun p hp => ?_⟩
    have hcount := hs.beginnings p hp
    simp only [net]
    omega
  · rintro ⟨hnet, hstays⟩
    simp only [net] at hnet
    refine ⟨fun p hp => ?_, by omega⟩
    have hlow := hstays p hp
    simp only [net] at hlow
    omega

/-- A well nested text may stand at any height. -/
theorem WellNested.stays {s : String} (hs : WellNested s) {h : Int} (hh : 0 ≤ h) :
    Stays h s.toList :=
  (wellNested_iff.mp hs).2.mono hh

/-- What comes after a well nested text is nested as if it stood alone. -/
theorem WellNested.append_iff {s : String} (hs : WellNested s) (t : String) :
    WellNested (s ++ t) ↔ WellNested t := by
  obtain ⟨hnet, hstays⟩ := wellNested_iff.mp hs
  simp only [wellNested_iff, String.toList_append, net_append, stays_append, hnet]
  simp [hstays]

/-- Well nested texts one after the other are well nested. -/
theorem WellNested.append {s t : String} (hs : WellNested s) (ht : WellNested t) :
    WellNested (s ++ t) :=
  (hs.append_iff t).mpr ht

/-- Texts one after the other, none of which raises the height, do not raise it together, and if
they do not change it then none of them does. -/
theorem net_flatMap_le {α : Type} {f : α → List Char} {l : List α}
    (hle : ∀ a ∈ l, net (f a) ≤ 0) :
    net (l.flatMap f) ≤ 0 ∧ (net (l.flatMap f) = 0 ↔ ∀ a ∈ l, net (f a) = 0) := by
  induction l with
  | nil => simp
  | cons a rest ih =>
    rw [List.forall_mem_cons] at hle
    obtain ⟨hrest, hiff⟩ := ih hle.2
    have hfirst := hle.1
    rw [List.flatMap_cons, net_append, List.forall_mem_cons, ← hiff]
    refine ⟨by omega, ?_⟩
    constructor
    · intro hsum
      constructor <;> omega
    · rintro ⟨h₁, h₂⟩
      omega

/-- Texts one after the other that do not change the height can be followed one by one. -/
theorem stays_flatMap {α : Type} {f : α → List Char} {l : List α} {h : Int} (hh : 0 ≤ h)
    (hnet : ∀ a ∈ l, net (f a) = 0) :
    Stays h (l.flatMap f) ↔ ∀ a ∈ l, Stays h (f a) := by
  induction l with
  | nil => simpa using stays_nil.mpr hh
  | cons a rest ih =>
    rw [List.forall_mem_cons] at hnet
    rw [List.flatMap_cons, stays_append, hnet.1, Int.add_zero, ih hnet.2, List.forall_mem_cons]

/-- Texts one after the other, none of which raises the height, lead back to where they begin and
not below zero on the way exactly if each of them does. -/
theorem fits_flatMap {α : Type} {f : α → List Char} {l : List α} {h : Int}
    (hle : ∀ a ∈ l, net (f a) ≤ 0) (hh : 0 ≤ h) :
    net (l.flatMap f) = 0 ∧ Stays h (l.flatMap f) ↔ ∀ a ∈ l, net (f a) = 0 ∧ Stays h (f a) := by
  rw [(net_flatMap_le hle).2, forall₂_and]
  exact and_congr_right fun hnet => stays_flatMap hh hnet

/-- An opening or a closing brace. -/
def isBrace (c : Char) : Bool := c = '\x7b' || c = '\x7d'

/-- A character of a class with no braces in it is no brace. -/
theorem isBrace_eq_false {p : Char → Bool} (hopening : p '\x7b' = false)
    (hclosing : p '\x7d' = false) {c : Char} (hc : p c = true) : isBrace c = false := by
  by_contra hbrace
  simp only [isBrace, Bool.or_eq_true, decide_eq_true_eq, Bool.not_eq_false] at hbrace
  rcases hbrace with rfl | rfl <;> simp_all

/-- Only the braces count. -/
theorem net_filter (cs : List Char) : net (cs.filter isBrace) = net cs := by
  have hopening : isBrace '\x7b' = true := by decide
  have hclosing : isBrace '\x7d' = true := by decide
  simp only [net, List.count_filter hopening, List.count_filter hclosing]

/-- A character that is no brace does not change the height. -/
theorem net_of_not_brace {c : Char} (hc : isBrace c = false) : net [c] = 0 := by
  rw [← net_filter, List.filter_singleton, hc]
  rfl

/-- Only the braces have to be followed. -/
theorem stays_filter {h : Int} (cs : List Char) : Stays h (cs.filter isBrace) ↔ Stays h cs := by
  induction cs generalizing h with
  | nil => rfl
  | cons c cs ih =>
    rw [stays_cons, ← ih]
    by_cases hc : isBrace c = true
    · rw [List.filter_cons_of_pos hc, stays_cons]
    · have hnet := net_of_not_brace (by simpa using hc)
      rw [List.filter_cons_of_neg hc, stays_singleton, hnet, Int.add_zero]
      exact ⟨fun hstays => ⟨⟨hstays.nonneg, hstays.nonneg⟩, hstays⟩, fun hboth => hboth.2⟩

variable {cs ds : List Char}

/-- Texts with the same braces raise the height by the same. -/
theorem net_congr (hbraces : cs.filter isBrace = ds.filter isBrace) : net cs = net ds := by
  rw [← net_filter, hbraces, net_filter]

/-- Texts with the same braces are followed alike. -/
theorem stays_congr {h : Int} (hbraces : cs.filter isBrace = ds.filter isBrace) :
    Stays h cs ↔ Stays h ds := by
  rw [← stays_filter, hbraces, stays_filter]

/-- A text without braces is well nested. -/
theorem wellNested_of_filter {s : String} (hs : s.toList.filter isBrace = []) : WellNested s := by
  have hbraces : s.toList.filter isBrace = [].filter isBrace := hs
  rw [wellNested_iff, net_congr hbraces, stays_congr hbraces, stays_nil]
  exact ⟨net_nil, by omega⟩

/-- There are no braces in what is spelled. -/
theorem wellNested_of_spelled {s : String} (hs : Xml.Spelled s) : WellNested s := by
  refine wellNested_of_filter (List.filter_eq_nil_iff.mpr fun c hc => ?_)
  simp [isBrace_eq_false (by decide) (by decide) (hs c hc)]

/-- Dropping white space keeps the braces. -/
theorem filter_dropWhile_isBlank (cs : List Char) :
    (cs.dropWhile isBlank).filter isBrace = cs.filter isBrace := by
  induction cs with
  | nil => rfl
  | cons c cs ih =>
    by_cases hblank : isBlank c = true
    · have hbrace : isBrace c = false := isBrace_eq_false (by decide) (by decide) hblank
      rw [List.dropWhile_cons_of_pos hblank, ih, List.filter_cons_of_neg (by simp [hbrace])]
    · rw [List.dropWhile_cons_of_neg hblank]

/-- Trimming keeps the braces. -/
theorem filter_trimChars (cs : List Char) : (trimChars cs).filter isBrace = cs.filter isBrace := by
  rw [trimChars, List.filter_reverse, filter_dropWhile_isBlank, List.filter_reverse,
    List.reverse_reverse, filter_dropWhile_isBlank]

/-- Escaping keeps the braces. -/
theorem filter_chars (escaping : Escaping) (cs : List Char) :
    (escaping.chars cs).filter isBrace = cs.filter isBrace := by
  cases escaping with
  | verbatim => rfl
  | backslash =>
    have hbackslash : isBrace '\\' = false := by decide
    rw [Escaping.chars]
    induction cs with
    | nil => rfl
    | cons c cs ih =>
      have hcons : (c :: cs).filter isBrace = [c].filter isBrace ++ cs.filter isBrace :=
        List.filter_append [c] cs
      rw [List.flatMap_cons, List.filter_append, ih, hcons]
      by_cases hspecial : Escaping.isSpecial c = true
      · rw [if_pos hspecial, List.filter_cons_of_neg (by simp [hbackslash])]
      · rw [if_neg hspecial]

/-- If a well nested text is cut after its first brace and before its last character, then what is
left does not raise the height, and leads one level down at most. -/
theorem net_le_of_cut {front cut : List Char} {last : Char} (hfront : net front = 1)
    (hnet : net (front ++ (cut ++ [last])) = 0) (hstays : Stays 0 (front ++ (cut ++ [last]))) :
    net cut ≤ 0 ∧ Stays 1 cut := by
  rw [stays_append, hfront, stays_append] at hstays
  obtain ⟨-, hcut, -⟩ := hstays
  rw [net_append, net_append, hfront] at hnet
  have hone := net_singleton_ge last
  exact ⟨by omega, hcut⟩

end GroovyViews.Text
