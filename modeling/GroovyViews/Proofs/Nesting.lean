import GroovyViews.Proofs.Braces
import GroovyViews.Proofs.Pieces

/-!
# Braces in a converted view

A document whose values, texts and namespaces are well nested does not always give a view that is. A
value that is cut, because it is code or a message, may lose a brace that did not belong to the one
before it. That is the only thing that can go wrong: the view is well nested exactly if what is left
of each cut value is, where a value inside of a block may also use the brace of that.
-/

namespace GroovyViews

open Text

namespace Text

/-- The text may stand at a height: it leads back there and not below zero on the way. -/
def Fits (h : Int) (s : String) : Prop := net s.toList = 0 ∧ Stays h s.toList

/-- A well nested text may stand at every height. -/
theorem WellNested.fits {s : String} (hs : WellNested s) {h : Int} (hh : 0 ≤ h) : Fits h s :=
  ⟨(wellNested_iff.mp hs).1, hs.stays hh⟩

/-- Texts with the same braces may stand at the same heights. -/
theorem fits_congr {h : Int} {s t : String}
    (hbraces : s.toList.filter isBrace = t.toList.filter isBrace) : Fits h s ↔ Fits h t :=
  and_congr (by rw [net_congr hbraces]) (stays_congr hbraces)

/-- A text that leads one level down at most may stand where it is well nested or in a block. -/
theorem fits_iff {h : Int} {s : String} (hh : 0 ≤ h) (hlow : Stays 1 s.toList) :
    Fits h s ↔ WellNested s ∨ 0 < h ∧ s.toList.count '\x7b' = s.toList.count '\x7d' := by
  constructor
  · rintro ⟨hnet, hstays⟩
    by_cases hpos : 0 < h
    · refine .inr ⟨hpos, ?_⟩
      simp only [net] at hnet
      omega
    · obtain rfl : h = 0 := by omega
      exact .inl (wellNested_iff.mpr ⟨hnet, hstays⟩)
  · rintro (hs | ⟨hpos, hcount⟩)
    · exact hs.fits hh
    · refine ⟨?_, hlow.mono (by omega)⟩
      simp only [net]
      omega

end Text

namespace Groovy

/-- What is left of a value without its marker and its last character, if it has been cut. -/
def Expression.cut? : Expression → Option String
  | message text | code text => some text
  | literal _ => none

/-- What is left of a well nested value does not raise the height and leads one level down at
most. -/
theorem Expression.net_le_of_cut? {value t : String} (hvalue : WellNested value)
    (ht : (ofValue value).cut? = some t) : net t.toList ≤ 0 ∧ Stays 1 t.toList := by
  obtain ⟨hnet, hstays⟩ := wellNested_iff.mp hvalue
  unfold ofValue at ht
  split at ht
  case h_1 cs hchars =>
    obtain rfl := Option.some.inj ht
    -- without a character to drop, the brace of the marker is the only one
    have hcs : cs ≠ [] := by
      rintro rfl
      rw [hchars] at hnet
      exact absurd hnet (by decide)
    have hparts : value.toList = ['$', '\x7b', '%'] ++ (cs.dropLast ++ [cs.getLast hcs]) := by
      rw [List.dropLast_append_getLast hcs, hchars]
      rfl
    rw [hparts] at hnet hstays
    rw [String.toList_ofList]
    exact net_le_of_cut (by decide) hnet hstays
  case h_2 cs _ hchars =>
    split at ht
    case isTrue hlast =>
      obtain rfl := Option.some.inj ht
      obtain ⟨front, rfl⟩ := List.getLast?_eq_some_iff.mp hlast
      have hparts : value.toList = ['$', '\x7b'] ++ (front ++ ['\x7d']) := hchars
      rw [hparts] at hnet hstays
      rw [String.toList_ofList, List.dropLast_concat]
      exact net_le_of_cut (by decide) hnet hstays
    case isFalse => cases ht
  case h_3 => cases ht

/-- A literal has the braces of its value. -/
theorem Expression.filter_of_literal {value t : String} (h : ofValue value = literal t) :
    t.toList.filter isBrace = value.toList.filter isBrace := by
  have htrim : t = Text.trim value := by
    unfold ofValue at h
    split at h
    case h_1 => cases h
    case h_2 =>
      split at h
      · cases h
      · exact (literal.inj h).symm
    case h_3 => exact (literal.inj h).symm
  rw [htrim, Text.trim, String.toList_ofList, filter_trimChars]

/-- A quoted text has the braces of that text. -/
theorem Piece.filter_quoted (escaping : Escaping) (t : String) :
    (Piece.quoted (escaping.apply t)).text.toList.filter isBrace = t.toList.filter isBrace := by
  have hquote : isBrace '"' = false := by decide
  simp [Piece.text, Escaping.apply, filter_chars, hquote]

variable {value : String} {h : Int}

/-- No piece of a well nested value raises the height. -/
theorem Expression.net_pieces_le (hvalue : WellNested value) (escaping : Escaping) :
    ∀ p ∈ (ofValue value).pieces escaping, net p.text.toList ≤ 0 := by
  have hquoted (t : String) (ht : net t.toList ≤ 0) :
      net (Piece.quoted (escaping.apply t)).text.toList ≤ 0 := by
    rwa [net_congr (Piece.filter_quoted escaping t)]
  cases hx : ofValue value with
  | message key =>
    have hkey := (net_le_of_cut? hvalue (t := key) (by simp [hx, cut?])).1
    simp only [pieces, List.forall_mem_cons]
    exact ⟨by decide, hquoted key hkey, by decide, by simp⟩
  | code text =>
    have htext := (net_le_of_cut? hvalue (t := text) (by simp [hx, cut?])).1
    simpa [pieces, Piece.text] using htext
  | literal text =>
    have hnet : net text.toList = 0 := by
      rw [net_congr (filter_of_literal hx)]
      exact (wellNested_iff.mp hvalue).1
    simpa [pieces] using hquoted text (by omega)

/-- The pieces of a well nested value may stand at a height exactly if what is left of it, if it has
been cut, is well nested or uses the brace of a block. -/
theorem Expression.fits_pieces (hvalue : WellNested value) (hh : 0 ≤ h) (escaping : Escaping) :
    (∀ p ∈ (ofValue value).pieces escaping, Fits h p.text) ↔
      ∀ t, (ofValue value).cut? = some t →
        WellNested t ∨ 0 < h ∧ t.toList.count '\x7b' = t.toList.count '\x7d' := by
  have hquoted (t : String) : Fits h (Piece.quoted (escaping.apply t)).text ↔ Fits h t :=
    fits_congr (Piece.filter_quoted escaping t)
  cases hx : ofValue value with
  | message key =>
    have hopen : Fits h (Piece.plain "_(").text :=
      WellNested.fits (by decide) hh
    have hclose : Fits h (Piece.plain ")").text :=
      WellNested.fits (by decide) hh
    have hkey := fits_iff hh (net_le_of_cut? hvalue (t := key) (by simp [hx, cut?])).2
    simp [pieces, cut?, hopen, hclose, hquoted, hkey]
  | code text =>
    have htext := fits_iff hh (net_le_of_cut? hvalue (t := text) (by simp [hx, cut?])).2
    simp [pieces, cut?, Piece.text, htext]
  | literal text =>
    have htext : Fits h text := (fits_congr (filter_of_literal hx)).mpr (hvalue.fits hh)
    simp [pieces, cut?, hquoted, htext]

end Groovy

open Groovy (Piece)

/-- An element whose attributes and text are well nested. -/
structure Xml.Element.WellNested (e : Xml.Element) : Prop where
  /-- The values of the attributes are well nested. -/
  values : ∀ a ∈ e.tag.attributes, Text.WellNested a.value
  /-- So is the text. -/
  text : ∀ t, e.text? = some t → Text.WellNested t

/-- An attribute that a well nested element has is well nested. -/
theorem Xml.Element.WellNested.attr? {e : Xml.Element} (he : e.WellNested) {n v : String}
    (hv : e.attr? n = some v) : Text.WellNested v := by
  obtain ⟨a, ha, rfl⟩ := Option.map_eq_some_iff.mp hv
  exact he.values a (List.mem_of_find?_eq_some ha)

instance (e : Xml.Element) : Decidable e.WellNested :=
  decidable_of_iff ((∀ a ∈ e.tag.attributes, Text.WellNested a.value) ∧
      ∀ t ∈ e.text?.toList, Text.WellNested t)
    ⟨fun ⟨hvalues, htext⟩ => ⟨hvalues, fun t ht => htext t (Option.mem_toList.mpr ht)⟩,
      fun h => ⟨h.values, fun t ht => h.text t (Option.mem_toList.mp ht)⟩⟩

/-- A document whose attributes, texts and namespaces are well nested. -/
structure Xml.Document.WellNested (d : Xml.Document) : Prop where
  /-- The attributes and the text of each element are well nested. -/
  elements : ∀ p ∈ Xml.Node.placedAll 0 [] d.nodes, p.element.WellNested
  /-- So is each namespace that is declared. -/
  uris : ∀ b ∈ d.declared, Text.WellNested b.uri

instance (d : Xml.Document) : Decidable d.WellNested :=
  decidable_of_iff ((∀ p ∈ Xml.Node.placedAll 0 [] d.nodes, p.element.WellNested) ∧
      ∀ b ∈ d.declared, Text.WellNested b.uri)
    ⟨fun ⟨helements, huris⟩ => ⟨helements, huris⟩, fun h => ⟨h.elements, h.uris⟩⟩

namespace Writer

variable {w : Writer} {e : Xml.Element} {role : Role} {st : Groovy.Statement}

/-- The values that a well nested element puts into its statement are well nested. -/
theorem States.exists_value (he : e.WellNested) (hst : w.States e role (some st)) :
    ∀ x ∈ st.expressions, ∃ v, x = .ofValue v ∧ Text.WellNested v := by
  intro x hx
  cases hst with
  | call hargs =>
    obtain ⟨argument, hmem, rfl⟩ := List.mem_map.mp hx
    rcases argument_cases hargs argument hmem with ⟨a, ha, key, -, rfl⟩ | ⟨t, ht, rfl⟩
    · exact ⟨a.value, rfl, he.values a ha⟩
    · exact ⟨t, rfl, he.text t ht⟩
  | condition _ htest =>
    exact ⟨_, List.mem_singleton.mp hx, he.attr? htest⟩
  | otherwise | invokeStatic => cases hx

/-- What stands around the values of a statement is well nested, if its names are spelled and the
values that it takes as they are are well nested. -/
theorem States.wellNested_frame (he : e.WellNested) (hst : w.States e role (some st))
    (hspelled : st.Spelled) : ∀ p ∈ st.frame, Text.WellNested p.text := by
  cases hst with
  | @call qualifier tag arguments hargs =>
    obtain ⟨hqualifier, htag, hkeys⟩ := hspelled
    have hcallee : Text.WellNested (Groovy.Statement.callee qualifier tag) := by
      unfold Groovy.Statement.callee
      split
      · exact wellNested_of_spelled htag
      · exact ((wellNested_of_spelled hqualifier).append (by decide)).append
          (wellNested_of_spelled htag)
    simp only [Groovy.Statement.frame, List.forall_mem_cons]
    refine ⟨hcallee.append (by decide), by decide, by decide, by decide, ?_⟩
    intro p hp
    obtain ⟨key, value, hmem, rfl⟩ := Groovy.Argument.exists_key_of_mem hp
    have hkey := hkeys key value hmem
    cases key with
    | plain name => exact wellNested_of_spelled hkey
    | qualified pfx name =>
      have hquote : Text.WellNested "\"" := by decide
      exact (hquote.append (((wellNested_of_spelled hkey.1).append (by decide)).append
        (wellNested_of_spelled hkey.2))).append hquote
  | condition =>
    simp only [Groovy.Statement.frame, List.forall_mem_cons]
    exact ⟨by decide, by decide, by simp⟩
  | otherwise =>
    simp only [Groovy.Statement.frame, List.forall_mem_singleton]
    decide
  | invokeStatic hvar hclass hmethod =>
    have hdef : Text.WellNested "def " := by decide
    have hequals : Text.WellNested " = " := by decide
    have hdot : Text.WellNested "." := by decide
    simp only [Groovy.Statement.frame, List.forall_mem_singleton]
    exact ((((hdef.append (he.attr? hvar)).append hequals).append (he.attr? hclass)).append
      hdot).append (he.attr? hmethod)

/-- The characters that a visit writes. -/
def visitChars (w : Writer) (v : Xml.Visit) : List Char :=
  (w.visitPieces v).flatMap fun p => p.text.toList

/-- The brace that the line of an element opens, if it opens a block. -/
def rise (w : Writer) (e : Xml.Element) : Int := if w.opensBlock e then 1 else 0

/-- The number of blocks around an element. -/
def height (w : Writer) (around : List Xml.Element) : Int := (around.countP w.opensBlock : Int)

/-- No fewer than zero blocks are around an element. -/
theorem height_nonneg (w : Writer) (around : List Xml.Element) : 0 ≤ w.height around := by
  unfold height
  omega

/-- An element adds the block that it opens. -/
theorem height_cons (w : Writer) (e : Xml.Element) (around : List Xml.Element) :
    w.height (e :: around) = w.height around + w.rise e := by
  unfold height rise
  by_cases hopens : w.opensBlock e = true
  · rw [List.countP_cons_of_pos hopens, if_pos hopens]
    omega
  · rw [List.countP_cons_of_neg hopens, if_neg hopens]
    omega

/-- There is a block around an element if it is at a height above zero. -/
theorem height_pos_iff {around : List Xml.Element} :
    0 < w.height around ↔ ∃ a ∈ around, w.opensBlock a = true := by
  have hpos : 0 < w.height around ↔ 0 < around.countP w.opensBlock := by
    unfold height
    omega
  rw [hpos, List.countP_pos_iff]

/-- The margin of a line has no braces. -/
theorem wellNested_indentation (n : Nat) : Text.WellNested (Step.indentation n) := by
  have hblank : isBrace ' ' = false := by decide
  refine wellNested_of_filter ?_
  simp [Step.indentation, hblank]

/-- The end of a line has the brace of a block, if the line opens one, and no other. -/
theorem net_lineEnd (st : Groovy.Statement) (e : Xml.Element) :
    net (st.lineEnd (w.opensBlock e) ++ "\n").toList = w.rise e ∧
      Stays 0 (st.lineEnd (w.opensBlock e) ++ "\n").toList := by
  cases hopens : w.opensBlock e with
  | true =>
    have hbraces : (st.lineEnd true ++ "\n").toList.filter isBrace = ['\x7b'].filter isBrace := by
      simp only [Groovy.Statement.lineEnd, if_true]
      decide
    have hnet : net ['\x7b'] = 1 := by decide
    rw [net_congr hbraces, stays_congr hbraces, stays_singleton, hnet, rise, if_pos hopens]
    omega
  | false =>
    have hbraces : (st.lineEnd false ++ "\n").toList.filter isBrace = [] := by
      cases st <;> simp only [Groovy.Statement.lineEnd] <;> decide
    have hend := wellNested_iff.mp (wellNested_of_filter hbraces)
    rw [rise, if_neg (by simp [hopens])]
    exact hend

/-- Leaving an element closes the block that it has opened. -/
theorem visitChars_leave (s : Xml.Site) :
    net (w.visitChars (.leave s)) = -w.rise s.element ∧
      ∀ h, w.rise s.element ≤ h → 0 ≤ h → Stays h (w.visitChars (.leave s)) := by
  cases hopens : w.opensBlock s.element with
  | true =>
    obtain ⟨hmargin, -⟩ := wellNested_iff.mp (wellNested_indentation s.depth)
    have hchars : w.visitChars (.leave s) =
        (Step.indentation s.depth).toList ++ ['\x7d', '\n'] := by
      simp [visitChars, visitPieces, hopens, Piece.text]
    have hbraces : ['\x7d', '\n'].filter isBrace = ['\x7d'].filter isBrace := by decide
    have hnet : net ['\x7d'] = -1 := by decide
    have hrise : w.rise s.element = 1 := if_pos hopens
    rw [hchars, net_append, hmargin, net_congr hbraces, hnet, hrise]
    refine ⟨by omega, fun h hle hh => ?_⟩
    rw [stays_append, hmargin, stays_congr hbraces, stays_singleton, hnet]
    exact ⟨(wellNested_indentation s.depth).stays hh, by omega, by omega⟩
  | false =>
    have hchars : w.visitChars (.leave s) = [] := by simp [visitChars, visitPieces, hopens]
    have hrise : w.rise s.element = 0 := if_neg (by simp [hopens])
    rw [hchars, hrise]
    exact ⟨rfl, fun h _ hh => stays_nil.mpr hh⟩

/-- The pieces of what a well nested element says may stand at a height exactly if what is left of
its cut values is well nested or uses the brace of a block. In any case they do not lead further
up. -/
theorem States.fits_pieces (hst : w.States e role (some st)) (he : e.WellNested)
    (hspelled : st.Spelled) (escaping : Escaping) :
    (∀ p ∈ st.pieces escaping, net p.text.toList ≤ 0) ∧
      ∀ h, 0 ≤ h → ((∀ p ∈ st.pieces escaping, Fits h p.text) ↔
        ∀ x ∈ st.expressions, ∀ t, x.cut? = some t →
          Text.WellNested t ∨ 0 < h ∧ t.toList.count '\x7b' = t.toList.count '\x7d') := by
  have hframe := hst.wellNested_frame he hspelled
  have hvalues := hst.exists_value he
  constructor
  · have hnet : ∀ p ∈ st.frame, net p.text.toList ≤ 0 := fun p hp =>
      Int.le_of_eq (wellNested_iff.mp (hframe p hp)).1
    refine (Groovy.Statement.forall_pieces hnet).mpr fun x hx => ?_
    obtain ⟨v, rfl, hv⟩ := hvalues x hx
    exact Groovy.Expression.net_pieces_le hv escaping
  · intro h hh
    rw [Groovy.Statement.forall_pieces fun p hp => (hframe p hp).fits hh]
    refine forall₂_congr fun x hx => ?_
    obtain ⟨v, rfl, hv⟩ := hvalues x hx
    exact Groovy.Expression.fits_pieces hv hh escaping

/-- What entering a well nested element writes raises the height by its brace at most. It leads to
the height of its content, and not below zero on the way, exactly if what is left of the cut values
in its statement is well nested or uses the brace of a block. -/
theorem visitChars_enter {s : Xml.Site} (hclean : w.complaint? Xml.Element.attr? s.element = none)
    (htable : ∀ b ∈ w.prefixes.entries, b.isTidy = true) (hnamed : s.element.tag.Named)
    (hnested : s.element.WellNested) :
    net (w.visitChars (.enter s)) ≤ w.rise s.element ∧
      ∀ h, 0 ≤ h → (net (w.visitChars (.enter s)) = w.rise s.element ∧
          Stays h (w.visitChars (.enter s)) ↔
        ∀ st, w.said? Xml.Element.attr? s.element = some st → ∀ x ∈ st.expressions, ∀ t,
          x.cut? = some t →
            Text.WellNested t ∨ 0 < h ∧ t.toList.count '\x7b' = t.toList.count '\x7d') := by
  obtain ⟨role, said, hrole, hst, hsaid⟩ := exists_states 0 hclean
  rcases hsaid with ⟨rfl, -, hopens, -⟩ | ⟨st, rfl, -, -⟩
  · have hchars : w.visitChars (.enter s) = [] := by
      simp [visitChars, visitPieces, hst.said?_eq hrole]
    have hrise : w.rise s.element = 0 := if_neg (by simp [hopens])
    rw [hchars, hrise, hst.said?_eq hrole]
    exact ⟨by simp, fun h hh => by simpa using stays_nil.mpr hh⟩
  · obtain ⟨hle, hfits⟩ :=
      hst.fits_pieces hnested (hst.spelled hrole htable hnamed) w.options.escaping
    obtain ⟨hend, hendStays⟩ := net_lineEnd (w := w) st s.element
    obtain ⟨hmargin, -⟩ := wellNested_iff.mp (wellNested_indentation s.depth)
    obtain ⟨hbody, -⟩ := net_flatMap_le hle
    have hchars : w.visitChars (.enter s) = (Step.indentation s.depth).toList ++
        ((st.pieces w.options.escaping).flatMap (fun p => p.text.toList) ++
          (st.lineEnd (w.opensBlock s.element) ++ "\n").toList) := by
      simp [visitChars, visitPieces, hst.said?_eq hrole, Piece.text]
    rw [hchars, net_append, net_append, hmargin, hend, hst.said?_eq hrole]
    refine ⟨by omega, fun h hh => ?_⟩
    simp only [Option.some.injEq, forall_eq']
    have hstart := (wellNested_indentation s.depth).stays hh
    rw [← hfits h hh, stays_append, hmargin, stays_append]
    refine Iff.trans ?_ (fits_flatMap hle hh)
    constructor
    · rintro ⟨hnet, -, hstays, -⟩
      exact ⟨by omega, by simpa using hstays⟩
    · rintro ⟨hnet, hstays⟩
      refine ⟨by omega, hstart, by simpa using hstays, hendStays.mono (by omega)⟩

/-- Visits that do not raise the height. If they lead back to the height of the elements around
them, then every element that they enter leads to the height of its content, and they can be
followed one by one, each from the blocks around it. -/
structure Settles (w : Writer) (around : List Xml.Element) (visits : List Xml.Visit) : Prop where
  /-- The height is not raised. -/
  net_le : net (visits.flatMap w.visitChars) ≤ 0
  /-- It is kept exactly if entering each element opens its block and nothing else. -/
  net_eq_iff : net (visits.flatMap w.visitChars) = 0 ↔
    ∀ s, .enter s ∈ visits → net (w.visitChars (.enter s)) = w.rise s.element
  /-- If so, the braces stay above zero exactly if they do so in each visit. -/
  stays_iff : net (visits.flatMap w.visitChars) = 0 →
    (Stays (w.height around) (visits.flatMap w.visitChars) ↔
      ∀ s, .enter s ∈ visits → Stays (w.height s.around) (w.visitChars (.enter s)))

/-- No visits change nothing. -/
theorem Settles.nil (w : Writer) (around : List Xml.Element) : w.Settles around [] where
  net_le := by simp
  net_eq_iff := by simp
  stays_iff _ := by simpa using stays_nil.mpr (w.height_nonneg around)

/-- Visits among the same elements settle one after the other. -/
theorem Settles.append {around : List Xml.Element} {first second : List Xml.Visit}
    (hfirst : w.Settles around first) (hsecond : w.Settles around second) :
    w.Settles around (first ++ second) := by
  have hle₁ := hfirst.net_le
  have hle₂ := hsecond.net_le
  have hsum : net ((first ++ second).flatMap w.visitChars) =
      net (first.flatMap w.visitChars) + net (second.flatMap w.visitChars) := by
    rw [List.flatMap_append, net_append]
  have hmem {q : Xml.Site → Prop} : (∀ s, .enter s ∈ first ++ second → q s) ↔
      (∀ s, .enter s ∈ first → q s) ∧ ∀ s, .enter s ∈ second → q s := by
    simp only [List.mem_append, or_imp, forall_and]
  refine ⟨by omega, ?_, fun hzero => ?_⟩
  · rw [hmem, ← hfirst.net_eq_iff, ← hsecond.net_eq_iff, hsum]
    omega
  · have hzero₁ : net (first.flatMap w.visitChars) = 0 := by omega
    have hzero₂ : net (second.flatMap w.visitChars) = 0 := by omega
    rw [hmem, ← hfirst.stays_iff hzero₁, ← hsecond.stays_iff hzero₂, List.flatMap_append,
      stays_append, hzero₁, Int.add_zero]

/-- The visits of an element settle if those of its content do and entering it does not lead further
up than to its content. -/
theorem Settles.element {around : List Xml.Element} {inner : List Xml.Visit}
    (hle : net (w.visitChars (.enter ⟨around, e⟩)) ≤ w.rise e)
    (hinner : w.Settles (e :: around) inner) :
    w.Settles around (.enter ⟨around, e⟩ :: (inner ++ [.leave ⟨around, e⟩])) := by
  have hleave : net (w.visitChars (.leave ⟨around, e⟩)) = -w.rise e := (visitChars_leave _).1
  have hnonneg := w.height_nonneg around
  have hheight := w.height_cons e around
  have hinner_le := hinner.net_le
  have hsplit : (Xml.Visit.enter ⟨around, e⟩ :: (inner ++ [.leave ⟨around, e⟩])).flatMap
        w.visitChars = w.visitChars (.enter ⟨around, e⟩) ++
      (inner.flatMap w.visitChars ++ w.visitChars (.leave ⟨around, e⟩)) := by
    simp
  have hmem {q : Xml.Site → Prop} :
      (∀ s, .enter s ∈ Xml.Visit.enter ⟨around, e⟩ :: (inner ++ [.leave ⟨around, e⟩]) → q s) ↔
        q ⟨around, e⟩ ∧ ∀ s, .enter s ∈ inner → q s := by
    simp
  have hsum : net ((Xml.Visit.enter ⟨around, e⟩ :: (inner ++ [.leave ⟨around, e⟩])).flatMap
      w.visitChars) = net (w.visitChars (.enter ⟨around, e⟩)) +
        (net (inner.flatMap w.visitChars) - w.rise e) := by
    rw [hsplit, net_append, net_append, hleave]
    omega
  refine ⟨by omega, ?_, fun hzero => ?_⟩
  · rw [hmem, ← hinner.net_eq_iff, hsum]
    dsimp only
    omega
  · have henter : net (w.visitChars (.enter ⟨around, e⟩)) = w.rise e := by omega
    have hback : net (inner.flatMap w.visitChars) = 0 := by omega
    have hend : Stays (w.height (e :: around)) (w.visitChars (.leave ⟨around, e⟩)) :=
      (visitChars_leave _).2 _ (by dsimp only; omega) (w.height_nonneg _)
    rw [hmem, ← hinner.stays_iff hback, hsplit, stays_append, henter, ← hheight, stays_append,
      hback, Int.add_zero]
    exact and_congr_right' (and_iff_left hend)

mutual

/-- The visits of a node settle. -/
theorem settles_visits (around : List Xml.Element) : ∀ n : Xml.Node,
    (∀ s, .enter s ∈ n.visits around → net (w.visitChars (.enter s)) ≤ w.rise s.element) →
      w.Settles around (n.visits around)
  | .element tag content, hle => by
    rw [Xml.Node.visits] at hle ⊢
    refine .element (hle _ List.mem_cons_self) ?_
    refine settles_visitsAll (⟨tag, content⟩ :: around) content fun s hs => hle s ?_
    exact List.mem_cons_of_mem _ (List.mem_append_left _ hs)
  | .text _, _ | .comment _, _ | .instruction _ _, _ => .nil w around

/-- The visits of several nodes settle. -/
theorem settles_visitsAll (around : List Xml.Element) : ∀ nodes : List Xml.Node,
    (∀ s, .enter s ∈ Xml.Node.visitsAll around nodes →
      net (w.visitChars (.enter s)) ≤ w.rise s.element) →
      w.Settles around (Xml.Node.visitsAll around nodes)
  | [], _ => .nil w around
  | n :: rest, hle => by
    rw [Xml.Node.visitsAll] at hle ⊢
    have hfirst := settles_visits around n fun s hs => hle s (List.mem_append_left _ hs)
    have hrest := settles_visitsAll around rest fun s hs => hle s (List.mem_append_right _ hs)
    exact hfirst.append hrest

end

/-- The preamble is well nested if the namespaces in it are and the prefixes are spelled. -/
theorem wellNested_preamble (htable : ∀ b ∈ w.prefixes.entries, b.isTidy = true)
    (huris : ∀ b ∈ w.prefixes.entries, Text.WellNested b.uri) :
    Text.WellNested (Piece.join w.preamblePieces) := by
  have hlines : ∀ l : List Xml.Binding, (∀ b ∈ l, b ∈ w.prefixes.entries) →
      Text.WellNested (String.join (l.map fun b => preambleLine b ++ "\n")) := by
    intro l hl
    induction l with
    | nil => decide
    | cons b rest ih =>
      rw [List.forall_mem_cons] at hl
      have hpfx := wellNested_of_spelled (Xml.Spelled.of_isTidy (htable b hl.1))
      have hline : Text.WellNested (preambleLine b) :=
        ((hpfx.append (by decide)).append (huris b hl.1)).append (by decide)
      rw [List.map_cons, String.join_cons]
      exact (hline.append (by decide)).append (ih hl.2)
  have hheading : Text.WellNested "// Namespaces\n" := by decide
  rw [join_preamblePieces, text_preamble]
  exact (hheading.append (hlines w.bound fun b hb => (List.mem_filter.mp hb).1)).append (by decide)

end Writer

namespace Conversion

/-- The braces of a document being well nested, those of the converted view are so exactly if what
is left of each value that is cut in the statement of an element is well nested, or stands in a
block and has as many opening as closing braces. -/
theorem text_wellNested_iff (c : Conversion) (out : String) (d : Xml.Document)
    (h : c.text = .ok out) (hparse : Xml.Document.parse c.source = .ok d) (hd : d.WellNested) :
    ∃ w start, c.entry = .ok (w, start) ∧
      (WellNested out ↔ ∀ s ∈ start.sites, ∀ st, w.said? Xml.Element.attr? s.element = some st →
        ∀ x ∈ st.expressions, ∀ t, x.cut? = some t →
          WellNested t ∨ (∃ a ∈ s.around, w.opensBlock a = true) ∧
            t.toList.count '\x7b' = t.toList.count '\x7d') := by
  obtain ⟨d', w, start, hentry, hc⟩ := exists_converts h
  obtain rfl : d' = d := Except.ok.inj (hc.parse.symm.trans hparse)
  refine ⟨w, start, hentry, ?_⟩
  have hpreamble : WellNested (Piece.join w.preamblePieces) :=
    Writer.wellNested_preamble hc.isTidy fun b hb => hd.uris b (hc.table.mem_iff.mp hb)
  have hnested : ∀ s ∈ start.sites, s.element.WellNested := by
    intro s hs
    obtain ⟨p, hp, heq⟩ := Xml.Document.exists_placed hc.starts hs
    exact heq ▸ hd.elements p hp
  have hsite (s : Xml.Site) (hs : s ∈ start.sites) :=
    Writer.visitChars_enter (hc.clean s hs) hc.isTidy (hc.named hs) (hnested s hs)
  have hsettles : w.Settles [] start.visits :=
    Writer.settles_visits [] start.node fun s hs => (hsite s (Xml.Element.mem_sites.mpr hs)).1
  have hchars : (Piece.join (start.visits.flatMap w.visitPieces)).toList =
      start.visits.flatMap w.visitChars := by
    rw [Piece.toList_join, List.flatMap_assoc]
    rfl
  have hvisits : net (start.visits.flatMap w.visitChars) = 0 ∧
        Stays 0 (start.visits.flatMap w.visitChars) ↔
      ∀ s ∈ start.sites, net (w.visitChars (.enter s)) = w.rise s.element ∧
        Stays (w.height s.around) (w.visitChars (.enter s)) := by
    simp only [Xml.Element.mem_sites, forall₂_and, ← hsettles.net_eq_iff]
    exact and_congr_right hsettles.stays_iff
  rw [← hc.join_pieces, Writer.pieces, Piece.join_append, hpreamble.append_iff, wellNested_iff,
    hchars, hvisits]
  refine forall₂_congr fun s hs => ?_
  rw [(hsite s hs).2 _ (w.height_nonneg _), Writer.height_pos_iff]

/-- A document can be read and is well nested. -/
private def readsWellNested (source : String) : Bool :=
  (Xml.Document.parse source).toOption.any fun d => decide d.WellNested

private theorem exists_of_readsWellNested {source : String} (h : readsWellNested source = true) :
    ∃ d, Xml.Document.parse source = .ok d ∧ d.WellNested := by
  unfold readsWellNested at h
  cases hparse : Xml.Document.parse source with
  | error fault => simp [hparse, Except.toOption] at h
  | ok d => exact ⟨d, rfl, by simpa [hparse, Except.toOption] using h⟩

/-- A value with two parts of code in a block. What is left of it is not well nested. -/
private def blocks : Conversion :=
  ⟨"<a t='\x7bx\x7d'><b u='$\x7bp\x7d + $\x7bq\x7d' v='$\x7b%m\x7d'/></a>", none, .default⟩

/-- The brace of the block makes up for the one that has been lost. -/
theorem text_wellNested_blocks :
    ∃ out d, blocks.text = .ok out ∧ Xml.Document.parse blocks.source = .ok d ∧ d.WellNested ∧
      WellNested out ∧ ∃ w start, blocks.entry = .ok (w, start) ∧
        ∀ s ∈ start.sites, ∀ st, w.said? Xml.Element.attr? s.element = some st →
          ∀ x ∈ st.expressions, ∀ t, x.cut? = some t →
            WellNested t ∨ (∃ a ∈ s.around, w.opensBlock a = true) ∧
              t.toList.count '\x7b' = t.toList.count '\x7d' := by
  have htext : blocks.text = .ok ("// Namespaces\n\n\na(t: \"\x7bx\x7d\") \x7b\n" ++
      "  b(u: p\x7d + $\x7bq, v: _(\"m\")) \n\x7d\n") := by
    decide +kernel
  have hout : WellNested ("// Namespaces\n\n\na(t: \"\x7bx\x7d\") \x7b\n" ++
      "  b(u: p\x7d + $\x7bq, v: _(\"m\")) \n\x7d\n") := by
    decide +kernel
  have hreads : readsWellNested blocks.source = true := by decide +kernel
  obtain ⟨d, hparse, hd⟩ := exists_of_readsWellNested hreads
  obtain ⟨w, start, hentry, hiff⟩ := text_wellNested_iff blocks _ d htext hparse hd
  exact ⟨_, d, htext, hparse, hd, hout, w, start, hentry, hiff.mp hout⟩

/-- A message that is followed by other text. -/
private def message : Conversion := ⟨"<p title='$\x7b%a\x7d b'/>", none, .default⟩

/-- A value with two parts of code. -/
private def parts : Conversion :=
  ⟨"<p title='$\x7ba\x7d and $\x7bb\x7d'/>", none, .default⟩

/-- Outside of all blocks a cut value spoils the braces of the view: the last character of a message
is not its closing brace, or the two braces that are cut from code belong to two parts. -/
theorem text_not_wellNested :
    (∃ d, Xml.Document.parse message.source = .ok d ∧ d.WellNested) ∧
    message.text = .ok "// Namespaces\n\n\np(title: _(\"a\x7d \")) \n" ∧
    ¬WellNested "// Namespaces\n\n\np(title: _(\"a\x7d \")) \n" ∧
    (∃ d, Xml.Document.parse parts.source = .ok d ∧ d.WellNested) ∧
    parts.text = .ok "// Namespaces\n\n\np(title: a\x7d and $\x7bb) \n" ∧
    ¬WellNested "// Namespaces\n\n\np(title: a\x7d and $\x7bb) \n" :=
  ⟨exists_of_readsWellNested (by decide +kernel), by decide +kernel, by decide +kernel,
    exists_of_readsWellNested (by decide +kernel), by decide +kernel, by decide +kernel⟩

end Conversion

end GroovyViews
