import GroovyViews.Proofs.Pieces
import GroovyViews.Proofs.Unescaping

/-!
# String literals

A string literal on one line may hold no line break and no character with a meaning of its own,
unless a backslash stands before that. Escaping takes care of the characters with a meaning, and of
nothing else: a line break stays, and the namespaces of the preamble are not escaped at all. These
are the only two ways in which an escaped view comes to hold a literal that is not well formed.
-/

namespace GroovyViews

namespace Groovy

/-- A line feed or a carriage return. -/
def isLineBreak (c : Char) : Bool := c = '\n' || c = '\r'

/-- Every character may stand behind a backslash, and it stands for itself. -/
def EscapeTable.lenient : EscapeTable where
  meaning := some
  meaning_backslash := rfl
  meaning_quote := rfl
  meaning_dollar := rfl

/-- What may stand between the double quotes of a literal on one line: no line break, and a
character with a meaning only after a backslash. A backslash belongs to the character after it, so
the double quote behind it all is where the literal ends. -/
def isLiteralBody (body : List Char) : Bool :=
  body.all (!isLineBreak ·) &&
    (EscapeTable.lenient.readBody (body ++ ['"'])).any fun read => read.2.isEmpty

/-- A literal is well formed if that may stand in it which does. -/
def Piece.isWellFormed : Piece → Bool
  | plain _ => true
  | quoted body => isLiteralBody body.toList

/-- The text has no line break. -/
def Unbroken (s : String) : Prop := ∀ c ∈ s.toList, isLineBreak c = false

/-- The text that an expression puts between double quotes, if it does so with one. -/
def Expression.quotedText? : Expression → Option String
  | message text | literal text => some text
  | code _ => none

/-- Escaping leaves line breaks as they are and takes care of everything else. -/
theorem isLiteralBody_backslash (cs : List Char) :
    isLiteralBody (Escaping.backslash.chars cs) = cs.all fun c => !isLineBreak c := by
  have hbreaks : (Escaping.backslash.chars cs).all (!isLineBreak ·) =
      cs.all fun c => !isLineBreak c := by
    rw [Escaping.chars, List.all_flatMap]
    congr 1
    funext c
    cases Escaping.isSpecial c <;> simp [isLineBreak]
  simp [isLiteralBody, hbreaks, EscapeTable.readBody_escaped]

/-- Names may stand in a literal. -/
theorem isLiteralBody_of_spelled {s : String} (h : Xml.Spelled s) :
    isLiteralBody s.toList = true := by
  have hchars : Escaping.backslash.chars s.toList = s.toList :=
    Escaping.chars_backslash_of_plain fun c hc => Xml.isSpecial_of_isNameChar (h c hc)
  rw [← hchars, isLiteralBody_backslash, List.all_eq_true]
  intro c hc
  have hname := h c hc
  by_contra hbreak
  simp only [isLineBreak, Bool.not_eq_true', Bool.not_eq_false, Bool.or_eq_true,
    decide_eq_true_eq] at hbreak
  rcases hbreak with rfl | rfl <;> exact absurd hname (by decide)

/-- A spelled key is well formed also where it is quoted. -/
theorem Key.Spelled.isWellFormed {key : Key} (h : key.Spelled) : key.piece.isWellFormed = true := by
  cases key with
  | plain name => rfl
  | qualified pfx name =>
    obtain ⟨hpfx, hname⟩ := h
    have hcolon : Xml.Spelled ":" := .of_isName (by decide)
    exact isLiteralBody_of_spelled ((hpfx.append hcolon).append hname)

/-- What stands around the values of a spelled statement is well formed. -/
theorem Statement.Spelled.isWellFormed_frame {s : Statement} (h : s.Spelled) :
    ∀ p ∈ s.frame, p.isWellFormed = true := by
  cases s with
  | call qualifier tag arguments =>
    obtain ⟨-, -, hkeys⟩ := h
    simp only [frame, List.forall_mem_cons]
    refine ⟨rfl, rfl, rfl, rfl, ?_⟩
    intro p hp
    obtain ⟨key, value, hmem, rfl⟩ := Argument.exists_key_of_mem hp
    exact (hkeys key value hmem).isWellFormed
  | condition _ | alternative | definition _ _ _ => simp [frame, Piece.isWellFormed]

/-- The literal that an expression is escaped to is well formed exactly if it has no line break. -/
theorem Expression.isWellFormed_pieces (x : Expression) :
    (∀ p ∈ x.pieces .backslash, p.isWellFormed = true) ↔
      ∀ t, x.quotedText? = some t → Unbroken t := by
  have hquoted (t : String) :
      isLiteralBody (Escaping.backslash.apply t).toList = true ↔ Unbroken t := by
    simp [Escaping.apply, isLiteralBody_backslash, Unbroken]
  cases x with
  | message key => simp [pieces, quotedText?, Piece.isWellFormed, hquoted]
  | code text => simp [pieces, quotedText?, Piece.isWellFormed]
  | literal text => simp [pieces, quotedText?, Piece.isWellFormed, hquoted]

/-- The literals of a spelled statement are well formed exactly if the texts that are quoted in it
have no line breaks. -/
theorem Statement.Spelled.isWellFormed_pieces {s : Statement} (h : s.Spelled) :
    (∀ p ∈ s.pieces .backslash, p.isWellFormed = true) ↔
      ∀ x ∈ s.expressions, ∀ t, x.quotedText? = some t → Unbroken t := by
  rw [Statement.forall_pieces h.isWellFormed_frame]
  exact forall₂_congr fun x _ => x.isWellFormed_pieces

end Groovy

open Groovy (isLiteralBody Unbroken Piece)

namespace Writer

variable {w : Writer}

/-- The literals of the preamble are its namespaces as they are. -/
theorem isWellFormed_preamblePieces (w : Writer) :
    (∀ p ∈ w.preamblePieces, p.isWellFormed = true) ↔
      ∀ b ∈ w.bound, isLiteralBody b.uri.toList = true := by
  simp only [preamblePieces, List.forall_mem_append, List.forall_mem_cons, List.forall_mem_flatMap]
  simp [Piece.isWellFormed]

/-- The literals that a visit of a named element writes are well formed exactly if the texts that
are quoted in its statement have no line breaks. Leaving an element writes no literal. -/
theorem isWellFormed_visitPieces (hescaping : w.options.escaping = .backslash)
    (htable : ∀ b ∈ w.prefixes.entries, b.isTidy = true) {s : Xml.Site}
    (hnamed : s.element.tag.Named) (hclean : w.complaint? Xml.Element.attr? s.element = none) :
    (∀ p ∈ w.visitPieces (.enter s), p.isWellFormed = true) ↔
      ∀ st, w.said? Xml.Element.attr? s.element = some st →
        ∀ x ∈ st.expressions, ∀ t, x.quotedText? = some t → Unbroken t := by
  obtain ⟨role, st, hrole, hst, -⟩ := exists_states 0 hclean
  rw [hst.said?_eq hrole]
  cases st with
  | none => simp [visitPieces, hst.said?_eq hrole]
  | some st =>
    have hspelled : st.Spelled := hst.spelled hrole htable hnamed
    simp only [visitPieces, hst.said?_eq hrole, hescaping, List.forall_mem_cons,
      List.forall_mem_append, hspelled.isWellFormed_pieces]
    simp [Piece.isWellFormed]

end Writer

namespace Conversion

/-- Under escaping, the pieces of a converted view make up its text, and each of its literals is
well formed exactly if the namespaces that the preamble binds may stand in a literal as they are and
no text that a statement quotes has a line break. -/
theorem text_isWellFormed_iff (c : Conversion) (out : String) (h : c.text = .ok out)
    (hescaping : c.options.escaping = .backslash) :
    Piece.join c.pieces = out ∧ ∃ w start, c.entry = .ok (w, start) ∧
      ((∀ p ∈ c.pieces, p.isWellFormed = true) ↔
        (∀ b ∈ w.bound, isLiteralBody b.uri.toList = true) ∧
        ∀ s ∈ start.sites, ∀ st, w.said? Xml.Element.attr? s.element = some st →
          ∀ x ∈ st.expressions, ∀ t, x.quotedText? = some t → Unbroken t) := by
  obtain ⟨d, w, start, hentry, hc⟩ := exists_converts h
  have hpieces : c.pieces = w.pieces start := by simp [pieces, hentry]
  refine ⟨hpieces ▸ hc.join_pieces, w, start, hentry, ?_⟩
  have hsite (s : Xml.Site) (hs : s ∈ start.sites) :=
    Writer.isWellFormed_visitPieces (hc.options ▸ hescaping) hc.isTidy (hc.named hs)
      (hc.clean s hs)
  rw [hpieces, Writer.pieces, List.forall_mem_append, w.isWellFormed_preamblePieces]
  refine and_congr_right' ?_
  constructor
  · intro hall s hs
    refine (hsite s hs).mp fun p hp => hall p ?_
    exact List.mem_flatMap.mpr ⟨.enter s, Xml.Element.mem_sites.mp hs, hp⟩
  · intro hall p hp
    obtain ⟨v, hv, hp⟩ := List.mem_flatMap.mp hp
    cases v with
    | enter s =>
      have hs := Xml.Element.mem_sites.mpr hv
      exact (hsite s hs).mpr (hall s hs) p hp
    | leave s =>
      simp only [Writer.visitPieces] at hp
      split at hp
      · obtain rfl := List.mem_singleton.mp hp
        rfl
      · simp at hp

/-- A view with all characters that have a meaning, in a key, in values, in a message and in a
text. -/
private def meaningful : Conversion :=
  ⟨"<p xmlns:x='urn:x' x:k='a \"b\" $c' m='$\x7b%$1\x7d'>\\ <b/></p>", none, ⟨.skip, .backslash⟩⟩

/-- Escaping is enough for such a view. -/
theorem text_isWellFormed_meaningful :
    meaningful.text = .ok ("// Namespaces\nx = namespace(\"urn:x\")\n\n\n" ++
      "p(\"x:k\": \"a \\\"b\\\" \\$c\", m: _(\"\\$1\"), \"\\\\\") \x7b\n  b() \n\x7d\n") ∧
    meaningful.options.escaping = .backslash ∧
    (∀ p ∈ meaningful.pieces, p.isWellFormed = true) ∧
    ∃ w start, meaningful.entry = .ok (w, start) ∧
      (∀ b ∈ w.bound, isLiteralBody b.uri.toList = true) ∧
      ∀ s ∈ start.sites, ∀ st, w.said? Xml.Element.attr? s.element = some st →
        ∀ x ∈ st.expressions, ∀ t, x.quotedText? = some t → Unbroken t := by
  have htext : meaningful.text = .ok ("// Namespaces\nx = namespace(\"urn:x\")\n\n\n" ++
      "p(\"x:k\": \"a \\\"b\\\" \\$c\", m: _(\"\\$1\"), \"\\\\\") \x7b\n  b() \n\x7d\n") := by
    decide +kernel
  have hwell : ∀ p ∈ meaningful.pieces, p.isWellFormed = true := by decide +kernel
  obtain ⟨-, w, start, hentry, hiff⟩ := text_isWellFormed_iff meaningful _ htext rfl
  exact ⟨htext, rfl, hwell, w, start, hentry, hiff.mp hwell⟩

/-- A text of two lines. -/
private def twoLines : Conversion := ⟨"<p>one\ntwo</p>", none, ⟨.skip, .backslash⟩⟩

/-- A namespace that is a double quote. -/
private def quoteUri : Conversion := ⟨"<a xmlns:x='\"'/>", none, ⟨.skip, .backslash⟩⟩

/-- Neither a text of two lines nor a namespace with a double quote gives a literal that is well
formed, though both views are escaped. -/
theorem text_ill_formed :
    (twoLines.text = .ok "// Namespaces\n\n\np(\"one\ntwo\") \n" ∧
      Piece.quoted "one\ntwo" ∈ twoLines.pieces ∧
      (Piece.quoted "one\ntwo").isWellFormed = false) ∧
    quoteUri.text = .ok "// Namespaces\nx = namespace(\"\"\")\n\n\na() \n" ∧
      Piece.quoted "\"" ∈ quoteUri.pieces ∧ (Piece.quoted "\"").isWellFormed = false := by
  decide +kernel

end Conversion

end GroovyViews
