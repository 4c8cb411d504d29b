import GroovyViews.Proofs.Converted
import GroovyViews.Proofs.Spelling
import GroovyViews.Proofs.Transcript

/-!
# The pieces of a written view

The text of a view is cut into pieces: the string literals, each with what stands between its double
quotes, and all the rest. The pieces of a statement are those of its values, which come from the
document, and a frame around them, which is made of names and punctuation. A property of pieces that
the frame has holds of a statement exactly if it holds of its values.
-/

namespace GroovyViews

namespace Groovy

/-- A piece of the text of a view. -/
inductive Piece where
  /-- Anything but a string literal. -/
  | plain (text : String)
  /-- A string literal, with what stands between its double quotes. -/
  | quoted (body : String)
  deriving DecidableEq, Repr

namespace Piece

/-- The text of a piece. -/
def text : Piece → String
  | plain text => text
  | quoted body => "\"" ++ body ++ "\""

/-- The text of several pieces. -/
def join (pieces : List Piece) : String := String.join (pieces.map text)

/-- No pieces have no text. -/
@[simp] theorem join_nil : join [] = "" := rfl

/-- The text of the first piece comes first. -/
@[simp] theorem join_cons (p : Piece) (pieces : List Piece) :
    join (p :: pieces) = p.text ++ join pieces := by
  simp [join]

/-- The text of pieces that follow others follows their text. -/
@[simp] theorem join_append (first second : List Piece) :
    join (first ++ second) = join first ++ join second := by
  simp [join]

/-- The text of the pieces that the members of a list contribute. -/
theorem join_flatMap {α : Type} (f : α → List Piece) (l : List α) :
    join (l.flatMap f) = String.join (l.map fun a => join (f a)) := by
  rw [join, List.map_flatMap, Text.join_flatMap]
  rfl

/-- The characters of several pieces are those of each of them. -/
theorem toList_join (pieces : List Piece) :
    (join pieces).toList = pieces.flatMap fun p => p.text.toList := by
  induction pieces with
  | nil => rfl
  | cons p rest ih => rw [join_cons, String.toList_append, ih, List.flatMap_cons]

end Piece

/-- The pieces of an expression. -/
def Expression.pieces (escaping : Escaping) : Expression → List Piece
  | message key => [.plain "_(", .quoted (escaping.apply key), .plain ")"]
  | code text => [.plain text]
  | literal text => [.quoted (escaping.apply text)]

/-- A key is one piece. -/
def Key.piece : Key → Piece
  | plain name => .plain name
  | qualified pfx name => .quoted (pfx ++ ":" ++ name)

namespace Argument

/-- The value of an argument. -/
def value : Argument → Expression
  | named _ value | positional value => value

/-- The piece of the key, if the argument has one. -/
def keyPieces : Argument → List Piece
  | named key _ => [key.piece]
  | positional _ => []

/-- The pieces of an argument. -/
def pieces (escaping : Escaping) : Argument → List Piece
  | named key value => key.piece :: .plain ": " :: value.pieces escaping
  | positional value => value.pieces escaping

/-- The pieces of a list of arguments, with commas between them. -/
def piecesAll (escaping : Escaping) : List Argument → List Piece
  | [] => []
  | [a] => a.pieces escaping
  | a :: rest => a.pieces escaping ++ .plain ", " :: piecesAll escaping rest

end Argument

namespace Statement

/-- The pieces of a statement without its block. -/
def pieces (escaping : Escaping) : Statement → List Piece
  | call qualifier tag arguments =>
    .plain (callee qualifier tag ++ "(") :: (Argument.piecesAll escaping arguments ++ [.plain ")"])
  | condition test => .plain "if(" :: (test.pieces escaping ++ [.plain ")"])
  | alternative => [.plain "else"]
  | definition variableName className method =>
    [.plain ("def " ++ variableName ++ " = " ++ className ++ "." ++ method)]

/-- The values in a statement. -/
def expressions : Statement → List Expression
  | call _ _ arguments => arguments.map Argument.value
  | condition test => [test]
  | alternative | definition _ _ _ => []

/-- The pieces that a statement may have beside those of its values. -/
def frame : Statement → List Piece
  | call qualifier tag arguments =>
    .plain (callee qualifier tag ++ "(") :: .plain ", " :: .plain ": " :: .plain ")" ::
      arguments.flatMap Argument.keyPieces
  | condition _ => [.plain "if(", .plain ")"]
  | alternative => [.plain "else"]
  | definition variableName className method =>
    [.plain ("def " ++ variableName ++ " = " ++ className ++ "." ++ method)]

end Statement

/-- The pieces of an expression make up its text. -/
theorem Expression.join_pieces (escaping : Escaping) (x : Expression) :
    Piece.join (x.pieces escaping) = x.render escaping := by
  cases x with
  | message key => simp [pieces, render, Piece.text, ← String.toList_inj]
  | code text => simp [pieces, render, Piece.text]
  | literal text => simp [pieces, render, Piece.text]

/-- The piece of a key is its text. -/
theorem Key.text_piece (key : Key) : key.piece.text = key.render := by
  cases key with
  | plain name => rfl
  | qualified pfx name => simp [piece, render, Piece.text, String.append_assoc]

/-- The pieces of an argument make up its text. -/
theorem Argument.join_pieces (escaping : Escaping) (a : Argument) :
    Piece.join (a.pieces escaping) = a.render escaping := by
  cases a with
  | named key value =>
    have hcolon : (Piece.plain ": ").text = ": " := rfl
    simp [pieces, render, Expression.join_pieces, Key.text_piece, hcolon, String.append_assoc]
  | positional value => exact value.join_pieces escaping

/-- The pieces of a list of arguments make up their texts with commas between them. -/
theorem Argument.join_piecesAll (escaping : Escaping) (arguments : List Argument) :
    Piece.join (piecesAll escaping arguments) =
      String.intercalate ", " (arguments.map (Argument.render escaping)) := by
  induction arguments with
  | nil => rfl
  | cons a rest ih =>
    cases rest with
    | nil => simpa [piecesAll] using a.join_pieces escaping
    | cons b rest =>
      have hrest : (b :: rest).map (Argument.render escaping) ≠ [] := by simp
      have hwhole := String.intercalate_cons_of_ne_nil (s := ", ") (t := a.render escaping) hrest
      rw [← List.map_cons] at hwhole
      rw [piecesAll, Piece.join_append, Piece.join_cons, ih, a.join_pieces escaping, hwhole]
      · simp [Piece.text, String.append_assoc]
      · simp

/-- The pieces of a statement make up its text. -/
theorem Statement.join_pieces (escaping : Escaping) (s : Statement) :
    Piece.join (s.pieces escaping) = s.head escaping := by
  cases s with
  | call qualifier tag arguments =>
    simp [pieces, head, Piece.text, Argument.join_piecesAll, String.append_assoc]
  | condition test =>
    simp [pieces, head, Piece.text, Expression.join_pieces, String.append_assoc]
  | alternative => rfl
  | definition variableName className method => simp [pieces, head, Piece.text]

variable {q : Piece → Prop} {escaping : Escaping}

/-- The pieces that keys contribute to arguments are those of keys in them. -/
theorem Argument.exists_key_of_mem {arguments : List Argument} {p : Piece}
    (h : p ∈ arguments.flatMap keyPieces) :
    ∃ key value, named key value ∈ arguments ∧ p = key.piece := by
  obtain ⟨a, ha, hp⟩ := List.mem_flatMap.mp h
  cases a with
  | named key value => exact ⟨key, value, ha, List.mem_singleton.mp hp⟩
  | positional value => cases hp

/-- What holds of the punctuation and of the key holds of an argument if it holds of its value. -/
theorem Argument.forall_pieces {a : Argument} (hkey : ∀ p ∈ a.keyPieces, q p)
    (hcolon : q (.plain ": ")) :
    (∀ p ∈ a.pieces escaping, q p) ↔ ∀ p ∈ a.value.pieces escaping, q p := by
  cases a with
  | named key value =>
    have hpiece : q key.piece := hkey _ (by simp [keyPieces])
    simp [pieces, Argument.value, hpiece, hcolon]
  | positional value => rfl

/-- What holds of the punctuation and of the keys holds of arguments if it holds of their values. -/
theorem Argument.forall_piecesAll {arguments : List Argument}
    (hkeys : ∀ p ∈ arguments.flatMap keyPieces, q p) (hcolon : q (.plain ": "))
    (hcomma : q (.plain ", ")) :
    (∀ p ∈ piecesAll escaping arguments, q p) ↔
      ∀ x ∈ arguments.map Argument.value, ∀ p ∈ x.pieces escaping, q p := by
  induction arguments with
  | nil => simp [piecesAll]
  | cons a rest ih =>
    rw [List.flatMap_cons, List.forall_mem_append] at hkeys
    have hfirst : (∀ p ∈ a.pieces escaping, q p) ↔ ∀ p ∈ a.value.pieces escaping, q p :=
      forall_pieces hkeys.1 hcolon
    have hrest := ih hkeys.2
    cases rest with
    | nil => simpa [piecesAll] using hfirst
    | cons b rest =>
      rw [piecesAll, List.forall_mem_append, hfirst, List.forall_mem_cons, hrest, List.map_cons,
        List.forall_mem_cons]
      · simp [hcomma]
      · simp

/-- What holds of its frame holds of a statement exactly if it holds of its values. -/
theorem Statement.forall_pieces {s : Statement} (hframe : ∀ p ∈ s.frame, q p) :
    (∀ p ∈ s.pieces escaping, q p) ↔ ∀ x ∈ s.expressions, ∀ p ∈ x.pieces escaping, q p := by
  cases s with
  | call qualifier tag arguments =>
    simp only [frame, List.forall_mem_cons] at hframe
    obtain ⟨hcallee, hcomma, hcolon, hparen, hkeys⟩ := hframe
    simp only [pieces, List.forall_mem_cons, List.forall_mem_append, expressions,
      Argument.forall_piecesAll hkeys hcolon hcomma]
    simp [hcallee, hparen]
  | condition test =>
    simp only [frame, List.forall_mem_cons] at hframe
    obtain ⟨hif, hparen, -⟩ := hframe
    simp only [pieces, List.forall_mem_cons, List.forall_mem_append, expressions]
    simp [hif, hparen]
  | alternative | definition => simpa [pieces, expressions, frame] using hframe

end Groovy

open Groovy (Piece)

namespace Writer

/-- The pieces of the preamble: for each declaration that it binds the prefix, and the namespace as
a literal. -/
def preamblePieces (w : Writer) : List Piece :=
  .plain "// Namespaces\n" ::
    (w.bound.flatMap fun b => [.plain (b.pfx ++ " = namespace("), .quoted b.uri, .plain ")\n"]) ++
      [.plain "\n\n"]

/-- The pieces of what a visit writes. -/
def visitPieces (w : Writer) : Xml.Visit → List Piece
  | .enter s =>
    match w.said? Xml.Element.attr? s.element with
    | none => []
    | some st => .plain (Step.indentation s.depth) :: (st.pieces w.options.escaping ++
        [.plain (st.lineEnd (w.opensBlock s.element) ++ "\n")])
  | .leave s =>
    if w.opensBlock s.element then [.plain (Step.indentation s.depth ++ "\x7d\n")] else []

/-- The pieces of a view that is written from an element on. -/
def pieces (w : Writer) (start : Xml.Element) : List Piece :=
  w.preamblePieces ++ start.visits.flatMap w.visitPieces

variable {w : Writer}

/-- The pieces of the preamble make up its text. -/
theorem join_preamblePieces (w : Writer) :
    Piece.join w.preamblePieces = Emission.text w.preamble := by
  have hline (b : Xml.Binding) : Piece.join [.plain (b.pfx ++ " = namespace("), .quoted b.uri,
      .plain ")\n"] = preambleLine b ++ "\n" := by
    simp [Piece.text, preambleLine, ← String.toList_inj]
  rw [preamblePieces, text_preamble, Piece.join_append, Piece.join_cons, Piece.join_flatMap]
  simp [hline, Piece.text]

/-- Entering an element with nothing wrong writes the pieces of its statement between its margin and
the end of the line. -/
theorem join_visitPieces {v : Xml.Visit} (h : w.objection? Xml.Element.attr? v = none) :
    Piece.join (w.visitPieces v) = w.visitText 0 v := by
  cases v with
  | enter s =>
    obtain ⟨role, st, hrole, hst, ⟨rfl, -, -, htext⟩ | ⟨statement, rfl, -, htext⟩⟩ :=
      exists_states 0 h
    · simp [visitPieces, hst.said?_eq hrole, htext]
    · simp only [visitPieces, hst.said?_eq hrole, htext, Piece.join_cons, Piece.join_append,
        Groovy.Statement.join_pieces, Piece.text, Step.text, Groovy.Statement.line, Nat.zero_add,
        Piece.join_nil, String.append_empty, String.append_assoc]
  | leave s =>
    cases hopens : w.opensBlock s.element with
    | true =>
      simp [visitPieces, visitText, visit, hopens, Emission.text, Emission.line, Traced.report,
        Step.text, Piece.text, String.append_assoc]
    | false => simp [visitPieces, visitText, visit, hopens, Emission.text]

end Writer

namespace Conversion

/-- The pieces of the text of a conversion. -/
def pieces (c : Conversion) : List Piece :=
  match c.entry with
  | .ok (w, start) => w.pieces start
  | .error _ => []

variable {c : Conversion} {d : Xml.Document} {w : Writer} {start : Xml.Element} {out : String}

/-- The prefixes in the table of a conversion are names or empty. -/
theorem Converts.isTidy (h : c.Converts d w start out) :
    ∀ b ∈ w.prefixes.entries, b.isTidy = true :=
  fun b hb => Xml.Document.isTidy_of_mem_declared h.parse b (h.table.mem_iff.mp hb)

/-- All elements that are written are named. -/
theorem Converts.named (h : c.Converts d w start out) {s : Xml.Site} (hs : s ∈ start.sites) :
    s.element.tag.Named := by
  obtain ⟨p, hp, heq⟩ := Xml.Document.exists_placed h.starts hs
  exact heq ▸ Xml.Document.named_of_parse h.parse p hp

/-- The text of a conversion is made of its pieces. -/
theorem Converts.join_pieces (h : c.Converts d w start out) :
    Piece.join (w.pieces start) = out := by
  have hvisits : start.visits.map (fun v => Piece.join (w.visitPieces v)) =
      start.visits.map (w.visitText 0) := by
    refine List.map_congr_left fun v hv => Writer.join_visitPieces ?_
    have hclean : ∀ s, .enter s ∈ start.visits →
        w.complaint? Xml.Element.attr? s.element = none :=
      fun s hs => h.clean s (Xml.Element.mem_sites.mpr hs)
    exact Writer.objection?_eq_none hclean v hv
  rw [Writer.pieces, Piece.join_append, Writer.join_preamblePieces, Piece.join_flatMap, hvisits,
    h.text]

end Conversion

end GroovyViews
