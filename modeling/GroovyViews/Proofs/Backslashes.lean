import GroovyViews.Proofs.Literals

/-!
# Escaped and verbatim views

The two ways to write string literals give views that have the same lines and end alike. What one
has more than the other is a backslash before each character with a meaning in a text that a value
puts between double quotes, and nothing else. Without these backslashes the two are equal byte by
byte, and they are equal as they are exactly if no such text has a character with a meaning.
-/

namespace GroovyViews

open Groovy (Argument Expression Statement)

/-- The bytes of the characters with a meaning between double quotes. -/
def isSpecialByte (b : UInt8) : Bool := b = 0x5c || b = 0x22 || b = 0x24

/-- Some bytes are left of others after some backslashes have been deleted, each of which stands
directly before a backslash, a double quote or a dollar sign. -/
inductive Unescapes : List UInt8 → List UInt8 → Prop where
  /-- There is nothing to delete from. -/
  | nil : Unescapes [] []
  /-- A byte stays. -/
  | keep {b : UInt8} {escaped plain : List UInt8} :
      Unescapes escaped plain → Unescapes (b :: escaped) (b :: plain)
  /-- A backslash goes. -/
  | drop {b : UInt8} {escaped plain : List UInt8} : isSpecialByte b = true →
      Unescapes (b :: escaped) plain → Unescapes (0x5c :: b :: escaped) plain

namespace Unescapes

variable {escaped plain escaped' plain' : List UInt8}

/-- Nothing needs to be deleted. -/
theorem refl (bytes : List UInt8) : Unescapes bytes bytes := by
  induction bytes with
  | nil => exact .nil
  | cons b bytes ih => exact .keep ih

/-- Bytes one after the other are unescaped one after the other. -/
theorem append (h : Unescapes escaped plain) (h' : Unescapes escaped' plain') :
    Unescapes (escaped ++ escaped') (plain ++ plain') := by
  induction h with
  | nil => exact h'
  | keep _ ih => exact .keep ih
  | drop hb _ ih => exact .drop hb ih

/-- Deleting adds no bytes. -/
theorem length_le (h : Unescapes escaped plain) : plain.length ≤ escaped.length := by
  induction h with
  | nil => exact Nat.le_refl _
  | keep _ ih => exact Nat.succ_le_succ ih
  | drop _ _ ih => exact Nat.le_succ_of_le ih

/-- Nothing has been deleted if there are as many bytes as before. -/
theorem eq_of_length (h : Unescapes escaped plain) (hlength : escaped.length = plain.length) :
    escaped = plain := by
  induction h with
  | nil => rfl
  | keep _ ih => rw [ih (Nat.succ.inj hlength)]
  | drop _ hrest _ =>
    have hle := hrest.length_le
    rw [List.length_cons] at hlength
    omega

/-- If nothing has been deleted from a whole, then nothing has been from its parts. -/
theorem append_eq_iff (h : Unescapes escaped plain) (h' : Unescapes escaped' plain') :
    escaped ++ escaped' = plain ++ plain' ↔ escaped = plain ∧ escaped' = plain' := by
  constructor
  · intro heq
    have hlength := congrArg List.length heq
    simp only [List.length_append] at hlength
    have hle := h.length_le
    have hle' := h'.length_le
    exact ⟨h.eq_of_length (by omega), h'.eq_of_length (by omega)⟩
  · rintro ⟨rfl, rfl⟩
    rfl

/-- Line feeds are not deleted, and no other byte but a backslash is. -/
theorem count_eq (h : Unescapes escaped plain) {b : UInt8} (hb : b ≠ 0x5c) :
    escaped.count b = plain.count b := by
  induction h with
  | nil => rfl
  | keep _ ih => rw [List.count_cons, List.count_cons, ih]
  | drop _ _ ih => rw [List.count_cons_of_ne hb.symm, ih]

end Unescapes

/-- A text and the same text with backslashes added for escaping, which are none exactly if a
condition holds. -/
structure Escapes (plain escaped : String) (bare : Prop) : Prop where
  /-- Without the backslashes the one text is the other. -/
  unescapes : Unescapes (Text.bytes escaped) (Text.bytes plain)
  /-- The two are equal if the condition holds, and only then. -/
  eq_iff : plain = escaped ↔ bare

namespace Escapes

variable {plain escaped plain' escaped' : String} {bare bare' : Prop}

/-- A text that is not escaped. -/
theorem refl (text : String) : Escapes text text True := ⟨.refl _, by simp⟩

/-- Two texts one after the other are escaped, and left as they are exactly if both are. -/
theorem append (h : Escapes plain escaped bare) (h' : Escapes plain' escaped' bare') :
    Escapes (plain ++ plain') (escaped ++ escaped') (bare ∧ bare') := by
  refine ⟨?_, ?_⟩
  · rw [Text.bytes_append, Text.bytes_append]
    exact h.unescapes.append h'.unescapes
  · rw [eq_comm, ← Text.bytes_inj, Text.bytes_append, Text.bytes_append,
      h.unescapes.append_eq_iff h'.unescapes, Text.bytes_inj, Text.bytes_inj, eq_comm, h.eq_iff,
      eq_comm, h'.eq_iff]

/-- The condition may be said in another way. -/
theorem of_iff (h : Escapes plain escaped bare) (hiff : bare ↔ bare') :
    Escapes plain escaped bare' :=
  ⟨h.unescapes, h.eq_iff.trans hiff⟩

/-- Texts that are escaped one by one are escaped together. -/
theorem join {α : Type} {f g : α → String} {p : α → Prop} {l : List α}
    (h : ∀ a ∈ l, Escapes (f a) (g a) (p a)) :
    Escapes (String.join (l.map f)) (String.join (l.map g)) (∀ a ∈ l, p a) := by
  induction l with
  | nil => exact (refl "").of_iff (by simp)
  | cons a l ih =>
    rw [List.map_cons, List.map_cons, String.join_cons, String.join_cons]
    refine ((h a (by simp)).append (ih fun b hb => h b (by simp [hb]))).of_iff ?_
    simp

/-- Texts that are escaped one by one are escaped together with a separator between them. -/
theorem intercalate {α : Type} (separator : String) {f g : α → String} {p : α → Prop} {l : List α}
    (h : ∀ a ∈ l, Escapes (f a) (g a) (p a)) :
    Escapes (String.intercalate separator (l.map f)) (String.intercalate separator (l.map g))
      (∀ a ∈ l, p a) := by
  induction l with
  | nil => exact (refl "").of_iff (by simp)
  | cons a l ih =>
    have hfirst := h a (by simp)
    have hrest := ih fun b hb => h b (by simp [hb])
    cases l with
    | nil => simpa using hfirst
    | cons b l =>
      have hsplit (k : α → String) : String.intercalate separator ((a :: b :: l).map k) =
          k a ++ separator ++ String.intercalate separator ((b :: l).map k) :=
        String.intercalate_cons_of_ne_nil (by simp)
      rw [hsplit, hsplit]
      refine ((hfirst.append (refl separator)).append hrest).of_iff ?_
      simp

end Escapes

/-- No character of a text has a meaning between double quotes. -/
def Escaping.Bare (text : String) : Prop := ∀ c ∈ text.toList, isSpecial c = false

/-- No character of the text that an expression puts between double quotes has a meaning there. -/
def Groovy.Expression.Bare (x : Expression) : Prop := ∀ t, x.quotedText? = some t → Escaping.Bare t

/-- A character with a meaning gets a backslash. -/
theorem Escaping.escapes_special {c : Char} (hc : isSpecial c = true) :
    Escapes (String.ofList [c]) (String.ofList ['\\', c]) False := by
  have hcases : c = '\\' ∨ c = '"' ∨ c = '$' := by simpa [isSpecial, or_assoc] using hc
  have hbyte : ∃ b, isSpecialByte b = true ∧ Text.bytes (String.ofList [c]) = [b] ∧
      Text.bytes (String.ofList ['\\', c]) = [0x5c, b] := by
    rcases hcases with rfl | rfl | rfl
    · exact ⟨0x5c, by decide⟩
    · exact ⟨0x22, by decide⟩
    · exact ⟨0x24, by decide⟩
  obtain ⟨b, hspecial, hplain, hescaped⟩ := hbyte
  constructor
  · rw [hplain, hescaped]
    exact .drop hspecial (.keep .nil)
  · rw [← Text.bytes_inj, hplain, hescaped]
    simp

/-- A text between double quotes has backslashes added to it unless it is bare. -/
theorem Escaping.escapes_apply (text : String) :
    Escapes (verbatim.apply text) (backslash.apply text) (Bare text) := by
  unfold apply Bare
  generalize text.toList = cs
  simp only [chars]
  induction cs with
  | nil => exact (Escapes.refl "").of_iff (by simp)
  | cons c cs ih =>
    rw [List.flatMap_cons, String.ofList_append, ← List.singleton_append, String.ofList_append]
    cases hc : isSpecial c with
    | true => exact ((escapes_special hc).append ih).of_iff (by simp [hc])
    | false => exact ((Escapes.refl _).append ih).of_iff (by simp [hc])

namespace Groovy

/-- Code is never escaped, and what is quoted is escaped unless it is bare. -/
theorem Expression.escapes_render (x : Expression) :
    Escapes (x.render .verbatim) (x.render .backslash) x.Bare := by
  have hquoted (t : String) := Escaping.escapes_apply t
  cases x with
  | code text => exact (Escapes.refl text).of_iff (by simp [Bare, quotedText?])
  | message key =>
    exact (((Escapes.refl "_(\"").append (hquoted key)).append (.refl "\")")).of_iff
      (by simp [Bare, quotedText?])
  | literal text =>
    exact (((Escapes.refl "\"").append (hquoted text)).append (.refl "\"")).of_iff
      (by simp [Bare, quotedText?])

/-- The key of an argument is never escaped. -/
theorem Argument.escapes_render (a : Argument) :
    Escapes (a.render .verbatim) (a.render .backslash) a.value.Bare := by
  cases a with
  | named key value =>
    exact ((Escapes.refl (key.render ++ ": ")).append value.escapes_render).of_iff
      (by simp [Argument.value])
  | positional value => exact value.escapes_render

/-- A statement is escaped in its values only. -/
theorem Statement.escapes_line (s : Statement) (block : Bool) :
    Escapes (s.line .verbatim block) (s.line .backslash block) (∀ x ∈ s.expressions, x.Bare) := by
  have hhead : Escapes (s.head .verbatim) (s.head .backslash) (∀ x ∈ s.expressions, x.Bare) := by
    cases s with
    | call qualifier tag arguments =>
      have harguments := Escapes.intercalate ", " fun a (_ : a ∈ arguments) => a.escapes_render
      exact (((Escapes.refl (callee qualifier tag ++ "(")).append harguments).append
        (.refl ")")).of_iff (by simp [expressions])
    | condition test =>
      exact (((Escapes.refl "if(").append test.escapes_render).append (.refl ")")).of_iff
        (by simp [expressions])
    | alternative | definition => exact (Escapes.refl _).of_iff (by simp [expressions])
  exact (hhead.append (.refl (s.lineEnd block))).of_iff (by simp)

end Groovy

/-- A line of a view behind the preamble. -/
inductive Row where
  /-- The line of a statement, which may open a block. -/
  | statement (indent : Nat) (s : Statement) (block : Bool)
  /-- The line that closes a block. -/
  | brace (indent : Nat)

namespace Row

/-- The text of a line. -/
def text (escaping : Escaping) : Row → String
  | statement indent s block => (Step.line indent (s.line escaping block)).text
  | brace indent => (Step.line indent "\x7d").text

/-- The values in a line. -/
def expressions : Row → List Expression
  | statement _ s _ => s.expressions
  | brace _ => []

/-- A line is escaped in its values only. -/
theorem escapes_text (r : Row) :
    Escapes (r.text .verbatim) (r.text .backslash) (∀ x ∈ r.expressions, x.Bare) := by
  cases r with
  | statement indent s block =>
    exact (((Escapes.refl (Step.indentation indent)).append (s.escapes_line block)).append
      (.refl "\n")).of_iff (by simp [expressions])
  | brace indent => exact (Escapes.refl _).of_iff (by simp [expressions])

end Row

namespace Writer

/-- The lines of a visit. -/
def rowsOf (w : Writer) : Xml.Visit → List Row
  | .enter s => ((w.said? Xml.Element.attr? s.element).map fun st =>
      Row.statement s.depth st (w.opensBlock s.element)).toList
  | .leave s => if w.opensBlock s.element then [.brace s.depth] else []

variable {w : Writer}

/-- A visit without an objection writes its lines. -/
theorem visitText_eq_rows {v : Xml.Visit} (h : w.objection? Xml.Element.attr? v = none) :
    w.visitText 0 v = String.join ((w.rowsOf v).map (Row.text w.options.escaping)) := by
  cases v with
  | enter s =>
    obtain ⟨role, st, hrole, hst, ⟨rfl, -, -, htext⟩ | ⟨statement, rfl, -, htext⟩⟩ :=
      exists_states 0 h
    · simp [rowsOf, hst.said?_eq hrole, htext]
    · simp [rowsOf, hst.said?_eq hrole, htext, Row.text]
  | leave s =>
    cases hopens : w.opensBlock s.element with
    | true =>
      simp [rowsOf, visitText, visit, hopens, Emission.text, Emission.line, Traced.report, Row.text]
    | false => simp [rowsOf, visitText, visit, hopens, Emission.text]

/-- The lines that are written from an element on, up to the first element with something wrong. -/
def rows (w : Writer) (start : Xml.Element) : List Row :=
  (w.cleanVisits Xml.Element.attr? start).flatMap w.rowsOf

/-- What is written from an element on is the preamble and then the lines. -/
theorem written_ending (w : Writer) (start : Xml.Element) :
    (w.ending Xml.Element.attr? start).written = Text.bytes (Emission.text w.preamble ++
      String.join ((w.rows start).map (Row.text w.options.escaping))) := by
  have hvisits : (w.cleanVisits Xml.Element.attr? start).map (w.visitText 0) =
      (w.cleanVisits Xml.Element.attr? start).map fun v =>
        String.join ((w.rowsOf v).map (Row.text w.options.escaping)) := by
    refine List.map_congr_left fun v hv => visitText_eq_rows ?_
    simpa using List.mem_takeWhile_imp hv
  rw [ending, hvisits, rows, List.map_flatMap, Text.join_flatMap]

/-- The writer with another way of writing literals. -/
def withEscaping (w : Writer) (escaping : Escaping) : Writer :=
  w.mapOptions fun options => { options with escaping }

end Writer

namespace Conversion

/-- The conversion with another way of writing literals. -/
def withEscaping (c : Conversion) (escaping : Escaping) : Conversion :=
  c.mapOptions fun options => { options with escaping }

/-- The preamble of a conversion, which is only written if there is an element to start at. -/
def heading (c : Conversion) : String :=
  match c.entry with
  | .ok (w, _) => Emission.text w.preamble
  | .error _ => ""

/-- The lines that a conversion writes behind the preamble. -/
def rows (c : Conversion) : List Row :=
  match c.entry with
  | .ok (w, start) => w.rows start
  | .error _ => []

/-- How a conversion ends with literals written in a given way, beside what it starts from. -/
theorem ending_withEscaping (c : Conversion) (escaping : Escaping) :
    (Sink.unlimited.run (c.withEscaping escaping).emission).ending =
      ⟨(c.ending Xml.Element.attr?).outcome,
        Text.bytes (c.heading ++ String.join (c.rows.map (Row.text escaping)))⟩ := by
  rw [withEscaping, ending_mapOptions, ending, heading, rows]
  cases c.entry with
  | error err => rfl
  | ok entry =>
    obtain ⟨w, start⟩ := entry
    exact congrArg (Ending.mk _) ((w.withEscaping escaping).written_ending start)

/-- **Escaping changes only literals.** On a sink without limits the conversion that escapes
literals and the one that does not end alike. Both write the same preamble and the same lines, with
the same statements and the same blocks; only how the values of a line are written may differ. What
the one writes is left of what the other one writes if some backslashes are deleted, each of which
stands directly before a backslash, a double quote or a dollar sign; there are as many line feeds. A
line is the same in both exactly if there is no such character in the texts that its values put
between double quotes, and so is the whole. -/
theorem run_verbatim_backslash (c : Conversion) :
    let plain := Sink.unlimited.run (c.withEscaping .verbatim).emission
    let escaped := Sink.unlimited.run (c.withEscaping .backslash).emission
    plain.outcome = escaped.outcome ∧
    plain.sink.stored = Text.bytes (c.heading ++ String.join (c.rows.map (Row.text .verbatim))) ∧
    escaped.sink.stored = Text.bytes (c.heading ++ String.join (c.rows.map (Row.text .backslash))) ∧
    Unescapes escaped.sink.stored plain.sink.stored ∧
    plain.sink.stored.count 10 = escaped.sink.stored.count 10 ∧
    (∀ r ∈ c.rows, r.text .verbatim = r.text .backslash ↔ ∀ x ∈ r.expressions, x.Bare) ∧
    (plain.sink.stored = escaped.sink.stored ↔ ∀ r ∈ c.rows, ∀ x ∈ r.expressions, x.Bare) := by
  intro plain escaped
  have hplain : plain.ending = _ := c.ending_withEscaping .verbatim
  have hescaped : escaped.ending = _ := c.ending_withEscaping .backslash
  obtain ⟨houtcome, hstored⟩ := Ending.mk.inj hplain
  obtain ⟨houtcome', hstored'⟩ := Ending.mk.inj hescaped
  have hbody := (Escapes.refl c.heading).append (Escapes.join fun r (_ : r ∈ c.rows) =>
    r.escapes_text)
  have hunescapes : Unescapes escaped.sink.stored plain.sink.stored := by
    rw [hstored, hstored']
    exact hbody.unescapes
  refine ⟨houtcome.trans houtcome'.symm, hstored, hstored', hunescapes,
    (hunescapes.count_eq (by decide)).symm, fun r _ => r.escapes_text.eq_iff, ?_⟩
  rw [hstored, hstored', Text.bytes_inj, hbody.eq_iff]
  simp

end Conversion

end GroovyViews
