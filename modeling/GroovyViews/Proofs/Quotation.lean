import GroovyViews.Proofs.Decoding

/-!
# Where a string literal ends

A value that is not code is written as a string literal, or with one in it if it is the key of a
message. The literal ends with the quote that was put there, whatever comes behind it, and stands
for what the value conveys.
-/

namespace GroovyViews

namespace Text

/-- The text is the other one without the white space at its two ends. -/
structure TrimsTo (s text : String) : Prop where
  /-- There is nothing but white space around it. -/
  around : ∃ front back, s = front ++ text ++ back ∧ allBlank front = true ∧ allBlank back = true
  /-- It does not begin with white space. -/
  head : ∀ c, text.toList.head? = some c → isBlank c = false
  /-- It does not end with white space. -/
  last : ∀ c, text.toList.getLast? = some c → isBlank c = false

/-- Trimming takes off all the white space at the two ends and nothing else. -/
theorem trimsTo_trim (s : String) : TrimsTo s (trim s) := by
  have hhead : ∀ {cs : List Char} {c : Char}, (cs.dropWhile isBlank).head? = some c →
      isBlank c = false := by
    intro cs c hc
    simpa [hc] using List.head?_dropWhile_not isBlank cs
  let front := s.toList.takeWhile isBlank
  let inner := s.toList.dropWhile isBlank
  let back := (inner.reverse.takeWhile isBlank).reverse
  have hinner : inner = trimChars s.toList ++ back := by
    rw [trimChars, ← List.reverse_append, List.takeWhile_append_dropWhile, List.reverse_reverse]
  refine ⟨⟨String.ofList front, String.ofList back, ?_, ?_, ?_⟩, ?_, ?_⟩
  · rw [← String.toList_inj]
    simp only [trim, String.toList_append, String.toList_ofList, List.append_assoc, ← hinner]
    exact List.takeWhile_append_dropWhile.symm
  · simp [allBlank, front, List.all_takeWhile]
  · simp [allBlank, back, List.all_takeWhile]
  · intro c hc
    rw [trim, String.toList_ofList] at hc
    have hfirst : inner.head? = some c := by rw [hinner, List.head?_append, hc, Option.some_or]
    exact hhead hfirst
  · intro c hc
    rw [trim, String.toList_ofList, trimChars, List.getLast?_reverse] at hc
    exact hhead hc

end Text

namespace Groovy

/-- A value that is code stands between the marks of code. -/
theorem exists_of_isCode {value : String} (h : IsCode value) :
    ∃ code, value = "$\x7b" ++ code ++ "\x7d" := by
  obtain ⟨⟨cs, hcs⟩, -, hlast⟩ := h
  rw [← hcs] at hlast
  obtain ⟨inside, hinside⟩ : ∃ inside, cs = inside ++ ['\x7d'] := by
    rw [← List.getLast?_eq_some_iff]
    cases cs with
    | nil => exact absurd hlast (by decide)
    | cons c cs => simpa using hlast
  refine ⟨String.ofList inside, ?_⟩
  rw [← String.toList_inj, ← hcs, hinside]
  simp

/-- **An escaped literal ends where it was meant to.** Let a value be written as an escaped
expression, with any text behind it. If the value is neither the key of a message nor code, then
the literal at the start is read as the value without the white space at its two ends, and the
text behind it is left as it is. If the value begins with the mark of a message, then the literal
behind the first parenthesis is read as what follows that mark without its last character, and the
other parenthesis and the text behind it are left. This holds for whatever else may stand behind a
backslash in a literal. -/
theorem Expression.read_render_ofValue (e : EscapeTable) (value t : String) :
    ((∀ key, value ≠ "$\x7b%" ++ key) → (∀ code, value ≠ "$\x7b" ++ code ++ "\x7d") →
      e.read ((ofValue value).render .backslash ++ t) = some (Text.trim value, t) ∧
        Text.TrimsTo value (Text.trim value)) ∧
    ∀ key, value = "$\x7b%" ++ key → ∃ inside,
      (ofValue value).render .backslash ++ t = "_(" ++ inside ∧
        e.read inside = some (String.ofList key.toList.dropLast, ")" ++ t) := by
  constructor
  · intro hmessage hcode
    have hdata : ¬IsCode value := fun h => (exists_of_isCode h).elim hcode
    have hplain : ¬['$', '\x7b', '%'] <+: value.toList := by
      rintro ⟨cs, hcs⟩
      refine hmessage (String.ofList cs) ?_
      rw [← String.toList_inj, ← hcs]
      simp
    have hliteral : literal (Text.trim value) = ofValue value :=
      (conveys_iff hdata).mp ⟨hplain, rfl⟩
    refine ⟨?_, Text.trimsTo_trim value⟩
    rw [← hliteral, render, e.read_quoted]
  · rintro key rfl
    have hmark : ("$\x7b%" ++ key).toList = '$' :: '\x7b' :: '%' :: key.toList := by simp
    have hdata : ¬IsCode ("$\x7b%" ++ key) := fun h => h.2.1 ⟨key.toList, hmark.symm⟩
    have hmessage : message (String.ofList key.toList.dropLast) = ofValue ("$\x7b%" ++ key) :=
      (conveys_iff hdata).mp ⟨key.toList, hmark, rfl⟩
    refine ⟨_, ?_, e.read_quoted _ (")" ++ t)⟩
    rw [← hmessage, render, ← String.toList_inj]
    simp

/-- The letters that stand for another character behind a backslash in a Groovy literal. -/
def EscapeTable.letters : List (Char × Char) :=
  [('b', '\x08'), ('t', '\t'), ('n', '\n'), ('f', '\x0c'), ('r', '\r'), ('s', ' ')]

/-- The escapes of one character that Groovy has. -/
def EscapeTable.groovy : EscapeTable where
  meaning c := if c ∈ ['\\', '"', '$', '\x27'] then some c else letters.lookup c
  meaning_backslash := rfl
  meaning_quote := rfl
  meaning_dollar := rfl

/-- Code without its closing brace, with a double quote in it and a backslash before the blank at
its end. -/
private def unclosed : String := "$\x7b\"\\ "

/-- What is behind the mark of a message with a double quote at its end. -/
private def quoting : String := "say \"\x7d"

/-- Neither the backslash nor the double quotes run into the double quote that comes behind. -/
theorem Expression.read_render_ofValue_unclosed :
    (∀ key, unclosed ≠ "$\x7b%" ++ key) ∧ (∀ code, unclosed ≠ "$\x7b" ++ code ++ "\x7d") ∧
    (ofValue unclosed).render .backslash = "\"\\$\x7b\\\"\\\\\"" ∧
    EscapeTable.groovy.read ((ofValue unclosed).render .backslash ++ "\" + x") =
      some ("$\x7b\"\\", "\" + x") ∧
    (ofValue ("$\x7b%" ++ quoting)).render .backslash = "_(\"say \\\"\")" ∧
    ∃ inside, (ofValue ("$\x7b%" ++ quoting)).render .backslash ++ "\" + x" = "_(" ++ inside ∧
      EscapeTable.groovy.read inside = some ("say \"", ")\" + x") := by
  have hmessage : ∀ key, unclosed ≠ "$\x7b%" ++ key := by
    intro key h
    simpa [unclosed] using congrArg String.toList h
  have hcode : ∀ code, unclosed ≠ "$\x7b" ++ code ++ "\x7d" := by
    intro code h
    simpa [unclosed, List.getLast?_cons] using congrArg (fun s => s.toList.getLast?) h
  have htrim : Text.trim unclosed = "$\x7b\"\\" := by decide +kernel
  have hread := ((read_render_ofValue .groovy unclosed "\" + x").1 hmessage hcode).1
  refine ⟨hmessage, hcode, by decide +kernel, htrim ▸ hread, by decide +kernel, ?_⟩
  exact (read_render_ofValue .groovy _ "\" + x").2 quoting rfl

end Groovy

end GroovyViews
