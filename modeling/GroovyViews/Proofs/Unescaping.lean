import GroovyViews.Options

/-!
# Reading string literals

A string literal goes up to the first double quote that no backslash stands before, and a dollar
sign without a backslash is refused in it. What may stand behind a backslash is given by a table.
What a literal looks like is said by a relation, and the reader finds just that. An escaped text
between double quotes is such a literal, whatever the table is, and stands for the text as it was.
-/

namespace GroovyViews

/-- A text in which no character has a meaning is escaped as it is. -/
theorem Escaping.chars_backslash_of_plain {cs : List Char} (h : ∀ c ∈ cs, isSpecial c = false) :
    backslash.chars cs = cs := by
  rw [chars]
  induction cs with
  | nil => rfl
  | cons c cs ih =>
    rw [List.flatMap_cons, h c (by simp), ih fun d hd => h d (by simp [hd])]
    rfl

namespace Groovy

/-- What a backslash and the character behind it stand for in a literal, if they may stand there.
A backslash, a double quote and a dollar sign stand for themselves. -/
structure EscapeTable where
  /-- The character that is meant. -/
  meaning : Char → Option Char
  /-- Two backslashes stand for one. -/
  meaning_backslash : meaning '\\' = some '\\'
  /-- A double quote does not end the literal. -/
  meaning_quote : meaning '"' = some '"'
  /-- A dollar sign begins no code. -/
  meaning_dollar : meaning '$' = some '$'

namespace EscapeTable

/-- What stands between the double quotes of a literal, with the text that it stands for: characters
without a meaning, and others behind a backslash. -/
inductive Denotes (e : EscapeTable) : List Char → List Char → Prop where
  /-- There is nothing between the quotes. -/
  | nil : Denotes e [] []
  /-- A character stands for itself. -/
  | plain {c : Char} {body text : List Char} : c ≠ '"' → c ≠ '\\' → c ≠ '$' →
      Denotes e body text → Denotes e (c :: body) (c :: text)
  /-- A character behind a backslash stands for what it means there. -/
  | escaped {c meant : Char} {body text : List Char} : e.meaning c = some meant →
      Denotes e body text → Denotes e ('\\' :: c :: body) (meant :: text)

/-- Reads on in a literal: the text up to the double quote that ends it, and the rest behind that
quote. A dollar sign is refused, and so is a literal without an end. -/
def readBody (e : EscapeTable) : List Char → Option (List Char × List Char)
  | '"' :: rest => some ([], rest)
  | '\\' :: c :: cs => do
    let meant ← e.meaning c
    let read ← e.readBody cs
    return (meant :: read.1, read.2)
  | '\\' :: [] | '$' :: _ | [] => none
  | c :: cs => do
    let read ← e.readBody cs
    return (c :: read.1, read.2)

/-- Reads a literal at the start of a text: the text that it stands for, and the rest behind it. -/
def read (e : EscapeTable) (s : String) : Option (String × String) :=
  match s.toList with
  | '"' :: cs => (e.readBody cs).map fun read => (String.ofList read.1, String.ofList read.2)
  | _ => none

variable {e : EscapeTable} {text rest cs : List Char}

/-- The reader finds the literals and nothing else. -/
theorem readBody_eq_some_iff :
    e.readBody cs = some (text, rest) ↔ ∃ body, cs = body ++ '"' :: rest ∧ e.Denotes body text := by
  constructor
  · intro h
    fun_induction readBody e cs generalizing text with
    | case1 rest =>
      cases h
      exact ⟨[], rfl, .nil⟩
    | case2 c cs ih =>
      obtain ⟨meant, hmeant, h⟩ := Option.bind_eq_some_iff.mp h
      obtain ⟨found, hfound, h⟩ := Option.bind_eq_some_iff.mp h
      cases h
      obtain ⟨body, rfl, hdenotes⟩ := ih hfound
      exact ⟨'\\' :: c :: body, rfl, .escaped hmeant hdenotes⟩
    | case3 | case4 | case5 => cases h
    | case6 c cs hquote hescape _ hdollar ih =>
      obtain ⟨found, hfound, h⟩ := Option.bind_eq_some_iff.mp h
      cases h
      obtain ⟨body, rfl, hdenotes⟩ := ih hfound
      -- There is at least the quote behind it, so a backslash would have been read with that.
      have hne : c ≠ '\\' := by
        intro hc
        obtain ⟨d, ds, hds⟩ := List.exists_cons_of_ne_nil
          (List.append_ne_nil_of_right_ne_nil body (List.cons_ne_nil '"' found.2))
        exact hescape d ds hc hds
      exact ⟨c :: body, rfl, .plain hquote hne hdollar hdenotes⟩
  · rintro ⟨body, rfl, hdenotes⟩
    induction hdenotes with
    | nil => rfl
    | plain hquote hbackslash hdollar hdenotes ih => simp [readBody, ih, hbackslash]
    | escaped hmeaning hdenotes ih => simp [readBody, hmeaning, ih]

/-- An escaped text stands for the text itself. -/
theorem denotes_escaped (e : EscapeTable) (cs : List Char) :
    e.Denotes (Escaping.backslash.chars cs) cs := by
  induction cs with
  | nil => exact .nil
  | cons c cs ih =>
    rw [Escaping.chars] at ih ⊢
    rw [List.flatMap_cons]
    by_cases hc : Escaping.isSpecial c = true
    · rw [if_pos hc]
      refine .escaped ?_ ih
      simp only [Escaping.isSpecial, Bool.or_eq_true, decide_eq_true_eq] at hc
      obtain (rfl | rfl) | rfl := hc
      · exact e.meaning_backslash
      · exact e.meaning_quote
      · exact e.meaning_dollar
    · rw [if_neg hc]
      simp only [Escaping.isSpecial, Bool.or_eq_true, decide_eq_true_eq, not_or] at hc
      obtain ⟨⟨hbackslash, hquote⟩, hdollar⟩ := hc
      exact .plain hquote hbackslash hdollar ih

/-- What is left behind a literal is shorter than what there was. -/
theorem length_lt_of_readBody (h : e.readBody cs = some (text, rest)) :
    rest.length < cs.length := by
  obtain ⟨body, rfl, -⟩ := readBody_eq_some_iff.mp h
  simp only [List.length_append, List.length_cons]
  omega

/-- An escaped text with a double quote behind it is read as the text. -/
theorem readBody_escaped (e : EscapeTable) (text rest : List Char) :
    e.readBody (Escaping.backslash.chars text ++ '"' :: rest) = some (text, rest) :=
  readBody_eq_some_iff.mpr ⟨_, rfl, e.denotes_escaped text⟩

/-- An escaped text between double quotes is read as the text, and all that comes behind the second
quote is left. -/
theorem read_quoted (e : EscapeTable) (text t : String) :
    e.read ("\"" ++ Escaping.backslash.apply text ++ "\"" ++ t) = some (text, t) := by
  simp [read, Escaping.apply, e.readBody_escaped]

end EscapeTable

end Groovy

end GroovyViews
