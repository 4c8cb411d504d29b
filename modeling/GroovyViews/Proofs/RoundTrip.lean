import GroovyViews.Proofs.Spelling
import GroovyViews.Proofs.Unescaping

/-!
# Reading calls back

An escaped call can be read back. The reader first finds the string literals, each one token with
the text that it stands for, and takes all other characters one by one. After that the punctuation
of a call is unmistakable: whatever of it stands in a value is inside of a literal. So the method,
the attributes with their keys and values, and the text can all be told from the line.
-/

namespace GroovyViews

namespace Groovy

/-- What a reader of a line tells apart: string literals and single characters. -/
inductive Token where
  /-- A string literal, with the text that it stands for. -/
  | string (text : String)
  /-- A character outside of all literals. -/
  | char (c : Char)
  deriving DecidableEq, Repr

/-- Only the characters with a meaning may stand behind a backslash, and they stand for themselves.
-/
def EscapeTable.strict : EscapeTable where
  meaning c := if Escaping.isSpecial c then some c else none
  meaning_backslash := rfl
  meaning_quote := rfl
  meaning_dollar := rfl

namespace Token

/-- The tokens of a line. Blanks between tokens are passed over. In a literal a backslash stands
before each character with a meaning and before no other one. -/
def read (cs : List Char) : Option (List Token) :=
  match cs with
  | [] => some []
  | c :: cs =>
    if c = '"' then
      match _hread : EscapeTable.strict.readBody cs with
      | none => none
      | some (text, rest) => (read rest).map (.string (String.ofList text) :: ·)
    else if c = ' ' then read cs
    else (read cs).map (.char c :: ·)
termination_by cs.length
decreasing_by
  · have hlength := EscapeTable.length_lt_of_readBody _hread
    simp only [List.length_cons]
    omega
  all_goals simp

/-- The character, if the token is one. -/
def char? : Token → Option Char
  | char c => some c
  | string _ => none

end Token

/-- A builder call as it can be told from its line. -/
structure Call where
  /-- The method, with its qualifier if it has one. -/
  callee : String
  /-- The attributes in order, each with its key and its value. -/
  attributes : List (Key × Expression)
  /-- The text, if there is one. -/
  text : Option Expression
  deriving DecidableEq, Repr

/-- An expression from its tokens. Code is not read. -/
def Expression.ofTokens? : List Token → Option Expression
  | [.string text] => some (.literal text)
  | [.char '_', .char '(', .string key, .char ')'] => some (.message key)
  | _ => none

/-- A key from its tokens. What is quoted is a prefix up to the first colon and a name behind it. -/
def Key.ofTokens? : List Token → Option Key
  | [.string text] => some (.qualified (String.ofList (text.toList.takeWhile (· ≠ ':')))
      (String.ofList (text.toList.dropWhile (· ≠ ':')).tail))
  | tokens => (tokens.mapM Token.char?).map fun cs => .plain (String.ofList cs)

/-- An argument from its tokens: an expression alone, or one with a key and a colon in front. -/
def Argument.ofTokens? (tokens : List Token) : Option Argument :=
  match Expression.ofTokens? tokens with
  | some value => some (.positional value)
  | none => do
    let key ← Key.ofTokens? (tokens.takeWhile (· ≠ .char ':'))
    let value ← Expression.ofTokens? (tokens.dropWhile (· ≠ .char ':')).tail
    return .named key value

/-- Arguments from their tokens, with a comma between any two. -/
def Argument.listOfTokens? : List Token → Option (List Argument)
  | [] => some []
  | tokens => (tokens.splitOn (.char ',')).mapM Argument.ofTokens?

namespace Call

/-- A call with some arguments: first those with a key, then at most one without. -/
def ofArguments? (callee : String) : List Argument → Option Call
  | [] => some ⟨callee, [], none⟩
  | [.positional value] => some ⟨callee, [], some value⟩
  | .positional _ :: _ => none
  | .named key value :: rest => (ofArguments? callee rest).map fun call =>
      { call with attributes := (key, value) :: call.attributes }

/-- A call from its tokens: the method up to the first parenthesis, and the arguments from there up
to the last token, which is the other parenthesis. -/
def ofTokens? (tokens : List Token) : Option Call := do
  let callee ← (tokens.takeWhile (· ≠ .char '(')).mapM Token.char?
  let inside := (tokens.dropWhile (· ≠ .char '(')).tail
  if inside.getLast? = some (.char ')') then
    ofArguments? (String.ofList callee) (← Argument.listOfTokens? inside.dropLast)
  else none

/-- Reads a call back from its line. -/
def read (line : String) : Option Call := (Token.read line.toList).bind ofTokens?

/-- The arguments of a call. -/
def arguments (call : Call) : List Argument :=
  (call.attributes.map fun a => .named a.1 a.2) ++ (call.text.map Argument.positional).toList

/-- The line of a call. -/
def render (escaping : Escaping) (call : Call) : String :=
  call.callee ++ "(" ++
    String.intercalate ", " (call.arguments.map (Argument.render escaping)) ++ ")"

end Call

/-! ## Tokens of what is written -/

/-- Whatever comes behind the text, its tokens are read first. -/
def Lexes (s : String) (tokens : List Token) : Prop :=
  ∀ rest, Token.read (s.toList ++ rest) = (Token.read rest).map (tokens ++ ·)

/-- The tokens of a text that follows another one follow its tokens. -/
theorem Lexes.append {s t : String} {first second : List Token} (hs : Lexes s first)
    (ht : Lexes t second) : Lexes (s ++ t) (first ++ second) := by
  intro rest
  rw [String.toList_append, List.append_assoc, hs, ht, Option.map_map]
  simp [Function.comp_def]

/-- With nothing behind it, a text is read as its tokens. -/
theorem Lexes.read_eq {s : String} {tokens : List Token} (h : Lexes s tokens) :
    Token.read s.toList = some tokens := by
  simpa [Token.read] using h []

/-- Characters without a meaning to the reader are tokens one by one. -/
theorem lexes_chars {s : String} (h : ∀ c ∈ s.toList, c ≠ '"' ∧ c ≠ ' ') :
    Lexes s (s.toList.map .char) := by
  intro rest
  generalize s.toList = cs at h
  induction cs with
  | nil => simp
  | cons c cs ih =>
    obtain ⟨hquote, hblank⟩ := h c (by simp)
    rw [List.cons_append, Token.read, if_neg hquote, if_neg hblank,
      ih fun c hc => h c (by simp [hc]), Option.map_map]
    rfl

/-- An escaped text between double quotes is one token. -/
theorem lexes_escaped (s : String) :
    Lexes ("\"" ++ Escaping.backslash.apply s ++ "\"") [.string s] := by
  intro rest
  have hchars : ("\"" ++ Escaping.backslash.apply s ++ "\"").toList ++ rest =
      '"' :: (Escaping.backslash.chars s.toList ++ '"' :: rest) := by
    simp [Escaping.apply]
  rw [hchars, Token.read, if_pos rfl, EscapeTable.readBody_escaped]
  simp

/-- The tokens of an expression that is not code. -/
def Expression.tokens : Expression → List Token
  | message key => [.char '_', .char '(', .string key, .char ')']
  | literal text => [.string text]
  | code _ => []

/-- The expression is not code. -/
def Expression.isData : Expression → Bool
  | code _ => false
  | message _ | literal _ => true

/-- The tokens of a key. -/
def Key.tokens : Key → List Token
  | plain name => name.toList.map .char
  | qualified pfx name => [.string (pfx ++ ":" ++ name)]

/-- The key is spelled and can be told from the colon behind it or in it. -/
def Key.Unambiguous : Key → Prop
  | plain name => Xml.Spelled name ∧ ':' ∉ name.toList
  | qualified pfx name => Xml.Spelled pfx ∧ Xml.Spelled name ∧ ':' ∉ pfx.toList

/-- The tokens of an argument. -/
def Argument.tokens : Argument → List Token
  | named key value => key.tokens ++ .char ':' :: value.tokens
  | positional value => value.tokens

/-- The argument is data under a key that can be told. -/
def Argument.Unambiguous : Argument → Prop
  | named key value => key.Unambiguous ∧ value.isData = true
  | positional value => value.isData = true

variable {x : Expression} {key : Key} {a : Argument} {arguments : List Argument}

/-- A character of a name has no meaning to the reader. -/
theorem ne_of_isNameChar {c : Char} (h : Xml.isNameChar c = true) :
    c ≠ '"' ∧ c ≠ ' ' := by
  constructor <;> rintro rfl <;> exact absurd h (by decide)

/-- Names are escaped as they are. -/
theorem apply_backslash_of_spelled {s : String} (h : Xml.Spelled s) :
    Escaping.backslash.apply s = s := by
  have hchars : Escaping.backslash.chars s.toList = s.toList :=
    Escaping.chars_backslash_of_plain fun c hc => Xml.isSpecial_of_isNameChar (h c hc)
  rw [Escaping.apply, hchars, String.ofList_toList]

/-- A name is read character by character. -/
theorem lexes_of_spelled {s : String} (h : Xml.Spelled s) : Lexes s (s.toList.map .char) :=
  lexes_chars fun c hc => ne_of_isNameChar (h c hc)

/-- An expression that is not code is written as its tokens. -/
theorem Expression.lexes_render (h : x.isData = true) : Lexes (x.render .backslash) x.tokens := by
  cases x with
  | literal text => exact lexes_escaped text
  | message key =>
    have hopen : Lexes "_(" [.char '_', .char '('] := lexes_chars (by simp)
    have hclose : Lexes ")" [.char ')'] := lexes_chars (by simp)
    have hrender : render .backslash (message key) =
        "_(" ++ ("\"" ++ Escaping.backslash.apply key ++ "\"") ++ ")" := by
      simp [render, ← String.toList_inj]
    rw [hrender]
    exact (hopen.append (lexes_escaped key)).append hclose
  | code text => cases h

/-- A key that can be told is written as its tokens. -/
theorem Key.lexes_render (h : key.Unambiguous) : Lexes key.render key.tokens := by
  cases key with
  | plain name => exact lexes_of_spelled h.1
  | qualified pfx name =>
    obtain ⟨hpfx, hname, -⟩ := h
    have hspelled : Xml.Spelled (pfx ++ ":" ++ name) :=
      (hpfx.append (.of_isName (by decide))).append hname
    have hrender : render (qualified pfx name) =
        "\"" ++ Escaping.backslash.apply (pfx ++ ":" ++ name) ++ "\"" := by
      rw [apply_backslash_of_spelled hspelled, render]
      simp only [String.append_assoc]
    rw [hrender]
    exact lexes_escaped _

/-- An argument that can be told is written as its tokens. -/
theorem Argument.lexes_render (h : a.Unambiguous) : Lexes (a.render .backslash) a.tokens := by
  cases a with
  | positional value => exact Expression.lexes_render h
  | named key value =>
    have hcolon : Lexes ": " [.char ':'] := by
      intro rest
      simp [Token.read]
    have hwhole := ((Key.lexes_render h.1).append hcolon).append (Expression.lexes_render h.2)
    rwa [List.append_assoc, List.singleton_append] at hwhole

/-- Arguments are read with the commas between them. -/
theorem Argument.lexes_intercalate (h : ∀ a ∈ arguments, a.Unambiguous) :
    Lexes (String.intercalate ", " (arguments.map (render .backslash)))
      ([Token.char ','].intercalate (arguments.map tokens)) := by
  induction arguments with
  | nil => exact lexes_chars (by simp)
  | cons a rest ih =>
    have hfirst := lexes_render (h a (by simp))
    have hrest := ih fun b hb => h b (by simp [hb])
    cases rest with
    | nil => simpa using hfirst
    | cons b rest =>
      have hcomma : Lexes ", " [.char ','] := by
        intro rest
        simp [Token.read]
      rw [List.map_cons, List.map_cons (f := tokens), String.intercalate_cons_of_ne_nil (by simp),
        List.intercalate_cons_of_ne_nil (by simp)]
      exact (hfirst.append hcomma).append hrest

/-! ## Reading the tokens -/

/-- An expression that is not code is found in its tokens. -/
theorem Expression.ofTokens?_tokens (h : x.isData = true) : ofTokens? x.tokens = some x := by
  cases x with
  | literal _ | message _ => rfl
  | code _ => cases h

/-- There is no colon in the tokens of an expression. -/
theorem Expression.colon_not_mem {tokens : List Token} (h : ofTokens? tokens = some x) :
    .char ':' ∉ tokens := by
  unfold ofTokens? at h
  split at h
  · simp
  · simp
  · cases h

/-- The characters that are tokens one by one are found again. -/
theorem mapM_char? (cs : List Char) : (cs.map Token.char).mapM Token.char? = some cs := by
  induction cs with
  | nil => rfl
  | cons c cs ih => simp [Token.char?, ih]

/-- What comes before the first of its kind is taken, and the rest is left. -/
theorem takeWhile_dropWhile_cons {α : Type} [DecidableEq α] {first : List α} {stop : α}
    (h : stop ∉ first) (rest : List α) :
    (first ++ stop :: rest).takeWhile (· ≠ stop) = first ∧
      (first ++ stop :: rest).dropWhile (· ≠ stop) = stop :: rest := by
  have hne : ∀ a ∈ first, decide (a ≠ stop) = true := by
    intro a ha
    simpa using fun heq : a = stop => h (heq ▸ ha)
  constructor
  · rw [List.takeWhile_append_of_pos hne]
    simp
  · rw [List.dropWhile_append_of_pos hne]
    simp

/-- A key that can be told is found in its tokens. -/
theorem Key.ofTokens?_tokens (h : key.Unambiguous) : ofTokens? key.tokens = some key := by
  cases key with
  | plain name =>
    rw [tokens, ofTokens?, mapM_char?]
    · simp
    · intro text heq
      have hmem : Token.string text ∈ name.toList.map Token.char := by simp [heq]
      simp at hmem
  | qualified pfx name =>
    have hchars : (pfx ++ ":" ++ name).toList = pfx.toList ++ ':' :: name.toList := by simp
    obtain ⟨htake, hdrop⟩ := takeWhile_dropWhile_cons h.2.2 name.toList
    rw [tokens, ofTokens?, hchars, htake, hdrop]
    simp

/-- There is no colon among the tokens of a key that can be told. -/
theorem Key.colon_not_mem (h : key.Unambiguous) : .char ':' ∉ key.tokens := by
  cases key with
  | plain name => simpa [tokens] using h.2
  | qualified pfx name => simp [tokens]

/-- An argument that can be told is found in its tokens. -/
theorem Argument.ofTokens?_tokens (h : a.Unambiguous) : ofTokens? a.tokens = some a := by
  cases a with
  | positional value => rw [tokens, ofTokens?, Expression.ofTokens?_tokens h]
  | named key value =>
    have hnone : Expression.ofTokens? (tokens (named key value)) = none := by
      cases hread : Expression.ofTokens? (tokens (named key value)) with
      | none => rfl
      | some x => exact absurd (by simp [tokens]) (Expression.colon_not_mem hread)
    obtain ⟨htake, hdrop⟩ := takeWhile_dropWhile_cons (Key.colon_not_mem h.1) value.tokens
    rw [ofTokens?, hnone]
    simp only [tokens, htake, hdrop, List.tail_cons, Key.ofTokens?_tokens h.1,
      Expression.ofTokens?_tokens h.2]
    rfl

/-- An argument has tokens, and no comma is among them. -/
theorem Argument.tokens_ne_nil (h : a.Unambiguous) : a.tokens ≠ [] ∧ .char ',' ∉ a.tokens := by
  have hvalue : ∀ x : Expression, x.isData = true → x.tokens ≠ [] ∧ .char ',' ∉ x.tokens := by
    intro x hx
    cases x with
    | literal _ | message _ => simp [Expression.tokens]
    | code _ => cases hx
  have hkey : ∀ key : Key, key.Unambiguous → .char ',' ∉ key.tokens := by
    intro key hkey
    cases key with
    | plain name =>
      have hcomma : ',' ∉ name.toList := fun hc => absurd (hkey.1 _ hc) (by decide)
      simpa [Key.tokens] using hcomma
    | qualified pfx name => simp [Key.tokens]
  cases a with
  | positional value => exact hvalue value h
  | named key value => simp [tokens, hkey key h.1, (hvalue value h.2).2]

/-- Arguments are found between the commas. -/
theorem Argument.listOfTokens?_intercalate (h : ∀ a ∈ arguments, a.Unambiguous) :
    listOfTokens? ([Token.char ','].intercalate (arguments.map tokens)) = some arguments := by
  have hread : (arguments.map tokens).mapM ofTokens? = some arguments := by
    induction arguments with
    | nil => rfl
    | cons a rest ih =>
      simp [ofTokens?_tokens (h a (by simp)), ih fun b hb => h b (by simp [hb])]
  cases arguments with
  | nil => rfl
  | cons a rest =>
    have hsplit : ([Token.char ','].intercalate ((a :: rest).map tokens)).splitOn (.char ',') =
        (a :: rest).map tokens := by
      refine List.splitOn_intercalate _ ?_ (by simp)
      intro l hl
      obtain ⟨b, hb, rfl⟩ := List.mem_map.mp hl
      exact (tokens_ne_nil (h b hb)).2
    rw [listOfTokens?, hsplit, hread]
    intro hnil
    rw [hnil] at hsplit
    have hfirst : a.tokens = [] ∧ rest = [] := by simpa using hsplit
    exact (tokens_ne_nil (h a (by simp))).1 hfirst.1

namespace Call

variable {call : Call}

/-- The method is spelled and the arguments can all be told. -/
structure Unambiguous (call : Call) : Prop where
  /-- The method is spelled. -/
  callee : Xml.Spelled call.callee
  /-- The arguments can be told. -/
  arguments : ∀ a ∈ call.arguments, a.Unambiguous

/-- A call is found in its method and its arguments. -/
theorem ofArguments?_arguments (call : Call) :
    ofArguments? call.callee call.arguments = some call := by
  obtain ⟨callee, attributes, text⟩ := call
  induction attributes with
  | nil => cases text <;> rfl
  | cons a rest ih =>
    simp only [arguments, List.map_cons, List.cons_append] at ih ⊢
    rw [ofArguments?, ih]
    rfl

/-- A call is read back from its line. -/
theorem read_render (h : call.Unambiguous) : read (call.render .backslash) = some call := by
  have hopen : Lexes "(" [.char '('] := lexes_chars (by simp)
  have hclose : Lexes ")" [.char ')'] := lexes_chars (by simp)
  have hline := (((lexes_of_spelled h.callee).append hopen).append
    (Argument.lexes_intercalate h.arguments)).append hclose
  have hparen : Token.char '(' ∉ call.callee.toList.map Token.char := by
    have hnot : '(' ∉ call.callee.toList := fun hc => absurd (h.callee _ hc) (by decide)
    simpa using hnot
  rw [read, render, hline.read_eq, Option.bind_some, ofTokens?]
  simp only [List.append_assoc, List.cons_append, List.nil_append]
  obtain ⟨htake, hdrop⟩ := takeWhile_dropWhile_cons hparen
    ([Token.char ','].intercalate (call.arguments.map Argument.tokens) ++ [Token.char ')'])
  rw [htake, hdrop, mapM_char?]
  simp [Argument.listOfTokens?_intercalate h.arguments, ofArguments?_arguments]

end Call

end Groovy

end GroovyViews
