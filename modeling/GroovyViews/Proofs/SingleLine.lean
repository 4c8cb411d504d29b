import GroovyViews.Emission

/-!
# Texts on a single line

The text of a statement stays on one line if the names and values that it is made of do. Quoting,
trimming and joining add no line feed.
-/

namespace GroovyViews

namespace Text

/-- There is no line feed in the text. -/
def OneLine (s : String) : Prop := '\n' ∉ s.toList

instance (s : String) : Decidable (OneLine s) := inferInstanceAs (Decidable ('\n' ∉ s.toList))

/-- Two texts are on one line if each of them is. -/
@[simp] theorem oneLine_append {s t : String} : OneLine (s ++ t) ↔ OneLine s ∧ OneLine t := by
  simp [OneLine, not_or]

/-- A text on one line stays so if some of its characters are left out. -/
theorem OneLine.ofList_of_subset {s : String} {cs : List Char} (h : OneLine s)
    (hsub : cs ⊆ s.toList) : OneLine (String.ofList cs) := by
  intro hmem
  rw [String.toList_ofList] at hmem
  exact h (hsub hmem)

/-- Trimming only leaves characters out. -/
theorem trimChars_subset (cs : List Char) : trimChars cs ⊆ cs := by
  intro c hc
  rw [trimChars, List.mem_reverse] at hc
  have hdrop := List.dropWhile_subset _ hc
  rw [List.mem_reverse] at hdrop
  exact List.dropWhile_subset _ hdrop

/-- Texts on one line that are joined by another such text are on one line. -/
theorem oneLine_intercalate {sep : String} {texts : List String} (hsep : OneLine sep)
    (htexts : ∀ t ∈ texts, OneLine t) : OneLine (String.intercalate sep texts) := by
  induction texts with
  | nil => simp [OneLine]
  | cons t rest ih =>
    have hrest := ih fun u hu => htexts u (by simp [hu])
    by_cases hnil : rest = []
    · subst rest
      simpa using htexts t (by simp)
    · rw [String.intercalate_cons_of_ne_nil hnil]
      simp [hsep, hrest, htexts t (by simp)]

end Text

open Text

/-- Escaping adds backslashes only. -/
theorem Escaping.oneLine_apply (escaping : Escaping) {s : String} (h : OneLine s) :
    OneLine (escaping.apply s) := by
  cases escaping with
  | verbatim => simpa [apply, chars] using h
  | backslash =>
    intro hmem
    simp only [apply, chars, String.toList_ofList, List.mem_flatMap] at hmem
    obtain ⟨c, hc, hmem⟩ := hmem
    have heq : '\n' = c := by
      split at hmem <;> simpa using hmem
    exact h (heq ▸ hc)

namespace Groovy

/-- A value on one line gives an expression on one line. -/
theorem Expression.oneLine_render (escaping : Escaping) {value : String} (h : OneLine value) :
    OneLine ((ofValue value).render escaping) := by
  have hliteral : OneLine ((literal (Text.trim value)).render escaping) := by
    have htrim : OneLine (Text.trim value) := h.ofList_of_subset (Text.trimChars_subset _)
    exact oneLine_append.mpr
      ⟨oneLine_append.mpr ⟨by decide, escaping.oneLine_apply htrim⟩, by decide⟩
  unfold ofValue
  split
  case h_1 cs hvalue =>
    have hkey : OneLine (String.ofList cs.dropLast) := by
      apply h.ofList_of_subset
      rw [hvalue]
      exact fun c hc => by simp [List.dropLast_subset _ hc]
    exact oneLine_append.mpr
      ⟨oneLine_append.mpr ⟨by decide, escaping.oneLine_apply hkey⟩, by decide⟩
  case h_2 cs _ hvalue =>
    split
    · apply h.ofList_of_subset
      rw [hvalue]
      exact fun c hc => by simp [List.dropLast_subset _ hc]
    · exact hliteral
  case h_3 => exact hliteral

/-- The names of a key stand on one line. -/
def Key.OneLine : Key → Prop
  | plain name => Text.OneLine name
  | qualified pfx name => Text.OneLine pfx ∧ Text.OneLine name

/-- The names and the values of an argument stand on one line. -/
inductive Argument.OneLine : Argument → Prop where
  /-- A named argument. -/
  | named {key : Key} {value : String} : key.OneLine → Text.OneLine value →
      Argument.OneLine (.named key (.ofValue value))
  /-- The text of the element. -/
  | positional {value : String} : Text.OneLine value →
      Argument.OneLine (.positional (.ofValue value))

/-- An argument made of names and values on one line is on one line. -/
theorem Argument.OneLine.render {a : Argument} (h : a.OneLine) (escaping : Escaping) :
    Text.OneLine (a.render escaping) := by
  cases h with
  | named hkey hvalue =>
    refine oneLine_append.mpr ⟨oneLine_append.mpr ⟨?_, by decide⟩,
      Expression.oneLine_render escaping hvalue⟩
    rename_i key _
    cases key with
    | plain name => exact hkey
    | qualified pfx name =>
      simp only [Key.render, oneLine_append]
      exact ⟨⟨⟨⟨by decide, hkey.1⟩, by decide⟩, hkey.2⟩, by decide⟩
  | positional hvalue => exact Expression.oneLine_render escaping hvalue

/-- The head of a call is on one line if its method and its arguments are. -/
theorem Statement.oneLine_call (escaping : Escaping) {qualifier tag : String}
    {arguments : List Argument} (hqualifier : Text.OneLine qualifier) (htag : Text.OneLine tag)
    (harguments : ∀ a ∈ arguments, a.OneLine) :
    Text.OneLine ((call qualifier tag arguments).head escaping) := by
  have hcallee : Text.OneLine (callee qualifier tag) := by
    unfold callee
    split
    · exact htag
    · simp only [oneLine_append]
      exact ⟨⟨hqualifier, by decide⟩, htag⟩
  have hargs : Text.OneLine
      (String.intercalate ", " (arguments.map (Argument.render escaping))) := by
    apply oneLine_intercalate (by decide)
    intro t ht
    obtain ⟨a, ha, rfl⟩ := List.mem_map.mp ht
    exact (harguments a ha).render escaping
  simp only [head, oneLine_append]
  exact ⟨⟨⟨hcallee, by decide⟩, hargs⟩, by decide⟩

end Groovy

end GroovyViews
