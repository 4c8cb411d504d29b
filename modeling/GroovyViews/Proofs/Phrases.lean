import GroovyViews.Proofs.Transcript

/-!
# The parts that statements play

A reader tells by the beginning of a line which part it plays. The text of a condition, an
alternative or a definition always plays the part that it is written for. The text of a call does so
unless it is unqualified and has the name of a condition or an alternative.
-/

namespace GroovyViews

namespace Role

/-- A call that looks like the beginning of a condition or of an alternative. -/
def isMistakable : Role → Bool
  | call qualifier tag => qualifier.isEmpty && (tag == "if" || tag == "else")
  | control _ => false

end Role

namespace Script

open Groovy

namespace Phrase

/-- The text of a condition gives back the test. -/
theorem ofText_condition (test : String) :
    ofText ("if(" ++ test ++ ")") = .condition test := by
  have htext : ("if(" ++ test ++ ")").toList = 'i' :: 'f' :: '(' :: (test.toList ++ [')']) := by
    simp
  simp [ofText, htext]

/-- A word without white space before a parenthesis is that of a call, unless it is one of the two
words that begin a condition or an alternative. -/
theorem ofText_call {word : String} (rest : String) (hparen : '(' ∉ word.toList)
    (hblank : ' ' ∉ word.toList) (hif : word ≠ "if") (helse : word ≠ "else") :
    ofText (word ++ "(" ++ rest) = .call := by
  have hbefore : ∀ c ∈ word.toList, decide (c ≠ '(') = true := by
    intro c hc
    exact decide_eq_true fun h => hparen (h ▸ hc)
  have hafter : "(".toList = ['('] := by decide
  have hword : (word ++ "(" ++ rest).toList.takeWhile (· ≠ '(') = word.toList := by
    rw [String.toList_append, String.toList_append, hafter, List.append_assoc,
      List.takeWhile_append_of_pos hbefore, List.singleton_append,
      List.takeWhile_cons_of_neg (by simp), List.append_nil]
  have hif' : word.toList ≠ ['i', 'f'] := fun h => hif (String.toList_inj.mp h)
  have helse' : word.toList ≠ ['e', 'l', 's', 'e'] := fun h => helse (String.toList_inj.mp h)
  have hdef : ['d', 'e', 'f', ' '].isPrefixOf word.toList = false := by
    by_contra hbegins
    obtain ⟨more, hmore⟩ : ['d', 'e', 'f', ' '] <+: word.toList := by simpa using hbegins
    exact hblank (by simp [← hmore])
  simp only [ofText, hword, if_neg hif', if_neg helse', hdef, Bool.false_eq_true, if_false]

/-- A text that begins like a definition is one. -/
theorem ofText_binding {text : String} {rest : List Char}
    (h : text.toList = 'd' :: 'e' :: 'f' :: ' ' :: rest) : ofText text = .binding := by
  simp [ofText, h]

end Phrase

/-- A name holds neither a blank nor a parenthesis. -/
theorem not_mem_of_isName {s : String} (h : Xml.isName s = true) :
    '(' ∉ s.toList ∧ ' ' ∉ s.toList := by
  have hchars := List.all_eq_true.mp (Bool.and_eq_true_iff.mp h).2
  exact ⟨fun hmem => absurd (hchars _ hmem) (by decide),
    fun hmem => absurd (hchars _ hmem) (by decide)⟩

/-- The method of a call that cannot be mistaken is neither of the two words of a condition. -/
theorem callee_ne {qualifier tag : String}
    (h : (Role.call qualifier tag).isMistakable = false) :
    Statement.callee qualifier tag ≠ "if" ∧ Statement.callee qualifier tag ≠ "else" := by
  unfold Statement.callee
  split
  case isTrue hempty => simpa [Role.isMistakable, hempty] using h
  case isFalse =>
    have hdot : '.' ∈ (qualifier ++ "." ++ tag).toList := by simp
    constructor <;> intro heq <;> rw [heq] at hdot <;> exact absurd hdot (by decide)

/-- The method of a call holds neither a blank nor a parenthesis. -/
theorem not_mem_callee {qualifier tag : String}
    (hqualifier : (Xml.Binding.mk qualifier "").isTidy = true) (htag : Xml.isName tag = true) :
    '(' ∉ (Statement.callee qualifier tag).toList ∧
      ' ' ∉ (Statement.callee qualifier tag).toList := by
  have htag' := not_mem_of_isName htag
  unfold Statement.callee
  split
  case isTrue => exact htag'
  case isFalse hempty =>
    have hname : Xml.isName qualifier = true := by
      simpa [Xml.Binding.isTidy, hempty] using hqualifier
    simp [htag', not_mem_of_isName hname]

/-- A text that ends in a parenthesis has no white space at its end. -/
theorem rdropWhile_append_paren (s : String) :
    String.ofList ((s ++ ")").toList.rdropWhile Text.isBlank) = s ++ ")" := by
  have hparen : ")".toList = [')'] := by decide
  rw [String.toList_append, hparen, List.rdropWhile_concat_neg _ _ _ (by decide), ← hparen,
    ← String.toList_append, String.ofList_toList]

/-- The text of a call plays the part of a call. -/
theorem ofText_textOf_call {qualifier tag : String} (w : Writer) (arguments : List Argument)
    (hqualifier : (Xml.Binding.mk qualifier "").isTidy = true) (htag : Xml.isName tag = true)
    (hname : (Role.call qualifier tag).isMistakable = false) :
    Phrase.ofText (w.textOf (.call qualifier tag arguments)) = .call := by
  obtain ⟨hparen, hblank⟩ := not_mem_callee hqualifier htag
  obtain ⟨hif, helse⟩ := callee_ne hname
  rw [Writer.textOf, Statement.head, rdropWhile_append_paren, String.append_assoc]
  exact Phrase.ofText_call _ hparen hblank hif helse

/-- The text of a condition plays the part of a condition with its test. -/
theorem ofText_textOf_condition (w : Writer) (test : Expression) :
    Phrase.ofText (w.textOf (.condition test)) = .condition (test.render w.options.escaping) := by
  rw [Writer.textOf, Statement.head, rdropWhile_append_paren]
  exact Phrase.ofText_condition _

/-- The text of an alternative plays the part of an alternative. -/
theorem ofText_textOf_alternative (w : Writer) :
    Phrase.ofText (w.textOf .alternative) = .alternative := by
  have helse : w.textOf .alternative = "else" := by
    rw [Writer.textOf, Statement.head]
    decide
  rw [helse]
  decide

/-- The text of a definition plays the part of a binding. -/
theorem ofText_textOf_definition (w : Writer) (variableName className method : String) :
    Phrase.ofText (w.textOf (.definition variableName className method)) = .binding := by
  have htext : ("def " ++ variableName ++ " = " ++ className ++ "." ++ method).toList =
      'd' :: 'e' :: 'f' :: ' ' :: (variableName ++ " = " ++ className).toList ++
        '.' :: method.toList := by
    simp
  -- the point before the method is not white space, so that nothing before it is left out
  rw [Writer.textOf, Statement.head, htext, Layout.rdropWhile_append_cons (by decide)]
  exact Phrase.ofText_binding (String.toList_ofList ..)

end Script

end GroovyViews
