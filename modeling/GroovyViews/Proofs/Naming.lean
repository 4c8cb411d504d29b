import GroovyViews.Proofs.Heads
import GroovyViews.Xml.Document
import Mathlib.Tactic.SplitIfs

/-!
# Names in the events of a document

Whatever text is read, the events that come from it have names that are made as names are. A reader
that reports no other events is one of the class `Names`. The class is closed under everything that
readers are put together with, so only the readers of tags and attributes need an argument of their
own: they report a name that `qname` has taken apart.
-/

namespace GroovyViews.Xml

/-- The name of an attribute or of a start tag is a name, apart from its prefix. -/
def Event.Named : Event → Prop
  | .attr n _ _ | .startTag n _ _ => isName n.localName = true
  | .closeTag _ _ | .text _ | .comment _ | .instruction _ _ => True

/-- A reader all of whose events are named, wherever it begins. -/
class Reader.Names {α : Type} (r : Reader α) : Prop where
  /-- Its events are named, also those before a fault. -/
  named : ∀ s, ∀ e ∈ (r.run s).trace, e.Named

namespace Reader

variable {α β σ : Type}

instance names_pure (a : α) : Names (pure a : Reader α) where
  named s e he := by simp at he

/-- The reader that comes second may rely on what the first one returns. -/
theorem Names.andThen_of {r : Reader α} {f : α → Reader β} (hr : Names r) {p : α → Prop}
    (hp : ∀ s a s', (r.run s).outcome = .ok (a, s') → p a) (hf : ∀ a, p a → Names (f a)) :
    Names (r >>= f) where
  named s e he := by
    rw [StateT.run_bind, Traced.trace_bind, List.mem_append] at he
    rcases he with he | he
    · exact hr.named s e he
    · split at he
      · rename_i result hresult
        exact (hf _ (hp s _ _ hresult)).named _ e he
      · simp at he

/-- A reader may be followed by another one, whatever it returns. -/
theorem Names.andThen {r : Reader α} {f : α → Reader β} (hr : Names r) (hf : ∀ a, Names (f a)) :
    Names (r >>= f) :=
  hr.andThen_of (fun _ _ _ _ => trivial) fun a _ => hf a

instance names_bind {r : Reader α} {f : α → Reader β} [hr : Names r] [hf : ∀ a, Names (f a)] :
    Names (r >>= f) :=
  hr.andThen hf

instance names_get : Names (get : Reader ReaderState) where
  named s e he := by simp at he

instance names_modify (f : ReaderState → ReaderState) : Names (modify f : Reader PUnit) where
  named s e he := by simp at he

instance names_throw (fault : Fault) : Names (throw fault : Reader α) where
  named s e he := by cases he

/-- What comes after a fault is not read. -/
instance names_throw_bind (fault : Fault) (f : α → Reader β) : Names (throw fault >>= f) where
  named s e he := by cases he

/-- A choice between two readers is one of them. -/
theorem Names.ite {p : Prop} [Decidable p] {r r' : Reader α} (hr : Names r) (hr' : Names r') :
    Names (if p then r else r') := by
  by_cases hp : p
  · rwa [if_pos hp]
  · rwa [if_neg hp]

instance names_ite {p : Prop} [Decidable p] {r r' : Reader α} [hr : Names r] [hr' : Names r'] :
    Names (if p then r else r') :=
  hr.ite hr'

/-- Only the event itself has to be looked at where one is reported. -/
theorem names_report {e : Event} (h : e.Named) : Names (report e) where
  named s e' he := by
    have hrun : (report e).run s = ⟨[e], .ok ((), s)⟩ := rfl
    rw [hrun, List.mem_singleton] at he
    exact he ▸ h

/-! ## Readers of characters -/

instance names_cursor : Names cursor := by
  unfold cursor
  infer_instance

instance names_rest : Names rest := by
  unfold rest
  infer_instance

instance names_position : Names position := by
  unfold position
  infer_instance

instance names_atEnd : Names atEnd := by
  unfold atEnd
  infer_instance

instance names_begins (text : String) : Names (begins text) := by
  unfold begins
  infer_instance

/-- A choice by what the text goes on with. -/
theorem names_choice (text : String) {r r' : Reader α} (hr : Names r) (hr' : Names r') :
    Names (do if ← begins text then r else r') :=
  (names_begins text).andThen fun _ => hr.ite hr'

instance names_skip (n : Nat) : Names (skip n) := by
  unfold skip
  infer_instance

instance names_take (cs : List Char) : Names (take cs) := by
  unfold take
  infer_instance

instance names_failHere (fault : Position → Fault) : Names (failHere fault : Reader α) := by
  unfold failHere
  infer_instance

instance names_takeWhile (p : Char → Bool) : Names (takeWhile p) := by
  unfold takeWhile
  infer_instance

instance names_takeUntil (stop : List Char → Bool) : Names (takeUntil stop) := by
  unfold takeUntil
  infer_instance

instance names_charsUntil (stop : List Char → Bool) : Names (charsUntil stop) := by
  refine names_position.andThen fun start => (names_takeUntil stop).andThen fun cs => ?_
  split <;> infer_instance

instance names_spaces : Names spaces := by
  unfold spaces
  infer_instance

instance names_expectChar (c : Char) : Names (expectChar c) := by
  refine names_rest.andThen fun cs => ?_
  split <;> infer_instance

instance names_expectText (text : String) : Names (expectText text) := by
  unfold expectText
  infer_instance

instance names_needSpaces : Names needSpaces := by
  refine names_rest.andThen fun cs => ?_
  split <;> infer_instance

instance names_quote : Names quote := by
  refine names_rest.andThen fun cs => ?_
  split <;> infer_instance

instance names_skipName : Names skipName := by
  refine names_rest.andThen fun cs => ?_
  split <;> infer_instance

instance names_name : Names name := by
  refine names_position.andThen fun start => names_skipName.andThen fun cs => ?_
  split <;> infer_instance

instance names_qname : Names qname := by
  refine names_position.andThen fun start => (names_takeWhile _).andThen fun cs => ?_
  split <;> infer_instance

/-! ## Loops and pieces of the text -/

/-- The events of a loop are named if those of each round are. -/
theorem names_rounds {step : σ → Reader (Turn σ β)} (h : ∀ s, Names (step s)) (n : Nat) (s : σ) :
    Names (rounds step n s) := by
  induction n generalizing s with
  | zero => exact names_throw _
  | succ n ih =>
    refine (h s).andThen fun turn => ?_
    cases turn with
    | again next => exact ih next
    | done b => exact names_pure b

/-- A loop is named if each of its rounds is. -/
theorem names_iterate {step : σ → Reader (Turn σ β)} (h : ∀ s, Names (step s)) (s : σ) :
    Names (iterate step s) :=
  names_rest.andThen fun _ => names_rounds h _ s

instance names_within (piece : Cursor) {body : Reader α} [Names body] :
    Names (within piece body) := by
  unfold within
  infer_instance

/-! ## References and attribute values -/

instance names_referenceBody : Names referenceBody := by
  unfold referenceBody
  infer_instance

instance names_reference : Names reference := by
  refine names_position.andThen fun start => (names_skip 1).andThen fun _ =>
    names_referenceBody.andThen fun body => ?_
  split
  · exact names_choice ";" inferInstance inferInstance
  · exact names_choice ";" inferInstance inferInstance
  · refine names_choice ";" ((names_skip 1).andThen fun _ => ?_) (names_throw_bind _ _)
    split
    · infer_instance
    · refine names_get.andThen fun s => ?_
      split <;> infer_instance

instance names_enter (room : Nat) (e : Entity) {body : Reader α} [Names body] :
    Names (enter room e body) := by
  unfold enter
  infer_instance

/-- The events of reading the text of an attribute are named if those of expanding entities are. -/
theorem names_attributeText {expand : Entity → List Char → Reader (List Char)}
    (h : ∀ e acc, Names (expand e acc)) (nested : Bool) (acc : List Char) :
    Names (attributeText expand nested acc) := by
  refine names_iterate (fun acc => names_rest.andThen fun cs => ?_) acc
  split
  · infer_instance
  · refine names_position.andThen fun start => names_reference.andThen fun reference => ?_
    split <;> infer_instance
  · infer_instance
  · infer_instance

/-- By induction on the levels of entities that may still be entered. -/
instance names_attributeValue (room : Nat) (acc : List Char) :
    Names (attributeValue room acc) := by
  induction room generalizing acc with
  | zero => exact names_attributeText (fun _ _ => names_failHere _) _ acc
  | succ room ih => exact names_attributeText (fun e acc => names_enter _ e) _ acc

/-! ## What comes before the root

The longer readers are followed from their last line to their first one. -/

instance names_comment : Names comment := by
  have hreport (cs : List Char) : Names (report (.comment (String.ofList cs))) :=
    names_report trivial
  unfold comment
  infer_instance

instance names_instruction : Names instruction := by
  have hreport (target : String) (cs : List Char) :
      Names (report (.instruction target (String.ofList cs))) := names_report trivial
  have hbody := (names_skip 2).andThen fun _ => names_name.andThen fun target =>
    names_spaces.andThen fun _ => (names_charsUntil (beginsWith "?>")).andThen fun cs =>
    (names_expectText "?>").andThen fun _ => hreport target cs
  exact names_choice "<?xml " ((names_failHere _).andThen fun _ => hbody) hbody

instance names_misc : Names misc :=
  names_iterate (fun _ => inferInstance) ()

instance names_declarationItem : Names declarationItem := by
  unfold declarationItem
  infer_instance

instance names_declarationSpaces : Names declarationSpaces := by
  refine names_rest.andThen fun cs => ?_
  split <;> infer_instance

instance names_declaration : Names declaration := by
  have hlast := names_spaces.andThen fun _ => names_expectText "?>"
  have hstandalone :=
    names_choice "standalone" (names_declarationItem.andThen fun _ => hlast) hlast
  have hencoding := names_choice "encoding" (names_declarationItem.andThen fun _ =>
    names_declarationSpaces.andThen fun _ => hstandalone) hstandalone
  have hversion := names_declarationItem.andThen fun _ =>
    names_declarationSpaces.andThen fun _ => hencoding
  exact (names_skip 5).andThen fun _ => names_declarationSpaces.andThen fun _ =>
    names_choice "version" hversion ((names_failHere _).andThen fun _ => hversion)

instance names_literal : Names literal := by
  unfold literal
  infer_instance

instance names_externalId : Names externalId :=
  names_choice "SYSTEM" inferInstance (names_choice "PUBLIC" inferInstance inferInstance)

instance names_entityDefinition (general : Bool) : Names (entityDefinition general) := by
  refine names_rest.andThen fun cs => ?_
  split
  · infer_instance
  · have hnone : Names (pure none : Reader (Option Cursor)) := inferInstance
    have hnotation := names_spaces.andThen fun _ => names_choice "NDATA"
      ((names_skip 5).andThen fun _ => names_needSpaces.andThen fun _ =>
        names_skipName.andThen fun _ => hnone) hnone
    have hgeneral := hnotation.ite (p := general = true) hnone
    refine Names.ite inferInstance (Names.ite (names_externalId.andThen fun found => ?_)
      inferInstance)
    exact hgeneral.ite ((names_failHere _).andThen fun _ => hgeneral)

instance names_entityDeclaration : Names entityDeclaration := by
  refine (names_skip 8).andThen fun _ => names_needSpaces.andThen fun _ =>
    (names_begins "%").andThen fun found => ?_
  extract_lets general last body
  have hlast (u : Unit) : Names (last u) := names_spaces.andThen fun _ => names_expectChar '>'
  have hbody (u : Unit) : Names (body u) := by
    refine names_name.andThen fun n => names_needSpaces.andThen fun _ =>
      (names_entityDefinition general).andThen fun value? => ?_
    cases value? with
    | some value => exact (names_modify _).andThen hlast
    | none => exact hlast ()
  exact (hbody ()).ite ((names_skip 1).andThen fun _ => names_needSpaces.andThen hbody)

instance names_subsetEnd : Names subsetEnd := by
  refine (names_skip 1).andThen fun _ => names_spaces.andThen fun _ =>
    names_rest.andThen fun cs => ?_
  split <;> infer_instance

instance names_internalSubset (start : Position) : Names (internalSubset start) := by
  refine names_iterate (fun _ => names_atEnd.andThen fun ended => ?_) ()
  split
  · infer_instance
  · exact names_spaces.andThen fun _ => names_choice "<!ENTITY" inferInstance <|
      names_choice "<!--" inferInstance <| names_choice "<?" inferInstance <|
      names_choice "]" inferInstance inferInstance

instance names_doctype : Names doctype := by
  refine names_position.andThen fun start => (names_skip 9).andThen fun _ =>
    names_needSpaces.andThen fun _ => names_skipName.andThen fun _ => names_spaces.andThen fun _ =>
    names_externalId.andThen fun _ => names_spaces.andThen fun _ => names_rest.andThen fun cs => ?_
  split <;> infer_instance

/-! ## Tags and content -/

/-- The local part of a name that is taken apart begins as a name does and goes on as one. -/
theorem isName_of_splitName {cs : List Char} {n : QName} (hcs : ∀ c ∈ cs, isNameChar c = true)
    (h : splitName cs = some n) : isName n.localName = true := by
  unfold splitName at h
  split at h
  rename_i pfx localName hparts
  have hsub : localName ⊆ cs := by
    split at hparts
    · cases hparts
      exact fun _ hc => hc
    · rename_i hdrop
      cases hparts
      intro c hc
      have hmem : c ∈ cs.dropWhile (· != ':') := by simp [hdrop, hc]
      exact List.dropWhile_subset _ hmem
  split_ifs at h with hok
  cases h
  have hstart : localName.head?.any isNameStart = true := by
    simp only [Bool.and_eq_true] at hok
    exact hok.1.2
  simp only [isName, String.toList_ofList, hstart, Bool.true_and, List.all_eq_true]
  exact fun c hc => hcs c (hsub hc)

/-- The local part of a name that is read is a name. -/
theorem isName_of_qname {s s' : ReaderState} {n : QName}
    (h : (qname.run s).outcome = .ok (n, s')) : isName n.localName = true := by
  have hchars : ∀ c ∈ s.cursor.rest.takeWhile isNameChar, isNameChar c = true := fun c hc =>
    List.mem_takeWhile_imp hc
  simp only [qname, position, cursor, takeWhile, rest, take, skip, StateT.run_bind, StateT.run_get,
    StateT.run_modify, StateT.run_pure, pure_bind] at h
  cases hsplit : splitName (s.cursor.rest.takeWhile isNameChar) with
  | none =>
    rw [hsplit] at h
    cases h
  | some m =>
    rw [hsplit] at h
    cases h
    exact isName_of_splitName hchars hsplit

instance names_tagAttribute (room : Nat) : Names (tagAttribute room) := by
  refine names_position.andThen fun pos =>
    names_qname.andThen_of (fun _ _ _ => isName_of_qname) fun n hn => ?_
  have hreport (value : String) : Names (report (.attr n value pos)) := names_report hn
  refine names_spaces.andThen fun _ => (names_expectChar '=').andThen fun _ =>
    names_spaces.andThen fun _ => names_quote.andThen fun mark =>
    names_position.andThen fun start => (names_takeUntil _).andThen fun cs =>
    names_atEnd.andThen fun ended => ?_
  extract_lets value check
  have hvalue (u : Unit) : Names (value u) :=
    (names_expectChar mark).andThen fun _ => (names_within _).andThen fun _ => hreport _
  have hcheck (u : Unit) : Names (check u) := by
    dsimp only [check]
    split
    · infer_instance
    · exact hvalue ()
  exact (names_throw_bind _ check).ite (hcheck ())

instance names_startTag (room : Nat) : Names (startTag room) := by
  refine names_position.andThen fun start => (names_skip 1).andThen fun _ =>
    names_position.andThen fun namePos =>
      names_qname.andThen_of (fun _ _ _ => isName_of_qname) fun n hn => ?_
  have hreport (closed : Bool) : Names (report (.startTag n closed start)) := names_report hn
  refine (names_throw_bind _ _).ite (names_iterate (fun _ => ?_) ())
  refine names_atEnd.andThen fun ended => Names.ite inferInstance ?_
  refine names_rest.andThen fun cs => names_spaces.andThen fun _ => names_rest.andThen fun cs' => ?_
  split <;> infer_instance

instance names_closeTag (started : Bool) : Names (closeTag started) := by
  refine names_position.andThen fun start => (names_skip 2).andThen fun _ =>
    names_qname.andThen fun n => ?_
  have hreport : Names (report (.closeTag n start)) := names_report trivial
  infer_instance

instance names_dataSection : Names dataSection := by
  have hreport (t : String) : Names (report (.text t)) := names_report trivial
  unfold dataSection
  infer_instance

instance names_flush (acc : List Char) : Names (flush acc) := by
  have hreport (t : String) : Names (report (.text t)) := names_report trivial
  unfold flush
  infer_instance

instance names_textRun (expand : Entity → Reader Unit) [∀ e, Names (expand e)] (nested : Bool) :
    Names (textRun expand nested) := by
  refine names_iterate (fun (acc, verbatim) => names_rest.andThen fun cs => ?_) _
  split
  · infer_instance
  · refine names_reference.andThen fun reference => ?_
    split <;> infer_instance
  · infer_instance

instance names_text (expand : Entity → Reader Unit) [∀ e, Names (expand e)] (nested : Bool) :
    Names (text expand nested) := by
  unfold text
  infer_instance

instance names_contentItems (expand : Entity → Reader Unit) [∀ e, Names (expand e)] (room : Nat)
    (started : Bool) : Names (contentItems expand room started) := by
  refine names_iterate (fun (level, started) => names_rest.andThen fun cs => ?_) _
  split
  · infer_instance
  · exact names_choice "<!--" inferInstance <| names_choice "<![CDATA[" inferInstance <|
      names_choice "<?" inferInstance <| names_choice "</" inferInstance inferInstance
  · infer_instance

/-- By induction on the levels of entities that may still be entered. -/
instance names_content (room : Nat) (started : Bool) : Names (content room started) := by
  induction room generalizing started with
  | zero => exact names_contentItems _ _ _
  | succ room ih => exact names_contentItems _ _ _

instance names_document : Names document := by
  have hend : Names (do
      misc
      unless ← atEnd do failHere .unknownToken) := inferInstance
  have hcontent := (names_content maxDepth true).andThen fun _ => hend
  have hroot := names_choice "<" ((names_startTag maxDepth).andThen fun opened =>
    hcontent.ite (p := opened = true) hend) hend
  have hdoctype := names_misc.andThen fun _ => names_choice "<!DOCTYPE"
    (names_doctype.andThen fun _ => names_misc.andThen fun _ => hroot) hroot
  have hdeclaration := names_choice "<?xml "
    (names_declaration.andThen fun _ => hdoctype) hdoctype
  exact names_choice "\uFEFF" ((names_skip 1).andThen fun _ => hdeclaration) hdeclaration

end Reader

/-- The events of a text are named, also if the text has a fault. -/
theorem Event.named_ofText (source : String) : ∀ e ∈ (Event.ofText source).trace, e.Named := by
  intro e he
  rw [ofText, Traced.trace_bind, List.mem_append] at he
  rcases he with he | he
  · exact Reader.names_document.named _ e he
  · split at he <;> simp at he

end GroovyViews.Xml
