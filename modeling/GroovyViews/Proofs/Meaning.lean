import GroovyViews.Proofs.Masking
import GroovyViews.Proofs.Transcript

/-!
# What a view means

A view stands for calls and bindings, some of them inside of others. Its control tags decide which
of them are done: an `if` guards its content, a group of alternatives does the first one whose test
holds and the last resort if there is none, and a tag that is left out stands for its content. All
this is said of the tree, without regard to the lines that are written for it.
-/

namespace GroovyViews

open Script (Item Deed)

/-- An element without child elements has none in its content. -/
theorem Xml.Element.filterMap_of_leaf {e : Xml.Element} (h : e.hasChildren = false) :
    e.content.filterMap Xml.Node.element? = [] := by
  simpa [hasChildren, children] using h

namespace Writer

/-- The test of an element as it is written. -/
def test? (w : Writer) (look : Lookup) (e : Xml.Element) : Option String :=
  (look e "test").map fun v => (Groovy.Expression.ofValue v).render w.options.escaping

/-- The element has a test that holds. -/
def tested (w : Writer) (look : Lookup) (holds : String → Bool) (e : Xml.Element) : Bool :=
  (w.test? look e).any holds

/-- The text of the statement that an element says. -/
def saidText (w : Writer) (look : Lookup) (e : Xml.Element) : String :=
  ((w.said? look e).map w.textOf).getD ""

mutual

/-- What a node stands for, given which tests hold. -/
def deeds (w : Writer) (look : Lookup) (holds : String → Bool) : Xml.Node → List Deed
  | .element tag content =>
    match w.role? ⟨tag, content⟩ with
    | some (.call _ _) => [.call (w.saidText look ⟨tag, content⟩) (w.deedsAll look holds content)]
    | some (.control .ifTag) =>
      if w.tested look holds ⟨tag, content⟩ then w.deedsAll look holds content else []
    | some (.control .choose) => w.chosen look holds content
    | some (.control .invokeStatic) => [.binding (w.saidText look ⟨tag, content⟩)]
    | some (.control (.other _)) => w.deedsAll look holds content
    | some (.control .when) | some (.control .otherwise) | none => []
  | .text _ | .comment _ | .instruction _ _ => []

/-- What several nodes stand for. -/
def deedsAll (w : Writer) (look : Lookup) (holds : String → Bool) : List Xml.Node → List Deed
  | [] => []
  | n :: rest => w.deeds look holds n ++ w.deedsAll look holds rest

/-- What a group of alternatives stands for: the first whose test holds, or else the last resort. -/
def chosen (w : Writer) (look : Lookup) (holds : String → Bool) : List Xml.Node → List Deed
  | [] => []
  | .element tag content :: rest =>
    match w.role? ⟨tag, content⟩ with
    | some (.control .when) =>
      if w.tested look holds ⟨tag, content⟩ then w.deedsAll look holds content
      else w.chosen look holds rest
    | some (.control .otherwise) => w.deedsAll look holds content
    | _ => w.chosen look holds rest
  | .text _ :: rest | .comment _ :: rest | .instruction _ _ :: rest => w.chosen look holds rest

end

/-- Nothing takes the place of the attributes without a namespace that the element needs. -/
def unmasked (w : Writer) (e : Xml.Element) : Bool :=
  (w.role? e).all fun role => role.required.all fun name => e.attr? name == e.plainAttr? name

variable {w : Writer} {e : Xml.Element}

/-- An attribute that an unmasked element needs is the one without a namespace. -/
theorem attr?_of_unmasked (h : w.unmasked e = true) {role : Role} (hrole : w.role? e = some role)
    {name : String} (hname : name ∈ role.required) : e.attr? name = e.plainAttr? name := by
  rw [unmasked, hrole, Option.all_some, List.all_eq_true] at h
  simpa using h name hname

/-- An unmasked element says the same whether namespaces count or not. -/
theorem said?_of_unmasked (h : w.unmasked e = true) :
    w.said? Xml.Element.attr? e = w.said? Xml.Element.plainAttr? e := by
  unfold said?
  cases hrole : w.role? e with
  | none => rfl
  | some role =>
    have hattr : ∀ name ∈ role.required, e.attr? name = e.plainAttr? name :=
      fun name hname => attr?_of_unmasked h hrole hname
    cases role with
    | call qualifier tag => rfl
    | control tag =>
      cases tag with
      | ifTag | when => simp [statementIn, hattr "test" (by simp [Role.required])]
      | otherwise | choose | other => rfl
      | invokeStatic =>
        simp [statementIn, hattr "var" (by simp [Role.required]),
          hattr "className" (by simp [Role.required]), hattr "method" (by simp [Role.required])]

/-- An unmasked condition has the same test whether namespaces count or not. -/
theorem tested_of_unmasked (h : w.unmasked e = true) {tag : Control}
    (htag : tag = .ifTag ∨ tag = .when) (hrole : w.role? e = some (.control tag))
    (holds : String → Bool) :
    w.tested Xml.Element.attr? holds e = w.tested Xml.Element.plainAttr? holds e := by
  have htest : "test" ∈ (Role.control tag).required := by
    rcases htag with rfl | rfl <;> simp [Role.required]
  rw [tested, test?, attr?_of_unmasked h hrole htest]
  rfl

mutual

/-- A node in which nothing is masked stands for the same whether namespaces count or not. -/
theorem deeds_of_unmasked (holds : String → Bool) (around : List Xml.Element) : ∀ n : Xml.Node,
    (∀ s, .enter s ∈ n.visits around → w.unmasked s.element = true) →
    w.deeds Xml.Element.attr? holds n = w.deeds Xml.Element.plainAttr? holds n
  | .element tag content, h => by
    have helement := h ⟨around, ⟨tag, content⟩⟩ (by simp [Xml.Node.visits])
    have hinside : ∀ s, .enter s ∈ Xml.Node.visitsAll (⟨tag, content⟩ :: around) content →
        w.unmasked s.element = true := fun s hs => h s (by simp [Xml.Node.visits, hs])
    have hcontent := deedsAll_of_unmasked holds (⟨tag, content⟩ :: around) content hinside
    unfold deeds
    cases hrole : w.role? ⟨tag, content⟩ with
    | none => rfl
    | some role =>
      cases role with
      | call qualifier name => simp only [saidText, said?_of_unmasked helement, hcontent]
      | control tag =>
        cases tag with
        | ifTag => simp only [tested_of_unmasked helement (.inl rfl) hrole, hcontent]
        | choose => exact chosen_of_unmasked holds _ content hinside
        | invokeStatic => simp only [saidText, said?_of_unmasked helement]
        | other name => exact hcontent
        | when | otherwise => rfl
  | .text _, _ | .comment _, _ | .instruction _ _, _ => rfl

/-- So do several nodes. -/
theorem deedsAll_of_unmasked (holds : String → Bool) (around : List Xml.Element) :
    ∀ nodes : List Xml.Node,
    (∀ s, .enter s ∈ Xml.Node.visitsAll around nodes → w.unmasked s.element = true) →
    w.deedsAll Xml.Element.attr? holds nodes = w.deedsAll Xml.Element.plainAttr? holds nodes
  | [], _ => rfl
  | n :: rest, h => by
    have hfirst := deeds_of_unmasked holds around n fun s hs =>
      h s (by simp [Xml.Node.visitsAll, hs])
    have hrest := deedsAll_of_unmasked holds around rest fun s hs =>
      h s (by simp [Xml.Node.visitsAll, hs])
    simp only [deedsAll, hfirst, hrest]

/-- So do alternatives. -/
theorem chosen_of_unmasked (holds : String → Bool) (around : List Xml.Element) :
    ∀ nodes : List Xml.Node,
    (∀ s, .enter s ∈ Xml.Node.visitsAll around nodes → w.unmasked s.element = true) →
    w.chosen Xml.Element.attr? holds nodes = w.chosen Xml.Element.plainAttr? holds nodes
  | [], _ => rfl
  | .element tag content :: rest, h => by
    have helement := h ⟨around, ⟨tag, content⟩⟩ (by simp [Xml.Node.visitsAll, Xml.Node.visits])
    have hcontent := deedsAll_of_unmasked holds (⟨tag, content⟩ :: around) content fun s hs =>
      h s (by simp [Xml.Node.visitsAll, Xml.Node.visits, hs])
    have hrest := chosen_of_unmasked holds around rest fun s hs =>
      h s (by simp [Xml.Node.visitsAll, hs])
    unfold chosen
    split
    case h_1 hrole => simp only [tested_of_unmasked helement (.inr rfl) hrole, hcontent, hrest]
    case h_2 => exact hcontent
    case h_3 => exact hrest
  | .text _ :: rest, h | .comment _ :: rest, h | .instruction _ _ :: rest, h => by
    simp only [chosen]
    exact chosen_of_unmasked holds around rest fun s hs => h s (by simp [Xml.Node.visitsAll, hs])

end

/-- Only the elements among several nodes have items. -/
theorem itemsAll_eq (w : Writer) (nodes : List Xml.Node) :
    w.itemsAll nodes = (nodes.filterMap Xml.Node.element?).flatMap fun e => w.items e.node := by
  induction nodes with
  | nil => rfl
  | cons n rest ih =>
    rw [itemsAll, ih, List.filterMap_cons]
    cases n <;> rfl

/-- Only the elements among several nodes stand for something. -/
theorem deedsAll_eq (w : Writer) (look : Lookup) (holds : String → Bool) (nodes : List Xml.Node) :
    w.deedsAll look holds nodes =
      (nodes.filterMap Xml.Node.element?).flatMap fun e => w.deeds look holds e.node := by
  induction nodes with
  | nil => rfl
  | cons n rest ih =>
    rw [deedsAll, ih, List.filterMap_cons]
    cases n <;> rfl

/-- The alternatives are those among the child elements. -/
def chosenOf (w : Writer) (look : Lookup) (holds : String → Bool) : List Xml.Element → List Deed
  | [] => []
  | e :: rest =>
    match w.role? e with
    | some (.control .when) =>
      if w.tested look holds e then w.deedsAll look holds e.content
      else w.chosenOf look holds rest
    | some (.control .otherwise) => w.deedsAll look holds e.content
    | _ => w.chosenOf look holds rest

/-- Only the elements among several nodes are alternatives. -/
theorem chosen_eq (w : Writer) (look : Lookup) (holds : String → Bool) (nodes : List Xml.Node) :
    w.chosen look holds nodes =
      w.chosenOf look holds (nodes.filterMap Xml.Node.element?) := by
  induction nodes with
  | nil => rfl
  | cons n rest ih =>
    cases n with
    | element tag content =>
      simp only [chosen, List.filterMap_cons, Xml.Node.element?, chosenOf, ih]
    | text _ | comment _ | instruction _ _ =>
      simp only [chosen, List.filterMap_cons, Xml.Node.element?, ih]

/-- A group stands for one of the alternatives among its child elements. -/
theorem deeds_of_choose (hrole : w.role? e = some (.control .choose)) (look : Lookup)
    (holds : String → Bool) : w.deeds look holds e.node = w.chosenOf look holds e.children := by
  rw [Xml.Element.children, ← chosen_eq]
  simp [Xml.Element.node, deeds, hrole]

/-- An alternative with a test stands for its content if the test holds, and if not the others are
looked at. -/
theorem chosenOf_when (hrole : w.role? e = some (.control .when)) (look : Lookup)
    (holds : String → Bool) (rest : List Xml.Element) :
    w.chosenOf look holds (e :: rest) =
      if w.tested look holds e then w.deedsAll look holds e.content
      else w.chosenOf look holds rest := by
  simp [chosenOf, hrole]

/-- What an element with a test stands for on its own. -/
def guarded (w : Writer) (look : Lookup) (holds : String → Bool) (e : Xml.Element) : List Deed :=
  if w.tested look holds e then w.deedsAll look holds e.content else []

/-- What the last resort of a group stands for, if there is one. -/
def fallback (w : Writer) (look : Lookup) (holds : String → Bool) (no : Option Xml.Element) :
    List Deed :=
  no.elim [] fun b => w.deedsAll look holds b.content

/-- What an element with a test and the last resort after it stand for. -/
def either (w : Writer) (look : Lookup) (holds : String → Bool) (yes : Xml.Element)
    (no : Option Xml.Element) : List Deed :=
  if w.tested look holds yes then w.deedsAll look holds yes.content
  else w.fallback look holds no

/-- A group with one test stands for what the test guards or else for the last resort. -/
theorem chosenOf_branches {yes : Xml.Element} {no : Option Xml.Element}
    (hwhen : w.role? yes = some (.control .when))
    (hotherwise : ∀ b ∈ no, w.role? b = some (.control .otherwise)) (look : Lookup)
    (holds : String → Bool) :
    w.chosenOf look holds (yes :: no.toList) = w.either look holds yes no := by
  rw [chosenOf_when hwhen, either]
  cases no with
  | none => rfl
  | some b => simp [chosenOf, hotherwise b rfl, fallback]

end Writer

end GroovyViews
