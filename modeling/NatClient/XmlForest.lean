import NatClient.CString

/-!
XML trees in the first-child/next-sibling form a DOM library hands out: a node
carries its first child and its next sibling, and `null` ends both chains.
Attributes are not represented. A text node stands for character data or a
CDATA section, `other` for a comment or a processing instruction.

An entity reference has the declaration of its entity for a child, and behind that come
the declarations that follow it in the DTD. `entity` is such a reference and the part of
the DTD it leads to; a DTD and a declaration are an `entity` without data. `endless` is a
reference to a declaration that the walk has not left: the recursion never ends there.
-/

namespace NatClient.XmlForest

open CString

inductive XmlNode where
  | null
  | element (name : List Char) (children next : XmlNode)
  | text (content : List Char) (next : XmlNode)
  | other (next : XmlNode)
  | entity (data : List Char) (children next : XmlNode)
  | endless (data : List Char) (next : XmlNode)
  deriving DecidableEq

namespace XmlNode

def children : XmlNode → XmlNode
  | .element _ kids _ => kids
  | _ => .null

def alone : XmlNode → XmlNode
  | .null => .null
  | .element name kids _ => .element name kids .null
  | .text content _ => .text content .null
  | .other _ => .other .null
  | .entity data kids _ => .entity data kids .null
  | .endless data _ => .endless data .null

def hasName (tag : List Char) : XmlNode → Bool
  | .element name _ _ => name = tag
  | _ => false

def content : XmlNode → List Char
  | .null => []
  | .element _ kids next => content kids ++ content next
  | .text data next => data ++ content next
  | .other next => content next
  | .entity data _ next => data ++ content next
  | .endless data next => data ++ content next

def elements : XmlNode → List XmlNode
  | .null => []
  | .element name kids next => .element name kids next :: (elements kids ++ elements next)
  | .text _ next => elements next
  | .other next => elements next
  | .entity _ kids next => elements kids ++ elements next
  | .endless _ next => elements next

def siblings : XmlNode → List XmlNode
  | .null => []
  | .element name kids next => .element name kids next :: siblings next
  | .text _ next => siblings next
  | .other next => siblings next
  | .entity _ _ next => siblings next
  | .endless _ next => siblings next

def ends : XmlNode → Bool
  | .null => true
  | .element _ kids next => ends kids && ends next
  | .text _ next => ends next
  | .other next => ends next
  | .entity _ kids next => ends kids && ends next
  | .endless _ _ => false

/-- What a walk that stops at the first element called `tag` finds. It goes on behind a
part without one only if it gets out of that part. -/
def first (tag : List Char) : XmlNode → Option XmlNode
  | .null => none
  | .element name kids next =>
      if name = tag then some (.element name kids next)
      else (first tag kids).or (if ends kids then first tag next else none)
  | .text _ next => first tag next
  | .other next => first tag next
  | .entity _ kids next => (first tag kids).or (if ends kids then first tag next else none)
  | .endless _ _ => none

@[simp] theorem first_null (tag : List Char) : first tag .null = none := rfl

@[simp] theorem first_text (tag data : List Char) (next : XmlNode) :
    first tag (.text data next) = first tag next := rfl

@[simp] theorem first_other (tag : List Char) (next : XmlNode) :
    first tag (.other next) = first tag next := rfl

theorem first_element (tag name : List Char) (kids next : XmlNode) :
    first tag (.element name kids next) =
      if name = tag then some (.element name kids next)
      else (first tag kids).or (if ends kids then first tag next else none) := rfl

theorem first_or {tag : List Char} {kids next node : XmlNode}
    (found : (first tag kids).or (if ends kids then first tag next else none) = some node) :
    first tag kids = some node ∨
      first tag kids = none ∧ ends kids = true ∧ first tag next = some node := by
  cases inside : first tag kids with
  | some inner =>
      rw [inside, Option.some_or] at found
      exact Or.inl found
  | none =>
      rw [inside, Option.none_or] at found
      by_cases out : ends kids = true
      · rw [if_pos out] at found
        exact Or.inr ⟨rfl, out, found⟩
      · rw [if_neg out] at found
        exact absurd found (by simp)

theorem first_hasName {tag : List Char} {forest node : XmlNode}
    (found : first tag forest = some node) : hasName tag node = true := by
  induction forest with
  | null => exact absurd found (by simp)
  | element name kids next kidsIh nextIh =>
      rw [first_element] at found
      by_cases same : name = tag
      · rw [if_pos same] at found
        cases found
        exact decide_eq_true same
      · rw [if_neg same] at found
        rcases first_or found with inside | ⟨_, _, behind⟩
        · exact kidsIh inside
        · exact nextIh behind
  | text _ next ih => exact ih found
  | other next ih => exact ih found
  | entity _ kids next kidsIh nextIh =>
      rcases first_or found with inside | ⟨_, _, behind⟩
      · exact kidsIh inside
      · exact nextIh behind
  | endless _ next _ => exact absurd found (by simp [first])

theorem first_mem {tag : List Char} {forest node : XmlNode}
    (found : first tag forest = some node) : node ∈ elements forest := by
  induction forest with
  | null => exact absurd found (by simp)
  | element name kids next kidsIh nextIh =>
      rw [first_element] at found
      by_cases same : name = tag
      · rw [if_pos same] at found
        cases found
        exact List.mem_cons_self
      · rw [if_neg same] at found
        apply List.mem_cons_of_mem
        rcases first_or found with inside | ⟨_, _, behind⟩
        · exact List.mem_append_left _ (kidsIh inside)
        · exact List.mem_append_right _ (nextIh behind)
  | text _ next ih => exact ih found
  | other next ih => exact ih found
  | entity _ kids next kidsIh nextIh =>
      rcases first_or found with inside | ⟨_, _, behind⟩
      · exact List.mem_append_left _ (kidsIh inside)
      · exact List.mem_append_right _ (nextIh behind)
  | endless _ next _ => exact absurd found (by simp [first])

theorem first_none {tag : List Char} {forest : XmlNode} (absent : first tag forest = none)
    (out : ends forest = true) : ∀ node ∈ elements forest, hasName tag node = false := by
  induction forest with
  | null => exact fun node member => absurd member List.not_mem_nil
  | element name kids next kidsIh nextIh =>
      simp only [ends, Bool.and_eq_true] at out
      rw [first_element] at absent
      -- A walk without an end finds nothing either, so the part below has to be left.
      by_cases same : name = tag
      · rw [if_pos same] at absent
        exact absurd absent (by simp)
      · rw [if_neg same, if_pos out.1, Option.or_eq_none_iff] at absent
        intro node member
        rcases List.mem_cons.mp member with rfl | later
        · exact decide_eq_false same
        · rcases List.mem_append.mp later with inside | behind
          · exact kidsIh absent.1 out.1 node inside
          · exact nextIh absent.2 out.2 node behind
  | text _ next ih => exact ih absent out
  | other next ih => exact ih absent out
  | entity _ kids next kidsIh nextIh =>
      simp only [ends, Bool.and_eq_true] at out
      rw [first, if_pos out.1, Option.or_eq_none_iff] at absent
      intro node member
      rcases List.mem_append.mp member with inside | behind
      · exact kidsIh absent.1 out.1 node inside
      · exact nextIh absent.2 out.2 node behind
  | endless _ next _ => exact absurd out (by simp [ends])

theorem hasName_shape {tag : List Char} {node : XmlNode} (named : hasName tag node = true) :
    ∃ kids next, node = .element tag kids next := by
  cases node with
  | element name kids next =>
      have same : name = tag := of_decide_eq_true named
      exact ⟨kids, next, by rw [same]⟩
  | null => exact absurd named Bool.false_ne_true
  | text _ _ => exact absurd named Bool.false_ne_true
  | other _ => exact absurd named Bool.false_ne_true
  | entity _ _ _ => exact absurd named Bool.false_ne_true
  | endless _ _ => exact absurd named Bool.false_ne_true

/-- A search from an element either stays inside it or runs on into the
siblings after it; it stays inside as soon as the element holds the name. -/
theorem first_inside {tag name : List Char} {kids next node : XmlNode}
    (different : name ≠ tag) (found : first tag kids = some node) :
    first tag (.element name kids next) = some node := by
  simp [first_element, different, found]

end XmlNode

/-! The plain fragment: elements without attributes around unescaped text. Its
serialization determines the tree, as the reader below shows. -/
section Plain
open XmlNode

def nameStart (c : Char) : Bool := c.isAlpha || c = '_'
def nameChar (c : Char) : Bool := c.isAlphanum || c = '_'

def textChar (c : Char) : Bool :=
  (32 ≤ c.toNat && c.toNat ≤ 126 && c != '<' && c != '>' && c != '&') || c = '\n'

def blankChar (c : Char) : Bool := c = ' ' || c = '\n'

def isText : XmlNode → Bool
  | .text _ _ => true
  | _ => false

def PlainName (name : List Char) : Prop :=
  name.head?.any nameStart = true ∧ name.all nameChar = true

instance : DecidablePred PlainName := fun _ => inferInstanceAs (Decidable (_ ∧ _))

def Plain : XmlNode → Prop
  | .null => True
  | .element name kids next => PlainName name ∧ Plain kids ∧ Plain next
  | .text data next =>
      data ≠ [] ∧ (∀ c ∈ data, textChar c = true) ∧ isText next = false ∧ Plain next
  | .other _ => False
  | .entity _ _ _ => False
  | .endless _ _ => False

def depth : XmlNode → Nat
  | .null => 0
  | .element _ kids next => max (depth kids + 1) (depth next)
  | .text _ next => depth next
  | .other next => depth next
  | .entity _ kids next => max (depth kids + 1) (depth next)
  | .endless _ next => depth next

def render : XmlNode → List Char
  | .null => []
  | .element name kids next =>
      '<' :: (name ++ '>' :: (render kids ++ '<' :: '/' :: (name ++ '>' :: render next)))
  | .text data next => data ++ render next
  | .other next => render next
  | .entity _ _ next => render next
  | .endless _ next => render next

def expect : List Char → List Char → Option (List Char)
  | [], input => some input
  | _ :: _, [] => none
  | c :: wanted, d :: input => if c = d then expect wanted input else none

def closes (input : List Char) : Bool := input.isEmpty || ['<', '/'].isPrefixOf input

def parseForest : Nat → List Char → Option (XmlNode × List Char)
  | 0, _ => none
  | fuel + 1, input =>
      if closes input then some (.null, input)
      else if input.head? = some '<' then do
        let name := (input.drop 1).takeWhile nameChar
        let body ← expect ['>'] ((input.drop 1).dropWhile nameChar)
        let (kids, tail) ← parseForest fuel body
        let after ← expect ('<' :: '/' :: (name ++ ['>'])) tail
        let (next, rest) ← parseForest fuel after
        some (.element name kids next, rest)
      else if (input.takeWhile textChar).isEmpty then none
      else do
        let (next, rest) ← parseForest fuel (input.dropWhile textChar)
        some (.text (input.takeWhile textChar) next, rest)

def parseDocument (input : List Char) : Option XmlNode :=
  let body := input.dropWhile blankChar
  match parseForest (body.length + 1) body with
  | some (.element name kids .null, []) => some (.element name kids .null)
  | _ => none

theorem expect_append (wanted input : List Char) :
    expect wanted (wanted ++ input) = some input := by
  induction wanted with
  | nil => cases input <;> rfl
  | cons c wanted ih => simpa [expect] using ih

theorem textChar_ne_open {c : Char} (text : textChar c = true) : c ≠ '<' := by
  rintro rfl
  exact absurd text (by decide)

theorem nameStart_ne_slash {c : Char} (start : nameStart c = true) : c ≠ '/' := by
  rintro rfl
  exact absurd start (by decide)

theorem render_head (forest : XmlNode) (plain : Plain forest) (notText : isText forest = false)
    (rest : List Char) (closed : closes rest = true) (c : Char)
    (front : (render forest ++ rest).head? = some c) : c = '<' := by
  cases forest with
  | null =>
      cases rest with
      | nil => simp [render] at front
      | cons d rest =>
          simp only [closes, List.isEmpty_cons, Bool.false_or] at closed
          simp only [render, List.nil_append, List.head?_cons, Option.some.injEq] at front
          have opening : d = '<' := by
            have := List.isPrefixOf_iff_prefix.mp closed
            exact ((List.cons_prefix_cons.mp this).1).symm
          rw [← front, opening]
  | element name kids next =>
      simpa [render, eq_comm] using front
  | text data next => simp [isText] at notText
  | other next => exact absurd plain (by simp [Plain])
  | entity _ _ next => exact absurd plain (by simp [Plain])
  | endless _ next => exact absurd plain (by simp [Plain])

/-- One element: the reader finds its name, its children up to the closing tag, and
its siblings behind that tag. -/
theorem parse_element {name inner after rest : List Char} {kids next : XmlNode} {fuel : Nat}
    (named : PlainName name)
    (readKids : parseForest fuel inner = some (kids, '<' :: '/' :: (name ++ '>' :: after)))
    (readNext : parseForest fuel after = some (next, rest)) :
    parseForest (fuel + 1) ('<' :: (name ++ '>' :: inner)) = some
        (.element name kids next, rest) := by
  obtain ⟨start, chars⟩ := named
  have opened : closes ('<' :: (name ++ '>' :: inner)) = false := by
    cases name with
    | nil => simp at start
    | cons c tail =>
        have different := nameStart_ne_slash (by simpa using start : nameStart c = true)
        simp [closes, List.isPrefixOf, different.symm]
  have stops : ∀ d, ('>' :: inner).head? = some d → nameChar d = false := by
    intro d front
    cases front
    decide
  have all := List.all_eq_true.mp chars
  have taken := takeWhile_run nameChar name ('>' :: inner) all stops
  have dropped := dropWhile_run nameChar name ('>' :: inner) all stops
  have tag := expect_append ['>'] inner
  have ending := expect_append ('<' :: '/' :: (name ++ ['>'])) after
  simp only [List.cons_append, List.append_assoc, List.nil_append] at ending tag
  rw [parseForest, if_neg (by simp [opened]), if_pos List.head?_cons]
  simp only [List.drop_succ_cons, List.drop_zero, taken, dropped, tag, Option.bind_eq_bind,
    Option.bind_some, readKids, ending, readNext]

theorem parse_text {data after rest : List Char} {next : XmlNode}
    {fuel : Nat} (nonempty : data ≠ []) (chars : ∀ c ∈ data, textChar c = true)
    (stops : ∀ c, after.head? = some c → textChar c = false)
    (readNext : parseForest fuel after = some (next, rest)) :
    parseForest (fuel + 1) (data ++ after) = some (.text data next, rest) := by
  have taken := takeWhile_run textChar data after chars stops
  have dropped := dropWhile_run textChar data after chars stops
  cases data with
  | nil => exact absurd rfl nonempty
  | cons c data =>
      have different := textChar_ne_open (chars c List.mem_cons_self)
      rw [parseForest, if_neg (by simp [closes, List.isPrefixOf, different.symm]),
        if_neg (by simp [different]), taken, dropped, readNext]
      simp

/-- Reading a serialized plain forest gives it back and stops at what follows. -/
theorem parse_render (forest : XmlNode) (plain : Plain forest) (fuel : Nat)
    (enough : (render forest).length < fuel) (rest : List Char) (closed : closes rest = true) :
    parseForest fuel (render forest ++ rest) = some (forest, rest) := by
  -- Every node costs one unit of fuel and at least one character.
  induction forest generalizing fuel rest with
  | null =>
      cases fuel with
      | zero => exact absurd enough (Nat.not_lt_zero _)
      | succ fuel => simp [parseForest, render, closed]
  | element name kids next kidsIh nextIh =>
      obtain ⟨named, plainKids, plainNext⟩ := plain
      cases fuel with
      | zero => exact absurd enough (Nat.not_lt_zero _)
      | succ fuel =>
          simp only [render, List.length_cons, List.length_append] at enough
          have readKids := kidsIh plainKids fuel (by omega)
            ('<' :: '/' :: (name ++ '>' :: (render next ++ rest)))
              (by simp [closes, List.isPrefixOf])
          have readNext := nextIh plainNext fuel (by omega) rest closed
          have whole := parse_element named readKids readNext
          simpa only [render, List.cons_append, List.append_assoc] using whole
  | text data next ih =>
      obtain ⟨nonempty, chars, notText, plainNext⟩ := plain
      cases fuel with
      | zero => exact absurd enough (Nat.not_lt_zero _)
      | succ fuel =>
          have positive : 0 < data.length := List.length_pos_iff.mpr nonempty
          simp only [render, List.length_append] at enough
          have stops : ∀ c, (render next ++ rest).head? = some c → textChar c = false := by
            intro c front
            rw [render_head next plainNext notText rest closed c front]
            decide
          have readNext := ih plainNext fuel (by omega) rest closed
          rw [render, List.append_assoc]
          exact parse_text nonempty chars stops readNext
  | other next => exact absurd plain (by simp [Plain])
  | entity _ _ next => exact absurd plain (by simp [Plain])
  | endless _ next => exact absurd plain (by simp [Plain])

theorem parse_document_render (blank : List Char) (name : List Char) (kids : XmlNode)
    (blanks : ∀ c ∈ blank, blankChar c = true) (plain : Plain (.element name kids .null)) :
    parseDocument (blank ++ render (.element name kids .null)) =
      some (.element name kids .null) := by
  have body : (blank ++ render (.element name kids .null)).dropWhile blankChar =
      render (.element name kids .null) := by
    apply dropWhile_run blankChar blank _ blanks
    intro c front
    simp only [render, List.head?_cons, Option.some.injEq] at front
    rw [← front]
    decide
  have read := parse_render _ plain ((render (.element name kids .null)).length + 1)
    (Nat.lt_succ_self _) [] (by simp [closes])
  rw [List.append_nil] at read
  simp only [parseDocument, body, read]

/-- What a reader of well-formed documents is relied on for: a plain document,
after leading blanks and within the reader's limits, yields its root element. -/
structure ReadsPlain (limit levels : Nat) (read : List Char → Option XmlNode) : Prop where
  root : ∀ blank name kids, (∀ c ∈ blank, blankChar c = true) →
    Plain (.element name kids .null) → depth (.element name kids .null) ≤ levels →
    (blank ++ render (.element name kids .null)).length ≤ limit →
    read (blank ++ render (.element name kids .null)) = some (.element name kids .null)

theorem parseDocument_readsPlain (limit levels : Nat) : ReadsPlain limit levels parseDocument :=
  ⟨fun blank name kids blanks plain _ _ => parse_document_render blank name kids blanks plain⟩

end Plain

end NatClient.XmlForest
