import NatClient.XmlForest

/-!
xml2wrapper.c over the DOM of the XML reader. A lookup walks on from the node it
is given through that node's following siblings, so it answers for a whole chain
and not for one element. It follows the children of an entity reference as well,
which need not lead out again. The reader itself is a parameter.
-/

namespace NatClient.Xml2Wrapper

open CString XmlForest

/-- No result when the recursion never ends; `some none` is a NULL pointer. -/
def searchingElementByName (tagName : CStr) : XmlNode → Option (Option XmlNode)
  | .null => some none
  | .element name children next =>
      if name = tagName then some (some (.element name children next))
      else do
        match ← searchingElementByName tagName children with
        | some node => some (some node)
        | none => searchingElementByName tagName next
  -- The children of a text node, a comment or an instruction are NULL.
  | .text _ next => searchingElementByName tagName next
  | .other next => searchingElementByName tagName next
  | .entity _ children next => do
      match ← searchingElementByName tagName children with
      | some node => some (some node)
      | none => searchingElementByName tagName next
  | .endless _ _ => none

/-- `xmlNodeGetContent` of an element; an element without data has the empty text. -/
def xmlNodeGetContent : XmlNode → CStr
  | .element _ children _ => children.content
  | node => node.alone.content

-- Nobody survives a NULL pointer from the two lookups: it is copied from, converted or
-- followed. So it is the same as a search that never ends.
def xmlXmlnodeGetContentByName (node : XmlNode) (name : CStr) : Option CStr :=
  (searchingElementByName name node).join.map xmlNodeGetContent

def xmlGetNodeByName (xmlReadMemory : CStr → Option XmlNode) (xmlbuff name : CStr) :
    Option XmlNode :=
  (xmlReadMemory xmlbuff).bind fun doc => (searchingElementByName name doc).join

def outcome (found : Option XmlNode) (out : Bool) : Option (Option XmlNode) :=
  found.elim (if out then some none else none) fun node => some (some node)

theorem outcome_or (below behind : Option XmlNode) (out outBehind : Bool) :
    (do
      match ← outcome below out with
      | some node => some (some node)
      | none => outcome behind outBehind : Option (Option XmlNode)) =
      outcome (below.or (if out then behind else none)) (out && outBehind) := by
  cases below with
  | some node => rfl
  | none => cases out <;> rfl

theorem searching_outcome (tagName : CStr) (forest : XmlNode) :
    searchingElementByName tagName forest = outcome (forest.first tagName) forest.ends := by
  induction forest with
  | null => rfl
  | element name children next childrenIh nextIh =>
      rw [searchingElementByName, XmlNode.first_element]
      by_cases same : name = tagName
      · rw [if_pos same, if_pos same]
        rfl
      · rw [if_neg same, if_neg same, childrenIh, nextIh, outcome_or, XmlNode.ends]
  | text _ next ih => exact ih
  | other next ih => exact ih
  | entity _ children next childrenIh nextIh =>
      rw [searchingElementByName, childrenIh, nextIh, outcome_or, XmlNode.first, XmlNode.ends]
  | endless _ next _ => rfl

/-- The recursive walk finds the first element of that name in document order. -/
theorem search_first (tagName : CStr) (forest : XmlNode) :
    (searchingElementByName tagName forest).join = forest.first tagName := by
  rw [searching_outcome]
  cases forest.first tagName with
  | some node => rfl
  | none => cases forest.ends <;> rfl

def fieldText (name : CStr) (node : XmlNode) : Option CStr :=
  (node.first name).map xmlNodeGetContent

theorem content_by_name (node : XmlNode) (name : CStr) :
    xmlXmlnodeGetContentByName node name = fieldText name node := by
  rw [xmlXmlnodeGetContentByName, search_first, fieldText]

theorem node_by_name (xmlReadMemory : CStr → Option XmlNode) (xmlbuff name : CStr) (doc : XmlNode)
    (parsed : xmlReadMemory xmlbuff = some doc) :
    xmlGetNodeByName xmlReadMemory xmlbuff name = doc.first name := by
  rw [xmlGetNodeByName, parsed, Option.bind_some, search_first]

def OwnText (name : CStr) (node : XmlNode) (text : CStr) : Prop :=
  ∃ child ∈ node.children.elements, child.hasName name = true ∧ xmlNodeGetContent child = text

def Holds (name : CStr) (node : XmlNode) : Prop := ∃ text, OwnText name node text

theorem holds_iff (name : CStr) (node : XmlNode) :
    Holds name node ↔ node.children.elements.any (XmlNode.hasName name) = true := by
  rw [List.any_eq_true]
  constructor
  · rintro ⟨text, child, member, named, _⟩
    exact ⟨child, member, named⟩
  · rintro ⟨child, member, named⟩
    exact ⟨_, child, member, named, rfl⟩

theorem own_field {name tag text : CStr} {children next : XmlNode} (different : tag ≠ name)
    (holds : Holds name (.element tag children next))
    (read : fieldText name (.element tag children next) = some text) :
    OwnText name (.element tag children next) text := by
  obtain ⟨child, found, same⟩ := Option.map_eq_some_iff.mp read
  rw [XmlNode.first_element, if_neg different] at found
  rcases XmlNode.first_or found with inside | ⟨absent, out, _⟩
  · exact ⟨child, XmlNode.first_mem inside, XmlNode.first_hasName inside, same⟩
  · -- The walk has been through the whole element, so it has met the field.
    obtain ⟨_, other, member, named, _⟩ := holds
    rw [XmlNode.first_none absent out other member] at named
    exact absurd named Bool.false_ne_true

end NatClient.Xml2Wrapper
