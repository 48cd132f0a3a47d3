import NatClient.DocumentOrder
import NatClient.CString

/-!
The element search of xml2wrapper.c over the nodes in memory, where two nodes of equal
content are still two nodes. A node that is not an element has its children visited as
well; the reader leaves that pointer NULL.
-/

namespace NatClient.TreeSearch

open CString DocumentOrder

inductive XmlElementType where
  | elementNode
  | textNode
  | otherNode
  deriving DecidableEq

structure XmlNodeT where
  type : XmlElementType
  name : CStr
  children : Option Nat
  next : Option Nat

abbrev Memory := Nat → Option XmlNodeT

/-- The loop over `cur_node` with its recursive call. Each call and each round uses up
fuel; the outer `none` is a run that has not come to an end. -/
def searchingElementByName (memory : Memory) (tagName : CStr) : Nat →
    Option Nat → Option (Option Nat)
  | 0, _ => none
  | _ + 1, none => some none
  | fuel + 1, some cur => do
      let node ← memory cur
      if node.type = .elementNode ∧ node.name = tagName then some (some cur)
      else match ← searchingElementByName memory tagName fuel node.children with
        | some found => some (some found)
        | none => searchingElementByName memory tagName fuel node.next

def linksOf (memory : Memory) (place : Nat) : Option (Links Nat) :=
  (memory place).map fun node => ⟨node.children, node.next⟩

def named (memory : Memory) (tagName : CStr) (place : Nat) : Bool :=
  (memory place).any fun node => node.type = .elementNode ∧ node.name = tagName

def Returns (memory : Memory) (tagName : CStr) (start result : Option Nat) : Prop :=
  ∃ bound, ∀ fuel, bound ≤ fuel → searchingElementByName memory tagName fuel start = some result

theorem searching_walk (memory : Memory) (tagName : CStr) (fuel : Nat) (start : Option Nat) :
    searchingElementByName memory tagName fuel start =
      walk (linksOf memory) (named memory tagName) fuel start := by
  induction fuel generalizing start with
  | zero => rfl
  | succ fuel ih =>
      cases start with
      | none => rfl
      | some cur =>
          rw [searchingElementByName, walk, linksOf]
          cases held : memory cur with
          | none => rfl
          | some node =>
              have hit : named memory tagName cur =
                  decide (node.type = .elementNode ∧ node.name = tagName) := by
                rw [named, held, Option.any_some]
              simp only [Option.map_some, Option.bind_eq_bind,
                Option.bind_some, hit, decide_eq_true_eq, ih]
              rcases walk (linksOf memory) (named memory tagName) fuel node.children
                with _ | _ | found <;> rfl

theorem returns_iff {memory : Memory} {tagName : CStr} {start result : Option Nat} :
    Returns memory tagName start result ↔
      DocumentOrder.Returns (linksOf memory) (named memory tagName) start result := by
  simp only [Returns, DocumentOrder.Returns, searching_walk]

/-! Documents. -/
section Documents

/-- A document as the reader hands it over; `children` is its first top level node. -/
structure Document where
  memory : Memory
  children : Option Nat
  finite : Forest (linksOf memory) children

def xmlGetNodeByName (xmlReadMemory : CStr → Option Document) (fuel : Nat) (xmlbuff name : CStr) :
    Option (Option Nat) :=
  match xmlReadMemory xmlbuff with
  | none => some none
  | some doc => searchingElementByName doc.memory name fuel doc.children

def elementsNamed (doc : Document) (tagName : CStr) : Set Address :=
  {address | ∃ place node, locate (linksOf doc.memory) doc.children address = some place ∧
    doc.memory place = some node ∧ node.type = .elementNode ∧ node.name = tagName}

theorem elementsNamed_accepted (doc : Document) (tagName : CStr) :
    elementsNamed doc tagName =
      accepted (linksOf doc.memory) (named doc.memory tagName) doc.children := by
  ext address
  refine exists_congr fun place => ?_
  simp [named, Option.any_eq_true]

/-- `result` is the first of these elements in document order, NULL when there is none. -/
def FirstInDocument (doc : Document) (elements : Set Address) (result : Option Nat) : Prop :=
  (result = none ↔ elements = ∅) ∧ ∀ place, result = some place ↔
    ∃ address, IsLeast elements address ∧
      locate (linksOf doc.memory) doc.children address = some place

theorem search_from (doc : Document) (tagName : CStr) {parent : Address} {index start : Nat}
    (there : locate (linksOf doc.memory) doc.children (parent ++ [index]) = some start) :
    ∃ result, Returns doc.memory tagName (some start) result ∧
      FirstInDocument doc (elementsNamed doc tagName ∩ within parent index) result := by
  have forest : Forest (linksOf doc.memory) (some start) := there ▸ forest_locate doc.finite _
  obtain ⟨result, returns, first⟩ := walk_first (named doc.memory tagName) forest
  refine ⟨result, returns_iff.mpr returns, ?_⟩
  rw [elementsNamed_accepted]
  exact firstOf_iff (first_within there first)

theorem search_document (doc : Document) (tagName : CStr) :
    ∃ result, Returns doc.memory tagName doc.children result ∧
      FirstInDocument doc (elementsNamed doc tagName) result := by
  obtain ⟨result, returns, first⟩ := walk_first (named doc.memory tagName) doc.finite
  refine ⟨result, returns_iff.mpr returns, ?_⟩
  rw [elementsNamed_accepted]
  exact firstOf_iff first

/-- From any node of a document the search ends with the first element of that name from
there on; from the document itself it is the first of all. -/
theorem search_document_order (doc : Document) (tagName : CStr) :
    (∀ parent index start,
      locate (linksOf doc.memory) doc.children (parent ++ [index]) = some start →
        ∃ result, Returns doc.memory tagName (some start) result ∧
          FirstInDocument doc (elementsNamed doc tagName ∩ within parent index) result) ∧
    ∀ xmlReadMemory xmlbuff, xmlReadMemory xmlbuff = some doc →
      ∃ result, FirstInDocument doc (elementsNamed doc tagName) result ∧
        ∃ bound, ∀ fuel, bound ≤ fuel →
          xmlGetNodeByName xmlReadMemory fuel xmlbuff tagName = some result := by
  refine ⟨fun parent index start there => search_from doc tagName there, ?_⟩
  intro xmlReadMemory xmlbuff parsed
  obtain ⟨result, ⟨bound, returns⟩, first⟩ := search_document doc tagName
  refine ⟨result, first, bound, fun fuel enough => ?_⟩
  rw [xmlGetNodeByName, parsed]
  exact returns fuel enough

def shelf : Document where
  memory := fun place => [⟨.elementNode, "list".toList, some 1, none⟩,
    ⟨.elementNode, "item".toList, none, some 2⟩, ⟨.textNode, "text".toList, none, some 3⟩,
    ⟨.elementNode, "item".toList, none, none⟩][place]?
  children := some 0
  finite := .node rfl (.node rfl .null (.node rfl .null (.node rfl .null .null))) .null

theorem shelf_search :
    (∃ result, Returns shelf.memory "item".toList (some 2) result ∧
      FirstInDocument shelf (elementsNamed shelf "item".toList ∩ within [0] 1) result) ∧
    (∃ result, FirstInDocument shelf (elementsNamed shelf "item".toList) result ∧
      ∃ bound, ∀ fuel, bound ≤ fuel →
        xmlGetNodeByName (fun _ => some shelf) fuel [] "item".toList = some result) ∧
    searchingElementByName shelf.memory "item".toList 9 (some 2) = some (some 3) ∧
    searchingElementByName shelf.memory "item".toList 9 (some 0) = some (some 1) :=
  ⟨(search_document_order shelf "item".toList).1 [0] 1 2 rfl,
    (search_document_order shelf "item".toList).2 (fun _ => some shelf) [] rfl,
      by decide, by decide⟩

end Documents

end NatClient.TreeSearch
