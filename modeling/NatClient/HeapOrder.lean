import Mathlib.Data.Set.Function
import Mathlib.Order.Defs.LinearOrder

/-!
Binary heaps in an array, filled from slot 0. While a node is being placed one slot
is a hole: the order is known away from the hole and across it, and a move fills the
hole from a neighbour. The rules say what each move keeps and when the hole may be
closed; a program's loops are inductions on them.
-/

namespace NatClient.HeapOrder

def parent (slot : Nat) : Nat := if slot = 0 then 0 else (slot - 1) / 2

def left (slot : Nat) : Nat := slot + slot + 1

theorem parent_lt {slot : Nat} (inner : 0 < slot) : parent slot < slot := by
  unfold parent
  split <;> omega

theorem left_gt (slot : Nat) : slot < left slot := by
  unfold left
  omega

theorem parent_eq_iff {slot child : Nat} (inner : 0 < child) :
    parent child = slot ↔ child = left slot ∨ child = left slot + 1 := by
  unfold parent left
  rw [if_neg (by omega)]
  omega

theorem parent_left (slot : Nat) : parent (left slot) = slot :=
  (parent_eq_iff (by unfold left; omega)).mpr (Or.inl rfl)

theorem parent_right (slot : Nat) : parent (left slot + 1) = slot :=
  (parent_eq_iff (by unfold left; omega)).mpr (Or.inr rfl)

section Filled
variable {α : Type} {node : Nat → α} {size hole source : Nat}

def live (size hole : Nat) : Set Nat := {slot | slot < size ∧ slot ≠ hole}

theorem mem_live {slot : Nat} : slot ∈ live size hole ↔ slot < size ∧ slot ≠ hole := Iff.rfl

theorem mem_live_self {slot : Nat} : slot ∈ live size size ↔ slot < size :=
  ⟨fun inside => inside.1, fun inside => ⟨inside, by omega⟩⟩

def shift (node : Nat → α) (hole source : Nat) : Nat → α := Function.update node hole (node source)

theorem shift_hole : shift node hole source hole = node source := Function.update_self ..

theorem shift_of_ne {slot : Nat} (other : slot ≠ hole) : shift node hole source slot = node slot :=
  Function.update_of_ne other ..

theorem shift_image (inside : hole < size) (filled : source ∈ live size hole) :
    shift node hole source '' live size source = node '' live size hole := by
  ext value
  constructor
  · rintro ⟨slot, ⟨below, other⟩, rfl⟩
    by_cases here : slot = hole
    · rw [here, shift_hole]
      exact ⟨source, filled, rfl⟩
    · rw [shift_of_ne here]
      exact ⟨slot, ⟨below, here⟩, rfl⟩
  · rintro ⟨slot, ⟨below, other⟩, rfl⟩
    by_cases moved : slot = source
    · exact ⟨hole, ⟨inside, fun same => filled.2 same.symm⟩, by rw [shift_hole, moved]⟩
    · exact ⟨slot, ⟨below, moved⟩, shift_of_ne other⟩

theorem close_image (inside : hole < size) (value : α) :
    Function.update node hole value '' live size size = insert value (node '' live size hole) := by
  ext found
  constructor
  · rintro ⟨slot, ⟨below, _⟩, rfl⟩
    by_cases here : slot = hole
    · rw [here, Function.update_self]
      exact Set.mem_insert _ _
    · rw [Function.update_of_ne here]
      exact Set.mem_insert_of_mem _ ⟨slot, ⟨below, here⟩, rfl⟩
  · rintro (rfl | ⟨slot, ⟨below, other⟩, rfl⟩)
    · exact ⟨hole, mem_live_self.mpr inside, Function.update_self ..⟩
    · exact ⟨slot, mem_live_self.mpr below, Function.update_of_ne other ..⟩

end Filled

section Order
variable {α κ : Type} [LinearOrder κ] (key : α → κ)

def Ordered (size : Nat) (node : Nat → α) : Prop :=
  ∀ slot, 0 < slot → slot < size → key (node (parent slot)) ≤ key (node slot)

/-- In order wherever the hole takes no part, and from the hole's parent to its children. -/
structure Around (size hole : Nat) (node : Nat → α) : Prop where
  away : ∀ slot, 0 < slot → slot < size → slot ≠ hole → parent slot ≠ hole →
    key (node (parent slot)) ≤ key (node slot)
  across : 0 < hole → ∀ slot, 0 < slot → slot < size → parent slot = hole →
    key (node (parent hole)) ≤ key (node slot)

def OverChildren (size hole : Nat) (node : Nat → α) (value : α) : Prop :=
  ∀ slot, 0 < slot → slot < size → parent slot = hole → key value ≤ key (node slot)

def UnderParent (hole : Nat) (node : Nat → α) (value : α) : Prop :=
  0 < hole → key (node (parent hole)) ≤ key value

variable {key} {size hole : Nat} {node : Nat → α} {value : α}

theorem Ordered.root_least (ordered : Ordered key size node) {slot : Nat} (below : slot < size) :
    key (node 0) ≤ key (node slot) := by
  induction slot using Nat.strong_induction_on with
  | _ slot ih =>
    by_cases root : slot = 0
    · rw [root]
    · have up := parent_lt (Nat.pos_of_ne_zero root)
      exact (ih (parent slot) up (by omega)).trans (ordered slot (by omega) below)

theorem Ordered.append (ordered : Ordered key size node) : Around key (size + 1) size node where
  away slot inner below other _ := ordered slot inner (by omega)
  across _ slot inner below child := by
    have up := parent_lt inner
    omega

theorem overChildren_append : OverChildren key (size + 1) size node value := by
  intro slot inner below child
  have up := parent_lt inner
  omega

theorem Ordered.remove (ordered : Ordered key (size + 1) node) (inside : hole < size) :
    Around key size hole node where
  away slot inner below _ _ := ordered slot inner (by omega)
  across inner slot positive below child := by
    have upper := ordered hole inner (by omega)
    have lower := ordered slot positive (by omega)
    rw [child] at lower
    exact upper.trans lower

theorem Around.congr {other : Nat → α} (around : Around key size hole node)
    (same : ∀ slot, slot ≠ hole → other slot = node slot) : Around key size hole other where
  away slot inner below apart above := by
    rw [same slot apart, same _ above]
    exact around.away slot inner below apart above
  across inner slot positive below child := by
    have up := parent_lt inner
    have down := parent_lt positive
    rw [same slot (by omega), same _ (by omega)]
    exact around.across inner slot positive below child

theorem Around.overChildren (around : Around key size hole node) (inner : 0 < hole)
    (before : key value < key (node (parent hole))) : OverChildren key size hole node value :=
  fun slot positive below child => before.le.trans (around.across inner slot positive below child)

theorem Around.up (around : Around key size hole node) (inner : 0 < hole) (inside : hole < size) :
    Around key size (parent hole) (shift node hole (parent hole)) := by
  have up := parent_lt inner
  constructor
  -- A child of the old hole is compared with the grandparent, across the hole.
  case away =>
    intro slot positive below apart above
    have here : slot ≠ hole := fun same => above (by rw [same])
    rw [shift_of_ne here]
    by_cases child : parent slot = hole
    · rw [child, shift_hole]
      exact around.across inner slot positive below child
    · rw [shift_of_ne child]
      exact around.away slot positive below here child
  case across =>
    intro grand slot positive below child
    have higher := parent_lt grand
    have upper := around.away (parent hole) grand (by omega) (by omega) (by omega)
    rw [shift_of_ne (by omega)]
    by_cases here : slot = hole
    · rw [here, shift_hole]
      exact upper
    · rw [shift_of_ne here]
      have sibling := around.away slot positive below here (by omega)
      rw [child] at sibling
      exact upper.trans sibling

theorem Around.overChildren_up (around : Around key size hole node) (inner : 0 < hole)
    (before : key value < key (node (parent hole))) :
    OverChildren key size (parent hole) (shift node hole (parent hole)) value := by
  have up := parent_lt inner
  intro slot positive below child
  by_cases here : slot = hole
  · rw [here, shift_hole]
    exact before.le
  · rw [shift_of_ne here]
    have sibling := around.away slot positive below here (by omega)
    rw [child] at sibling
    exact before.le.trans sibling

theorem Around.down {child : Nat} (around : Around key size hole node) (positive : 0 < child)
    (inside : child < size) (under : parent child = hole)
    (least : OverChildren key size hole node (node child)) :
    Around key size child (shift node hole child) := by
  have below := parent_lt positive
  constructor
  -- The slot of the old hole now holds its least child.
  case away =>
    intro slot inner bound apart above
    by_cases here : slot = hole
    · rw [here] at inner ⊢
      have up := parent_lt inner
      rw [shift_hole, shift_of_ne (by omega)]
      exact around.across inner child positive inside under
    · rw [shift_of_ne here]
      by_cases sibling : parent slot = hole
      · rw [sibling, shift_hole]
        exact least slot inner bound sibling
      · rw [shift_of_ne sibling]
        exact around.away slot inner bound here sibling
  case across =>
    intro _ slot inner bound grandchild
    have deeper := parent_lt inner
    have lower := around.away slot inner bound (by omega) (by omega)
    rw [under, shift_hole, shift_of_ne (by omega)]
    rw [grandchild] at lower
    exact lower

theorem underParent_down {child : Nat} (under : parent child = hole)
    (before : key (node child) ≤ key value) :
    UnderParent key child (shift node hole child) value := by
  intro _
  rw [under, shift_hole]
  exact before

theorem Around.close (around : Around key size hole node)
    (covers : OverChildren key size hole node value)
    (under : UnderParent key hole node value) :
    Ordered key size (Function.update node hole value) := by
  intro slot positive below
  by_cases here : slot = hole
  · rw [here] at positive ⊢
    have up := parent_lt positive
    rw [Function.update_self, Function.update_of_ne (by omega)]
    exact under positive
  · rw [Function.update_of_ne here]
    by_cases child : parent slot = hole
    · rw [child, Function.update_self]
      exact covers slot positive below child
    · rw [Function.update_of_ne child]
      exact around.away slot positive below here child

theorem overChildren_least {child : Nat}
    (leftmost : left hole < size → key (node child) ≤ key (node (left hole)))
    (rightmost : left hole + 1 < size → key (node child) ≤ key (node (left hole + 1))) :
    OverChildren key size hole node (node child) := by
  intro slot positive below under
  rcases (parent_eq_iff positive).mp under with rfl | rfl
  · exact leftmost below
  · exact rightmost below

theorem overChildren_leaf (leaf : size ≤ left hole) : OverChildren key size hole node value := by
  intro slot positive below under
  rcases (parent_eq_iff positive).mp under with rfl | rfl <;> omega

end Order

end NatClient.HeapOrder
