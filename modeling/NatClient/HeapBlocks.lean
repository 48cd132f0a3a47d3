import Mathlib.Logic.Function.Basic
import Mathlib.Data.List.Basic

/-!
Heap blocks behind `malloc`, `realloc` and `free`. A block is live or not; what a
program does with a pointer to a dead block has no result, as has a write past the
end of a block. Whether the allocator grants a request is an input.
-/

namespace NatClient.HeapBlocks

abbrev Ptr := Nat

structure Heap (Byte : Type) where
  block : Ptr → Option (List Byte)
  next : Ptr

structure Grant (Byte : Type) where
  moved : Bool
  stale : Nat → Byte

variable {Byte : Type}

namespace Heap

def empty : Heap Byte := ⟨fun _ => none, 0⟩

def set (heap : Heap Byte) (ptr : Ptr) (bytes : Option (List Byte)) : Heap Byte :=
  { heap with block := Function.update heap.block ptr bytes }

def malloc (heap : Heap Byte) (size : Nat) (stale : Nat → Byte) : Heap Byte × Ptr :=
  ({ heap.set heap.next (some ((List.range size).map stale)) with next := heap.next + 1 },
    heap.next)

def free (heap : Heap Byte) (ptr : Ptr) : Option (Heap Byte) :=
  (heap.block ptr).map fun _ => heap.set ptr none

def resized (old : List Byte) (size : Nat) (stale : Nat → Byte) : List Byte :=
  old.take size ++ (List.range (size - old.length)).map stale

/-- `realloc`; a refused request leaves the old block as it is. -/
def realloc (heap : Heap Byte) (size : Nat) :
    Option Ptr → Option (Grant Byte) → Option (Heap Byte × Option Ptr)
  | none, none => some (heap, none)
  | none, some grant =>
      let (heap, ptr) := heap.malloc size grant.stale
      some (heap, some ptr)
  | some ptr, none => (heap.block ptr).map fun _ => (heap, none)
  | some ptr, some grant => (heap.block ptr).map fun old =>
      let bytes := resized old size grant.stale
      if grant.moved then
        ({ (heap.set ptr none).set heap.next (some bytes) with next := heap.next + 1 },
          some heap.next)
      else (heap.set ptr (some bytes), some ptr)

def write (heap : Heap Byte) (ptr : Ptr) (offset : Nat) (bytes : List Byte) : Option (Heap Byte) :=
  (heap.block ptr).bind fun old =>
    if offset + bytes.length ≤ old.length then
      some (heap.set ptr (some (old.take offset ++ bytes ++ old.drop (offset + bytes.length))))
    else none

section Rules
variable {heap : Heap Byte} {ptr : Ptr} {old : List Byte}

@[simp] theorem set_block (bytes : Option (List Byte)) :
    (heap.set ptr bytes).block ptr = bytes := by
  simp [set]

theorem malloc_block (size : Nat) (stale : Nat → Byte) :
    (heap.malloc size stale).1.block (heap.malloc size stale).2 =
      some ((List.range size).map stale) := by
  simp [malloc, set]

theorem free_live (live : heap.block ptr = some old) :
    ∃ after, heap.free ptr = some after ∧ after.block ptr = none :=
  ⟨heap.set ptr none, by rw [free, live, Option.map_some], set_block none⟩

theorem realloc_dead (size : Nat) (grant : Option (Grant Byte)) (dead : heap.block ptr = none) :
    heap.realloc size (some ptr) grant = none := by
  cases grant <;> simp [realloc, dead]

theorem realloc_refused (size : Nat) (live : heap.block ptr = some old) :
    heap.realloc size (some ptr) none = some (heap, none) := by
  rw [realloc, live, Option.map_some]

/-- Moved or not, the old bytes are at the front of the block that is handed out. -/
theorem realloc_granted (size : Nat) (grant : Grant Byte) (live : heap.block ptr = some old) :
    ∃ after tmp, heap.realloc size (some ptr) (some grant) = some (after, some tmp) ∧
      after.block tmp = some (resized old size grant.stale) := by
  rw [realloc, live, Option.map_some]
  cases moved : grant.moved with
  | true => exact ⟨_, heap.next, rfl, by simp [set]⟩
  | false => exact ⟨_, ptr, rfl, set_block _⟩

theorem write_over {front bytes back : List Byte}
    (live : heap.block ptr = some (front ++ old ++ back)) (same : bytes.length = old.length) :
    ∃ after, heap.write ptr front.length bytes = some after ∧
      after.block ptr = some (front ++ bytes ++ back) := by
  have fits : front.length + bytes.length ≤ (front ++ old ++ back).length := by
    simp only [List.length_append]
    omega
  have before : (front ++ old ++ back).take front.length = front := by
    rw [List.append_assoc, List.take_left]
  have behind : (front ++ old ++ back).drop (front.length + bytes.length) = back := by
    rw [same, ← List.length_append, List.drop_left]
  refine ⟨heap.set ptr (some (front ++ bytes ++ back)), ?_, set_block _⟩
  rw [write, live, Option.bind_some, if_pos fits, before, behind]

theorem write_beyond {offset : Nat} {bytes : List Byte} (live : heap.block ptr = some old)
    (beyond : old.length < offset + bytes.length) : heap.write ptr offset bytes = none := by
  rw [write, live, Option.bind_some, if_neg (by omega)]

theorem resized_front (front rest : List Byte) {size : Nat} (stale : Nat → Byte)
    (grows : front.length ≤ size) :
    ∃ tail, resized (front ++ rest) size stale = front ++ tail ∧
        front.length + tail.length = size := by
  refine ⟨rest.take
    (size - front.length) ++ (List.range (size - (front ++ rest).length)).map stale, ?_, ?_⟩
  · rw [resized, List.take_append, List.take_of_length_le grows, List.append_assoc]
  · simp only [List.length_append, List.length_take, List.length_map, List.length_range]
    omega

end Rules

end Heap

end NatClient.HeapBlocks
