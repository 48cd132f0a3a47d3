import Mathlib.Data.Prod.Lex
import Mathlib.Data.Int.Order.Basic
import NatClient.HeapOrder

/-!
The timer heap of timer.c, which `handle_events` polls. The array `heap` is a binary
heap of entry pointers by expiry; `timer_ids` maps the id of a scheduled entry to its
slot, and chains the ids that are free through negative values. An access outside an
array, or to a cell that was never written, has no result. What a callback asks of the
heap, and what other threads ask while the heap is unlocked, is a script of calls.
-/

namespace NatClient.TimerHeap

open HeapOrder (parent left)

abbrev Ref := Nat

abbrev GrpLock := Nat

structure TimeVal where
  sec : Int
  msec : Int
  deriving DecidableEq

namespace TimeVal

def gt (t1 t2 : TimeVal) : Prop := t1.sec > t2.sec ∨ (t1.sec = t2.sec ∧ t1.msec > t2.msec)

def gte (t1 t2 : TimeVal) : Prop := t1.gt t2 ∨ t1 = t2

def lt (t1 t2 : TimeVal) : Prop := ¬ t1.gte t2

def lte (t1 t2 : TimeVal) : Prop := ¬ t1.gt t2

instance (t1 t2 : TimeVal) : Decidable (t1.gt t2) :=
  inferInstanceAs (Decidable (_ ∨ _))

instance (t1 t2 : TimeVal) : Decidable (t1.gte t2) :=
  inferInstanceAs (Decidable (_ ∨ _))

instance (t1 t2 : TimeVal) : Decidable (t1.lt t2) :=
  inferInstanceAs (Decidable (¬ _))

instance (t1 t2 : TimeVal) : Decidable (t1.lte t2) :=
  inferInstanceAs (Decidable (¬ _))

def borrow (t : TimeVal) : TimeVal :=
  if t.msec ≤ -1000 then borrow ⟨t.sec - 1, t.msec + 1000⟩ else t
termination_by (-t.msec).toNat
decreasing_by omega

def settle (t : TimeVal) : TimeVal :=
  if t.sec ≥ 1 ∧ t.msec < 0 then ⟨t.sec - 1, t.msec + 1000⟩
  else if t.sec < 0 ∧ t.msec > 0 then ⟨t.sec + 1, t.msec - 1000⟩
  else t

def normalize (t : TimeVal) : TimeVal :=
  settle (if t.msec ≥ 1000 then ⟨t.sec + t.msec / 1000, t.msec % 1000⟩
    else if t.msec ≤ -1000 then borrow t
    else t)

def add (t1 t2 : TimeVal) : TimeVal := normalize ⟨t1.sec + t2.sec, t1.msec + t2.msec⟩

def sub (t1 t2 : TimeVal) : TimeVal := normalize ⟨t1.sec - t2.sec, t1.msec - t2.msec⟩

end TimeVal

def maxInt32 : Int := 0x7fffffff

structure TimerEntry where
  id : Int
  timerId : Int
  timerValue : TimeVal
  grpLock : Option GrpLock

/-- A cell of `heap` that was never written holds no pointer. -/
structure TimerHeapT where
  maxSize : Nat
  curSize : Nat
  maxEntriesPerPoll : Nat
  heap : List (Option Ref)
  timerIds : List Int
  timerIdsFreelist : Int

structure Timers where
  ht : TimerHeapT
  entry : Ref → TimerEntry
  grpRefs : GrpLock → Int

section Cells
variable {Cell : Type}

def load (cells : List Cell) (index : Int) : Option Cell :=
  if 0 ≤ index then cells[index.toNat]? else none

def store (cells : List Cell) (index : Int) (value : Cell) : Option (List Cell) :=
  if 0 ≤ index ∧ index.toNat < cells.length then some (cells.set index.toNat value) else none

theorem load_nat (cells : List Cell) (index : Nat) : load cells index = cells[index]? := by
  rw [load, if_pos (Int.natCast_nonneg index), Int.toNat_natCast]

theorem store_nat {cells : List Cell} {index : Nat} (inside : index < cells.length) (value : Cell) :
    store cells index value = some (cells.set index value) := by
  rw [store, Int.toNat_natCast, if_pos ⟨Int.natCast_nonneg index, inside⟩]

end Cells

def heapAt (ht : TimerHeapT) (slot : Nat) : Option Ref := (load ht.heap slot).join

def copyNode (entry : Ref → TimerEntry) (ht : TimerHeapT) (slot : Nat) (movedNode : Ref) :
    Option TimerHeapT := do
  let heap ← store ht.heap slot (some movedNode)
  let timerIds ← store ht.timerIds (entry movedNode).timerId slot
  some { ht with heap, timerIds }

def popFreelist (ht : TimerHeapT) : Option (TimerHeapT × Int) := do
  let newId := ht.timerIdsFreelist
  let next ← load ht.timerIds newId
  some ({ ht with timerIdsFreelist := -next }, newId)

def pushFreelist (ht : TimerHeapT) (oldId : Int) : Option TimerHeapT := do
  let timerIds ← store ht.timerIds oldId (-ht.timerIdsFreelist)
  some { ht with timerIds, timerIdsFreelist := oldId }

def smallerChild (entry : Ref → TimerEntry) (ht : TimerHeapT) (child : Nat) : Option Nat :=
  if child + 1 < ht.curSize then do
    let right ← heapAt ht (child + 1)
    let left ← heapAt ht child
    some (if (entry right).timerValue.lt (entry left).timerValue then child + 1 else child)
  else some child

/-- Each round of the loop uses up fuel. -/
def reheapDown (entry : Ref → TimerEntry) (movedNode : Ref) :
    Nat → TimerHeapT → Nat → Nat → Option TimerHeapT
  | 0, _, _, _ => none
  | fuel + 1, ht, slot, child =>
      if child < ht.curSize then do
        let child ← smallerChild entry ht child
        let node ← heapAt ht child
        if (entry node).timerValue.lt (entry movedNode).timerValue then do
          let ht ← copyNode entry ht slot node
          reheapDown entry movedNode fuel ht child (left child)
        else copyNode entry ht slot movedNode
      else copyNode entry ht slot movedNode

def reheapUp (entry : Ref → TimerEntry) (movedNode : Ref) :
    Nat → TimerHeapT → Nat → Nat → Option TimerHeapT
  | 0, _, _, _ => none
  | fuel + 1, ht, slot, above =>
      if slot > 0 then do
        let node ← heapAt ht above
        if (entry movedNode).timerValue.lt (entry node).timerValue then do
          let ht ← copyNode entry ht slot node
          reheapUp entry movedNode fuel ht above (parent above)
        else copyNode entry ht slot movedNode
      else copyNode entry ht slot movedNode

def refill (entry : Ref → TimerEntry) (ht : TimerHeapT) (slot : Nat) : Option TimerHeapT := do
  let movedNode ← heapAt ht ht.curSize
  let ht ← copyNode entry ht slot movedNode
  let above ← heapAt ht (parent slot)
  if (entry movedNode).timerValue.gte (entry above).timerValue then
    reheapDown entry movedNode (ht.curSize + 1) ht slot (left slot)
  else reheapUp entry movedNode (ht.curSize + 1) ht slot (parent slot)

/-- `cur_size--` of an empty heap would wrap; it has no result. -/
def removeNode (timers : Timers) (slot : Nat) : Option (Ref × Timers) := do
  let removedNode ← heapAt timers.ht slot
  let ht ← pushFreelist timers.ht (timers.entry removedNode).timerId
  if ht.curSize = 0 then none else
  let ht := { ht with curSize := ht.curSize - 1 }
  let entry := Function.update timers.entry removedNode
    { timers.entry removedNode with timerId := -1 }
  let ht ← if slot < ht.curSize then refill entry ht slot else some ht
  some (removedNode, { timers with ht, entry })

def growHeap (ht : TimerHeapT) : TimerHeapT :=
  { ht with
    heap := ht.heap.take ht.maxSize ++ List.replicate ht.maxSize none
    timerIds := ht.timerIds.take ht.maxSize ++
      (List.range' ht.maxSize ht.maxSize).map fun (i : Nat) => -((i : Int) + 1)
    maxSize := ht.maxSize * 2 }

def insertNode (entry : Ref → TimerEntry) (ht : TimerHeapT) (newNode : Ref) :
    Option TimerHeapT := do
  let ht := if ht.curSize + 2 ≥ ht.maxSize then growHeap ht else ht
  let ht ← reheapUp entry newNode (ht.curSize + 1) ht ht.curSize (parent ht.curSize)
  some { ht with curSize := ht.curSize + 1 }

inductive Status where
  | success
  | tooMany
  | invalidOp
  deriving DecidableEq

def scheduleEntry (timers : Timers) (entry : Ref) (futureTime : TimeVal) :
    Option (Timers × Status) :=
  if timers.ht.curSize < timers.ht.maxSize then do
    let (ht, id) ← popFreelist timers.ht
    let entries := Function.update timers.entry entry
      { timers.entry entry with timerId := id, timerValue := futureTime }
    let ht ← insertNode entries ht entry
    some ({ timers with ht, entry := entries }, .success)
  else some (timers, .tooMany)

namespace Timers

def setEntry (timers : Timers) (entry : Ref) (value : TimerEntry) : Timers :=
  { timers with entry := Function.update timers.entry entry value }

def unmark (timers : Timers) (entry : Ref) : Timers :=
  timers.setEntry entry { timers.entry entry with timerId := -1 }

def setId (timers : Timers) (entry : Ref) : Option Int → Timers
  | none => timers
  | some id => timers.setEntry entry { timers.entry entry with id }

def setGrpLock (timers : Timers) (entry : Ref) (grpLock : Option GrpLock) : Timers :=
  timers.setEntry entry { timers.entry entry with grpLock }

def countRef (timers : Timers) (change : Int) : Option GrpLock → Timers
  | none => timers
  | some lock =>
      { timers with grpRefs := Function.update timers.grpRefs lock (timers.grpRefs lock + change) }

end Timers

/-- Always called with `F_DONT_CALL`. -/
def cancel (timers : Timers) (entry : Ref) : Option (Timers × Nat) :=
  let timerId := (timers.entry entry).timerId
  if timerId < 0 ∨ timerId > timers.ht.maxSize then some (timers.unmark entry, 0) else do
  let timerNodeSlot ← load timers.ht.timerIds timerId
  if timerNodeSlot < 0 then some (timers.unmark entry, 0) else do
  let node ← heapAt timers.ht timerNodeSlot.toNat
  if entry ≠ node then some (timers.unmark entry, 0) else do
  let (_, timers) ← removeNode timers timerNodeSlot.toNat
  some (timers, 1)

def pjTimerHeapCreate (size : Nat) : TimerHeapT :=
  { maxSize := size + 2
    curSize := 0
    maxEntriesPerPoll := 64
    heap := List.replicate (size + 2) none
    timerIds := (List.range' 0 (size + 2)).map fun (i : Nat) => -((i : Int) + 1)
    timerIdsFreelist := 1 }

def pjTimerEntryInit (id : Int) (timerValue : TimeVal) : TimerEntry :=
  { id, timerId := -1, timerValue, grpLock := none }

def pjTimerEntryRunning (entry : TimerEntry) : Prop := entry.timerId ≥ 1

instance (entry : TimerEntry) : Decidable (pjTimerEntryRunning entry) :=
  inferInstanceAs (Decidable (_ ≥ _))

def scheduleWGrpLock (timers : Timers) (entry : Ref) (delay now : TimeVal) (setId : Option Int)
    (grpLock : Option GrpLock) : Option (Timers × Status) :=
  if (timers.entry entry).timerId < 1 then do
    let (timers, status) ← scheduleEntry timers entry (now.add delay)
    if status = .success then
      some (((timers.setId entry setId).setGrpLock entry grpLock).countRef 1 grpLock, status)
    else some (timers, status)
  else some (timers, .invalidOp)

def cancelTimer (timers : Timers) (entry : Ref) (setId : Option Int) : Option (Timers × Nat) := do
  let (timers, count) ← cancel timers entry
  let timers := timers.setId entry setId
  let grpLock := (timers.entry entry).grpLock
  some ((timers.setGrpLock entry none).countRef (-1) grpLock, count)

inductive TimerOp where
  | schedule (entry : Ref) (delay now : TimeVal) (setId : Option Int) (grpLock : Option GrpLock)
  | cancel (entry : Ref) (setId : Option Int)
  deriving DecidableEq

inductive Answer where
  | scheduled (status : Status)
  | cancelled (count : Nat)
  deriving DecidableEq

def timerStep (timers : Timers) : TimerOp → Option (Timers × Answer)
  | .schedule entry delay now setId grpLock =>
      (scheduleWGrpLock timers entry delay now setId grpLock).map fun result =>
        (result.1, .scheduled result.2)
  | .cancel entry setId =>
      (cancelTimer timers entry setId).map fun result => (result.1, .cancelled result.2)

inductive Event where
  | answered (op : TimerOp) (answer : Answer)
  | fired (node : Ref) (now : TimeVal)
  deriving DecidableEq

def timerSteps : Timers → List TimerOp → Option (Timers × List Event)
  | timers, [] => some (timers, [])
  | timers, op :: rest => do
      let (timers, answer) ← timerStep timers op
      let (timers, events) ← timerSteps timers rest
      some (timers, .answered op answer :: events)

/-- The loop of `pj_timer_heap_poll`, with the number of entries that it may still process. -/
def pollLoop (now : TimeVal) (script : Nat → List TimerOp) :
    Nat → Nat → Timers → Option (Timers × List Event × Nat)
  | 0, count, timers => some (timers, [], count)
  | remaining + 1, count, timers =>
      if timers.ht.curSize = 0 then some (timers, [], count) else do
      let root ← heapAt timers.ht 0
      if (timers.entry root).timerValue.lte now then do
        let (node, timers) ← removeNode timers 0
        let grpLock := (timers.entry node).grpLock
        let (timers, events) ← timerSteps (timers.setGrpLock node none) (script count)
        let (timers, later, count) ←
          pollLoop now script remaining (count + 1) (timers.countRef (-1) grpLock)
        some (timers, .fired node now :: events ++ later, count)
      else some (timers, [], count)

def nextDelay (timers : Timers) (now : TimeVal) : Option TimeVal :=
  if timers.ht.curSize = 0 then some ⟨maxInt32, maxInt32⟩ else do
  let root ← heapAt timers.ht 0
  let delay := (timers.entry root).timerValue.sub now
  some (if delay.sec < 0 ∨ delay.msec < 0 then ⟨0, 0⟩ else delay)

def pjTimerHeapPoll (timers : Timers) (now : TimeVal) (script : Nat → List TimerOp) :
    Option (Timers × List Event × Nat × TimeVal) := do
  let (timers, events, count) ← pollLoop now script timers.ht.maxEntriesPerPoll 0 timers
  let delay ← nextDelay timers now
  some (timers, events, count, delay)

def pjTimerHeapSetMaxTimedOutPerPoll (timers : Timers) (count : Nat) : Timers :=
  { timers with ht := { timers.ht with maxEntriesPerPoll := count } }

end NatClient.TimerHeap
