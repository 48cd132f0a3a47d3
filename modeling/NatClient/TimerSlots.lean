import NatClient.TimerHeap

/-!
What the arrays of the timer heap hold: the nodes in their slots, each with the slot
under its id, and the chain of the free ids. The loops that place a node keep this and
end in a heap in order of expiry.
-/

namespace NatClient.TimerHeap

open HeapOrder

namespace TimeVal

def key (t : TimeVal) : Int ×ₗ Int := toLex (t.sec, t.msec)

theorem lt_iff (t1 t2 : TimeVal) : t1.lt t2 ↔ t1.key < t2.key := by
  obtain ⟨s1, m1⟩ := t1
  obtain ⟨s2, m2⟩ := t2
  simp only [lt, gte, gt, key, Prod.Lex.toLex_lt_toLex, mk.injEq]
  omega

theorem gte_iff (t1 t2 : TimeVal) : t1.gte t2 ↔ t2.key ≤ t1.key := by
  rw [← not_lt, ← lt_iff, lt, not_not]

theorem lte_iff (t1 t2 : TimeVal) : t1.lte t2 ↔ t1.key ≤ t2.key := by
  obtain ⟨s1, m1⟩ := t1
  obtain ⟨s2, m2⟩ := t2
  simp only [lte, gt, key, Prod.Lex.toLex_le_toLex]
  omega

end TimeVal

section Chain

/-- The free ids from the head on: the value under each, negated, is the next. -/
def FreeChain (ids : List Int) (last : Nat) : Nat → List Nat → Prop
  | head, [] => head = last
  | head, id :: rest => head = id ∧ 0 < id ∧
      ∃ next : Nat, 0 < next ∧ ids[id]? = some (-(next : Int)) ∧ FreeChain ids last next rest

variable {ids : List Int} {last head : Nat} {free : List Nat}

theorem FreeChain.negative (chain : FreeChain ids last head free) {id : Nat} (unused : id ∈ free) :
    ∃ value, ids[id]? = some value ∧ value < 0 := by
  induction free generalizing head with
  | nil => exact absurd unused List.not_mem_nil
  | cons first rest ih =>
      obtain ⟨_, _, next, positive, cell, later⟩ := chain
      rcases List.mem_cons.mp unused with rfl | inner
      · exact ⟨_, cell, by omega⟩
      · exact ih later inner

theorem FreeChain.positive (chain : FreeChain ids last head free) {id : Nat} (unused : id ∈ free) :
    0 < id := by
  induction free generalizing head with
  | nil => exact absurd unused List.not_mem_nil
  | cons first rest ih =>
      obtain ⟨_, positive, next, _, _, later⟩ := chain
      rcases List.mem_cons.mp unused with rfl | inner
      · exact positive
      · exact ih later inner

theorem FreeChain.set (chain : FreeChain ids last head free) {index : Nat} (value : Int)
    (used : index ∉ free) : FreeChain (ids.set index value) last head free := by
  induction free generalizing head with
  | nil => exact chain
  | cons first rest ih =>
      obtain ⟨same, positive, next, above, cell, later⟩ := chain
      have apart : index ≠ first := fun eq => used (eq ▸ List.mem_cons_self)
      refine ⟨same, positive, next, above, ?_, ih later fun inner =>
        used (List.mem_cons_of_mem _ inner)⟩
      rw [List.getElem?_set_ne apart, cell]

theorem FreeChain.push (chain : FreeChain ids last head free) {index : Nat} (above : 0 < head)
    (positive : 0 < index) (inside : index < ids.length) (used : index ∉ free) :
    FreeChain (ids.set index (-(head : Int))) last index (index :: free) :=
  ⟨rfl, positive, head, above, by rw [List.getElem?_set_self inside], chain.set _ used⟩

theorem FreeChain.append {more : List Int} {middle : Nat} {unused : List Nat}
    (chain : FreeChain ids middle head free) (later : FreeChain (ids ++ more) last middle unused) :
    FreeChain (ids ++ more) last head (free ++ unused) := by
  induction free generalizing head with
  | nil => exact (show head = middle from chain) ▸ later
  | cons first rest ih =>
      obtain ⟨same, positive, next, above, cell, inner⟩ := chain
      refine ⟨same, positive, next, above, ?_, ih inner⟩
      have inside : first < ids.length := (List.getElem?_eq_some_iff.mp cell).1
      rw [List.getElem?_append_left inside, cell]

theorem freeChain_range (first count : Nat) (positive : 0 < first)
    (cells : ∀ index, first ≤ index → index < first + count →
      ids[index]? = some (-((index : Int) + 1))) :
    FreeChain ids (first + count) first (List.range' first count) := by
  induction count generalizing first with
  | zero => rfl
  | succ count ih =>
      rw [List.range'_succ]
      refine ⟨rfl, positive, first + 1, by omega, cells first (by omega) (by omega), ?_⟩
      have later := ih (first + 1) (by omega) fun index low high =>
        cells index (by omega) (by omega)
      rwa [show first + 1 + count = first + (count + 1) by omega] at later

end Chain

def expiry (entry : Ref → TimerEntry) (node : Ref) : Int ×ₗ Int := (entry node).timerValue.key

/-- The nodes of the filled slots, and the free ids. -/
structure Holds (ht : TimerHeapT) (entry : Ref → TimerEntry) (size hole : Nat) (node : Nat → Ref)
    (free : List Nat) : Prop where
  heapLength : ht.heap.length = ht.maxSize
  idsLength : ht.timerIds.length = ht.maxSize
  cell : ∀ slot ∈ live size hole, ht.heap[slot]? = some (some (node slot))
  ids : ∀ slot ∈ live size hole, ∃ id : Nat, (entry (node slot)).timerId = id ∧ 0 < id ∧
    ht.timerIds[id]? = some (slot : Int)
  head : ∃ first : Nat, ht.timerIdsFreelist = first ∧ 0 < first ∧
    FreeChain ht.timerIds ht.maxSize first free
  noId : ht.timerIds[0]? = some (-1)

/-- A node that is about to be placed: its id is taken, by no other node. -/
structure Spare (ht : TimerHeapT) (entry : Ref → TimerEntry) (size hole : Nat) (node : Nat → Ref)
    (free : List Nat) (moved : Ref) : Prop where
  id : ∃ id : Nat, (entry moved).timerId = id ∧ 0 < id ∧ id < ht.maxSize ∧ id ∉ free
  apart : ∀ slot ∈ live size hole, (entry (node slot)).timerId ≠ (entry moved).timerId

def SameSizes (ht ht' : TimerHeapT) : Prop :=
  ht' = { ht with heap := ht'.heap, timerIds := ht'.timerIds }

theorem SameSizes.trans {ht ht' ht'' : TimerHeapT} (first : SameSizes ht ht')
    (second : SameSizes ht' ht'') : SameSizes ht ht'' := by
  rw [SameSizes, second, first]

theorem SameSizes.maxSize {ht ht' : TimerHeapT} (same : SameSizes ht ht') :
    ht'.maxSize = ht.maxSize := by
  rw [same]

theorem SameSizes.curSize {ht ht' : TimerHeapT} (same : SameSizes ht ht') :
    ht'.curSize = ht.curSize := by
  rw [same]

section Holding
variable {ht : TimerHeapT} {entry : Ref → TimerEntry} {size hole : Nat} {node : Nat → Ref}
  {free : List Nat} {moved : Ref}

theorem Holds.heapAt_live (holds : Holds ht entry size hole node free) {slot : Nat}
    (filled : slot ∈ live size hole) : heapAt ht slot = some (node slot) := by
  rw [heapAt, load_nat, holds.cell slot filled]
  rfl

theorem Holds.slot_lt (holds : Holds ht entry size hole node free) {slot : Nat}
    (filled : slot ∈ live size hole) : slot < ht.maxSize := by
  rw [← holds.heapLength]
  exact (List.getElem?_eq_some_iff.mp (holds.cell slot filled)).1

theorem Holds.id_lt (holds : Holds ht entry size hole node free) {slot id : Nat}
    (filled : slot ∈ live size hole) (own : (entry (node slot)).timerId = id) :
    id < ht.maxSize := by
  obtain ⟨known, same, _, cell⟩ := holds.ids slot filled
  obtain rfl : id = known := by omega
  rw [← holds.idsLength]
  exact (List.getElem?_eq_some_iff.mp cell).1

theorem Holds.slot_unique (holds : Holds ht entry size hole node free) {one two : Nat}
    (first : one ∈ live size hole) (second : two ∈ live size hole)
    (same : (entry (node one)).timerId = (entry (node two)).timerId) : one = two := by
  obtain ⟨id, own, _, cell⟩ := holds.ids one first
  obtain ⟨id', own', _, cell'⟩ := holds.ids two second
  obtain rfl : id = id' := by omega
  have both := Option.some_inj.mp (cell.symm.trans cell')
  omega

theorem Holds.id_used (holds : Holds ht entry size hole node free) {slot id : Nat}
    (filled : slot ∈ live size hole) (own : (entry (node slot)).timerId = id) : id ∉ free := by
  intro unused
  obtain ⟨known, same, _, cell⟩ := holds.ids slot filled
  obtain ⟨first, _, _, chain⟩ := holds.head
  obtain ⟨value, found, negative⟩ := chain.negative unused
  obtain rfl : id = known := by omega
  have both := Option.some_inj.mp (cell.symm.trans found)
  omega

theorem copyNode_eq (holds : Holds ht entry size hole node free) {id : Nat}
    (own : (entry moved).timerId = id) (known : id < ht.maxSize) (inside : hole < ht.maxSize) :
    copyNode entry ht hole moved = some { ht with
      heap := ht.heap.set hole (some moved), timerIds := ht.timerIds.set id hole } := by
  rw [copyNode, store_nat (holds.heapLength ▸ inside), own,
    store_nat (holds.idsLength ▸ known)]
  rfl

theorem Holds.write (holds : Holds ht entry size hole node free) {id : Nat}
    (own : (entry moved).timerId = id) (positive : 0 < id)
    (known : id < ht.maxSize) (used : id ∉ free)
    (inside : hole < ht.maxSize) {size' hole' : Nat} {node' : Nat → Ref}
    (filled : ∀ slot ∈ live size' hole', (slot = hole ∧ node' slot = moved) ∨
      (slot ≠ hole ∧ slot ∈ live size hole ∧ node' slot = node slot ∧
        (entry (node slot)).timerId ≠ id)) :
    Holds { ht with heap := ht.heap.set hole (some moved), timerIds := ht.timerIds.set id hole }
      entry size' hole' node' free where
  heapLength := by rw [List.length_set]; exact holds.heapLength
  idsLength := by rw [List.length_set]; exact holds.idsLength
  cell := by
    intro slot member
    rcases filled slot member with ⟨rfl, placed⟩ | ⟨other, old, kept, _⟩
    · dsimp only
      rw [List.getElem?_set_self (holds.heapLength ▸ inside), placed]
    · dsimp only
      rw [List.getElem?_set_ne (Ne.symm other), holds.cell slot old, kept]
  ids := by
    intro slot member
    rcases filled slot member with ⟨rfl, placed⟩ | ⟨other, old, kept, apart⟩
    · refine ⟨id, by rw [placed, own], positive, ?_⟩
      dsimp only
      rw [List.getElem?_set_self (holds.idsLength ▸ known)]
    · obtain ⟨its, ownIts, above, cell⟩ := holds.ids slot old
      refine ⟨its, by rw [kept, ownIts], above, ?_⟩
      dsimp only
      rw [List.getElem?_set_ne (by omega), cell]
  head := by
    obtain ⟨first, same, above, chain⟩ := holds.head
    exact ⟨first, same, above, chain.set _ used⟩
  noId := by
    dsimp only
    rw [List.getElem?_set_ne (by omega)]
    exact holds.noId

theorem Holds.move (holds : Holds ht entry size hole node free)
    (spare : Spare ht entry size hole node free moved)
    (bound : size ≤ ht.maxSize) (inside : hole < size)
    {source : Nat} (filled : source ∈ live size hole) :
    ∃ ht', copyNode entry ht hole (node source) = some ht' ∧
      SameSizes ht ht' ∧
      Holds ht' entry size source (shift node hole source) free ∧
      Spare ht' entry size source (shift node hole source) free moved := by
  obtain ⟨id, own, positive, cell⟩ := holds.ids source filled
  have known := holds.id_lt filled own
  refine ⟨_, copyNode_eq holds own known (by omega), rfl, ?_, ⟨spare.id, ?_⟩⟩
  · apply holds.write own positive known (holds.id_used filled own) (by omega)
    rintro slot ⟨below, other⟩
    by_cases here : slot = hole
    · exact Or.inl ⟨here, by rw [here, shift_hole]⟩
    · refine Or.inr ⟨here, ⟨below, here⟩, shift_of_ne here, fun same => other ?_⟩
      exact holds.slot_unique ⟨below, here⟩ filled (by rw [same, own])
  · rintro slot ⟨below, other⟩
    by_cases here : slot = hole
    · rw [here, shift_hole]
      exact spare.apart source filled
    · rw [shift_of_ne here]
      exact spare.apart slot ⟨below, here⟩

theorem Holds.close (holds : Holds ht entry size hole node free)
    (spare : Spare ht entry size hole node free moved)
    (bound : size ≤ ht.maxSize) (inside : hole < size) :
    ∃ ht', copyNode entry ht hole moved = some ht' ∧
      SameSizes ht ht' ∧
      Holds ht' entry size size (Function.update node hole moved) free := by
  obtain ⟨id, own, positive, known, used⟩ := spare.id
  refine ⟨_, copyNode_eq holds own known (by omega), rfl, ?_⟩
  apply holds.write own positive known used (by omega)
  intro slot member
  by_cases here : slot = hole
  · exact Or.inl ⟨here, by rw [here, Function.update_self]⟩
  · refine Or.inr ⟨here, ⟨member.1, here⟩, Function.update_of_ne here .., fun same => ?_⟩
    exact spare.apart slot ⟨member.1, here⟩ (by rw [same, own])

end Holding

/-- What placing a node comes to, in whichever direction. -/
structure Placed (entry : Ref → TimerEntry) (ht : TimerHeapT) (size hole : Nat) (node : Nat → Ref)
    (free : List Nat) (moved : Ref) (ht' : TimerHeapT) : Prop where
  frame : SameSizes ht ht'
  result : ∃ node', Holds ht' entry size size node' free ∧ Ordered (expiry entry) size node' ∧
    node' '' live size size = insert moved (node '' live size hole)

section Placing
variable {ht : TimerHeapT} {entry : Ref → TimerEntry} {size hole : Nat} {node : Nat → Ref}
  {free : List Nat} {moved : Ref}

theorem placed_close (holds : Holds ht entry size hole node free)
    (spare : Spare ht entry size hole node free moved)
    (bound : size ≤ ht.maxSize) (inside : hole < size)
    (around : Around (expiry entry) size hole node)
    (covers : OverChildren (expiry entry) size hole node moved)
    (under : UnderParent (expiry entry) hole node moved) :
    ∃ ht', copyNode entry ht hole moved = some ht' ∧
      Placed entry ht size hole node free moved ht' := by
  obtain ⟨ht', copied, frame, full⟩ := holds.close spare bound inside
  exact ⟨ht', copied, frame, _, full, around.close covers under, close_image inside moved⟩

theorem Placed.after_move {ht' ht'' : TimerHeapT} {source : Nat}
    (frame : SameSizes ht ht')
    (inside : hole < size) (filled : source ∈ live size hole)
    (placed : Placed entry ht' size source (shift node hole source) free moved ht'') :
    Placed entry ht size hole node free moved ht'' := by
  obtain ⟨later, node', full, ordered, image⟩ := placed
  constructor
  case frame => exact frame.trans later
  case result => exact ⟨node', full, ordered, by rw [image, shift_image inside filled]⟩

theorem reheapUp_places (fuel : Nat) (enough : hole < fuel)
    (holds : Holds ht entry size hole node free) (spare : Spare ht entry size hole node free moved)
    (bound : size ≤ ht.maxSize) (inside : hole < size)
    (around : Around (expiry entry) size hole node)
    (covers : OverChildren (expiry entry) size hole node moved) :
    ∃ ht', reheapUp entry moved fuel ht hole (parent hole) = some ht' ∧
      Placed entry ht size hole node free moved ht' := by
  induction fuel generalizing ht hole node with
  | zero => omega
  | succ fuel ih =>
      rw [reheapUp]
      by_cases root : hole > 0
      case neg =>
        rw [if_neg root]
        exact placed_close holds spare bound inside around covers fun inner => absurd inner root
      case pos =>
        have up := parent_lt root
        have filled : parent hole ∈ live size hole := ⟨by omega, by omega⟩
        rw [if_pos root, holds.heapAt_live filled]
        simp only [Option.bind_eq_bind, Option.bind_some]
        by_cases before : (entry moved).timerValue.lt (entry (node (parent hole))).timerValue
        case neg =>
          rw [if_neg before]
          have under := not_lt.mp fun less => before ((TimeVal.lt_iff _ _).mpr less)
          exact placed_close holds spare bound inside around covers fun _ => under
        case pos =>
          rw [if_pos before]
          obtain ⟨ht', copied, frame, holds', spare'⟩ := holds.move spare bound inside filled
          have less := (TimeVal.lt_iff _ _).mp before
          obtain ⟨ht'', done, placed⟩ := ih (by omega) holds' spare' (frame.maxSize ▸ bound)
            (by omega) (around.up root inside) (around.overChildren_up root less)
          exact ⟨ht'', by rw [copied]; exact done, placed.after_move frame inside filled⟩

theorem smallerChild_least (current : ht.curSize = size)
    (holds : Holds ht entry size hole node free) (inner : left hole < size) :
    ∃ child, smallerChild entry ht (left hole) = some child ∧ 0 < child ∧ child < size ∧
      parent child = hole ∧ OverChildren (expiry entry) size hole node (node child) := by
  have deeper := left_gt hole
  have filled : left hole ∈ live size hole := ⟨inner, by omega⟩
  rw [smallerChild, current]
  by_cases pair : left hole + 1 < size
  case neg =>
    refine ⟨left hole, if_neg pair, by omega, inner, parent_left hole, ?_⟩
    exact overChildren_least (fun _ => le_refl _) fun below => absurd below pair
  case pos =>
    have filled' : left hole + 1 ∈ live size hole := ⟨pair, by omega⟩
    rw [if_pos pair, holds.heapAt_live filled', holds.heapAt_live filled]
    simp only [Option.bind_eq_bind, Option.bind_some, TimeVal.lt_iff, Option.some.injEq]
    by_cases less : (entry (node (left hole + 1))).timerValue.key <
        (entry (node (left hole))).timerValue.key
    · refine ⟨left hole + 1, if_pos less, by omega, pair, parent_right hole, ?_⟩
      exact overChildren_least (fun _ => less.le) fun _ => le_refl _
    · refine ⟨left hole, if_neg less, by omega, inner, parent_left hole, ?_⟩
      exact overChildren_least (fun _ => le_refl _) fun _ => not_lt.mp less

theorem reheapDown_places (fuel : Nat) (enough : size < fuel + hole)
    (current : ht.curSize = size) (holds : Holds ht entry size hole node free)
    (spare : Spare ht entry size hole node free moved)
    (bound : size ≤ ht.maxSize) (inside : hole < size)
    (around : Around (expiry entry) size hole node)
    (under : UnderParent (expiry entry) hole node moved) :
    ∃ ht', reheapDown entry moved fuel ht hole (left hole) = some ht' ∧
      Placed entry ht size hole node free moved ht' := by
  induction fuel generalizing ht hole node with
  | zero => omega
  | succ fuel ih =>
      rw [reheapDown, current]
      by_cases inner : left hole < size
      case neg =>
        rw [if_neg inner]
        exact placed_close holds spare bound inside around (overChildren_leaf (by omega)) under
      case pos =>
        obtain ⟨child, chosen, positive, below, up, least⟩ := smallerChild_least current holds inner
        have deeper := parent_lt positive
        have filled : child ∈ live size hole := ⟨below, by omega⟩
        rw [if_pos inner, chosen]
        simp only [Option.bind_eq_bind, Option.bind_some, holds.heapAt_live filled]
        by_cases before : (entry (node child)).timerValue.lt (entry moved).timerValue
        case neg =>
          rw [if_neg before]
          have less := not_lt.mp fun less => before ((TimeVal.lt_iff _ _).mpr less)
          exact placed_close holds spare bound inside around
            (fun slot bottom top child => less.trans (least slot bottom top child)) under
        case pos =>
          rw [if_pos before]
          obtain ⟨ht', copied, frame, holds', spare'⟩ := holds.move spare bound inside filled
          have less := (TimeVal.lt_iff _ _).mp before
          obtain ⟨ht'', done, placed⟩ := ih (by omega) (frame.curSize ▸ current) holds' spare'
            (frame.maxSize ▸ bound) below (around.down positive below up least)
            (underParent_down up less.le)
          exact ⟨ht'', by rw [copied]; exact done, placed.after_move frame inside filled⟩

end Placing

end NatClient.TimerHeap
