import Mathlib.Data.Set.Card
import NatClient.TimerSlots

/-!
The invariant of the timer heap between calls, and what each call does to it: no call
leaves the arrays or lacks room, and the entries other than the one it is about stay
as they are.
-/

namespace NatClient.TimerHeap

open HeapOrder

/-- The arrays hold the nodes in order of expiry, and every other entry is idle. -/
structure Wf (timers : Timers) (node : Nat → Ref) (free : List Nat) : Prop where
  holds : Holds timers.ht timers.entry timers.ht.curSize timers.ht.curSize node free
  ordered : Ordered (expiry timers.entry) timers.ht.curSize node
  room : timers.ht.curSize + 2 ≤ timers.ht.maxSize
  count : free.length + timers.ht.curSize + 1 = timers.ht.maxSize
  nodup : free.Nodup
  idle : ∀ entry, entry ∉ node '' live timers.ht.curSize timers.ht.curSize →
    ¬ pjTimerEntryRunning (timers.entry entry)

def WellFormed (timers : Timers) : Prop := ∃ node free, Wf timers node free

section Frames
variable {ht : TimerHeapT} {entry : Ref → TimerEntry} {size hole : Nat} {node : Nat → Ref}
  {free : List Nat}

theorem Holds.mono (holds : Holds ht entry size hole node free) {size' hole' : Nat}
    (fewer : live size' hole' ⊆ live size hole) : Holds ht entry size' hole' node free :=
  { holds with
    cell := fun slot filled => holds.cell slot (fewer filled)
    ids := fun slot filled => holds.ids slot (fewer filled) }

theorem Holds.congr (holds : Holds ht entry size hole node free) (entry' : Ref → TimerEntry)
    (same : ∀ slot ∈ live size hole, (entry' (node slot)).timerId = (entry (node slot)).timerId) :
    Holds ht entry' size hole node free :=
  { holds with
    ids := by
      intro slot filled
      rw [same slot filled]
      exact holds.ids slot filled }

theorem ordered_congr (entry' : Ref → TimerEntry) (ordered : Ordered (expiry entry) size node)
    (same : ∀ slot < size, (entry' (node slot)).timerValue = (entry (node slot)).timerValue) :
    Ordered (expiry entry') size node := by
  intro slot inner below
  have up := parent_lt inner
  rw [expiry, expiry, same slot below, same (parent slot) (by omega)]
  exact ordered slot inner below

theorem live_append : live (size + 1) size ⊆ live size size := by
  rintro slot ⟨below, other⟩
  exact mem_live_self.mpr (by omega)

end Frames

section Queries
variable {timers : Timers} {node : Nat → Ref} {free : List Nat}

theorem Wf.running_iff (wf : Wf timers node free) (entry : Ref) :
    pjTimerEntryRunning (timers.entry entry) ↔ ∃ slot < timers.ht.curSize, node slot = entry := by
  constructor
  · intro running
    by_contra none
    refine wf.idle entry ?_ running
    rintro ⟨slot, filled, same⟩
    exact none ⟨slot, filled.1, same⟩
  · rintro ⟨slot, below, rfl⟩
    obtain ⟨id, own, positive, _⟩ := wf.holds.ids slot (mem_live_self.mpr below)
    rw [pjTimerEntryRunning, own]
    omega

theorem Wf.root_first (wf : Wf timers node free) {entry : Ref}
    (running : pjTimerEntryRunning (timers.entry entry)) :
    (timers.entry (node 0)).timerValue.lte (timers.entry entry).timerValue := by
  obtain ⟨slot, below, rfl⟩ := (wf.running_iff entry).mp running
  rw [TimeVal.lte_iff]
  exact wf.ordered.root_least below

end Queries

/-- A call that leaves the entries so, and all but the heap as it was. -/
structure Becomes (timers timers' : Timers) (entry : Ref → TimerEntry) : Prop where
  wellFormed : WellFormed timers'
  entries : timers'.entry = entry
  refs : timers'.grpRefs = timers.grpRefs
  perPoll : timers'.ht.maxEntriesPerPoll = timers.ht.maxEntriesPerPoll

theorem setEntry_self (timers : Timers) (entry : Ref) (value : TimerEntry) :
    (timers.setEntry entry value).entry entry = value :=
  Function.update_self ..

theorem setEntry_of_ne (timers : Timers) {entry other : Ref}
    (apart : other ≠ entry) (value : TimerEntry) :
    (timers.setEntry entry value).entry other = timers.entry other :=
  Function.update_of_ne apart ..

section Removing
variable {timers : Timers} {node : Nat → Ref} {free : List Nat} {slot : Nat}

theorem pushFreelist_hole (wf : Wf timers node free) (below : slot < timers.ht.curSize) :
    ∃ (ht : TimerHeapT) (id : Nat),
      pushFreelist timers.ht (timers.entry (node slot)).timerId = some ht ∧
      ht = { timers.ht with timerIds := ht.timerIds, timerIdsFreelist := id } ∧ id ∉ free ∧
      Holds ht (timers.unmark (node slot)).entry timers.ht.curSize slot node (id :: free) := by
  have filled := mem_live_self.mpr below
  obtain ⟨id, own, positive, _⟩ := wf.holds.ids slot filled
  have known := wf.holds.id_lt filled own
  have used := wf.holds.id_used filled own
  have inside : id < timers.ht.timerIds.length := wf.holds.idsLength ▸ known
  obtain ⟨first, top, above, chain⟩ := wf.holds.head
  -- Ids tell the nodes apart, so only the removed entry has this one.
  have others (other : Nat) (member : other ∈ live timers.ht.curSize slot) :
      (timers.entry (node other)).timerId ≠ id ∧
        (timers.unmark (node slot)).entry (node other) = timers.entry (node other) := by
    have apart : (timers.entry (node other)).timerId ≠ (timers.entry (node slot)).timerId :=
      fun same => member.2 (wf.holds.slot_unique (mem_live_self.mpr member.1) filled same)
    refine ⟨own ▸ apart, Function.update_of_ne (fun same => apart (by rw [same])) ..⟩
  refine ⟨{ timers.ht with
    timerIds := timers.ht.timerIds.set id (-(first : Int)), timerIdsFreelist := id },
    id, ?_, rfl, used, ?_⟩
  · rw [pushFreelist, own, top, store_nat inside]
    rfl
  · constructor
    case heapLength => exact wf.holds.heapLength
    case idsLength => rw [List.length_set]; exact wf.holds.idsLength
    case cell => exact fun other member => wf.holds.cell other (mem_live_self.mpr member.1)
    case ids =>
      intro other member
      obtain ⟨apart, same⟩ := others other member
      obtain ⟨its, ownIts, its_pos, cell⟩ := wf.holds.ids other (mem_live_self.mpr member.1)
      refine ⟨its, by rw [same, ownIts], its_pos, ?_⟩
      dsimp only
      rw [List.getElem?_set_ne (by omega), cell]
    case head => exact ⟨id, rfl, positive, chain.push above positive inside used⟩
    case noId =>
      dsimp only
      rw [List.getElem?_set_ne (by omega)]
      exact wf.holds.noId

/-- The end node takes the hole, and goes up or down from there. -/
theorem refill_places (ht : TimerHeapT) {entry : Ref → TimerEntry} {size hole : Nat}
    (current : ht.curSize = size) (bound : size + 1 ≤ ht.maxSize)
    (holds : Holds ht entry (size + 1) hole node free)
    (ordered : Ordered (expiry entry) (size + 1) node) (inside : hole < size) :
    ∃ ht', refill entry ht hole = some ht' ∧
      SameSizes ht ht' ∧
      ∃ node', Holds ht' entry size size node' free ∧ Ordered (expiry entry) size node' ∧
        node' '' live size size = node '' live (size + 1) hole := by
  have last : size ∈ live (size + 1) hole := ⟨by omega, by omega⟩
  have fewer : live size hole ⊆ live (size + 1) hole :=
    fun slot member => ⟨by have := member.1; omega, member.2⟩
  have holds' := holds.mono fewer
  obtain ⟨id, own, positive, cell⟩ := holds.ids size last
  have spare : Spare ht entry size hole node free (node size) := by
    refine ⟨⟨id, own, positive, holds.id_lt last own, holds.id_used last own⟩, ?_⟩
    intro slot member same
    have := holds.slot_unique (fewer member) last same
    have := member.1
    omega
  obtain ⟨ht₁, copied, frame, full⟩ := holds'.close spare (by omega) inside
  have filled : hole ∈ live size size := mem_live_self.mpr inside
  have itself : Function.update node hole (node size) hole = node size := Function.update_self ..
  have apart (slot : Nat) (other : slot ≠ hole) :
      Function.update node hole (node size) slot = node slot := Function.update_of_ne other ..
  have open' : live size hole ⊆ live size size := fun slot member => mem_live_self.mpr member.1
  have spare' :
      Spare ht₁ entry size hole (Function.update node hole (node size)) free (node size) := by
    refine ⟨⟨id, own, positive, ?_, holds.id_used last own⟩, ?_⟩
    · exact full.id_lt filled (by rw [itself, own])
    · intro slot member same
      exact member.2 (full.slot_unique (open' member) filled (by rw [same, itself]))
  -- The last node fills the hole for now, and goes to its place from there.
  have around := (ordered.remove inside).congr apart
  have inner : parent hole < size := by
    by_cases root : hole = 0
    · rw [root, show parent 0 = 0 from rfl]
      omega
    · have := parent_lt (Nat.pos_of_ne_zero root)
      omega
  have bound₁ : size ≤ ht₁.maxSize := by
    rw [frame.maxSize]
    omega
  have images : insert (node size) (Function.update node hole (node size) '' live size hole) =
      node '' live (size + 1) hole := by
    ext found
    constructor
    · rintro (rfl | ⟨slot, member, rfl⟩)
      · exact ⟨size, last, rfl⟩
      · exact ⟨slot, fewer member, (apart slot member.2).symm⟩
    · rintro ⟨slot, member, rfl⟩
      by_cases top : slot = size
      · exact Or.inl (by rw [top])
      · have := member.1
        exact Or.inr ⟨slot, ⟨by omega, member.2⟩, apart slot member.2⟩
  have finish (ht' : TimerHeapT)
      (placed :
        Placed entry ht₁ size hole (Function.update node hole (node size)) free (node size) ht') :
      SameSizes ht ht' ∧
      ∃ node', Holds ht' entry size size node' free ∧ Ordered (expiry entry) size node' ∧
        node' '' live size size = node '' live (size + 1) hole := by
    obtain ⟨later, node', holds'', ordered'', image⟩ := placed
    exact ⟨frame.trans later, node', holds'', ordered'', image.trans images⟩
  rw [refill, current, holds.heapAt_live last]
  simp only [Option.bind_eq_bind, Option.bind_some, copied,
    full.heapAt_live (mem_live_self.mpr inner), TimeVal.gte_iff]
  have current₁ : ht₁.curSize = size := frame.curSize.trans current
  rw [current₁]
  by_cases after : (entry (Function.update node hole (node size) (parent hole))).timerValue.key ≤
      (entry (node size)).timerValue.key
  case pos =>
    rw [if_pos after]
    obtain ⟨ht', done, placed⟩ := reheapDown_places (size + 1) (by omega) current₁
      (full.mono open') spare' bound₁ inside around fun _ => after
    exact ⟨ht', done, finish ht' placed⟩
  case neg =>
    rw [if_neg after]
    -- The root is its own parent, and no node is less than itself.
    have root : 0 < hole := by
      by_contra top
      have zero : hole = 0 := by omega
      rw [zero, show parent 0 = 0 from rfl, ← zero, itself] at after
      exact after (le_refl _)
    obtain ⟨ht', done, placed⟩ := reheapUp_places (size + 1) (by omega) (full.mono open') spare'
      bound₁ inside around (around.overChildren root (not_le.mp after))
    exact ⟨ht', done, finish ht' placed⟩

theorem unmark_self (entry : Ref) :
    (timers.unmark entry).entry entry = { timers.entry entry with timerId := -1 } :=
  Function.update_self ..

theorem unmark_of_ne {entry other : Ref} (apart : other ≠ entry) :
    (timers.unmark entry).entry other = timers.entry other :=
  Function.update_of_ne apart ..

theorem unmark_timerValue (entry other : Ref) :
    ((timers.unmark entry).entry other).timerValue = (timers.entry other).timerValue := by
  by_cases same : other = entry
  · rw [same, unmark_self]
  · rw [unmark_of_ne same]

theorem not_running_unmarked (value : TimerEntry) :
    ¬ pjTimerEntryRunning { value with timerId := -1 } :=
  (by decide : ¬ (-1 : Int) ≥ 1)

theorem removeNode_spec (wf : Wf timers node free) (below : slot < timers.ht.curSize) :
    ∃ timers', removeNode timers slot = some (node slot, timers') ∧
      Becomes timers timers' (timers.unmark (node slot)).entry := by
  obtain ⟨ht, id, pushed, frame, used, hole⟩ := pushFreelist_hole wf below
  have room := wf.room
  have count := wf.count
  have size : ht.curSize = timers.ht.curSize := by rw [frame]
  have most : ht.maxSize = timers.ht.maxSize := by rw [frame]
  have perPoll : ht.maxEntriesPerPoll = timers.ht.maxEntriesPerPoll := by rw [frame]
  obtain ⟨rest, cut⟩ : ∃ rest, timers.ht.curSize = rest + 1 := ⟨timers.ht.curSize - 1, by omega⟩
  rw [cut] at hole
  have ordered : Ordered (expiry (timers.unmark (node slot)).entry) (rest + 1) node :=
    cut ▸ ordered_congr _ wf.ordered fun other _ => unmark_timerValue (node slot) (node other)
  -- The removed entry is marked, and the others were idle before.
  have idle (final : Nat → Ref)
      (image : final '' live rest rest = node '' live (rest + 1) slot) (entry : Ref)
      (outside : entry ∉ final '' live rest rest) :
      ¬ pjTimerEntryRunning ((timers.unmark (node slot)).entry entry) := by
    by_cases removed : entry = node slot
    · rw [removed]
      rw [unmark_self]
      exact not_running_unmarked _
    · rw [unmark_of_ne removed]
      refine wf.idle entry fun inside => outside (image ▸ ?_)
      obtain ⟨other, member, rfl⟩ := inside
      exact ⟨other, ⟨cut ▸ member.1, fun same => removed (by rw [same])⟩, rfl⟩
  rw [removeNode, wf.holds.heapAt_live (mem_live_self.mpr below)]
  simp only [Option.bind_eq_bind, Option.bind_some, pushed, size, cut]
  rw [if_neg (by omega), show rest + 1 - 1 = rest by omega]
  by_cases inner : slot < rest
  case pos =>
    obtain ⟨ht', done, sizes, final, holds, sorted, image⟩ := refill_places
      { ht with curSize := rest } rfl (by dsimp only; omega) { hole with } ordered inner
    rw [if_pos inner,
      show refill (Function.update timers.entry (node slot) _) _ slot = some ht' from done]
    refine ⟨_, rfl, ⟨⟨final, id :: free, ?_⟩, rfl, rfl, ?_⟩⟩
    · have size' : ht'.curSize = rest := sizes.curSize
      have most' : ht'.maxSize = ht.maxSize := sizes.maxSize
      constructor
      case holds => exact size' ▸ holds
      case ordered => exact size' ▸ sorted
      case room => dsimp only; omega
      case count => dsimp only [List.length_cons]; omega
      case nodup => exact List.nodup_cons.mpr ⟨used, wf.nodup⟩
      case idle => exact fun entry outside => idle final image entry (size' ▸ outside)
    · exact (show ht'.maxEntriesPerPoll = ht.maxEntriesPerPoll by rw [sizes]).trans perPoll
  case neg =>
    -- The last node leaves no hole to fill.
    have last : slot = rest := by omega
    have same : live rest rest = live (rest + 1) slot := by
      ext other
      rw [mem_live_self, mem_live]
      omega
    rw [if_neg inner]
    refine ⟨_, rfl, ⟨⟨node, id :: free, ?_⟩, rfl, rfl, perPoll⟩⟩
    constructor
    case holds => exact { (hole.mono same.le) with }
    case ordered => exact fun other inner below => ordered other inner (Nat.lt_succ_of_lt below)
    case room => dsimp only; omega
    case count => dsimp only [List.length_cons]; omega
    case nodup => exact List.nodup_cons.mpr ⟨used, wf.nodup⟩
    case idle => exact idle node (by rw [same])

end Removing

section Scheduling
variable {timers : Timers} {node : Nat → Ref} {free : List Nat} {entry : Ref}

theorem Holds.grow {ht : TimerHeapT} {entry : Ref → TimerEntry} {size hole : Nat}
    (holds : Holds ht entry size hole node free) (positive : 0 < ht.maxSize) :
    Holds (growHeap ht) entry size hole node (free ++ List.range' ht.maxSize ht.maxSize) := by
  have whole : ht.heap.take ht.maxSize = ht.heap := List.take_of_length_le holds.heapLength.le
  have whole' : ht.timerIds.take ht.maxSize = ht.timerIds :=
    List.take_of_length_le holds.idsLength.le
  rw [growHeap, whole, whole']
  constructor
  case heapLength =>
    rw [List.length_append, List.length_replicate, holds.heapLength, Nat.mul_two]
  case idsLength =>
    rw [List.length_append, List.length_map, List.length_range', holds.idsLength, Nat.mul_two]
  case cell =>
    intro slot filled
    dsimp only
    rw [List.getElem?_append_left (holds.heapLength ▸ holds.slot_lt filled), holds.cell slot filled]
  case ids =>
    intro slot filled
    obtain ⟨id, own, above, cell⟩ := holds.ids slot filled
    refine ⟨id, own, above, ?_⟩
    dsimp only
    rw [List.getElem?_append_left (holds.idsLength ▸ holds.id_lt filled own), cell]
  case head =>
    obtain ⟨first, top, above, chain⟩ := holds.head
    refine ⟨first, top, above, chain.append ?_⟩
    rw [Nat.mul_two]
    refine freeChain_range ht.maxSize ht.maxSize positive fun index low high => ?_
    rw [List.getElem?_append_right (holds.idsLength ▸ low), holds.idsLength, List.getElem?_map,
      List.getElem?_range' (by omega), Option.map_some,
        show ht.maxSize + 1 * (index - ht.maxSize) = index by omega]
  case noId =>
    dsimp only
    rw [List.getElem?_append_left (holds.idsLength ▸ positive), holds.noId]

theorem Holds.free_lt {ht : TimerHeapT} {entry : Ref → TimerEntry} {size hole id : Nat}
    (holds : Holds ht entry size hole node free) (unused : id ∈ free) : id < ht.maxSize := by
  obtain ⟨first, _, _, chain⟩ := holds.head
  obtain ⟨value, cell, _⟩ := chain.negative unused
  rw [← holds.idsLength]
  exact (List.getElem?_eq_some_iff.mp cell).1

theorem popFreelist_head {ht : TimerHeapT} {entry : Ref → TimerEntry} {size hole id : Nat}
    (holds : Holds ht entry size hole node (id :: free)) :
    ∃ next : Int, popFreelist ht = some
      ({ ht with timerIdsFreelist := next }, (id : Int)) ∧ 0 < id ∧
      Holds { ht with timerIdsFreelist := next } entry size hole node free := by
  obtain ⟨first, top, above, rfl, positive, next, later, cell, chain⟩ := holds.head
  refine ⟨next, ?_, positive, { holds with head := ⟨next, rfl, later, chain⟩ }⟩
  rw [popFreelist, top, load_nat, cell]
  simp only [Option.bind_eq_bind, Option.bind_some, neg_neg]

/-- The heap after growing where it is full: the new ids are free as well. -/
theorem grown_holds {ht : TimerHeapT} {entries : Ref → TimerEntry} {size most : Nat}
    (current : ht.curSize = size) (capacity : ht.maxSize = most)
    (holds : Holds ht entries size size node free) (room : size + 2 ≤ most)
    (count : free.length + size + 2 = most) (nodup : free.Nodup) :
    ∃ ht' free', (if ht.curSize + 2 ≥ ht.maxSize then growHeap ht else ht) = ht' ∧
      Holds ht' entries size size node free' ∧ size + 3 ≤ ht'.maxSize ∧
      free'.length + size + 2 = ht'.maxSize ∧ free'.Nodup ∧ most ≤ ht'.maxSize ∧
      ht'.curSize = size ∧ ht'.maxEntriesPerPoll = ht.maxEntriesPerPoll ∧
      ∀ id < most, id ∈ free' → id ∈ free := by
  by_cases full : ht.curSize + 2 ≥ ht.maxSize
  case neg =>
    exact ⟨ht, free, if_neg full, holds, by omega, by omega, nodup, by omega, current, rfl,
      fun _ _ unused => unused⟩
  case pos =>
    have double : (growHeap ht).maxSize = most * 2 := congrArg (· * 2) capacity
    refine ⟨growHeap ht, _, if_pos full, holds.grow (by omega), by omega, ?_, ?_, by omega, current,
      rfl, ?_⟩
    · rw [List.length_append, List.length_range']
      omega
    · refine List.nodup_append.mpr ⟨nodup, List.nodup_range', ?_⟩
      rintro one old two new rfl
      have := holds.free_lt old
      have := (List.mem_range'_1.mp new).1
      omega
    · intro id known unused
      rcases List.mem_append.mp unused with old | new
      · exact old
      · have := (List.mem_range'_1.mp new).1
        omega

theorem insertNode_spec {ht : TimerHeapT} {entries : Ref → TimerEntry} {size most id : Nat}
    {newNode : Ref} (current : ht.curSize = size) (capacity : ht.maxSize = most)
    (holds : Holds ht entries size size node free) (ordered : Ordered (expiry entries) size node)
    (room : size + 2 ≤ most) (count : free.length + size + 2 = most) (nodup : free.Nodup)
    (own : (entries newNode).timerId = id) (positive : 0 < id)
    (known : id < most) (used : id ∉ free)
    (apart : ∀ slot < size, (entries (node slot)).timerId ≠ id) :
    ∃ ht' node' free', insertNode entries ht newNode = some ht' ∧ ht'.curSize = size + 1 ∧
      Holds ht' entries (size + 1) (size + 1) node' free' ∧
        Ordered (expiry entries) (size + 1) node' ∧
      node' '' live (size + 1) (size + 1) = insert newNode (node '' live (size + 1) size) ∧
      size + 3 ≤ ht'.maxSize ∧ free'.length + size + 2 = ht'.maxSize ∧ free'.Nodup ∧
      ht'.maxEntriesPerPoll = ht.maxEntriesPerPoll := by
  obtain ⟨wide, free', grown, holds', room', count', nodup', larger, size', perPoll, older⟩ :=
    grown_holds current capacity holds room count nodup
  have spare : Spare wide entries (size + 1) size node free' newNode := by
    refine ⟨⟨id, own, positive, known.trans_le larger, fun again => used (older id known again)⟩,
      ?_⟩
    intro slot filled
    rw [own]
    exact apart slot (mem_live_self.mp (live_append filled))
  obtain ⟨ht', done, sizes, final, full, sorted, image⟩ := reheapUp_places (size + 1) (by omega)
    (holds'.mono live_append) spare (by omega) (by omega) ordered.append overChildren_append
  refine ⟨{ ht' with curSize := ht'.curSize + 1 }, final, free', ?_, ?_,
    { full with }, sorted, image, ?_,
    ?_, nodup', ?_⟩
  · rw [insertNode, grown, size', done]
    rfl
  · rw [sizes.curSize, size']
  · exact sizes.maxSize ▸ room'
  · exact sizes.maxSize ▸ count'
  · exact (show ht'.maxEntriesPerPoll = wide.maxEntriesPerPoll by rw [sizes]).trans perPoll

theorem scheduleEntry_spec (wf : Wf timers node free)
    (idle : ¬ pjTimerEntryRunning (timers.entry entry)) (futureTime : TimeVal) :
    ∃ (timers' : Timers) (id : Int),
      scheduleEntry timers entry futureTime = some (timers', .success) ∧
      id ≥ 1 ∧
      Becomes timers timers' (timers.setEntry entry
        { timers.entry entry with timerId := id, timerValue := futureTime }).entry := by
  have room := wf.room
  have count := wf.count
  cases free with
  -- There is always a free id beyond the nodes.
  | nil =>
      rw [List.length_nil] at count
      omega
  | cons id rest =>
    obtain ⟨unused, nodup⟩ := List.nodup_cons.mp wf.nodup
    rw [List.length_cons] at count
    obtain ⟨next, popped, positive, holds⟩ := popFreelist_head wf.holds
    generalize renewed : (timers.setEntry entry
      { timers.entry entry with timerId := (id : Int), timerValue := futureTime }).entry = entries
    have other (it : Ref) (apart : it ≠ entry) : entries it = timers.entry it := by
      rw [← renewed]
      exact Function.update_of_ne apart ..
    have kept (slot : Nat) (below : slot < timers.ht.curSize) :
        entries (node slot) = timers.entry (node slot) :=
      other _ fun same => idle ((wf.running_iff entry).mpr ⟨slot, below, same⟩)
    have own : (entries entry).timerId = id := by
      rw [← renewed, setEntry_self]
    obtain ⟨ht', final, free', inserted, size, full, sorted, image,
        room', count', nodup', perPoll⟩ :=
      insertNode_spec rfl rfl (holds.congr entries fun slot filled => by rw [kept slot filled.1])
        (ordered_congr entries wf.ordered fun slot below => by rw [kept slot below]) room (by
          dsimp only; omega) nodup own positive (wf.holds.free_lt List.mem_cons_self) unused
        fun slot below same => wf.holds.id_used (mem_live_self.mpr below)
          (by rw [← kept slot below, same]) List.mem_cons_self
    refine ⟨{ timers with ht := ht', entry := entries }, id, ?_, by omega,
      ⟨⟨final, free', ?_⟩, renewed.symm, rfl, perPoll⟩⟩
    · rw [scheduleEntry, if_pos (by omega), popped]
      simp only [Option.bind_eq_bind, Option.bind_some]
      rw [show Function.update timers.entry entry _ = entries from renewed, inserted]
      rfl
    · constructor
      case holds => exact size ▸ full
      case ordered => exact size ▸ sorted
      case room => dsimp only; omega
      case count => dsimp only; omega
      case nodup => exact nodup'
      case idle =>
        intro it outside
        dsimp only at outside ⊢
        rw [size, image, Set.mem_insert_iff, not_or] at outside
        rw [other it outside.1]
        refine wf.idle it fun inside => outside.2 ?_
        obtain ⟨slot, filled, rfl⟩ := inside
        have below : slot < timers.ht.curSize := filled.1
        exact ⟨slot, ⟨Nat.lt_succ_of_lt below, Nat.ne_of_lt below⟩, rfl⟩

end Scheduling

section Cancelling
variable {timers : Timers} {entry : Ref}

theorem becomes_setEntry (wf : WellFormed timers)
    (idle : ¬ pjTimerEntryRunning (timers.entry entry))
    {value : TimerEntry} (still : ¬ pjTimerEntryRunning value) :
    Becomes timers (timers.setEntry entry value) (timers.setEntry entry value).entry := by
  obtain ⟨node, free, wf⟩ := wf
  have kept (slot : Nat) (below : slot < timers.ht.curSize) :
      (timers.setEntry entry value).entry (node slot) = timers.entry (node slot) :=
    setEntry_of_ne timers (fun same => idle ((wf.running_iff entry).mpr ⟨slot, below, same⟩)) value
  refine ⟨⟨node, free, ?_⟩, rfl, rfl, rfl⟩
  constructor
  case holds => exact wf.holds.congr _ fun slot filled => by rw [kept slot filled.1]
  case ordered => exact ordered_congr _ wf.ordered fun slot below => by rw [kept slot below]
  case room => exact wf.room
  case count => exact wf.count
  case nodup => exact wf.nodup
  case idle =>
    intro it outside
    by_cases same : it = entry
    · rw [same, setEntry_self]
      exact still
    · rw [setEntry_of_ne timers same]
      exact wf.idle it outside

theorem becomes_frame (entry : Ref) (value : TimerEntry) (wf : WellFormed timers)
    (sameId : value.timerId = (timers.entry entry).timerId)
    (sameValue : value.timerValue = (timers.entry entry).timerValue) :
    Becomes timers (timers.setEntry entry value) (timers.setEntry entry value).entry := by
  obtain ⟨node, free, wf⟩ := wf
  have same (it : Ref) :
    ((timers.setEntry entry value).entry it).timerId = (timers.entry it).timerId ∧
      ((timers.setEntry entry value).entry it).timerValue = (timers.entry it).timerValue := by
    by_cases own : it = entry
    · rw [own, setEntry_self]
      exact ⟨sameId, sameValue⟩
    · rw [setEntry_of_ne timers own]
      exact ⟨rfl, rfl⟩
  refine ⟨⟨node, free, ?_⟩, rfl, rfl, rfl⟩
  constructor
  case holds => exact wf.holds.congr _ fun slot _ => (same _).1
  case ordered => exact ordered_congr _ wf.ordered fun slot _ => (same _).2
  case room => exact wf.room
  case count => exact wf.count
  case nodup => exact wf.nodup
  case idle =>
    intro it outside
    rw [pjTimerEntryRunning, (same it).1]
    exact wf.idle it outside

theorem cancel_idle (wf : WellFormed timers) (idle : ¬ pjTimerEntryRunning (timers.entry entry)) :
    cancel timers entry = some (timers.unmark entry, 0) := by
  obtain ⟨node, free, wf⟩ := wf
  rw [cancel]
  by_cases negative : (timers.entry entry).timerId < 0
  · exact if_pos (Or.inl negative)
  · have zero : (timers.entry entry).timerId = (0 : Nat) := by
      rw [pjTimerEntryRunning] at idle
      omega
    rw [zero]
    dsimp only
    rw [if_neg (by omega), load_nat, wf.holds.noId, Option.bind_eq_bind, Option.bind_some]
    exact if_pos (by decide)

theorem cancel_running (wf : WellFormed timers)
    (running : pjTimerEntryRunning (timers.entry entry)) :
    ∃ timers', cancel timers entry = some (timers', 1) ∧
      Becomes timers timers' (timers.unmark entry).entry := by
  obtain ⟨node, free, wf⟩ := wf
  obtain ⟨slot, below, rfl⟩ := (wf.running_iff entry).mp running
  have filled := mem_live_self.mpr below
  obtain ⟨id, own, positive, cell⟩ := wf.holds.ids slot filled
  have known := wf.holds.id_lt filled own
  obtain ⟨timers', removed, becomes⟩ := removeNode_spec wf below
  refine ⟨timers', ?_, becomes⟩
  rw [cancel, own]
  dsimp only
  rw [if_neg (by omega), load_nat, cell]
  simp only [Option.bind_eq_bind, Option.bind_some]
  rw [if_neg (by omega), Int.toNat_natCast, wf.holds.heapAt_live filled]
  simp only [Option.bind_some]
  rw [if_neg (fun differs => differs rfl), removed]
  rfl

end Cancelling

end NatClient.TimerHeap
