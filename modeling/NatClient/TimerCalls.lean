import NatClient.TimerSteps

/-!
What scheduling, cancelling and firing come to for the entry they are about, and the
references to group locks: as many as scheduled entries carry the lock, and one more
while the callback of such an entry runs.
-/

namespace NatClient.TimerHeap

open HeapOrder

section Calls
variable {timers timers' timers'' : Timers} {entry : Ref} {entries entries' : Ref → TimerEntry}

theorem Becomes.trans (first : Becomes timers timers' entries)
    (second : Becomes timers' timers'' entries') :
    Becomes timers timers'' entries' where
  wellFormed := second.wellFormed
  entries := second.entries
  refs := second.refs.trans first.refs
  perPoll := second.perPoll.trans first.perPoll

theorem countRef_entry (change : Int) (lock : Option GrpLock) :
    (timers.countRef change lock).entry = timers.entry := by
  cases lock <;> rfl

theorem countRef_ht (change : Int) (lock : Option GrpLock) :
    (timers.countRef change lock).ht = timers.ht := by
  cases lock <;> rfl

theorem countRef_grpRefs (change : Int) (lock : Option GrpLock) (at' : GrpLock) :
    (timers.countRef change lock).grpRefs at' =
      timers.grpRefs at' + if lock = some at' then change else 0 := by
  cases lock with
  | none => simp [Timers.countRef]
  | some lock =>
      by_cases same : at' = lock
      · simp [Timers.countRef, same]
      · simp [Timers.countRef, Function.update_of_ne same, Ne.symm same]

theorem WellFormed.countRef (wf : WellFormed timers) (change : Int) (lock : Option GrpLock) :
    WellFormed (timers.countRef change lock) := by
  obtain ⟨node, free, wf⟩ := wf
  refine ⟨node, free, ?_⟩
  constructor
  case holds => rw [countRef_ht, countRef_entry]; exact wf.holds
  case ordered => rw [countRef_ht, countRef_entry]; exact wf.ordered
  case room => rw [countRef_ht]; exact wf.room
  case count => rw [countRef_ht]; exact wf.count
  case nodup => exact wf.nodup
  case idle => rw [countRef_ht, countRef_entry]; exact wf.idle

theorem Becomes.countRef (becomes : Becomes timers timers' entries) (change : Int)
    (lock : Option GrpLock) :
    Becomes (timers.countRef change lock) (timers'.countRef change lock) entries where
  wellFormed := becomes.wellFormed.countRef change lock
  entries := (countRef_entry change lock).trans becomes.entries
  refs := by
    funext at'
    rw [countRef_grpRefs, countRef_grpRefs, becomes.refs]
  perPoll := by
    rw [countRef_ht, countRef_ht]
    exact becomes.perPoll

theorem setEntry_twice (one two : TimerEntry) :
    ((timers.setEntry entry one).setEntry entry two).entry = (timers.setEntry entry two).entry :=
  Function.update_idem ..

theorem setEntry_congr (same : timers'.entry = timers.entry) (value : TimerEntry) :
    (timers'.setEntry entry value).entry = (timers.setEntry entry value).entry := by
  rw [Timers.setEntry, Timers.setEntry, same]

theorem Becomes.rewrite {one two : TimerEntry}
    (becomes : Becomes timers timers' (timers.setEntry entry one).entry)
    (sameId : two.timerId = one.timerId) (sameValue : two.timerValue = one.timerValue) :
    Becomes timers (timers'.setEntry entry two) (timers.setEntry entry two).entry := by
  have now : timers'.entry entry = one := by rw [becomes.entries, setEntry_self]
  have frame :=
    becomes_frame entry two becomes.wellFormed (by rw [now, sameId]) (by rw [now, sameValue])
  refine becomes.trans ⟨frame.wellFormed, ?_, frame.refs, frame.perPoll⟩
  rw [setEntry_congr (becomes.entries), setEntry_twice]

theorem Becomes.setId {one : TimerEntry}
    (becomes : Becomes timers timers' (timers.setEntry entry one).entry) (setId : Option Int) :
    ∃ two : TimerEntry, Becomes timers (timers'.setId entry setId)
      (timers.setEntry entry two).entry ∧
      two.timerId = one.timerId ∧ two.timerValue = one.timerValue ∧ two.grpLock = one.grpLock := by
  have now : timers'.entry entry = one := by rw [becomes.entries, setEntry_self]
  cases setId with
  | none => exact ⟨one, becomes, rfl, rfl, rfl⟩
  | some id =>
      refine ⟨{ one with id }, ?_, rfl, rfl, rfl⟩
      rw [Timers.setId, now]
      exact becomes.rewrite rfl rfl

theorem Becomes.setGrpLock {one : TimerEntry}
    (becomes : Becomes timers timers' (timers.setEntry entry one).entry) (lock : Option GrpLock) :
    Becomes timers (timers'.setGrpLock entry lock)
        (timers.setEntry entry { one with grpLock := lock }).entry := by
  have now : timers'.entry entry = one := by rw [becomes.entries, setEntry_self]
  rw [Timers.setGrpLock, now]
  exact becomes.rewrite rfl rfl

theorem scheduleWGrpLock_idle (wf : WellFormed timers)
    (idle : ¬ pjTimerEntryRunning (timers.entry entry)) (delay now : TimeVal) (setId : Option Int)
    (grpLock : Option GrpLock) :
    ∃ (timers' : Timers) (value : TimerEntry),
      scheduleWGrpLock timers entry delay now setId grpLock = some (timers', .success) ∧
      Becomes (timers.countRef 1 grpLock) timers' (timers.setEntry entry value).entry ∧
      pjTimerEntryRunning value ∧ value.timerValue = now.add delay ∧ value.grpLock = grpLock := by
  obtain ⟨node, free, wf⟩ := wf
  obtain ⟨timers₁, id, scheduled, positive, becomes⟩ := scheduleEntry_spec wf idle (now.add delay)
  obtain ⟨value, named, sameId, sameValue, _⟩ := becomes.setId setId
  refine ⟨_, { value with grpLock }, ?_, (named.setGrpLock grpLock).countRef 1 grpLock, ?_,
    sameValue, rfl⟩
  · rw [scheduleWGrpLock, if_pos (by rw [pjTimerEntryRunning] at idle; omega), scheduled]
    rfl
  · exact sameId ▸ positive

theorem scheduleWGrpLock_running (running : pjTimerEntryRunning (timers.entry entry))
    (delay now : TimeVal) (setId : Option Int) (grpLock : Option GrpLock) :
    scheduleWGrpLock timers entry delay now setId grpLock = some (timers, .invalidOp) :=
  if_neg (by rw [pjTimerEntryRunning] at running; omega)

theorem cancel_spec (entry : Ref) (wf : WellFormed timers) :
    ∃ timers', cancel timers entry =
        some (timers', if pjTimerEntryRunning (timers.entry entry) then 1 else 0) ∧
      Becomes timers timers' (timers.unmark entry).entry := by
  by_cases running : pjTimerEntryRunning (timers.entry entry)
  · obtain ⟨timers', cancelled, becomes⟩ := cancel_running wf running
    exact ⟨timers', by rw [cancelled, if_pos running], becomes⟩
  · refine ⟨timers.unmark entry, ?_, becomes_setEntry wf running (not_running_unmarked _)⟩
    rw [cancel_idle wf running, if_neg running]

theorem cancelTimer_spec (entry : Ref) (wf : WellFormed timers) (setId : Option Int) :
    ∃ (timers' : Timers) (value : TimerEntry),
      cancelTimer timers entry setId =
        some (timers', if pjTimerEntryRunning (timers.entry entry) then 1 else 0) ∧
      Becomes (timers.countRef (-1) (timers.entry entry).grpLock) timers'
        (timers.setEntry entry value).entry ∧
      ¬ pjTimerEntryRunning value ∧ value.grpLock = none := by
  obtain ⟨timers₁, cancelled, becomes⟩ := cancel_spec entry wf
  obtain ⟨value, named, sameId, _, sameLock⟩ := Becomes.setId becomes setId
  have lock : ((timers₁.setId entry setId).entry entry).grpLock = (timers.entry entry).grpLock := by
    rw [named.entries, setEntry_self, sameLock]
  refine ⟨_, { value with grpLock := none }, ?_,
    (named.setGrpLock none).countRef (-1) (timers.entry entry).grpLock, ?_, rfl⟩
  · rw [cancelTimer, cancelled, ← lock]
    rfl
  · rw [pjTimerEntryRunning,
      show ({ value with grpLock := none } : TimerEntry).timerId = -1 from sameId]
    decide

theorem removeRoot_spec (wf : WellFormed timers) {root : Ref} (filled : timers.ht.curSize ≠ 0)
    (top : heapAt timers.ht 0 = some root) :
    ∃ (timers₁ : Timers) (value : TimerEntry), removeNode timers 0 = some (root, timers₁) ∧
      (timers₁.entry root).grpLock = (timers.entry root).grpLock ∧
      Becomes timers (timers₁.setGrpLock root none) (timers.setEntry root value).entry ∧
      ¬ pjTimerEntryRunning value ∧ value.grpLock = none := by
  obtain ⟨node, free, wf⟩ := wf
  rw [wf.holds.heapAt_live (mem_live_self.mpr (by omega)), Option.some.injEq] at top
  obtain ⟨timers₁, removed, becomes⟩ := removeNode_spec wf (Nat.pos_of_ne_zero filled)
  rw [top] at removed becomes
  refine ⟨timers₁, { timers.entry root with timerId := -1, grpLock := none }, removed, ?_,
    Becomes.setGrpLock becomes none, not_running_unmarked
      { timers.entry root with grpLock := none }, rfl⟩
  rw [becomes.entries, unmark_self]

end Calls

section Locks
variable {timers timers' : Timers} {entry : Ref} {value : TimerEntry} {held : GrpLock → Int}
  {lock : GrpLock}

/-- The scheduled entries that carry a lock. -/
def holders (timers : Timers) (lock : GrpLock) : Set Ref :=
  {entry | pjTimerEntryRunning (timers.entry entry) ∧ (timers.entry entry).grpLock = some lock}

theorem mem_holders :
    entry ∈ holders timers lock ↔
      pjTimerEntryRunning (timers.entry entry) ∧ (timers.entry entry).grpLock = some lock := Iff.rfl

/-- One reference for each scheduled entry with the lock, beside those otherwise held. -/
structure Locked (timers : Timers) (held : GrpLock → Int) : Prop where
  idle : ∀ entry, ¬ pjTimerEntryRunning (timers.entry entry) → (timers.entry entry).grpLock = none
  refs : ∀ lock, timers.grpRefs lock = (holders timers lock).ncard + held lock

/-- What an entry counts for. -/
def weight (value : TimerEntry) (lock : GrpLock) : Nat :=
  if pjTimerEntryRunning value ∧ value.grpLock = some lock then 1 else 0

theorem WellFormed.finite_holders (wf : WellFormed timers) (lock : GrpLock) :
    (holders timers lock).Finite := by
  obtain ⟨node, free, wf⟩ := wf
  refine Set.Finite.subset ((Set.finite_lt_nat timers.ht.curSize).image node) ?_
  rintro entry ⟨running, _⟩
  exact (wf.running_iff entry).mp running

theorem ncard_holders (finite : (holders timers lock).Finite) (entry : Ref) :
    (holders timers lock).ncard =
      (holders timers lock \ {entry}).ncard + weight (timers.entry entry) lock := by
  by_cases member : entry ∈ holders timers lock
  · rw [weight, if_pos (mem_holders.mp member), Set.ncard_sdiff_singleton_add_one member finite]
  · rw [weight, if_neg (mem_holders.not.mp member),
      Set.sdiff_singleton_eq_self member, Nat.add_zero]

theorem holders_setEntry (entries : timers'.entry = (timers.setEntry entry value).entry)
    (lock : GrpLock) :
    holders timers' lock \ {entry} = holders timers lock \ {entry} := by
  ext other
  by_cases same : other = entry
  · exact iff_of_false (fun left => left.2 same) fun right => right.2 same
  · rw [Set.mem_sdiff, Set.mem_sdiff, mem_holders, mem_holders, entries, setEntry_of_ne timers same]

theorem Locked.setEntry (locked : Locked timers held)
    (wf : WellFormed timers) (wf' : WellFormed timers')
    (entries : timers'.entry = (timers.setEntry entry value).entry)
    (own : ¬ pjTimerEntryRunning value → value.grpLock = none) {held' : GrpLock → Int}
    (refs : ∀ lock, timers'.grpRefs lock + weight (timers.entry entry) lock + held lock =
      timers.grpRefs lock + weight value lock + held' lock) : Locked timers' held' := by
  constructor
  case idle =>
    intro other
    rw [entries]
    by_cases same : other = entry
    · rw [same, setEntry_self]
      exact own
    · rw [setEntry_of_ne timers same]
      exact locked.idle other
  case refs =>
    intro lock
    have before := ncard_holders (wf.finite_holders lock) entry
    have after := ncard_holders (wf'.finite_holders lock) entry
    rw [holders_setEntry entries, entries, setEntry_self] at after
    have counted := locked.refs lock
    have change := refs lock
    omega

theorem weight_idle (stopped : ¬ pjTimerEntryRunning value) (lock : GrpLock) :
    weight value lock = 0 :=
  if_neg fun counts => stopped counts.1

/-- While the entry is scheduled or its lock cleared, the lock alone tells what it counts for. -/
theorem Locked.weight_entry (locked : Locked timers held) (entry : Ref) (lock : GrpLock) :
    weight (timers.entry entry) lock =
      if (timers.entry entry).grpLock = some lock then 1 else 0 := by
  by_cases running : pjTimerEntryRunning (timers.entry entry)
  · by_cases own : (timers.entry entry).grpLock = some lock
    · rw [weight, if_pos ⟨running, own⟩, if_pos own]
    · rw [weight, if_neg fun counts => own counts.2, if_neg own]
  · rw [weight_idle running, locked.idle entry running, if_neg (by simp)]

theorem Locked.schedule (locked : Locked timers held)
    (wf : WellFormed timers) {grpLock : Option GrpLock}
    (idle : ¬ pjTimerEntryRunning (timers.entry entry))
    (becomes : Becomes (timers.countRef 1 grpLock) timers' (timers.setEntry entry value).entry)
    (started : pjTimerEntryRunning value) (carries : value.grpLock = grpLock) :
    Locked timers' held := by
  refine locked.setEntry wf becomes.wellFormed becomes.entries
    (fun stopped => absurd started stopped) ?_
  intro lock
  rw [weight_idle idle, becomes.refs, countRef_grpRefs, weight, carries]
  by_cases own : grpLock = some lock
  · rw [if_pos own, if_pos ⟨started, own⟩]
    omega
  · rw [if_neg own, if_neg fun counts => own counts.2]
    omega

theorem Locked.cancel (locked : Locked timers held) (wf : WellFormed timers)
    (becomes : Becomes (timers.countRef (-1) (timers.entry entry).grpLock) timers'
      (timers.setEntry entry value).entry)
    (stopped : ¬ pjTimerEntryRunning value) (cleared : value.grpLock = none) :
    Locked timers' held := by
  refine locked.setEntry wf becomes.wellFormed becomes.entries (fun _ => cleared) ?_
  intro lock
  rw [weight_idle stopped, becomes.refs, countRef_grpRefs, locked.weight_entry]
  by_cases own : (timers.entry entry).grpLock = some lock
  · rw [if_pos own, if_pos own]
    omega
  · rw [if_neg own, if_neg own]
    omega

theorem Locked.remove (locked : Locked timers held) (wf : WellFormed timers)
    (becomes : Becomes timers timers' (timers.setEntry entry value).entry)
    (stopped : ¬ pjTimerEntryRunning value) (cleared : value.grpLock = none) :
    Locked timers' fun lock =>
      held lock + if (timers.entry entry).grpLock = some lock then 1 else 0 := by
  refine locked.setEntry wf becomes.wellFormed becomes.entries (fun _ => cleared) ?_
  intro lock
  rw [weight_idle stopped, becomes.refs, locked.weight_entry]
  split <;> omega

theorem Locked.release {lock : Option GrpLock}
    (locked : Locked timers fun at' => held at' + if lock = some at' then 1 else 0) :
    Locked (timers.countRef (-1) lock) held where
  idle := by
    rw [countRef_entry]
    exact locked.idle
  refs := by
    intro at'
    have counted : timers.grpRefs at' = _ := locked.refs at'
    have same : holders (timers.countRef (-1) lock) at' = holders timers at' := by
      rw [holders, countRef_entry]
      rfl
    rw [countRef_grpRefs, same, counted]
    by_cases own : lock = some at'
    · rw [if_pos own, if_pos own]
      omega
    · rw [if_neg own, if_neg own]
      omega

end Locks

end NatClient.TimerHeap
