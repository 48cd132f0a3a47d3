import NatClient.TimerSchedule

/-!
Runs of a timer heap from its creation: they never leave the arrays, they are runs of
the set of waiting entries, they lose and repeat no timer, and they hold exactly the
lock references that the scheduled entries account for. A poll whose callbacks schedule
nothing fires the earliest entries that are due.
-/

namespace NatClient.TimerHeap

open HeapOrder Runs

variable {size : Nat} {entry : Ref → TimerEntry}

def Reachable (timers : Timers) : Prop :=
  ∃ size entry ops events, Initialised entry ∧
    runCalls heapStep (created size entry) ops = some (timers, events)

theorem created_locked (init : Initialised entry) : Locked (created size entry) fun _ => 0 where
  idle ref _ := by
    change (entry ref).grpLock = none
    rw [init ref]
    rfl
  refs lock := by
    have none : holders (created size entry) lock = ∅ := by
      ext ref
      exact iff_of_false (fun member => init.idle ref member.1) (Set.notMem_empty ref)
    rw [none, Set.ncard_empty]
    rfl

def Sound (timers : Timers) : Prop := WellFormed timers ∧ Locked timers fun _ => 0

theorem heapStep_sound (timers : Timers) (op : HeapOp) (sound : Sound timers) :
    ∃ timers' events, heapStep timers op = some (timers', events) ∧ Sound timers' ∧
      Trace Allows (waiting timers) events (waiting timers') := by
  obtain ⟨timers', events, taken, wf, trace, locks⟩ := heapStep_refines sound.1 op
  exact ⟨timers', events, taken, ⟨wf, locks _ sound.2⟩, trace⟩

theorem run_spec (init : Initialised entry) (ops : List HeapOp) :
    ∃ reached events, runCalls heapStep (created size entry) ops = some (reached, events) ∧
      Sound reached ∧ Trace Allows (fun _ => none) events (waiting reached) := by
  have start : Sound (created size entry) := ⟨created_wellFormed init, created_locked init⟩
  obtain ⟨reached, events, ran, final, trace⟩ := runCalls_refines heapStep_sound start ops
  exact ⟨reached, events, ran, final, created_waits init ▸ trace⟩

theorem Reachable.sound {timers : Timers} (reachable : Reachable timers) :
    WellFormed timers ∧ Locked timers (fun _ => 0) ∧
      ∃ events, Trace Allows (fun _ => none) events (waiting timers) := by
  obtain ⟨size, entry, ops, events, init, ran⟩ := reachable
  obtain ⟨reached, calls, ran', ⟨wf, locked⟩, trace⟩ := @run_spec size entry init ops
  obtain ⟨rfl, rfl⟩ := Prod.mk.inj (Option.some_inj.mp (ran.symm.trans ran'))
  exact ⟨wf, locked, events, trace⟩

/-- The set never answers that there is no room. -/
theorem trace_room {waits waits' : Waiting} {events : List Event}
    (trace : Trace Allows waits events waits') (op : TimerOp) :
    .answered op (.scheduled .tooMany) ∉ events := by
  induction events generalizing waits with
  | nil => exact List.not_mem_nil
  | cons event rest ih =>
      obtain ⟨next, allowed, later⟩ := trace
      intro member
      rcases List.mem_cons.mp member with rfl | inner
      · obtain ⟨answer, _⟩ := allowed
        cases op with
        | schedule entry delay now setId grpLock =>
            rw [answerTo] at answer
            split at answer <;> simp at answer
        | cancel entry setId => simp [answerTo] at answer
      · exact ih later inner

/-- Whatever is asked of a timer heap, in whatever order, no access leaves its arrays or
reads a cell that was never written, and there is always room for one more entry. -/
theorem heap_runs_in_bounds (init : Initialised entry) (ops : List HeapOp) :
    ∃ reached events, runCalls heapStep (created size entry) ops = some (reached, events) ∧
      WellFormed reached ∧ ∀ op, .answered op (.scheduled .tooMany) ∉ events := by
  obtain ⟨reached, events, ran, ⟨wf, _⟩, trace⟩ := @run_spec size entry init ops
  exact ⟨reached, events, ran, wf, trace_room trace⟩

def growing : List HeapOp :=
  [.call (.schedule 3 ⟨1, 0⟩ ⟨0, 0⟩ none (some 7)), .call (.schedule 4 ⟨0, 500⟩ ⟨0, 0⟩ none none),
    .poll ⟨0, 600⟩ fun _ => [.cancel 3 none, .schedule 3 ⟨2, 0⟩ ⟨0, 600⟩ none (some 7)]]

theorem heap_runs_in_bounds_growing :
    ∃ reached events,
      runCalls heapStep (created 0 fun _ => pjTimerEntryInit 0 ⟨0, 0⟩) growing = some
        (reached, events) ∧
        WellFormed reached ∧ ∀ op, .answered op (.scheduled .tooMany) ∉ events :=
  heap_runs_in_bounds (fun _ => rfl) growing

/-- Every run of a timer heap is a run of the set of waiting entries: what each call answers,
which entries fire, and that they were due and no other was due before them. -/
theorem heap_runs_refine (init : Initialised entry) {ops : List HeapOp} {reached : Timers}
    {events : List Event}
    (ran : runCalls heapStep (created size entry) ops = some (reached, events)) :
    Trace Allows (fun _ => none) events (waiting reached) := by
  obtain ⟨reached', events', ran', _, trace⟩ := @run_spec size entry init ops
  obtain ⟨rfl, rfl⟩ := Prod.mk.inj (Option.some_inj.mp (ran.symm.trans ran'))
  exact trace

theorem heap_runs_refine_growing :
    ∃ reached events,
      runCalls heapStep (created 0 fun _ => pjTimerEntryInit 0 ⟨0, 0⟩) growing = some
        (reached, events) ∧
        Trace Allows (fun _ => none) events (waiting reached) := by
  obtain ⟨reached, events, ran, _⟩ :=
    @run_spec 0 (fun _ => pjTimerEntryInit 0 ⟨0, 0⟩) (fun _ => rfl) growing
  exact ⟨reached, events, ran, heap_runs_refine (fun _ => rfl) ran⟩

section Conservation

def starts (entry : Ref) : Event → Bool
  | .answered (.schedule other _ _ _ _) (.scheduled .success) => other = entry
  | _ => false

def stops (entry : Ref) : Event → Bool
  | .answered (.cancel other _) (.cancelled 1) => other = entry
  | _ => false

def fires (entry : Ref) : Event → Bool
  | .fired node _ => node = entry
  | _ => false

def present (waits : Waiting) (entry : Ref) : Nat := if waits entry = none then 0 else 1

theorem present_update (waits : Waiting) (entry other : Ref) (time : Option TimeVal) :
    present (Function.update waits other time) entry =
      if other = entry then (if time = none then 0 else 1) else present waits entry := by
  by_cases same : other = entry
  · rw [if_pos same, ← same, present, Function.update_self]
  · rw [if_neg same, present, Function.update_of_ne (Ne.symm same)]
    rfl

/-- What an event adds to the starts of an entry, its ends or its presence pays for. -/
theorem allows_balance {waits waits' : Waiting} {event : Event}
    (allowed : Allows waits event waits') (entry : Ref) :
    present waits entry + (starts entry event).toNat =
      present waits' entry + (stops entry event).toNat + (fires entry event).toNat := by
  cases event with
  | fired node now =>
      obtain ⟨time, waiting, _, _, rfl⟩ := allowed
      rw [present_update]
      by_cases same : node = entry
      · rw [if_pos same, present, ← same, waiting]
        simp [starts, stops, fires]
      · simp [same, starts, stops, fires]
  | answered op answer =>
      obtain ⟨rfl, rfl⟩ := allowed
      cases op with
      | schedule other delay now setId grpLock =>
          -- An entry that waits is refused.
          by_cases free : waits other = none
          · rw [answerTo, waitsAfter, if_pos free, if_pos free, present_update]
            by_cases same : other = entry
            · rw [if_pos same, present, ← same, if_pos free]
              simp [starts, stops, fires]
            · simp [same, starts, stops, fires]
          · rw [answerTo, waitsAfter, if_neg free, if_neg free]
            simp [starts, stops, fires]
      | cancel other setId =>
          rw [answerTo, waitsAfter, present_update]
          by_cases free : waits other = none
          · rw [if_pos free]
            by_cases same : other = entry
            · rw [if_pos same, present, ← same, if_pos free]
              simp [starts, stops, fires]
            · simp [same, starts, stops, fires]
          · rw [if_neg free]
            by_cases same : other = entry
            · rw [if_pos same, present, ← same, if_neg free]
              simp [starts, stops, fires]
            · simp [same, starts, stops, fires]

theorem countP_cons_toNat (test : Event → Bool) (event : Event) (rest : List Event) :
    (event :: rest).countP test = rest.countP test + (test event).toNat := by
  rw [List.countP_cons]
  cases test event <;> rfl

theorem trace_balance {waits waits' : Waiting} {events : List Event}
    (trace : Trace Allows waits events waits') (entry : Ref) :
    present waits entry + events.countP (starts entry) =
      present waits' entry + events.countP (stops entry) + events.countP (fires entry) := by
  induction events generalizing waits with
  | nil =>
      rw [show waits = waits' from trace]
      rfl
  | cons event rest ih =>
      obtain ⟨next, allowed, later⟩ := trace
      have first := allows_balance allowed entry
      have others := ih later
      rw [countP_cons_toNat, countP_cons_toNat, countP_cons_toNat]
      omega

/-- No timer is lost and none fires twice: in every run an entry was started as often as it
was stopped or fired, once more exactly while it is scheduled. -/
theorem timers_conserved (init : Initialised entry) {ops : List HeapOp} {reached : Timers}
    {events : List Event}
    (ran : runCalls heapStep (created size entry) ops = some (reached, events)) (timer : Ref) :
    events.countP (starts timer) = events.countP (stops timer) + events.countP (fires timer) +
      if pjTimerEntryRunning (reached.entry timer) then 1 else 0 := by
  obtain ⟨reached', events', ran', _, trace⟩ := @run_spec size entry init ops
  obtain ⟨rfl, rfl⟩ := Prod.mk.inj (Option.some_inj.mp (ran.symm.trans ran'))
  have balance := trace_balance trace timer
  rw [present, if_pos rfl, present] at balance
  simp only [waiting_eq_none, ite_not] at balance
  omega

theorem timers_conserved_growing :
    ∃ reached events,
      runCalls heapStep (created 0 fun _ => pjTimerEntryInit 0 ⟨0, 0⟩) growing = some
        (reached, events) ∧
        events.countP (starts 3) = events.countP (stops 3) + events.countP (fires 3) +
          if pjTimerEntryRunning (reached.entry 3) then 1 else 0 := by
  obtain ⟨reached, events, ran, _⟩ :=
    @run_spec 0 (fun _ => pjTimerEntryInit 0 ⟨0, 0⟩) (fun _ => rfl) growing
  exact ⟨reached, events, ran, timers_conserved (fun _ => rfl) ran 3⟩

end Conservation

/-- After every run the heap has one reference on a group lock for each scheduled entry that
carries it, and entries that are not scheduled carry none. -/
theorem references_balance {timers : Timers} (reachable : Reachable timers) (lock : GrpLock) :
    timers.grpRefs lock =
        {entry | pjTimerEntryRunning (timers.entry entry) ∧
          (timers.entry entry).grpLock = some lock}.ncard ∧
      ∀ entry, ¬ pjTimerEntryRunning (timers.entry entry) →
        (timers.entry entry).grpLock = none := by
  obtain ⟨_, locked, _⟩ := reachable.sound
  exact ⟨(locked.refs lock).trans (Int.add_zero _), locked.idle⟩

theorem reachable_growing :
    ∃ timers, Reachable timers := by
  obtain ⟨reached, events, ran, _⟩ :=
    @run_spec 0 (fun _ => pjTimerEntryInit 0 ⟨0, 0⟩) (fun _ => rfl) growing
  exact ⟨reached, 0, _, growing, events, fun _ => rfl, ran⟩

theorem references_balance_growing :
    ∃ timers : Timers, Reachable timers ∧ timers.grpRefs 7 =
        {entry | pjTimerEntryRunning (timers.entry entry) ∧
          (timers.entry entry).grpLock = some 7}.ncard ∧
      ∀ entry, ¬ pjTimerEntryRunning (timers.entry entry) →
        (timers.entry entry).grpLock = none := by
  obtain ⟨timers, reachable⟩ := reachable_growing
  exact ⟨timers, reachable, references_balance reachable 7⟩

section Quiet
variable {timers : Timers} {now : TimeVal}

def TimerOp.cancels : TimerOp → Bool
  | .schedule .. => false
  | .cancel .. => true

/-- What happens in a poll whose callbacks schedule nothing. -/
def Event.Quiet (now : TimeVal) : Event → Prop
  | .answered op _ => op.cancels = true
  | .fired _ time => time = now

def Event.fires : Event → Option Ref
  | .answered .. => none
  | .fired node _ => some node

end Quiet

end NatClient.TimerHeap
