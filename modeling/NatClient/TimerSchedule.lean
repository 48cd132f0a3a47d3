import NatClient.Runs
import NatClient.TimerCalls

/-!
What the timer heap is for: a set of entries, each waiting for its expiry. Scheduling
adds an entry, cancelling takes it out, and only an entry that expires first among all
that wait, and is due, may fire. Every run of the heap is a run of this set.
-/

namespace NatClient.TimerHeap

open HeapOrder Runs

abbrev Waiting := Ref → Option TimeVal

def waiting (timers : Timers) : Waiting := fun entry =>
  if pjTimerEntryRunning (timers.entry entry) then some (timers.entry entry).timerValue else none

def answerTo (waits : Waiting) : TimerOp → Answer
  | .schedule entry _ _ _ _ => .scheduled (if waits entry = none then .success else .invalidOp)
  | .cancel entry _ => .cancelled (if waits entry = none then 0 else 1)

def waitsAfter (waits : Waiting) : TimerOp → Waiting
  | .schedule entry delay now _ _ =>
      if waits entry = none then Function.update waits entry (some (now.add delay)) else waits
  | .cancel entry _ => Function.update waits entry none

def Earliest (waits : Waiting) (time : TimeVal) : Prop :=
  ∀ entry other, waits entry = some other → time.lte other

def Allows (waits : Waiting) : Event → Waiting → Prop
  | .answered op answer, waits' => answer = answerTo waits op ∧ waits' = waitsAfter waits op
  | .fired node now, waits' => ∃ time, waits node = some time ∧ time.lte now ∧
      Earliest waits time ∧ waits' = Function.update waits node none

section Waits
variable {timers timers' : Timers} {entry : Ref} {value : TimerEntry}

theorem waiting_running (running : pjTimerEntryRunning (timers.entry entry)) :
    waiting timers entry = some (timers.entry entry).timerValue := if_pos running

theorem waiting_idle (idle : ¬ pjTimerEntryRunning (timers.entry entry)) :
    waiting timers entry = none := if_neg idle

theorem waiting_eq_none : waiting timers entry = none ↔
    ¬ pjTimerEntryRunning (timers.entry entry) := by
  constructor
  · intro none running
    rw [waiting_running running] at none
    exact Option.some_ne_none _ none
  · exact waiting_idle

theorem waiting_setEntry (entries : timers'.entry = (timers.setEntry entry value).entry) :
    waiting timers' = Function.update (waiting timers) entry
      (if pjTimerEntryRunning value then some value.timerValue else none) := by
  funext other
  by_cases same : other = entry
  · rw [same, Function.update_self, waiting, entries, setEntry_self]
  · rw [Function.update_of_ne same, waiting, entries, setEntry_of_ne timers same]
    rfl

theorem waiting_drop (entries : timers'.entry = (timers.setEntry entry value).entry)
    (stopped : ¬ pjTimerEntryRunning value) :
    waiting timers' = Function.update (waiting timers) entry none := by
  rw [waiting_setEntry entries, if_neg stopped]

end Waits

section Steps
variable {timers : Timers}

/-- One call does to the heap what it does to the set. -/
theorem timerStep_refines (wf : WellFormed timers) (op : TimerOp) :
    ∃ timers', timerStep timers op = some (timers', answerTo (waiting timers) op) ∧
      WellFormed timers' ∧ waiting timers' = waitsAfter (waiting timers) op ∧
      (∀ held, Locked timers held → Locked timers' held) ∧
      timers'.ht.maxEntriesPerPoll = timers.ht.maxEntriesPerPoll := by
  cases op with
  | schedule entry delay now setId grpLock =>
      rw [answerTo, waitsAfter, timerStep]
      by_cases running : pjTimerEntryRunning (timers.entry entry)
      -- The entry is in the heap, and the call is refused.
      · have busy : waiting timers entry ≠ none := fun none => waiting_eq_none.mp none running
        rw [scheduleWGrpLock_running running, if_neg busy, if_neg busy]
        exact ⟨timers, rfl, wf, rfl, fun _ locked => locked, rfl⟩
      · obtain ⟨timers', value, scheduled, becomes, started, expires, carries⟩ :=
          scheduleWGrpLock_idle wf running delay now setId grpLock
        have free := waiting_idle running
        rw [scheduled, if_pos free, if_pos free]
        refine ⟨timers', rfl, becomes.wellFormed, ?_,
          fun _ locked => locked.schedule wf running becomes started carries, ?_⟩
        · rw [waiting_setEntry becomes.entries, if_pos started, expires]
        · rw [becomes.perPoll, countRef_ht]
  | cancel entry setId =>
      obtain ⟨timers', value, cancelled, becomes, stopped, cleared⟩ :=
        cancelTimer_spec entry wf setId
      rw [answerTo, waitsAfter, timerStep, cancelled, Option.map_some]
      refine ⟨timers', ?_, becomes.wellFormed, waiting_drop becomes.entries stopped,
        fun _ locked => locked.cancel wf becomes stopped cleared, ?_⟩
      · simp only [waiting_eq_none, ite_not]
      · rw [becomes.perPoll, countRef_ht]

theorem timerSteps_refines (wf : WellFormed timers) (ops : List TimerOp) :
    ∃ timers' events, timerSteps timers ops = some (timers', events) ∧ WellFormed timers' ∧
      Trace Allows (waiting timers) events (waiting timers') ∧
      (∀ held, Locked timers held → Locked timers' held) ∧
      timers'.ht.maxEntriesPerPoll = timers.ht.maxEntriesPerPoll := by
  induction ops generalizing timers with
  | nil => exact ⟨timers, [], rfl, wf, rfl, fun _ locked => locked, rfl⟩
  | cons op rest ih =>
      obtain ⟨timers₁, taken, wf₁, waits, locks₁, perPoll₁⟩ := timerStep_refines wf op
      obtain ⟨timers', events, ran, wf', trace, locks, perPoll⟩ := ih wf₁
      refine ⟨timers', .answered op (answerTo (waiting timers) op) :: events, ?_, wf',
        ⟨waiting timers₁, ⟨rfl, waits⟩, trace⟩, fun held locked => locks held (locks₁ held locked),
        perPoll.trans perPoll₁⟩
      rw [timerSteps, taken]
      exact congrArg (Option.bind · _) ran

end Steps

section Polling
variable {timers : Timers} {now : TimeVal}

theorem root_earliest (wf : WellFormed timers) (filled : timers.ht.curSize ≠ 0) :
    ∃ root, heapAt timers.ht 0 = some root ∧ pjTimerEntryRunning (timers.entry root) ∧
      Earliest (waiting timers) (timers.entry root).timerValue := by
  obtain ⟨node, free, wf⟩ := wf
  refine ⟨node 0, wf.holds.heapAt_live (mem_live_self.mpr (by omega)),
    (wf.running_iff (node 0)).mpr ⟨0, by omega, rfl⟩, ?_⟩
  intro entry time waits
  by_cases running : pjTimerEntryRunning (timers.entry entry)
  · rw [waiting_running running, Option.some.injEq] at waits
    exact waits ▸ wf.root_first running
  · rw [waiting_idle running] at waits
    exact absurd waits.symm (Option.some_ne_none time)

theorem empty_waits (wf : WellFormed timers) (empty : timers.ht.curSize = 0) (entry : Ref) :
    waiting timers entry = none := by
  obtain ⟨node, free, wf⟩ := wf
  refine waiting_idle fun running => ?_
  obtain ⟨slot, below, _⟩ := (wf.running_iff entry).mp running
  omega

def isFired : Event → Bool
  | .answered _ _ => false
  | .fired _ _ => true

theorem timerSteps_quiet {timers' : Timers} {ops : List TimerOp} {events : List Event}
    (ran : timerSteps timers ops = some (timers', events)) : events.countP isFired = 0 := by
  induction ops generalizing timers events with
  | nil =>
      cases ran
      rfl
  | cons op rest ih =>
      rw [timerSteps] at ran
      obtain ⟨⟨timers₁, answer⟩, _, ran⟩ := Option.bind_eq_some_iff.mp ran
      obtain ⟨⟨reached, later⟩, inner, ran⟩ := Option.bind_eq_some_iff.mp ran
      cases ran
      rw [List.countP_cons_of_neg Bool.false_ne_true]
      exact ih inner

/-- The rounds of a poll fire what the set allows to fire, as many as are counted, and
stop early only where nothing more is due. -/
theorem pollLoop_refines (now : TimeVal) (wf : WellFormed timers)
    (script : Nat → List TimerOp) (remaining count : Nat) :
    ∃ timers' events count', pollLoop now script remaining count timers =
      some (timers', events, count') ∧
      WellFormed timers' ∧ Trace Allows (waiting timers) events (waiting timers') ∧
      count' = count + events.countP isFired ∧ events.countP isFired ≤ remaining ∧
      (events.countP isFired < remaining → ∀ entry time, waiting timers' entry = some time →
        ¬ time.lte now) ∧
      (∀ held, Locked timers held → Locked timers' held) ∧
      timers'.ht.maxEntriesPerPoll = timers.ht.maxEntriesPerPoll := by
  induction remaining generalizing timers count with
  | zero =>
      exact ⟨timers, [], count, rfl, wf, rfl, rfl, le_refl _, fun less => absurd less (by simp),
      fun _ locked => locked, rfl⟩
  | succ remaining ih =>
      rw [pollLoop]
      by_cases empty : timers.ht.curSize = 0
      case pos =>
        refine ⟨timers, [], count, if_pos empty, wf, rfl, rfl,
          Nat.zero_le _, fun _ entry time waits => ?_,
          fun _ locked => locked, rfl⟩
        rw [empty_waits wf empty entry] at waits
        exact absurd waits.symm (Option.some_ne_none time)
      case neg =>
        obtain ⟨root, top, running, earliest⟩ := root_earliest wf empty
        rw [if_neg empty, top, Option.bind_eq_bind, Option.bind_some]
        by_cases due : (timers.entry root).timerValue.lte now
        case neg =>
          refine ⟨timers, [], count, if_neg due, wf, rfl, rfl, Nat.zero_le _,
            fun _ entry time waits late => ?_,
            fun _ locked => locked, rfl⟩
          -- The root expires first, and it is not due.
          have before := (TimeVal.lte_iff _ _).mp (earliest entry time waits)
          exact due ((TimeVal.lte_iff _ _).mpr (before.trans ((TimeVal.lte_iff _ _).mp late)))
        case pos =>
          obtain ⟨timers₁, value, removed, lock, becomes, stopped, cleared⟩ :=
            removeRoot_spec wf empty top
          obtain ⟨timers₂, events, ran, wf₂, calls, locks₂, perPoll₂⟩ :=
            timerSteps_refines becomes.wellFormed (script count)
          obtain ⟨timers', later, count', rounds, wf', trace, counted,
              bound, stop, locks, perPoll⟩ :=
            ih (wf₂.countRef (-1) (timers₁.entry root).grpLock) (count + 1)
          -- The lock that the callback releases is none of what the set is about.
          have fires : Allows (waiting timers) (.fired root now)
              (waiting (timers₁.setGrpLock root none)) :=
            ⟨_, waiting_running running, due, earliest, waiting_drop becomes.entries stopped⟩
          have same :
              waiting (timers₂.countRef (-1) (timers₁.entry root).grpLock) = waiting timers₂ := by
            funext entry
            rw [waiting, countRef_entry]
            rfl
          have total :
              (.fired root now :: events ++ later).countP isFired = later.countP isFired + 1 := by
            rw [List.cons_append, List.countP_cons_of_pos rfl,
              List.countP_append, timerSteps_quiet ran,
              Nat.zero_add]
          refine ⟨timers', .fired root now :: events ++ later, count', ?_, wf',
            ⟨_, fires, trace_append calls (same ▸ trace)⟩, by omega, by omega, ?_, ?_, ?_⟩
          · rw [if_pos due, removed]
            simp only [Option.bind_eq_bind, Option.bind_some, ran, rounds]
          · intro less
            exact stop (by omega)
          · intro held locked
            exact locks held (lock ▸ locks₂ _ (locked.remove wf becomes stopped cleared)).release
          · rw [perPoll, countRef_ht, perPoll₂, becomes.perPoll]

def delayUntil (time now : TimeVal) : TimeVal :=
  if (time.sub now).sec < 0 ∨ (time.sub now).msec < 0 then ⟨0, 0⟩ else time.sub now

theorem nextDelay_spec (wf : WellFormed timers) (now : TimeVal) :
    ∃ delay, nextDelay timers now = some delay ∧
      ((delay = ⟨maxInt32, maxInt32⟩ ∧ ∀ entry, waiting timers entry = none) ∨
        ∃ entry time, waiting timers entry = some time ∧ Earliest (waiting timers) time ∧
          delay = delayUntil time now) := by
  rw [nextDelay]
  by_cases empty : timers.ht.curSize = 0
  case pos => exact ⟨_, if_pos empty, Or.inl ⟨rfl, empty_waits wf empty⟩⟩
  case neg =>
    obtain ⟨root, top, running, earliest⟩ := root_earliest wf empty
    refine ⟨delayUntil (timers.entry root).timerValue now, ?_,
      Or.inr ⟨root, _, waiting_running running, earliest, rfl⟩⟩
    rw [if_neg empty, top]
    rfl

end Polling

section Runs

inductive HeapOp where
  | call (op : TimerOp)
  | poll (now : TimeVal) (script : Nat → List TimerOp)
  | setMaxTimedOutPerPoll (count : Nat)

def heapStep : StepFn Timers HeapOp Event
  | timers, .call op => (timerStep timers op).map fun result => (result.1, [.answered op result.2])
  | timers, .poll now script => (pjTimerHeapPoll timers now script).map fun result =>
      (result.1, result.2.1)
  | timers, .setMaxTimedOutPerPoll count => some (pjTimerHeapSetMaxTimedOutPerPoll timers count, [])

/-- A new heap, over entries that were initialised and locks it holds no reference to. -/
def created (size : Nat) (entry : Ref → TimerEntry) : Timers :=
  { ht := pjTimerHeapCreate size, entry, grpRefs := fun _ => 0 }

def Initialised (entry : Ref → TimerEntry) : Prop :=
  ∀ ref, entry ref = pjTimerEntryInit (entry ref).id (entry ref).timerValue

variable {size : Nat} {entry : Ref → TimerEntry}

theorem Initialised.idle (init : Initialised entry) (ref : Ref) :
    ¬ pjTimerEntryRunning (entry ref) := by
  rw [init ref]
  exact (by decide : ¬ (-1 : Int) ≥ 1)

theorem created_wellFormed (init : Initialised entry) : WellFormed (created size entry) := by
  have none : live 0 0 = (∅ : Set Nat) := by
    ext slot
    rw [mem_live_self]
    exact iff_of_false (Nat.not_lt_zero slot) (Set.notMem_empty slot)
  have cells (index : Nat) (inside : index < size + 2) :
      (pjTimerHeapCreate size).timerIds[index]? = some (-((index : Int) + 1)) := by
    rw [pjTimerHeapCreate, List.getElem?_map, List.getElem?_range' (by omega), Option.map_some,
      show 0 + 1 * index = index by omega]
  refine ⟨fun _ => 0, List.range' 1 (size + 1), ?_⟩
  constructor
  case holds =>
    constructor
    case heapLength => exact List.length_replicate
    case idsLength => rw [created, pjTimerHeapCreate, List.length_map, List.length_range']
    case cell => exact fun slot filled => absurd filled.1 (Nat.not_lt_zero slot)
    case ids => exact fun slot filled => absurd filled.1 (Nat.not_lt_zero slot)
    case head =>
      refine ⟨1, rfl, Nat.one_pos, ?_⟩
      have chain := freeChain_range 1 (size + 1) Nat.one_pos fun index _ above =>
        cells index (by omega)
      rwa [show 1 + (size + 1) = size + 2 by omega] at chain
    case noId => exact cells 0 (by omega)
  case ordered => exact fun slot _ below => absurd below (Nat.not_lt_zero slot)
  case room => exact Nat.le_add_left 2 size
  case count =>
    rw [List.length_range']
    exact rfl
  case nodup => exact List.nodup_range'
  case idle => exact fun ref _ => init.idle ref

theorem created_waits (init : Initialised entry) :
    waiting (created size entry) = fun _ => none := by
  funext ref
  exact waiting_idle (init.idle ref)

theorem heapStep_refines {timers : Timers} (wf : WellFormed timers) (op : HeapOp) :
    ∃ timers' events, heapStep timers op = some (timers', events) ∧ WellFormed timers' ∧
      Trace Allows (waiting timers) events (waiting timers') ∧
      ∀ held, Locked timers held → Locked timers' held := by
  cases op with
  | call op =>
      obtain ⟨timers', taken, wf', waits, locks, _⟩ := timerStep_refines wf op
      refine ⟨timers', [.answered op (answerTo (waiting timers) op)], ?_, wf',
        ⟨_, ⟨rfl, waits⟩, rfl⟩, locks⟩
      rw [heapStep, taken]
      rfl
  | poll now script =>
      obtain ⟨timers', events, count, ran, wf', trace, _, _, _, locks, _⟩ :=
        pollLoop_refines now wf script timers.ht.maxEntriesPerPoll 0
      obtain ⟨delay, next, _⟩ := nextDelay_spec wf' now
      refine ⟨timers', events, ?_, wf', trace, locks⟩
      rw [heapStep, pjTimerHeapPoll, ran]
      simp only [Option.bind_eq_bind, Option.bind_some, next, Option.map_some]
  | setMaxTimedOutPerPoll count =>
      obtain ⟨node, free, wf⟩ := wf
      refine ⟨_, [], rfl, ⟨node, free, ?_⟩, rfl, fun _ locked => { locked with }⟩
      exact { wf with holds := { wf.holds with } }

end Runs

end NatClient.TimerHeap
