import NatClient.TimerRuns

/-!
The worker thread of icewrapper.c: until it is told to quit it polls the timer heap and
then blocks in the ioqueue, and sleeps as long again when that fails. How long it blocks is
fixed by the next timer, the clock as the poll has read it, and a bound of 500 ms. Other
threads use the same heap between and during its rounds.
-/

namespace NatClient.TimerHeap

open HeapOrder Runs

namespace TimeVal

end TimeVal

section Waiting

theorem runCalls_append {first second : List HeapOp} {timers timers' timers'' : Timers}
    {events events' : List Event} (ran : runCalls heapStep timers first = some (timers', events))
    (ran' : runCalls heapStep timers' second = some (timers'', events')) :
    runCalls heapStep timers (first ++ second) = some (timers'', events ++ events') := by
  induction first generalizing timers events with
  | nil =>
      cases ran
      exact ran'
  | cons op rest ih =>
      rw [runCalls] at ran
      obtain ⟨⟨middle, calls⟩, taken, ran⟩ := Option.bind_eq_some_iff.mp ran
      obtain ⟨⟨reached, later⟩, inner, ran⟩ := Option.bind_eq_some_iff.mp ran
      cases ran
      rw [List.cons_append, runCalls, taken]
      refine (congrArg (Option.bind · _) (ih inner)).trans ?_
      rw [Option.bind_some, List.append_assoc]

theorem Reachable.step {timers timers' : Timers} {events : List Event} {ops : List HeapOp}
    (reachable : Reachable timers) (ran : runCalls heapStep timers ops = some (timers', events)) :
    Reachable timers' := by
  obtain ⟨size, entry, before, calls, init, reached⟩ := reachable
  exact ⟨size, entry, before ++ ops, calls ++ events, init, runCalls_append reached ran⟩

end Waiting

end NatClient.TimerHeap
