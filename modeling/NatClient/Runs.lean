import Mathlib.Data.List.Basic

/-!
Runs of a deterministic system. A step takes one operation, reports the calls it
made, and may have no result; a run ends at the first step without one. A
property of the steps of a run is carried by an invariant that only has to
survive the steps which meet the property.
-/

namespace NatClient.Runs

section Steps
variable {State Op Call : Type}

abbrev StepFn (State Op Call : Type) : Type := State → Op → Option (State × List Call)

abbrev StepProp (State Op Call : Type) : Type := State → Op → List Call → State → Prop

variable (step : StepFn State Op Call)

/-- Every step that the run takes has the property. -/
def Along (property : StepProp State Op Call) : State → List Op → Prop
  | _, [] => True
  | state, op :: rest => ∀ state' calls, step state op = some (state', calls) →
      property state op calls state' ∧ Along property state' rest

def run : State → List Op → Option State
  | state, [] => some state
  | state, op :: rest => (step state op).bind fun result => run result.1 rest

variable {step}

theorem along_congr {property condition : StepProp State Op Call} {invariant : State → Prop}
    (kept : ∀ state op calls state', invariant state → step state op = some (state', calls) →
      condition state op calls state' → invariant state')
    (exact : ∀ state op calls state', invariant state → step state op = some (state', calls) →
      (property state op calls state' ↔ condition state op calls state'))
    {state : State} (holds : invariant state) (ops : List Op) :
    Along step property state ops ↔ Along step condition state ops := by
  induction ops generalizing state with
  | nil => exact Iff.rfl
  | cons op rest ih =>
      constructor
      · intro along state' calls taken
        obtain ⟨here, later⟩ := along state' calls taken
        have met := (exact state op calls state' holds taken).mp here
        exact ⟨met, (ih (kept state op calls state' holds taken met)).mp later⟩
      · intro along state' calls taken
        obtain ⟨met, later⟩ := along state' calls taken
        exact ⟨(exact state op calls state' holds taken).mpr met,
          (ih (kept state op calls state' holds taken met)).mpr later⟩

theorem along_of_invariant {property : StepProp State Op Call} {invariant : State → Prop}
    (kept : ∀ state op calls state', invariant state → step state op = some (state', calls) →
      property state op calls state' ∧ invariant state')
    {state : State} (holds : invariant state) (ops : List Op) : Along step property state ops := by
  induction ops generalizing state with
  | nil => trivial
  | cons op rest ih =>
      intro state' calls taken
      obtain ⟨here, later⟩ := kept state op calls state' holds taken
      exact ⟨here, ih later⟩

theorem run_total {invariant : State → Prop} {allowed : Op → Prop}
    (kept : ∀ state op, invariant state → allowed op →
      ∃ state' calls, step state op = some (state', calls) ∧ invariant state')
    {state : State} (holds : invariant state) {ops : List Op} (all : ∀ op ∈ ops, allowed op) :
    ∃ reached, run step state ops = some reached ∧ invariant reached := by
  induction ops generalizing state with
  | nil => exact ⟨state, rfl, holds⟩
  | cons op rest ih =>
      obtain ⟨first, later⟩ := List.forall_mem_cons.mp all
      obtain ⟨state', calls, taken, holds'⟩ := kept state op holds first
      obtain ⟨reached, ran, final⟩ := ih holds' later
      exact ⟨reached, by rw [run, taken, Option.bind_some, ran], final⟩

def runCalls (step : StepFn State Op Call) : State → List Op → Option (State × List Call)
  | state, [] => some (state, [])
  | state, op :: rest => do
      let (state', calls) ← step state op
      let (reached, later) ← runCalls step state' rest
      some (reached, calls ++ later)

end Steps

section Traces
variable {State Label : Type}

/-- A sequence of labels that a relation allows from one state to another. -/
def Trace (allows : State → Label → State → Prop) : State → List Label → State → Prop
  | state, [], reached => state = reached
  | state, label :: rest, reached =>
      ∃ next, allows state label next ∧ Trace allows next rest reached

variable {allows : State → Label → State → Prop}

theorem trace_append {state middle reached : State} {first second : List Label}
    (before : Trace allows state first middle) (after : Trace allows middle second reached) :
    Trace allows state (first ++ second) reached := by
  induction first generalizing state with
  | nil => exact (show state = middle from before) ▸ after
  | cons label rest ih =>
      obtain ⟨next, step, later⟩ := before
      exact ⟨next, step, ih later⟩

theorem trace_invariant {invariant : State → Prop}
    (kept : ∀ state label next, invariant state → allows state label next → invariant next)
    {state reached : State} {labels : List Label} (holds : invariant state)
    (trace : Trace allows state labels reached) : invariant reached := by
  induction labels generalizing state with
  | nil => exact (show state = reached from trace) ▸ holds
  | cons label rest ih =>
      obtain ⟨next, step, later⟩ := trace
      exact ih (kept state label next holds step) later

/-- Steps that keep an invariant, and whose calls are traces of the abstract states, make
runs that never get stuck and whose calls are such traces as well. -/
theorem runCalls_refines {Concrete Op : Type} {step : StepFn Concrete Op Label}
    {invariant : Concrete → Prop} {abstract : Concrete → State}
    (kept : ∀ state op, invariant state → ∃ state' calls, step state op = some (state', calls) ∧
      invariant state' ∧ Trace allows (abstract state) calls (abstract state'))
    {state : Concrete} (holds : invariant state) (ops : List Op) :
    ∃ reached calls, runCalls step state ops = some (reached, calls) ∧ invariant reached ∧
      Trace allows (abstract state) calls (abstract reached) := by
  induction ops generalizing state with
  | nil => exact ⟨state, [], rfl, holds, rfl⟩
  | cons op rest ih =>
      obtain ⟨state', calls, taken, holds', first⟩ := kept state op holds
      obtain ⟨reached, later, ran, final, second⟩ := ih holds'
      refine ⟨reached, calls ++ later, ?_, final, trace_append first second⟩
      rw [runCalls, taken]
      exact congrArg (Option.bind · _) ran

end Traces

end NatClient.Runs
