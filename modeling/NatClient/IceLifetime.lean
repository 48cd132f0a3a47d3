import NatClient.Controller
import NatClient.Ownership

/-!
Console operations on the four slots, interleaved with the callback that the
library makes for an instance. A failed callback destroys the instance that it
was made for and leaves the slot's pointer as it is.
-/

namespace NatClient.IceLifetime

open CString IceTypes XmlDecoder IceWrapper Runs Controller Ownership

inductive Slot where
  | receive
  | client (index : Fin maxIceTrans)
  deriving DecidableEq

def iceTransOf (natclient : NatClientT) : Slot → IceTrans
  | .receive => natclient.iceReceive
  | .client index => natclient.iceTransList.get index

def update (natclient : NatClientT) (slot : Slot) (effect : Effect) : NatClientT :=
  match slot with
  | .receive => { natclient with iceReceive := effect.icetrans, lib := effect.lib }
  | .client index => { natclient with
      iceTransList := natclient.iceTransList.set index effect.icetrans index.isLt
      lib := effect.lib }

inductive StransOp where
  | init
  | negotiation
  | keepAlive

def cbOnIceComplete (lib : PjNath) (icest : Handle) (_op : StransOp) (status : Int) :
    PjNath × List LibCall :=
  if status = 0 then (lib, []) else (lib.destroy icest, [lib.call icest .destroy])

inductive ClientOp where
  | onSlot (slot : Slot) (op : WrapperOp)
  | complete (icest : Handle) (op : StransOp) (status : Int)
  | quit (slot : Slot)

/-- After `err_exit` there is no process left. -/
structure ClientState where
  natclient : NatClientT
  exited : Bool

def clientStart : ClientState :=
  ⟨⟨.zero, Vector.replicate maxIceTrans .zero, .empty⟩, false⟩

def clientStep (compCnt : Nat) : StepFn ClientState ClientOp LibCall :=
  fun ⟨natclient, exited⟩ op =>
  if exited then none
  else match op with
  | .onSlot slot op =>
      (wrapperEffect compCnt (iceTransOf natclient slot) natclient.lib op).map fun effect =>
        (⟨update natclient slot effect, false⟩, effect.calls)
  -- The library calls back for an instance that it still has.
  | .complete icest op status =>
      if natclient.lib.live icest = none then none
      else
        let (lib, calls) := cbOnIceComplete natclient.lib icest op status
        some (⟨{ natclient with lib := lib }, false⟩, calls)
  | .quit slot => some (⟨natclient, true⟩, errExit (iceTransOf natclient slot) natclient.lib)

section Property

def Valid (natclient : NatClientT) (slot : Slot) : Prop :=
  ∀ icest, (iceTransOf natclient slot).icest = some icest → natclient.lib.live icest ≠ none

/-- No call was made for a destroyed instance, and no slot holds one afterwards. -/
def Safe (calls : List LibCall) (state : ClientState) : Prop :=
  (∀ call ∈ calls, call.inst ≠ none) ∧
    (state.exited = false → ∀ slot, Valid state.natclient slot)

def Succeeds : ClientOp → Prop
  | .complete _ _ status => status = 0
  | _ => True

end Property

/-! Which slot holds which instance. -/
section Ownership

def heldBy (natclient : NatClientT) (slot : Slot) : Option Handle :=
  (iceTransOf natclient slot).icest

def liveHandles (lib : PjNath) : Set Handle := {icest | lib.live icest ≠ none}

structure Owned (natclient : NatClientT) : Prop where
  owns : Owns (heldBy natclient) (liveHandles natclient.lib)
  beyond : ∀ icest, natclient.lib.next ≤ icest → natclient.lib.live icest = none

theorem Owned.valid {natclient : NatClientT} (owned : Owned natclient) (slot : Slot) :
    Valid natclient slot := fun icest occupied => owned.owns.valid slot icest occupied

variable {natclient : NatClientT} {slot : Slot} {effect : Effect}

@[simp] theorem iceTransOf_client (index : Fin maxIceTrans) :
    iceTransOf natclient (.client index) = getElem natclient.iceTransList index.val index.isLt :=
  rfl

@[simp] theorem update_lib : (update natclient slot effect).lib = effect.lib := by
  cases slot <;> rfl

@[simp] theorem update_same : iceTransOf (update natclient slot effect) slot = effect.icetrans := by
  cases slot with
  | receive => rfl
  | client index => simp [update]

theorem update_other {other : Slot} (different : other ≠ slot) :
    iceTransOf (update natclient slot effect) other = iceTransOf natclient other := by
  cases slot with
  | receive =>
      cases other with
      | receive => exact absurd rfl different
      | client index => rfl
  | client index =>
      cases other with
      | receive => rfl
      | client otherIndex =>
          have apart : index.val ≠ otherIndex.val := fun same => different (by rw [Fin.ext same])
          simp [update, Vector.getElem_set_ne _ _ apart]

theorem heldBy_update :
    heldBy (update natclient slot effect) = Function.update
        (heldBy natclient) slot effect.icetrans.icest := by
  funext other
  by_cases own : other = slot
  · rw [own, Function.update_self, heldBy, update_same]
  · rw [Function.update_of_ne own, heldBy, update_other own, heldBy]

theorem start_owned : Owned clientStart.natclient := by
  have free : heldBy clientStart.natclient = fun _ => none := by
    funext slot
    cases slot with
    | receive => rfl
    | client index => simp [heldBy, clientStart, IceTrans.zero]
  have none_live : liveHandles clientStart.natclient.lib = ∅ :=
    Set.eq_empty_iff_forall_notMem.mpr fun icest live => live rfl
  exact ⟨free ▸ none_live ▸ owns_empty, fun icest _ => rfl⟩

theorem owned_kept (owned : Owned natclient)
    (icest : effect.icetrans.icest = (iceTransOf natclient slot).icest)
    (live : ∀ handle, effect.lib.live handle = none ↔ natclient.lib.live handle = none)
    (next : effect.lib.next = natclient.lib.next) : Owned (update natclient slot effect) := by
  have sameHeld : heldBy (update natclient slot effect) = heldBy natclient := by
    rw [heldBy_update, icest]
    exact Function.update_eq_self slot (heldBy natclient)
  have sameLive : liveHandles (update natclient slot effect).lib = liveHandles natclient.lib := by
    ext handle
    rw [update_lib]
    exact not_congr (live handle)
  constructor
  · rw [sameHeld, sameLive]
    exact owned.owns
  · intro handle above
    rw [update_lib, next] at above
    rw [update_lib, live]
    exact owned.beyond handle above

theorem owned_create (owned : Owned natclient) (free : (iceTransOf natclient slot).icest = none)
    (icetrans : IceTrans) (taken : icetrans.icest = some natclient.lib.next) (compCnt : Nat)
    (calls : List LibCall) :
    Owned (update natclient slot ⟨icetrans, natclient.lib.create compCnt, calls⟩) := by
  have old (handle : Handle) (different : handle ≠ natclient.lib.next) :
      (natclient.lib.create compCnt).live handle = natclient.lib.live handle :=
    set_live_other _ different
  have inserted : liveHandles (natclient.lib.create compCnt) =
      insert natclient.lib.next (liveHandles natclient.lib) := by
    ext handle
    by_cases newest : handle = natclient.lib.next
    · simp [liveHandles, newest, PjNath.create]
    · simp [liveHandles, newest, old handle newest]
  have fresh : natclient.lib.next ∉ liveHandles natclient.lib := fun live =>
    live (owned.beyond _ (Nat.le_refl _))
  constructor
  · rw [heldBy_update, update_lib, inserted, taken]
    exact owns_take owned.owns free fresh
  · intro handle above
    rw [update_lib] at above ⊢
    have larger : natclient.lib.next < handle := above
    rw [old handle (Nat.ne_of_gt larger)]
    exact owned.beyond handle (Nat.le_of_lt larger)

theorem owned_destroy (owned : Owned natclient) {icest : Handle}
    (occupied : (iceTransOf natclient slot).icest = some icest) (icetrans : IceTrans)
    (cleared : icetrans.icest = none) (calls : List LibCall) :
    Owned (update natclient slot ⟨icetrans, natclient.lib.destroy icest, calls⟩) := by
  have removed :
      liveHandles (natclient.lib.destroy icest) = liveHandles natclient.lib \ {icest} := by
    ext handle
    by_cases same : handle = icest
    · simp [liveHandles, same, PjNath.destroy]
    · simp [liveHandles, same, PjNath.destroy]
  constructor
  · rw [heldBy_update, update_lib, removed, cleared]
    exact owns_drop owned.owns occupied
  · intro handle above
    rw [update_lib] at above ⊢
    change (natclient.lib.set icest none).live handle = none
    by_cases same : handle = icest
    · rw [same, set_live_same]
    · rw [set_live_other _ same]
      exact owned.beyond handle above

end Ownership

/-! One step. -/
section Step
variable {natclient : NatClientT} {slot : Slot}

theorem own_live {calls : List LibCall} (valid : Valid natclient slot)
    (own : Own (iceTransOf natclient slot) natclient.lib calls) :
    ∀ call ∈ calls, call.inst ≠ none := by
  intro call member
  obtain ⟨icest, fn, occupied, rfl⟩ := own call member
  exact valid icest occupied

/-- A wrapper function called on a slot uses no destroyed instance and keeps the
ownership. -/
theorem wrapperEffect_owned (owned : Owned natclient) {compCnt : Nat}
    {op : WrapperOp} {effect : Effect}
    (ran : wrapperEffect compCnt (iceTransOf natclient slot) natclient.lib op = some effect) :
    Owned (update natclient slot effect) ∧ ∀ call ∈ effect.calls, call.inst ≠ none := by
  rcases wrapperEffect_cases ran with
    within | ⟨free, rfl⟩ | ⟨icest, occupied, rfl⟩ | ⟨_, _, rem, _, _, rfl⟩
  · exact ⟨owned_kept owned within.icest within.live within.next,
      own_live (owned.valid slot) within.own⟩
  · exact ⟨owned_create owned free _ rfl compCnt _, by simp [PjNath.call, PjNath.create]⟩
  · refine ⟨owned_destroy owned occupied _ rfl _, ?_⟩
    intro call member
    rw [List.mem_singleton.mp member]
    exact owned.valid slot icest occupied
  · exact ⟨owned_kept owned rfl (fun _ => Iff.rfl) rfl, by simp⟩

/-- `owned` only speaks of a process that is still there. -/
def Running (state : ClientState) : Prop := state.exited = false → Owned state.natclient

theorem step_running {compCnt : Nat} {state state' : ClientState} {op : ClientOp}
    {calls : List LibCall} (running : Running state)
    (taken : clientStep compCnt state op = some (state', calls)) (succeeds : Succeeds op) :
    Running state' ∧ ∀ call ∈ calls, call.inst ≠ none := by
  obtain ⟨natclient, exited⟩ := state
  cases exited with
  | true => exact absurd taken (by simp [clientStep])
  | false =>
      have owned : Owned natclient := running rfl
      cases op with
      | onSlot slot op =>
          obtain ⟨effect, ran, same⟩ := Option.map_eq_some_iff.mp taken
          cases same
          obtain ⟨after, alive⟩ := wrapperEffect_owned owned ran
          exact ⟨fun _ => after, alive⟩
      | complete icest op status =>
          have success : status = 0 := succeeds
          simp only [clientStep, Bool.false_eq_true, ↓reduceIte, cbOnIceComplete, success] at taken
          split at taken
          · exact absurd taken (by simp)
          · cases taken
            exact ⟨fun _ => owned, by simp⟩
      | quit slot =>
          cases taken
          exact ⟨fun there => absurd there (by simp), own_live (owned.valid slot) (errExit_own _ _)⟩

/-- A failed callback leaves its handle in the slot that held the instance. -/
theorem failed_unsafe {compCnt : Nat} {state state' : ClientState} {icest : Handle} {op : StransOp}
    {status : Int} {calls : List LibCall} (running : Running state)
    (taken : clientStep compCnt state (.complete icest op status) = some (state', calls))
    (failed : status ≠ 0) : ¬ Safe calls state' := by
  obtain ⟨natclient, exited⟩ := state
  cases exited with
  | true => exact absurd taken (by simp [clientStep])
  | false =>
      have owned : Owned natclient := running rfl
      simp only [clientStep, Bool.false_eq_true, ↓reduceIte, cbOnIceComplete, failed] at taken
      split at taken
      · exact absurd taken (by simp)
      · next alive =>
          cases taken
          -- The instance was alive, so some slot holds it, and nothing clears that slot.
          obtain ⟨slot, occupied⟩ := owned.owns.held icest alive
          intro safe
          have stale : iceTransOf { natclient with lib := natclient.lib.destroy icest } slot =
              iceTransOf natclient slot := by cases slot <;> rfl
          exact safe.2 rfl slot icest (stale ▸ occupied) (by simp [PjNath.destroy])

theorem step_safe_iff {compCnt : Nat} {state state' : ClientState} {op : ClientOp}
    {calls : List LibCall} (running : Running state)
    (taken : clientStep compCnt state op = some (state', calls)) :
    Safe calls state' ↔ Succeeds op := by
  constructor
  · intro safe
    cases op with
    | onSlot slot op => trivial
    | complete icest op status =>
        by_contra failed
        exact failed_unsafe running taken failed safe
    | quit slot => trivial
  · intro succeeds
    obtain ⟨after, alive⟩ := step_running running taken succeeds
    exact ⟨alive, fun there => (after there).valid⟩

end Step

section Run

/-- No run uses a destroyed instance or leaves one in a slot exactly as long as
every callback reports success. -/
theorem no_stale_handle_iff (compCnt : Nat) (ops : List ClientOp) :
    Along (clientStep compCnt) (fun _ _ calls after => Safe calls after) clientStart ops ↔
      Along (clientStep compCnt) (fun _ op _ _ => Succeeds op) clientStart ops := by
  have start : Running clientStart := fun _ => start_owned
  refine along_congr ?_ ?_ start ops
  · intro state op calls state' running taken succeeds
    exact (step_running running taken succeeds).1
  · intro state op calls state' running taken
    exact step_safe_iff running taken

def lateFailure : List ClientOp :=
  [.onSlot .receive (.createInstance true), .onSlot .receive (.initSession 'o' true),
    .complete 0 .negotiation 120004, .onSlot .receive (.sendData 1 "hi".toList)]

theorem lateFailure_uses_stale :
    ¬ Along (clientStep 1) (fun _ _ calls after => Safe calls after) clientStart lateFailure := by
  intro along
  obtain ⟨_, along⟩ := along _ _ rfl
  obtain ⟨_, along⟩ := along _ _ rfl
  obtain ⟨_, along⟩ := along _ _ rfl
  obtain ⟨safe, _⟩ := along _ _ rfl
  exact safe.1 ⟨.hasSess, 0, none⟩ (.head _) rfl

end Run

end NatClient.IceLifetime
