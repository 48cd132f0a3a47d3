import NatClient.IceRuns

/-!
A session that has started its checks is never left without anything to wait for: until
it completes, a timer is running or a transaction is pending. This rests on requests
that can be sent, on a controlled agent that waits for its nomination, and on one
transport, so that a valid pair is found on the check list again.
-/

namespace NatClient.IceSession

open CString IceTypes SwapSort Runs

section Waiting

def Check.Open (check : Check) : Prop := check.state = .frozen ∨ check.state = .waiting

theorem Check.Open.unsettled {check : Check} (isOpen : check.Open) :
    check.state.unsettled = true := by
  rcases isOpen with same | same <;> rw [same] <;> rfl

def Settled (ice : IceSess) : Prop := ∀ check ∈ ice.clist, check.state.unsettled = false

/-- A running session with open checks has its periodic timer; one with none left in
flight is complete or has its other timer. -/
structure Going (running : Prop) (ice : IceSess) : Prop where
  timed : running → ∀ check ∈ ice.clist, check.Open → ice.clistTimer = true
  settled : ice.clist ≠ [] → Settled ice → ice.isComplete = true ∨ ice.timer ≠ .none

variable {running : Prop} {ice : IceSess}

theorem Going.unsettled {check : Check}
    (timed : running → ∀ check ∈ ice.clist, check.Open → ice.clistTimer = true)
    (member : check ∈ ice.clist) (unsettled : check.state.unsettled = true) :
    Going running ice where
  timed := timed
  settled := fun _ all => by
    rw [all check member] at unsettled
    cases unsettled

theorem Going.same {other : IceSess} (going : Going running ice) (clist : other.clist = ice.clist)
    (clistTimer : other.clistTimer = ice.clistTimer)
    (isComplete : other.isComplete = ice.isComplete)
    (timer : other.timer = ice.timer) : Going running other where
  timed := by
    rw [clist, clistTimer]
    exact going.timed
  settled := by
    rw [Settled, clist, isComplete, timer]
    exact going.settled

theorem mem_modify {clist : List Check} {ckid : Nat} {change : Check → Check} {check : Check}
    (member : check ∈ clist.modify ckid change) :
    (∃ before, clist[ckid]? = some before ∧ check = change before) ∨
      ∃ q : Nat, q ≠ ckid ∧ clist[q]? = some check := by
  obtain ⟨p, here⟩ := List.getElem?_of_mem member
  rw [List.getElem?_modify] at here
  obtain ⟨before, there, rfl⟩ := Option.map_eq_some_iff.mp here
  by_cases same : ckid = p
  · subst same
    rw [if_pos rfl]
    exact Or.inl ⟨before, there, rfl⟩
  · rw [if_neg same]
    exact Or.inr ⟨p, Ne.symm same, there⟩

theorem modify_keeps {clist : List Check} (ckid : Nat) (change : Check → Check)
    (keeps : ∀ check, (change check).rcand = check.rcand) {check : Check} (member : check ∈ clist) :
    ∃ other ∈ clist.modify ckid change, other.rcand = check.rcand := by
  obtain ⟨p, here⟩ := List.getElem?_of_mem member
  have there :
      (clist.modify ckid change)[p]? = some (if ckid = p then change check else check) := by
    rw [List.getElem?_modify, here]
    rfl
  refine ⟨_, List.mem_of_getElem? there, ?_⟩
  split
  · exact keeps check
  · rfl

end Waiting

section Tracked

structure Tracked (ice : IceSess) : Prop where
  inv : Inv ice
  traced : ∀ v ∈ ice.validList, ∃ check ∈ ice.clist, check.rcand = v.rcand
  patient : 0 ≤ ice.controlledAgentWantNomTimeout

def OneTransport (transport : BitVec 8) (ice : IceSess) : Prop :=
  ∀ cand ∈ ice.lcand, cand.transportId = transport

variable {ice : IceSess}

theorem allows_lcand {move : Move} {after : IceSess} (arrays : Arrays ice)
    (allowed : Allows ice move after) :
    ice.lcand <+: after.lcand ∧
      after.controlledAgentWantNomTimeout = ice.controlledAgentWantNomTimeout := by
  have same : ice.lcand <+: ice.lcand := List.prefix_refl _
  cases allowed with
  | addLocal cand => exact ⟨List.prefix_append _ _, rfl⟩
  | pair rcand noCands noChecks =>
      obtain ⟨known, clist, compCnt, comp, shape, _⟩ := arrays.pair_shape rcand noCands noChecks
      rw [shape]
      exact ⟨same, rfl⟩
  | gain lcand check cand insideLocal remote origin gain =>
      obtain ⟨validList, comp, rfl⟩ := gained_shape gain
      exact ⟨same, rfl⟩
  | complete status =>
      unfold onIceComplete
      split <;> exact ⟨same, rfl⟩
  | quiet => exact ⟨same, rfl⟩
  | addRemote => exact ⟨same, rfl⟩
  | append => exact ⟨same, rfl⟩
  | recheck => exact ⟨same, rfl⟩
  | launch => exact ⟨same, rfl⟩
  | nominate => exact ⟨same, rfl⟩
  | arm => exact ⟨same, rfl⟩
  | disarm => exact ⟨same, rfl⟩
  | report => exact ⟨same, rfl⟩
  | indicate => exact ⟨same, rfl⟩

theorem allows_begun {move : Move} {after : IceSess} (begun : ice.clist ≠ [])
    (allowed : Allows ice move after) : after.clist ≠ [] := by
  cases allowed with
  | pair rcand noCands noChecks => exact (begun noChecks).elim
  | append check => exact List.append_ne_nil_of_left_ne_nil begun _
  | recheck clist pending calmer => exact begun_of_length begun calmer.length
  | launch ckid inside nominated controlling =>
      exact begun_of_length begun (List.length_modify _ _ _)
  | gain lcand check cand insideLocal remote origin gain =>
      obtain ⟨validList, comp, rfl⟩ := gained_shape gain
      exact begun
  | complete status =>
      unfold onIceComplete
      split <;> exact begun
  | quiet => exact begun
  | addLocal => exact begun
  | addRemote => exact begun
  | nominate => exact begun
  | arm => exact begun
  | disarm => exact begun
  | report => exact begun
  | indicate => exact begun

theorem traced_kept {move : Move} {after : IceSess} (tracked : Tracked ice)
    (allowed : Allows ice move after) :
    ∀ v ∈ after.validList, ∃ check ∈ after.clist, check.rcand = v.rcand := by
  have traced := tracked.traced
  have arrays := tracked.inv.arrays
  cases allowed with
  | pair rcand noCands noChecks =>
      obtain ⟨known, clist, compCnt, comp, shape, _⟩ := arrays.pair_shape rcand noCands noChecks
      rw [shape]
      intro v member
      obtain ⟨check, inside, _⟩ := traced v member
      rw [noChecks] at inside
      cases inside
  | append check =>
      intro v member
      obtain ⟨other, inside, same⟩ := traced v member
      exact ⟨other, List.mem_append_left _ inside, same⟩
  | recheck clist pending calmer =>
      intro v member
      obtain ⟨other, inside, same⟩ := traced v member
      obtain ⟨p, here⟩ := List.getElem?_of_mem inside
      have below : p < clist.length := by
        rw [calmer.length]
        exact (List.getElem?_eq_some_iff.mp here).1
      have there := List.getElem?_eq_getElem below
      exact ⟨_, List.mem_of_getElem? there, (calmer.each p other _ here there).rcand.trans same⟩
  | launch ckid inside nominated controlling =>
      intro v member
      obtain ⟨other, inside', same⟩ := traced v member
      obtain ⟨other', inside'', same'⟩ := modify_keeps ckid (fun check : Check => { check with
        tdata := some ice.performed, nominated := nominated check,
        state := .inProgress, errCode := .success })
        (fun _ => rfl) inside'
      exact ⟨other', inside'', same'.trans same⟩
  -- The new valid pair has the remote candidate of its check.
  | gain lcand check cand insideLocal remote origin gain =>
      obtain ⟨validList, comp, rfl, _, _, _, pairs, _⟩ :=
        arrays.gain_spec insideLocal gain
      intro v member
      rcases pairs v member with ⟨_, second⟩ | ⟨w, member', _, second⟩
      · obtain ⟨other, inside, same⟩ := origin
        exact ⟨other, inside, same.trans second.symm⟩
      · obtain ⟨other, inside, same⟩ := traced w member'
        exact ⟨other, inside, same.trans second⟩
  | nominate index valid here =>
      intro v member
      obtain ⟨w, member', _, second⟩ := mem_modify_nominated member
      obtain ⟨other, inside, same⟩ := traced w member'
      exact ⟨other, inside, same.trans second.symm⟩
  | complete status =>
      unfold onIceComplete
      split <;> exact traced
  | quiet => exact traced
  | addLocal => exact traced
  | addRemote => exact traced
  | arm => exact traced
  | disarm => exact traced
  | report => exact traced
  | indicate => exact traced

theorem Tracked.kept {move : Move} {after : IceSess} (tracked : Tracked ice)
    (allowed : Allows ice move after) :
    Tracked after where
  inv := tracked.inv.kept allowed
  traced := traced_kept tracked allowed
  patient := (allows_lcand tracked.inv.arrays allowed).2 ▸ tracked.patient

theorem Steps.tracked {used : List (Option PjSockaddr)} {after : IceSess}
    (steps : Steps ice used after) (tracked : Tracked ice) : Tracked after := by
  obtain ⟨moves, trace, _⟩ := steps
  exact trace_invariant (fun _ _ _ holds allowed => holds.kept allowed) tracked trace

theorem Steps.lcand_grows {used : List (Option PjSockaddr)} {after : IceSess}
    (steps : Steps ice used after) (inv : Inv ice) : ice.lcand <+: after.lcand := by
  obtain ⟨moves, trace, rfl⟩ := steps
  induction moves generalizing ice with
  | nil => exact (show ice = after from trace) ▸ List.prefix_refl _
  | cons move rest ih =>
      obtain ⟨next, allowed, later⟩ := trace
      exact (allows_lcand inv.arrays allowed).1.trans (ih (inv.kept allowed) later)

theorem Steps.begun {used : List (Option PjSockaddr)} {after : IceSess}
    (steps : Steps ice used after) (begun : ice.clist ≠ []) : after.clist ≠ [] := by
  obtain ⟨moves, trace, _⟩ := steps
  exact @trace_invariant IceSess Move Allows (fun ice => ice.clist ≠ [])
    (fun _ _ _ holds allowed => allows_begun holds allowed) _ _ _ begun trace

theorem Steps.oneTransport {used : List (Option PjSockaddr)}
    {after : IceSess} {transport : BitVec 8}
    (steps : Steps ice used after) (inv : Inv ice) (single : OneTransport transport after) :
    OneTransport transport ice :=
  fun cand member => single cand ((steps.lcand_grows inv).subset member)

end Tracked

section Nominating
variable {running : Prop} {ice : IceSess} {transport : BitVec 8}

theorem checkOfValid_found (tracked : Tracked ice)
    (single : OneTransport transport ice) {valid : Check}
    (member : valid ∈ ice.validList) :
    ∃ ckid, checkOfValid ice valid = some ckid ∧ ckid < ice.clist.length := by
  have arrays := tracked.inv.arrays
  have carried {check : Check} (inside : InArrays ice check) :
      transportOf ice check = some transport := by
    have here := List.getElem?_eq_getElem inside.lcand
    rw [transportOf, here, Option.map_some, single _ (List.mem_of_getElem? here)]
  obtain ⟨check, listed, same⟩ := tracked.traced valid member
  cases found : checkOfValid ice valid with
  | some ckid => exact ⟨ckid, rfl, (List.findIdx?_eq_some_iff_getElem.mp found).1⟩
  | none =>
      have other := List.findIdx?_eq_none_iff.mp found check listed
      rw [carried (arrays.inside check listed), carried (arrays.insideValid valid member), same]
        at other
      simp at other

def Waits (ice : IceSess) : Prop := ∃ check ∈ ice.clist, check.state = .waiting

theorem setWaiting_waits {ckid : Nat} (inside : ckid < ice.clist.length) :
    Waits (checkSetState ice ckid .waiting .success) := by
  have here : (checkSetState ice ckid .waiting .success).clist[ckid]? =
      some (ice.clist[ckid].setState .waiting .success) := by
    rw [checkSetState, updateCheck, List.getElem?_modify_eq, List.getElem?_eq_getElem inside]
    rfl
  exact ⟨_, List.mem_of_getElem? here, rfl⟩

theorem reopen_waits (valid : Check) (waits : Waits ice) : Waits (reopen ice valid) := by
  rw [reopen]
  split
  · exact waits
  case h_2 ckid found =>
    exact setWaiting_waits (List.findIdx?_eq_some_iff_getElem.mp found).1

theorem reopenChecks_waits {comps : List Comp} {after : IceSess} (waits : Waits ice)
    (reopened : reopenChecks comps ice = some after) : Waits after := by
  induction comps generalizing ice with
  | nil => exact Option.some.inj reopened ▸ waits
  | cons comp rest ih =>
      obtain ⟨index, _, later⟩ := Option.bind_eq_some_iff.mp reopened
      obtain ⟨valid, _, later'⟩ := Option.bind_eq_some_iff.mp later
      exact ih (reopen_waits valid waits) later'

theorem reopenChecks_first {comps : List Comp} {after : IceSess} (tracked : Tracked ice)
    (single : OneTransport transport ice) (some' : comps ≠ [])
    (reopened : reopenChecks comps ice = some after) :
    Waits after := by
  cases comps with
  | nil => exact (some' rfl).elim
  | cons comp rest =>
      obtain ⟨index, _, later⟩ := Option.bind_eq_some_iff.mp reopened
      obtain ⟨valid, here, later'⟩ := Option.bind_eq_some_iff.mp later
      obtain ⟨ckid, found, inside⟩ := checkOfValid_found tracked single (List.mem_of_getElem? here)
      refine reopenChecks_waits ?_ later'
      rw [reopen, found]
      exact setWaiting_waits inside

theorem startNominatedCheck_going {after : IceSess} (tracked : Tracked ice)
    (single : OneTransport transport ice)
    (used : 1 ≤ ice.compCnt) (started : startNominatedCheck ice = some after) :
    Going running after := by
  -- Some component is in use, so a check is reopened.
  have nonempty : ice.comp.take ice.compCnt ≠ [] := by
    refine List.ne_nil_of_length_pos ?_
    rw [List.length_take, tracked.inv.arrays.pointed.comps]
    exact Nat.lt_min.mpr ⟨used, by decide⟩
  have waits (before : IceSess) (tracked' : Tracked before) (same : before.lcand = ice.lcand)
      {middle : IceSess}
        (reopened : reopenChecks (ice.comp.take ice.compCnt) before = some middle) :
      Going running { middle with clistTimer := true, isNominating := true } := by
    have single' : OneTransport transport before := by
      rw [OneTransport, same]
      exact single
    obtain ⟨check, member, waiting⟩ := reopenChecks_first tracked' single' nonempty reopened
    exact Going.unsettled (fun _ _ _ _ => rfl) member (by rw [waiting]; rfl)
  rw [startNominatedCheck] at started
  by_cases armed : ice.timer = .startNominatedCheck
  · rw [if_pos armed] at started
    obtain ⟨middle, reopened, done⟩ := Option.bind_eq_some_iff.mp started
    obtain rfl := Option.some.inj done
    exact waits { ice with timer := .none }
      (tracked.kept (Allows.disarm (Or.inr armed))) rfl reopened
  · rw [if_neg armed] at started
    obtain ⟨middle, reopened, done⟩ := Option.bind_eq_some_iff.mp started
    obtain rfl := Option.some.inj done
    exact waits ice tracked rfl reopened

theorem complete_going (status : Status)
    (timed : running → ∀ check ∈ ice.clist, check.Open → ice.clistTimer = true) :
    Going running (onIceComplete ice status) := by
  rw [onIceComplete]
  split
  case isTrue complete => exact ⟨timed, fun _ _ => Or.inl complete⟩
  case isFalse => exact ⟨timed, fun _ _ => Or.inl rfl⟩

theorem onAllSettled_going {after : IceSess} {done : Bool} (tracked : Tracked ice)
    (single : OneTransport transport ice) (used : 1 ≤ ice.compCnt)
    (timed : running → ∀ check ∈ ice.clist, check.Open → ice.clistTimer = true)
    (settled : onAllSettled ice = some (after, done)) : Going running after := by
  rw [onAllSettled] at settled
  have failed : Going running (onIceComplete ice .eicefailed) := complete_going .eicefailed timed
  split at settled
  · split at settled
    · split at settled
      · obtain ⟨rfl, rfl⟩ := Prod.mk.inj (Option.some.inj settled)
        exact ⟨timed, fun _ _ => Or.inr fun armed => by cases armed⟩
      case isFalse armed =>
        obtain ⟨rfl, rfl⟩ := Prod.mk.inj (Option.some.inj settled)
        exact ⟨timed, fun _ _ => Or.inr fun free => armed ⟨free, tracked.patient⟩⟩
    · obtain ⟨rfl, rfl⟩ := Prod.mk.inj (Option.some.inj settled)
      exact failed
  · split at settled
    · obtain ⟨rfl, rfl⟩ := Prod.mk.inj (Option.some.inj settled)
      exact failed
    · split at settled
      · obtain ⟨middle, started, same⟩ := Option.map_eq_some_iff.mp settled
        obtain ⟨rfl, rfl⟩ := Prod.mk.inj same
        exact startNominatedCheck_going tracked single used started
      · obtain ⟨rfl, rfl⟩ := Prod.mk.inj (Option.some.inj settled)
        exact failed

theorem successful_open (check : Check) :
    let ice' := if check.errCode = .success then unfreeze ice check else ice
    let ice'' :=
      if check.errCode = .success ∧ check.nominated then settleComponent ice' check else ice'
    ice''.clistTimer = ice.clistTimer ∧
      ∀ after ∈ ice''.clist, after.Open → ∃ before ∈ ice.clist, before.Open := by
  intro ice' ice''
  have first : ice'.clistTimer = ice.clistTimer ∧
      ∀ after ∈ ice'.clist, after.Open → ∃ before ∈ ice.clist, before.Open := by
    by_cases success : check.errCode = .success
    · rw [show ice' = unfreeze ice check from if_pos success]
      refine ⟨rfl, fun after member isOpen => ?_⟩
      obtain ⟨before, listed, rfl⟩ := List.mem_map.mp member
      -- Settling cancels what had not been sent, and opens nothing.
      split at isOpen
      case isTrue frozen => exact ⟨before, listed, Or.inl frozen.2⟩
      case isFalse => exact ⟨before, listed, isOpen⟩
    · rw [show ice' = ice from if_neg success]
      exact ⟨rfl, fun after member isOpen => ⟨after, member, isOpen⟩⟩
  by_cases nominated : check.errCode = .success ∧ check.nominated
  · rw [show ice'' = settleComponent ice' check from if_pos nominated]
    refine ⟨first.1, fun after member isOpen => ?_⟩
    obtain ⟨before, listed, rfl⟩ := List.mem_map.mp member
    have opened : before.Open := by
      unfold settle at isOpen
      split at isOpen
      · split at isOpen
        case isTrue early => exact early
        case isFalse =>
          split at isOpen
          · rcases isOpen with same | same <;> cases same
          · exact isOpen
      · exact isOpen
    exact first.2 before listed opened
  · rw [show ice'' = ice' from if_neg nominated]
    exact first

theorem scheduleNomination_same (check : Check) :
    (scheduleNomination ice check).clist = ice.clist ∧
      (scheduleNomination ice check).clistTimer = ice.clistTimer := by
  rw [scheduleNomination]
  split <;> exact ⟨rfl, rfl⟩

/-- Whenever a check completes there is something to wait for. -/
theorem onCheckComplete_going {ckid : Nat} {after : IceSess} {done : Bool} (tracked : Tracked ice)
    (single : OneTransport transport after)
    (timed : running → ∀ check ∈ ice.clist, check.Open → ice.clistTimer = true)
    (complete : onCheckComplete ice ckid = some (after, done)) : Going running after := by
  obtain ⟨check, here, rest⟩ := Option.bind_eq_some_iff.mp complete
  have nonempty : ice.clist ≠ [] := List.ne_nil_of_mem (List.mem_of_getElem? here)
  obtain ⟨steps, length⟩ := successful_steps tracked.inv check
  obtain ⟨timer, opened⟩ := @successful_open ice check
  dsimp only at rest
  generalize (if check.errCode = .success ∧ check.nominated = true then
    settleComponent (if check.errCode = .success then unfreeze ice check else ice) check
    else if check.errCode = .success then unfreeze ice check else ice) = middle
      at rest steps length timer opened
  have tracked' := steps.tracked tracked
  have begun := begun_of_length nonempty length
  have timed' : running → ∀ check ∈ middle.clist, check.Open → middle.clistTimer = true := by
    intro runs after member isOpen
    obtain ⟨before, listed, isOpen'⟩ := opened after member isOpen
    rw [timer]
    exact timed runs before listed isOpen'
  split at rest
  · obtain ⟨rfl, rfl⟩ := Prod.mk.inj (Option.some.inj rest)
    exact complete_going .success timed'
  · split at rest
    -- Some check has no outcome yet, and it is open or in flight.
    case isTrue unsettled =>
      obtain ⟨rfl, rfl⟩ := Prod.mk.inj (Option.some.inj rest)
      obtain ⟨other, member, isUnsettled⟩ := List.any_eq_true.mp unsettled
      obtain ⟨clist, timer'⟩ := @scheduleNomination_same middle check
      refine Going.unsettled (fun runs c member isOpen => ?_) (clist ▸ member) isUnsettled
      rw [timer']
      exact timed' runs c (clist ▸ member) isOpen
    case isFalse =>
      obtain ⟨after', done', same, later⟩ := onAllSettled_steps tracked'.inv.arrays begun
      obtain ⟨rfl, rfl⟩ := Prod.mk.inj (Option.some.inj (rest.symm.trans same))
      exact onAllSettled_going tracked' (later.oneTransport tracked'.inv single)
        (tracked'.inv.arrays.used begun) timed' rest

end Nominating

section Going
variable {env : StunEnv} {running : Prop} {ice : IceSess} {transport : BitVec 8}

theorem performCheck_going (sent : ∀ number, env number = .sent) {ckid : Nat} {nominate : Bool}
    (inside : ckid < ice.clist.length)
    (others : running → ∀ (q : Nat) check, q ≠ ckid → ice.clist[q]? = some check → check.Open →
      ice.clistTimer = true) :
    Going running (performCheck env ice ckid nominate).1 ∧
        (performCheck env ice ckid nominate).2 = true := by
  rw [performCheck]
  dsimp only
  rw [sent]
  refine ⟨?_, rfl⟩
  have here := List.getElem?_eq_getElem inside
  have there := List.getElem?_modify_eq (fun check : Check => { check with
    tdata := some ice.performed
    nominated := check.nominated || (decide (ice.role = .controlling) && nominate)
    state := .inProgress, errCode := .success }) ckid ice.clist
  rw [here] at there
  refine Going.unsettled (fun runs check member isOpen => ?_) (List.mem_of_getElem? there) rfl
  rcases mem_modify member with ⟨before, _, rfl⟩ | ⟨q, other, found⟩
  · rcases isOpen with same | same <;> cases same
  · exact others runs q check other found isOpen

theorem Going.others (going : Going running ice) {ckid : Nat} :
    running → ∀ (q : Nat) check, q ≠ ckid → ice.clist[q]? = some check →
        check.Open → ice.clistTimer = true :=
  fun runs _ check _ here isOpen => going.timed runs check (List.mem_of_getElem? here) isOpen

theorem startPeriodicCheck_going (sent : ∀ number, env number = .sent)
    (live : ice.isDestroying = false)
    (going : Going running ice) : Going running (startPeriodicCheck env ice) := by
  rw [startPeriodicCheck, if_neg (by rw [live]; exact Bool.false_ne_true)]
  dsimp only
  split
  -- No check waits and none is frozen, so none is open.
  case h_1 nothing =>
    obtain ⟨noWaiting, noFrozen⟩ := Option.or_eq_none_iff.mp nothing
    refine ⟨fun _ check member isOpen => ?_, going.settled⟩
    rcases isOpen with frozen | waiting
    · have other := List.findIdx?_eq_none_iff.mp noFrozen check member
      rw [decide_eq_false_iff_not] at other
      exact (other frozen).elim
    · have other := List.findIdx?_eq_none_iff.mp noWaiting check member
      rw [decide_eq_false_iff_not] at other
      exact (other waiting).elim
  case h_2 ckid found =>
    have inside : ckid < ice.clist.length := by
      rcases Option.or_eq_some_iff.mp found with first | ⟨_, second⟩
      · obtain ⟨check, here, _⟩ := firstIn_spec first
        exact (List.getElem?_eq_some_iff.mp here).1
      · obtain ⟨check, here, _⟩ := firstIn_spec second
        exact (List.getElem?_eq_some_iff.mp here).1
    obtain ⟨performed, started⟩ :=
      @performCheck_going env False { ice with clistTimer := false } sent ckid
      ice.isNominating inside False.elim
    rw [if_pos started]
    exact ⟨fun _ _ _ _ => rfl, performed.settled⟩

theorem settleTx_timed {tx : Tx} {state : CheckState} {errCode : Status}
    (closed : state ≠ .frozen ∧ state ≠ .waiting)
    (timed : running → ∀ check ∈ ice.clist, check.Open → ice.clistTimer = true) :
    running → ∀ check ∈ (checkSetState (finishTx ice tx) tx.ckid state errCode).clist, check.Open →
      ice.clistTimer = true := by
  intro runs check member isOpen
  rcases mem_modify member with ⟨before, _, rfl⟩ | ⟨q, other, found⟩
  · exact isOpen.elim (fun same => (closed.1 same).elim) fun same => (closed.2 same).elim
  · rw [finishTx, updateCheck] at found
    dsimp only at found
    rw [List.getElem?_modify_ne _ _ (Ne.symm other)] at found
    exact timed runs check (List.mem_of_getElem? found) isOpen

theorem failCheck_going {tx : Tx} {status : Status} {after : IceSess} (tracked : Tracked ice)
    (member : tx ∈ ice.pending) (going : Going running ice) (single : OneTransport transport after)
    (failed : failCheck (finishTx ice tx) tx.ckid status = some after) : Going running after := by
  obtain ⟨⟨result, done⟩, complete, rfl⟩ := Option.map_eq_some_iff.mp failed
  have steps := settleTx_steps tracked.inv.flight member .failed status (by decide)
  have timed := @settleTx_timed running ice tx .failed status (by decide) going.timed
  exact onCheckComplete_going (steps.tracked tracked) single timed complete

theorem succeedCheck_going {ckid lcand : Nat} {check : Check} {cand : SessCand} {after : IceSess}
    (tracked : Tracked (checkSetState ice ckid .succeeded .success))
    (insideLocal : lcand < ice.lcand.length)
    (remote : ice.rcand[check.rcand]? = some cand) (here : ice.clist[ckid]? = some check)
    (timed : running → ∀ check ∈ (checkSetState ice ckid .succeeded .success).clist, check.Open →
      ice.clistTimer = true)
    (single : OneTransport transport after)
    (succeeded : succeedCheck ice ckid lcand check = some after) :
    Going running after := by
  rw [succeedCheck_eq] at succeeded
  obtain ⟨middle, gain, rest⟩ := Option.bind_eq_some_iff.mp succeeded
  obtain ⟨⟨result, done⟩, complete, rfl⟩ := Option.map_eq_some_iff.mp rest
  have gains := gained_steps insideLocal remote here gain
  refine onCheckComplete_going (gains.tracked tracked) single ?_ complete
  obtain ⟨validList, comp, rfl⟩ := gained_shape gain
  exact timed

theorem onStunRequestComplete_going (sent : ∀ number, env number = .sent)
    {tx : Tx} {response : Response}
    {foundation : CStr} {after : IceSess} (tracked : Tracked ice) (member : tx ∈ ice.pending)
    (going : Going running ice) (single : OneTransport transport after)
    (completed : onStunRequestComplete env ice tx response foundation = some after) :
    Going running after := by
  have live : (finishTx ice tx).isDestroying = false := tracked.inv.live
  rw [onStunRequestComplete] at completed
  dsimp only at completed
  rw [if_neg (by rw [live]; exact Bool.false_ne_true)] at completed
  obtain ⟨check, here, rest⟩ := Option.bind_eq_some_iff.mp completed
  have inside := (List.getElem?_eq_some_iff.mp here).1
  have failing {status : Status}
      (failed : failCheck (finishTx ice tx) tx.ckid status = some after) :=
    failCheck_going tracked member going single failed
  split at rest
  -- After a role conflict the check is sent again.
  · obtain rfl := Option.some.inj rest
    refine (performCheck_going sent ?_ ?_).1
    · rw [checkSetState, updateCheck, List.length_modify]
      exact inside
    · intro runs q c other found isOpen
      rw [checkSetState, updateCheck, finishTx, updateCheck] at found
      dsimp only at found
      rw [List.getElem?_modify_ne _ _ (Ne.symm other), List.getElem?_modify_ne _ _ (Ne.symm other)]
        at found
      exact going.timed runs c (List.mem_of_getElem? found) isOpen
  · split at rest
    · exact failing rest
    · split at rest
      · exact failing rest
      case isFalse answered =>
        obtain ⟨cand, remote⟩ : ∃ cand, ice.rcand[check.rcand]? = some cand := by
          cases remote : ice.rcand[check.rcand]? with
          | none =>
              exact (answered
                (by rw [show (finishTx ice tx).rcand = ice.rcand from rfl, remote]; rfl)).elim
          | some cand => exact ⟨cand, rfl⟩
        split at rest
        · exact failing rest
        · split at rest
          · exact failing rest
          case h_2 middle lcand found =>
            have settled := settleTx_steps tracked.inv.flight member .succeeded .success (by decide)
            have timed := @settleTx_timed running ice tx .succeeded .success (by decide) going.timed
            -- The mapped address is that of a local candidate, or makes a new one.
            rcases mappedCand_ok found
              with ⟨rfl, insideLocal⟩ | ⟨new, rfl, rfl, room, id, low, high⟩
            · exact succeedCheck_going
                (settled.tracked tracked) insideLocal remote here timed single rest
            · have within := addCand_within low high tracked.inv.arrays.compCnt
              have added :=
                @Allows.addLocal (checkSetState (finishTx ice tx) tx.ckid .succeeded .success)
                new room (id ▸ within.1) (id ▸ within.2)
              have insideLocal :
                  (finishTx ice tx).lcand.length < ((finishTx ice tx).lcand ++ [new]).length := by
                rw [List.length_append]
                exact Nat.lt_succ_self _
              exact @succeedCheck_going running
                { finishTx ice tx with lcand := (finishTx ice tx).lcand ++ [new] }
                  transport tx.ckid _ check cand
                after ((settled.tracked tracked).kept added)
                  insideLocal remote here timed single rest

theorem nominateValid_same (check : Check) (indices : List Nat) :
    (nominateValid check indices ice).clistTimer = ice.clistTimer := by
  induction indices generalizing ice with
  | nil => rfl
  | cons index rest ih =>
      rw [nominateValid]
      split
      · exact ih
      · split
        · exact ih
        · exact ih

theorem Going.noted (going : Going running ice) (ckid : Nat) (change : Check → Check)
    (keeps : ∀ check, (change check).state = check.state) :
    Going running (updateCheck ice ckid change) where
  timed := fun runs check member isOpen => by
    rcases mem_modify member with ⟨before, here, rfl⟩ | ⟨q, _, found⟩
    · rw [Check.Open, keeps] at isOpen
      exact going.timed runs before (List.mem_of_getElem? here) isOpen
    · exact going.timed runs check (List.mem_of_getElem? found) isOpen
  settled := fun begun all => by
    refine going.settled (fun none' => begun ?_) fun check member => ?_
    · refine List.length_eq_zero_iff.mp ?_
      rw [updateCheck, List.length_modify, none', List.length_nil]
    · obtain ⟨p, here⟩ := List.getElem?_of_mem member
      have there : (ice.clist.modify ckid change)[p]? = some
          (if ckid = p then change check else check) := by
        rw [List.getElem?_modify, here]
        rfl
      have settled := all _ (List.mem_of_getElem? there)
      split at settled
      · rwa [keeps] at settled
      · exact settled

theorem triggerCheck_going (sent : ∀ number, env number = .sent) {ckid : Nat} {useCandidate : Bool}
    {after : IceSess} (tracked : Tracked ice)
    (inside : ckid < ice.clist.length) (going : Going running ice)
    (single : OneTransport transport after)
    (triggered : triggerCheck env ice ckid useCandidate = some after) :
    Going running after := by
  have noted : Steps ice [] (updateCheck ice ckid fun check =>
      { check with nominated := useCandidate || check.nominated }) :=
    recheck_steps (Rechecked.modify fun check _ => ⟨rfl, rfl, fun flying => ⟨flying, rfl⟩⟩)
  have inside' : ckid < (updateCheck ice ckid fun check =>
      { check with nominated := useCandidate || check.nominated }).clist.length := by
    rw [updateCheck, List.length_modify]
    exact inside
  have going' :=
    going.noted ckid (fun check => { check with nominated := useCandidate || check.nominated })
    fun _ => rfl
  have tracked' := noted.tracked tracked
  rw [triggerCheck] at triggered
  dsimp only at triggered
  generalize updateCheck ice ckid
    (fun check => { check with nominated := useCandidate || check.nominated }) =
    middle at triggered inside' going' tracked'
  obtain ⟨check, here, rest⟩ := Option.bind_eq_some_iff.mp triggered
  split at rest
  · exact Option.some.inj rest ▸ (performCheck_going sent inside' going'.others).1
  · exact Option.some.inj rest ▸ (performCheck_going sent inside' going'.others).1
  · obtain ⟨number, _, done⟩ := Option.bind_eq_some_iff.mp rest
    exact Option.some.inj done ▸ going'.same rfl rfl rfl rfl
  · obtain ⟨⟨result, done⟩, complete, rfl⟩ := Option.map_eq_some_iff.mp rest
    split at complete
    · obtain ⟨nominated, clist⟩ :=
        @nominateValid_steps middle check (List.range middle.validList.length)
      refine onCheckComplete_going (nominated.tracked tracked') single ?_ complete
      rw [clist, nominateValid_same]
      exact going'.timed
    · exact onCheckComplete_going tracked' single going'.timed complete
  · exact Option.some.inj rest ▸ going'

theorem appendCheck_going (sent : ∀ number, env number = .sent)
    {lcand rcand : Nat} {useCandidate : Bool}
    (going : Going running ice) : Going running (appendCheck env ice lcand rcand useCandidate) := by
  rw [appendCheck]
  split
  · refine (performCheck_going sent ?_ fun runs q check other here isOpen => ?_).1
    · rw [List.length_append]
      exact Nat.lt_succ_self _
    · dsimp only at here
      rw [List.getElem?_append] at here
      split at here
      · exact going.timed runs check (List.mem_of_getElem? here) isOpen
      case isFalse beyond =>
        obtain ⟨last, _⟩ := List.getElem?_eq_some_iff.mp here
        rw [List.length_singleton] at last
        exact (other (by omega)).elim
  · exact going

theorem handleIncomingCheck_going (sent : ∀ number, env number = .sent)
    {rcheck : RxCheck} {foundation : CStr}
    {after : IceSess} (tracked : Tracked ice) (going : Going running ice)
    (single : OneTransport transport after)
    (handled : handleIncomingCheck env ice rcheck foundation = some after) :
    Going running after := by
  rw [handleIncomingCheck] at handled
  split at handled
  · exact Option.some.inj handled ▸ going
  case h_2 middle rcand found =>
    obtain ⟨added, _⟩ := sourceCand_steps found
    have going' : Going running middle := by
      unfold sourceCand at found
      split at found
      · obtain ⟨rfl, rfl⟩ := Prod.mk.inj (Option.some.inj found)
        exact going
      · split at found
        · cases found
        · obtain ⟨rfl, rfl⟩ := Prod.mk.inj (Option.some.inj found)
          exact going.same rfl rfl rfl rfl
    dsimp only at handled
    split at handled
    · exact Option.some.inj handled ▸ going'
    · split at handled
      case h_1 ckid same =>
        exact triggerCheck_going sent (added.tracked tracked)
          (List.findIdx?_eq_some_iff_getElem.mp same).1 going'
          single handled
      case h_2 => exact Option.some.inj handled ▸ appendCheck_going sent going'

theorem onStunRxRequest_going (sent : ∀ number, env number = .sent)
    {request : Request} {foundation : CStr}
    {after : IceSess} (tracked : Tracked ice) (going : Going running ice)
    (single : OneTransport transport after)
    (handled : onStunRxRequest env ice request foundation = some after) : Going running after := by
  rw [onStunRxRequest, if_neg (by rw [tracked.inv.live]; exact Bool.false_ne_true)] at handled
  split at handled
  · exact Option.some.inj handled ▸ going
  · split at handled
    · exact Option.some.inj handled ▸ going.same rfl rfl rfl rfl
    case h_2 role _ =>
      have turned :=
        (quiet_steps ice role ice.prefs ice.earlyCheck ice.clistTimer ice.isNominating).then
        (@acts_steps { ice with role := role } [.respond false] rfl)
      have going' : Going running (act { ice with role := role } (.respond false)) :=
        going.same rfl rfl rfl rfl
      dsimp only at handled
      split at handled
      · exact Option.some.inj handled ▸ going'.same rfl rfl rfl rfl
      · exact handleIncomingCheck_going sent (turned.tracked tracked) going' single handled

theorem handleEarly_going (sent : ∀ number, env number = .sent)
    {foundation : Nat → CStr} {rchecks : List RxCheck}
    {after : IceSess} (tracked : Tracked ice) (going : Going running ice)
    (single : OneTransport transport after)
    (handled : handleEarly env foundation rchecks ice = some after) : Going running after := by
  induction rchecks generalizing ice with
  | nil => exact Option.some.inj handled ▸ going
  | cons rcheck rest ih =>
      obtain ⟨middle, first, later⟩ := Option.bind_eq_some_iff.mp handled
      obtain ⟨same, done, steps⟩ :=
        handleIncomingCheck_steps env tracked.inv rcheck (foundation rest.length)
      obtain rfl := Option.some.inj (first.symm.trans done)
      have tracked' := steps.tracked tracked
      obtain ⟨final, done', steps'⟩ := handleEarly_steps env foundation rest tracked'.inv
      obtain rfl := Option.some.inj (later.symm.trans done')
      exact ih tracked' (handleIncomingCheck_going sent tracked going
        (steps'.oneTransport tracked'.inv single) first) later

theorem wakeFoundations_cases (ckids : List Nat) (seen : List (Option CStr)) {done : IceSess}
    (length : done.clist.length = ice.clist.length) :
    wakeFoundations ice ckids seen done = done ∨ Waits (wakeFoundations ice ckids seen done) := by
  induction ckids generalizing seen done with
  | nil => exact Or.inl rfl
  | cons ckid rest ih =>
      rw [wakeFoundations]
      split
      · exact ih seen length
      case h_2 check here =>
        split
        · split
          · have inside : ckid < done.clist.length := by
              rw [length]
              exact (List.getElem?_eq_some_iff.mp here).1
            have set := setWaiting_waits inside
            rcases @ih (foundationOf ice check :: seen) (checkSetState done ckid .waiting .success)
              ((List.length_modify _ _ _).trans length) with same | waits
            · exact Or.inr (same.symm ▸ set)
            · exact Or.inr waits
          · exact ih _ length
        · exact ih seen length

theorem wakeFoundations_going (going : Going running ice) (ckids : List Nat) :
    Going False (wakeFoundations ice ckids [] ice) := by
  rcases @wakeFoundations_cases ice ckids [] ice rfl with same | ⟨check, member, waiting⟩
  · rw [same]
    exact ⟨False.elim, going.settled⟩
  · exact Going.unsettled False.elim member (by rw [waiting]; rfl)

/-- A start that succeeds has set the periodic timer. -/
theorem pjIceSessStartCheck_going (sent : ∀ number, env number = .sent)
    {foundation : Nat → CStr} {status : Status}
    {after : IceSess} (tracked : Tracked ice) (going : Going running ice)
    (single : OneTransport transport after)
    (started : pjIceSessStartCheck env ice foundation = some (after, status)) :
    Going (running ∨ status = .success) after ∧ (status = .success → after.clist ≠ []) := by
  -- A start that fails leaves what there was to wait for.
  have refused {other : IceSess} {code : Status}
    (kept : Going running other) (bad : code ≠ .success) :
      Going (running ∨ code = .success) other ∧ (code = .success → other.clist ≠ []) :=
    ⟨⟨fun runs => kept.timed (runs.resolve_right bad), kept.settled⟩, fun good => (bad good).elim⟩
  rw [pjIceSessStartCheck] at started
  split at started
  · obtain ⟨rfl, rfl⟩ := Prod.mk.inj (Option.some.inj started)
    exact refused going (by decide)
  case isFalse nonempty =>
    dsimp only at started
    have first :
      Tracked (if ice.aggressive = true then { ice with isNominating := true } else ice) ∧
        Going running (if ice.aggressive = true then { ice with isNominating := true } else ice) ∧
        (if ice.aggressive = true then { ice with isNominating := true } else ice).clist ≠ [] := by
      split
      · exact ⟨(quiet_steps ice _ _ _ _ true).tracked tracked, going.same rfl rfl rfl rfl, nonempty⟩
      · exact ⟨tracked, going, nonempty⟩
    generalize (if ice.aggressive = true then { ice with isNominating := true } else ice) = begun
      at first started
    obtain ⟨tracked', going', nonempty'⟩ := first
    split at started
    · obtain ⟨middle, handled, rest⟩ := Option.bind_eq_some_iff.mp started
      have woken := @wakeFoundations_steps begun (List.range begun.clist.length) [] begun
      have tracked'' := woken.tracked tracked'
      have waking := wakeFoundations_going going' (List.range begun.clist.length)
      obtain ⟨same, done, steps⟩ := handleEarly_steps env foundation _ tracked''.inv
      obtain rfl := Option.some.inj (handled.symm.trans done)
      have filled := (woken.trans steps).begun nonempty'
      split at rest
      case isTrue timed =>
        obtain ⟨rfl, rfl⟩ := Prod.mk.inj (Option.some.inj rest)
        have single' : OneTransport transport middle := single
        have early := handleEarly_going sent tracked'' waking single' handled
        exact ⟨⟨fun _ _ _ _ => timed, early.settled⟩, fun good => by cases good⟩
      case isFalse =>
        obtain ⟨rfl, rfl⟩ := Prod.mk.inj (Option.some.inj rest)
        have single' : OneTransport transport middle := single
        have early := handleEarly_going sent tracked'' waking single' handled
        exact ⟨⟨fun _ _ _ _ => rfl, early.settled⟩, fun _ => filled⟩
    · obtain ⟨rfl, rfl⟩ := Prod.mk.inj (Option.some.inj started)
      exact refused going' (by decide)

theorem onTimer_going {after : IceSess} (tracked : Tracked ice) (armed : ice.timer ≠ .none)
    (going : Going running ice) (single : OneTransport transport after)
    (expired : onTimer ice = some after) :
    Going running after := by
  have live := tracked.inv.live
  have outcome := tracked.inv.outcome
  -- These two timers are set after completion only.
  have complete (late : ice.timer = .completionCallback ∨ ice.timer = .keepAlive) :
      ice.isComplete = true := by
    cases running' : ice.isComplete with
    | true => rfl
    | false =>
        obtain ⟨_, noCallback, noKeepAlive⟩ := outcome.running running'
        exact (late.elim noCallback noKeepAlive).elim
  have used := tracked.inv.begun armed
  have used' : ¬ ice.compCnt = 0 := by omega
  obtain ⟨same, done, steps⟩ := onTimer_steps tracked.inv armed
  obtain rfl := Option.some.inj (expired.symm.trans done)
  have single' := steps.oneTransport tracked.inv single
  rw [onTimer] at expired
  dsimp only at expired
  rw [if_neg (by rw [live]; exact Bool.false_ne_true)] at expired
  cases type : ice.timer with
  | none => exact (armed type).elim
  | controlledWaitNom =>
      rw [type] at expired
      obtain rfl := Option.some.inj expired
      exact @complete_going running { ice with timer := .none } .eicenomtimeout going.timed
  | completionCallback =>
      rw [type] at expired
      dsimp only at expired
      have finished := complete (Or.inl type)
      split at expired
      · rw [iceKeepAlive, if_neg used', if_neg Bool.false_ne_true] at expired
        obtain rfl := Option.some.inj expired
        exact ⟨going.timed, fun _ _ => Or.inl finished⟩
      · obtain rfl := Option.some.inj expired
        exact ⟨going.timed, fun _ _ => Or.inl finished⟩
  | startNominatedCheck =>
      rw [type] at expired
      exact startNominatedCheck_going
        (tracked.kept (Allows.disarm (Or.inr type))) single' used expired
  | keepAlive =>
      rw [type] at expired
      have finished := complete (Or.inr type)
      dsimp only at expired
      rw [iceKeepAlive, if_neg used', if_pos rfl] at expired
      obtain ⟨middle, indicated, rest⟩ := Option.bind_eq_some_iff.mp expired
      obtain ⟨comp, _, indicated⟩ := Option.bind_eq_some_iff.mp indicated
      obtain ⟨check, _, indicated⟩ := Option.bind_eq_some_iff.mp indicated
      obtain rfl := Option.some.inj indicated
      obtain rfl := Option.some.inj rest
      exact ⟨going.timed, fun _ _ => Or.inl finished⟩

theorem Going.weaken {less : Prop} (going : Going running ice) (fewer : less → running) :
    Going less ice :=
  ⟨fun runs => going.timed (fewer runs), going.settled⟩

theorem createCheckList_going (tracked : Tracked ice)
    (rcand : List IceSessCand) (noCands : ice.rcand = [])
    (noChecks : ice.clist = []) (begun : running → ice.clist ≠ []) :
    Going running (pjIceSessCreateCheckList ice rcand).1 := by
  have arrays := tracked.inv.arrays
  obtain ⟨known, clist, compCnt, comp, shape, paired⟩ := arrays.pair_shape rcand noCands noChecks
  rw [shape]
  refine ⟨fun runs => (begun runs noChecks).elim, fun some' settled => ?_⟩
  obtain ⟨check, member⟩ := List.exists_mem_of_ne_nil clist some'
  have unsettled := settled check member
  rw [(paired.new check member).frozen] at unsettled
  cases unsettled

theorem handleEvent_going (sent : ∀ number, env number = .sent) (event : IceEvent) {after : IceSess}
    (tracked : Tracked ice) (going : Going running ice) (begun : running → ice.clist ≠ [])
    (single : OneTransport transport after) (live : after.isDestroying = false)
    (fresh : event.again ice = false) (handled : handleEvent env ice event = some after) :
    Going running after := by
  cases event with
  | addCand compId transportId type localPref foundation addr baseAddr =>
      rw [handleEvent] at handled
      split at handled
      case h_1 result added =>
        obtain rfl := Option.some.inj handled
        unfold pjIceSessAddCand at added
        split at added
        · cases added
        · split at added
          · cases added
          · obtain rfl := Except.ok.inj added
            exact going.same rfl rfl rfl rfl
      case h_2 => exact Option.some.inj handled ▸ going
  | createCheckList rcand =>
      obtain ⟨noCands, noChecks⟩ := first_description tracked.inv.live rfl fresh
      exact Option.some.inj handled ▸ createCheckList_going tracked rcand noCands noChecks begun
  | startCheck foundation =>
      obtain ⟨⟨result, status⟩, started, rfl⟩ := Option.map_eq_some_iff.mp handled
      exact (pjIceSessStartCheck_going sent tracked going single started).1.weaken Or.inl
  | checkTimer =>
      rw [handleEvent] at handled
      split at handled
      · exact Option.some.inj handled ▸ startPeriodicCheck_going sent tracked.inv.live going
      · exact Option.some.inj handled ▸ going
  | timer =>
      rw [handleEvent] at handled
      split at handled
      · exact Option.some.inj handled ▸ going
      case isFalse armed => exact onTimer_going tracked armed going single handled
  | response number answer foundation =>
      rw [handleEvent] at handled
      split at handled
      · exact Option.some.inj handled ▸ going
      case h_2 tx found =>
        exact onStunRequestComplete_going sent tracked
          (List.mem_of_find?_eq_some found) going single handled
  | request asked foundation => exact onStunRxRequest_going sent tracked going single handled
  | changeRole role => exact Option.some.inj handled ▸ going.same rfl rfl rfl rfl
  | setPrefs prefs => exact Option.some.inj handled ▸ going.same rfl rfl rfl rfl
  | destroy =>
      obtain rfl := Option.some.inj handled
      rw [destroyIce_eq tracked.inv] at live
      cases live

theorem reached_oneTransport (inv : Inv ice) {events : List IceEvent} {reached : IceSess}
    (ran : iceRun env ice events = some reached) (single : OneTransport transport reached) :
    OneTransport transport ice := by
  obtain ⟨before, used, steps, _, rfl | rfl⟩ := reached_spec env inv ran
  · exact steps.oneTransport inv single
  · rw [destroyIce_eq (steps.inv inv)] at single
    exact steps.oneTransport inv single

theorem iceRun_going (sent : ∀ number, env number = .sent)
    {events : List IceEvent} {reached : IceSess}
    (tracked : Tracked ice) (going : Going running ice) (begun : running → ice.clist ≠ [])
    (single : OneTransport transport reached) (live : reached.isDestroying = false)
    (ran : iceRun env ice events = some reached) : Going running reached := by
  induction events generalizing ice with
  | nil => exact Option.some.inj ran ▸ going
  | cons event rest ih =>
      by_cases again : event.again ice = true
      · rw [iceRun, if_pos again] at ran
        cases ran
      have fresh := Bool.eq_false_iff.mpr again
      rw [iceRun_cons env rest tracked.inv.live again] at ran
      obtain ⟨middle, handled, later⟩ := Option.bind_eq_some_iff.mp ran
      -- The moves of the event, no result, or the end of the session.
      rcases handleEvent_handles env tracked.inv event fresh with
        (⟨middle', used, same, steps, _⟩ | ⟨failed, _⟩) | rfl
      · obtain rfl := Option.some.inj (handled.symm.trans same)
        have tracked' := steps.tracked tracked
        have single' := reached_oneTransport tracked'.inv later single
        have going' :=
          handleEvent_going sent event tracked going begun single' tracked'.inv.live fresh handled
        exact ih tracked' going' (fun runs => steps.begun (begun runs)) later
      · rw [failed] at handled
        cases handled
      · obtain rfl := Option.some.inj handled
        have gone : (destroyIce ice).isDestroying = true := by
          rw [destroyIce_eq tracked.inv]
        rw [iceRun_destroyed env gone rest] at later
        rw [← Option.some.inj later, gone] at live
        cases live

theorem Going.waits (going : Going True ice) (flight : Flight ice) (begun : ice.clist ≠ [])
    (running' : ice.isComplete = false) :
    ice.clistTimer = true ∨ ice.timer ≠ .none ∨ ice.pending ≠ [] := by
  by_cases settled : Settled ice
  · rcases going.settled begun settled with complete | armed
    · rw [complete] at running'
      cases running'
    · exact Or.inr (Or.inl armed)
  · rw [Settled] at settled
    obtain ⟨check, member, unsettled⟩ : ∃ check ∈ ice.clist, check.state.unsettled ≠ false := by
      simpa only [not_forall, exists_prop] using settled
    cases state : check.state with
    | frozen => exact Or.inl (going.timed trivial check member (Or.inl state))
    | waiting => exact Or.inl (going.timed trivial check member (Or.inr state))
    | inProgress =>
        obtain ⟨p, here⟩ := List.getElem?_of_mem member
        obtain ⟨tx, pending, _⟩ := flight.inFlight p check here state
        exact Or.inr (Or.inr (List.ne_nil_of_mem pending))
    | succeeded =>
        rw [state] at unsettled
        exact (unsettled rfl).elim
    | failed =>
        rw [state] at unsettled
        exact (unsettled rfl).elim

theorem created_tracked (role : Role) {compCnt : Nat} (tieBreaker : BitVec 64)
    (aggressive : Bool) {timeout : Int} (few : compCnt ≤ pjIceMaxComp) (patient : 0 ≤ timeout) :
    Tracked (newSession role compCnt tieBreaker aggressive timeout) :=
  ⟨created_inv role tieBreaker aggressive timeout few, fun _ member =>
    absurd member List.not_mem_nil, patient⟩

/-- After a successful start a session never waits for nothing: as long as it is neither
complete nor destroyed, the timer of its check list runs, its other timer runs, or a
transaction of its own is pending. -/
theorem started_sessions_wait (env : StunEnv) (sent : ∀ number, env number = .sent)
    (role : Role) {compCnt : Nat}
    (tieBreaker : BitVec 64) (aggressive : Bool) {timeout : Int} (few : compCnt ≤ pjIceMaxComp)
    (patient : 0 ≤ timeout) {first later : List IceEvent} {ready started reached : IceSess}
    {foundation : Nat → CStr} {transport : BitVec 8}
    (prepared :
      iceRun env (newSession role compCnt tieBreaker aggressive timeout) first = some ready)
    (start : pjIceSessStartCheck env ready foundation = some (started, .success))
    (ran : iceRun env ready (.startCheck foundation :: later) = some reached)
    (single : OneTransport transport reached) (live : reached.isDestroying = false)
    (running : reached.isComplete = false) :
    reached.clistTimer = true ∨ reached.timer ≠ .none ∨ reached.pending ≠ [] := by
  have created := created_tracked role tieBreaker aggressive few patient
  have fresh : Going False (newSession role compCnt tieBreaker aggressive timeout) :=
    ⟨False.elim, fun some' => (some' rfl).elim⟩
  obtain ⟨before, used, steps, _, rfl | rfl⟩ := reached_spec env created.inv prepared
  · have tracked := steps.tracked created
    obtain ⟨_, _, same, steps'⟩ := pjIceSessStartCheck_steps env tracked.inv foundation
    obtain ⟨rfl, _⟩ := Prod.mk.inj (Option.some.inj (start.symm.trans same))
    have tracked' := steps'.tracked tracked
    have first' : ¬ (IceEvent.startCheck foundation).again ready = true := Bool.false_ne_true
    rw [iceRun_cons env later tracked.inv.live first', handleEvent, start] at ran
    replace ran : iceRun env started later = some reached := ran
    have singleStart := reached_oneTransport tracked'.inv ran single
    -- Local candidates are never dropped, so the last state tells of the first.
    have singleReady := steps'.oneTransport tracked.inv singleStart
    have going := iceRun_going sent created fresh False.elim singleReady tracked.inv.live prepared
    obtain ⟨startGoing, filled⟩ := pjIceSessStartCheck_going sent tracked going singleStart start
    have begun := filled rfl
    obtain ⟨after, used', later', _, rfl | rfl⟩ := reached_spec env tracked'.inv ran
    · exact (iceRun_going sent tracked' (startGoing.weaken fun _ => Or.inr rfl)
        (fun _ => begun) single live ran).waits
        (later'.inv tracked'.inv).flight (later'.begun begun) running
    · rw [destroyIce_eq (later'.inv tracked'.inv)] at live
      cases live
  · have gone : (destroyIce before).isDestroying = true := by
      rw [destroyIce_eq (steps.inv created.inv)]
    rw [iceRun_destroyed env gone] at ran
    rw [← Option.some.inj ran, gone] at live
    cases live

def hostReady : IceSess := (iceRun allSent hostSession (hostEvents.take 2)).get (by decide)

def hostStarted : IceSess := ((pjIceSessStartCheck allSent hostReady fun _ => []).get (by decide)).1

def hostWaiting : IceSess :=
  (iceRun allSent hostReady [.startCheck fun _ => [], .checkTimer]).get (by decide)

theorem started_sessions_wait_hosts :
    hostWaiting.clistTimer = true ∨ hostWaiting.timer ≠ .none ∨ hostWaiting.pending ≠ [] :=
  @started_sessions_wait allSent (fun _ => rfl) .controlling 1 0 true 10000 (by decide) (by decide)
    (hostEvents.take 2) [.checkTimer] hostReady hostStarted hostWaiting
      (fun _ => []) 0 (Option.some_get _).symm
    rfl (Option.some_get _).symm (by unfold OneTransport; decide) (by decide) (by decide)

end Going

end NatClient.IceSession
