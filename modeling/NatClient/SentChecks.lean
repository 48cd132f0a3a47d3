import NatClient.IceTraces

/-!
What a session says to its peer: its checks carry new numbers and the role that it has,
and it answers requests only. One lemma for each function; role conflicts are about
nothing else.
-/

namespace NatClient.IceSession

open CString IceTypes SwapSort

section Said

def checkOf : Act → Option (Nat × Bool)
  | .sendCheck number _ controlling _ => some (number, controlling)
  | _ => none

def responseOf : Act → Option Bool
  | .respond roleConflict => some roleConflict
  | _ => none

def sentChecks (ice : IceSess) : List (Nat × Bool) := ice.acts.filterMap checkOf

def responses (ice : IceSess) : List Bool := ice.acts.filterMap responseOf

/-- What a session in a role has said between two states. -/
structure Speaks (role : Role) (replies : List Bool) (before after : IceSess) : Prop where
  inRole : after.role = role
  tieBreaker : after.tieBreaker = before.tieBreaker
  performed : before.performed ≤ after.performed
  sent : ∃ claims, sentChecks after = sentChecks before ++ claims ∧
    ∀ claim ∈ claims, before.performed ≤ claim.1 ∧ claim.1 < after.performed ∧
      claim.2 = decide (role = Role.controlling)
  responses : responses after = responses before ++ replies
  pending : ∀ tx ∈ after.pending, tx ∈ before.pending ∨
    (tx.number, tx.controlling) ∈ sentChecks after

variable {role : Role} {ice middle after : IceSess} {first second : List Bool}

theorem Speaks.refl (ice : IceSess) : Speaks ice.role [] ice ice where
  inRole := rfl
  tieBreaker := rfl
  performed := Nat.le_refl _
  sent := ⟨[], (List.append_nil _).symm, fun _ member => absurd member List.not_mem_nil⟩
  responses := (List.append_nil _).symm
  pending := fun _ member => Or.inl member

theorem Speaks.trans (before : Speaks role first ice middle)
    (later : Speaks role second middle after) :
    Speaks role (first ++ second) ice after where
  inRole := later.inRole
  tieBreaker := later.tieBreaker.trans before.tieBreaker
  performed := before.performed.trans later.performed
  sent := by
    obtain ⟨claims, grown, within⟩ := before.sent
    obtain ⟨claims', grown', within'⟩ := later.sent
    refine ⟨claims ++ claims', by rw [grown', grown, List.append_assoc], fun claim member => ?_⟩
    rcases List.mem_append.mp member with old | new
    · obtain ⟨low, high, same⟩ := within claim old
      exact ⟨low, high.trans_le later.performed, same⟩
    · obtain ⟨low, high, same⟩ := within' claim new
      exact ⟨before.performed.trans low, high, same⟩
  responses := by rw [later.responses, before.responses, List.append_assoc]
  pending := fun tx member => by
    rcases later.pending tx member with known | said
    · rcases before.pending tx known with known' | said'
      · exact Or.inl known'
      · obtain ⟨claims, grown, _⟩ := later.sent
        exact Or.inr (grown ▸ List.mem_append_left claims said')
    · exact Or.inr said

theorem Speaks.then (before : Speaks ice.role first ice middle)
    (later : Speaks middle.role [] middle after) :
    Speaks ice.role first ice after := by
  rw [before.inRole] at later
  have both := before.trans later
  rwa [List.append_nil] at both

theorem Speaks.quiet (inRole : after.role = role) (tieBreaker : after.tieBreaker = ice.tieBreaker)
    (performed : ice.performed ≤ after.performed) (acts : after.acts = ice.acts)
    (pending : after.pending ⊆ ice.pending) : Speaks role [] ice after where
  inRole := inRole
  tieBreaker := tieBreaker
  performed := performed
  sent := ⟨[],
    by rw [sentChecks, sentChecks, acts, List.append_nil],
    fun _ member => absurd member List.not_mem_nil⟩
  responses := by rw [IceSession.responses, IceSession.responses, acts, List.append_nil]
  pending := fun _ member => Or.inl (pending member)

theorem Speaks.other {actions : List Act} (role : after.role = ice.role)
    (tieBreaker : after.tieBreaker = ice.tieBreaker) (performed : after.performed = ice.performed)
    (acts : after.acts = ice.acts ++ actions) (noCheck : actions.filterMap checkOf = [])
    (noResponse : actions.filterMap responseOf = []) (pending : after.pending ⊆ ice.pending) :
    Speaks ice.role [] ice after where
  inRole := role
  tieBreaker := tieBreaker
  performed := performed.ge
  sent := ⟨[], by rw [sentChecks, sentChecks, acts, List.filterMap_append, noCheck],
    fun _ member => absurd member List.not_mem_nil⟩
  responses := by
    rw [IceSession.responses, IceSession.responses, acts, List.filterMap_append, noResponse]
  pending := fun _ member => Or.inl (pending member)

end Said

section Sending
variable (env : StunEnv) {ice : IceSess}

theorem performCheck_speaks (ckid : Nat) (nominate : Bool) :
    Speaks ice.role [] ice (performCheck env ice ckid nominate).1 := by
  rw [performCheck]
  dsimp only
  split
  · exact Speaks.quiet rfl rfl (Nat.le_succ _) rfl (List.Subset.refl _)
  · exact Speaks.quiet rfl rfl (Nat.le_succ _) rfl (List.Subset.refl _)
  -- Only this branch sends: one check with a new number, in the role of the session.
  · have here : (ice.acts ++ [Act.sendCheck ice.performed ckid (decide (ice.role = .controlling))
        (decide (ice.role = .controlling) && nominate)]).filterMap checkOf =
        sentChecks ice ++ [(ice.performed, decide (ice.role = .controlling))] :=
          List.filterMap_append
    have said : (ice.performed, decide (ice.role = .controlling)) ∈
        (ice.acts ++ [Act.sendCheck ice.performed ckid (decide (ice.role = .controlling))
          (decide (ice.role = .controlling) && nominate)]).filterMap checkOf := by
      rw [here]
      exact List.mem_append_right _ (List.mem_singleton_self _)
    refine ⟨rfl, rfl, Nat.le_succ _, ⟨_, here, fun claim member => ?_⟩, ?_, fun tx member => ?_⟩
    · rw [List.mem_singleton.mp member]
      exact ⟨Nat.le_refl _, Nat.lt_succ_self _, rfl⟩
    · exact List.filterMap_append
    · rcases List.mem_append.mp member with known | new
      · exact Or.inl known
      · rw [List.mem_singleton.mp new]
        exact Or.inr said

theorem startPeriodicCheck_speaks : Speaks ice.role [] ice (startPeriodicCheck env ice) := by
  have stopped : Speaks ice.role [] ice { ice with clistTimer := false } :=
    Speaks.quiet rfl rfl (Nat.le_refl _) rfl (List.Subset.refl _)
  rw [startPeriodicCheck]
  split
  · exact Speaks.refl ice
  · dsimp only
    split
    · exact stopped
    case h_2 ckid _ =>
      have performed := stopped.then (@performCheck_speaks env { ice with clistTimer := false } ckid
        ice.isNominating)
      split
      · exact performed.then (Speaks.quiet rfl rfl (Nat.le_refl _) rfl (List.Subset.refl _))
      · exact performed

end Sending

section Completing
variable {ice : IceSess}

theorem reopen_speaks (valid : Check) : Speaks ice.role [] ice (reopen ice valid) := by
  rw [reopen]
  split
  · exact Speaks.refl ice
  · exact Speaks.quiet rfl rfl (Nat.le_refl _) rfl (List.Subset.refl _)

theorem reopenChecks_speaks {comps : List Comp} {after : IceSess}
    (reopened : reopenChecks comps ice = some after) :
    Speaks ice.role [] ice after := by
  induction comps generalizing ice with
  | nil => exact Option.some.inj reopened ▸ Speaks.refl ice
  | cons comp rest ih =>
      obtain ⟨index, _, later⟩ := Option.bind_eq_some_iff.mp reopened
      obtain ⟨valid, _, later'⟩ := Option.bind_eq_some_iff.mp later
      exact (reopen_speaks valid).then (ih later')

theorem startNominatedCheck_speaks {after : IceSess}
    (started : startNominatedCheck ice = some after) :
    Speaks ice.role [] ice after := by
  have reopened (before : IceSess) (quiet : Speaks ice.role [] ice before) {comps : List Comp}
      {middle : IceSess} (found : reopenChecks comps before = some middle) :
      Speaks ice.role [] ice { middle with clistTimer := true, isNominating := true } :=
    (quiet.then (reopenChecks_speaks found)).then
      (Speaks.quiet rfl rfl (Nat.le_refl _) rfl (List.Subset.refl _))
  rw [startNominatedCheck] at started
  by_cases armed : ice.timer = .startNominatedCheck
  · rw [if_pos armed] at started
    obtain ⟨middle, found, done⟩ := Option.bind_eq_some_iff.mp started
    obtain rfl := Option.some.inj done
    exact reopened { ice with timer := .none }
      (Speaks.quiet rfl rfl (Nat.le_refl _) rfl (List.Subset.refl _)) found
  · rw [if_neg armed] at started
    obtain ⟨middle, found, done⟩ := Option.bind_eq_some_iff.mp started
    obtain rfl := Option.some.inj done
    exact reopened ice (Speaks.refl ice) found

theorem onIceComplete_speaks (status : Status) :
    Speaks ice.role [] ice (onIceComplete ice status) := by
  rw [onIceComplete]
  split
  · exact Speaks.refl ice
  · exact Speaks.quiet rfl rfl (Nat.le_refl _) rfl (List.Subset.refl _)

theorem onAllSettled_speaks {after : IceSess} {done : Bool}
    (settled : onAllSettled ice = some (after, done)) :
    Speaks ice.role [] ice after := by
  have failed := @onIceComplete_speaks ice .eicefailed
  rw [onAllSettled] at settled
  split at settled
  · split at settled
    · split at settled
      · obtain ⟨rfl, rfl⟩ := Prod.mk.inj (Option.some.inj settled)
        exact Speaks.quiet rfl rfl (Nat.le_refl _) rfl (List.Subset.refl _)
      · obtain ⟨rfl, rfl⟩ := Prod.mk.inj (Option.some.inj settled)
        exact Speaks.refl ice
    · obtain ⟨rfl, rfl⟩ := Prod.mk.inj (Option.some.inj settled)
      exact failed
  · split at settled
    · obtain ⟨rfl, rfl⟩ := Prod.mk.inj (Option.some.inj settled)
      exact failed
    · split at settled
      · obtain ⟨middle, started, same⟩ := Option.map_eq_some_iff.mp settled
        obtain ⟨rfl, rfl⟩ := Prod.mk.inj same
        exact startNominatedCheck_speaks started
      · obtain ⟨rfl, rfl⟩ := Prod.mk.inj (Option.some.inj settled)
        exact failed

theorem scheduleNomination_speaks (check : Check) :
    Speaks ice.role [] ice (scheduleNomination ice check) := by
  rw [scheduleNomination]
  split
  · exact Speaks.quiet rfl rfl (Nat.le_refl _) rfl (List.Subset.refl _)
  · exact Speaks.refl ice

theorem settleComponent_speaks (check : Check) :
    Speaks ice.role [] ice (settleComponent ice check) := by
  refine Speaks.other rfl rfl rfl rfl ?_ ?_ (List.filter_subset_self _)
  · rw [List.filterMap_eq_nil_iff]
    intro action member
    obtain ⟨number, _, rfl⟩ := List.mem_map.mp member
    rfl
  · rw [List.filterMap_eq_nil_iff]
    intro action member
    obtain ⟨number, _, rfl⟩ := List.mem_map.mp member
    rfl

theorem onCheckComplete_speaks {ckid : Nat} {after : IceSess} {done : Bool}
    (complete : onCheckComplete ice ckid = some (after, done)) : Speaks ice.role [] ice after := by
  obtain ⟨check, _, rest⟩ := Option.bind_eq_some_iff.mp complete
  have unfrozen :
      Speaks ice.role [] ice (if check.errCode = .success then unfreeze ice check else ice) := by
    split
    · exact Speaks.quiet rfl rfl (Nat.le_refl _) rfl (List.Subset.refl _)
    · exact Speaks.refl ice
  dsimp only at rest
  generalize (if check.errCode = .success then unfreeze ice check else ice) = first at rest unfrozen
  have settled : Speaks ice.role [] ice
      (if check.errCode = .success ∧ check.nominated = true then settleComponent first check
          else first) := by
    split
    · exact unfrozen.then (settleComponent_speaks check)
    · exact unfrozen
  generalize
    (if check.errCode = .success ∧ check.nominated = true then settleComponent first check
      else first) =
    middle at rest settled
  -- Completion, the timer for nomination, or the end of all checks.
  split at rest
  · obtain ⟨rfl, rfl⟩ := Prod.mk.inj (Option.some.inj rest)
    exact settled.then (onIceComplete_speaks .success)
  · split at rest
    · obtain ⟨rfl, rfl⟩ := Prod.mk.inj (Option.some.inj rest)
      exact settled.then (scheduleNomination_speaks check)
    · exact settled.then (onAllSettled_speaks rest)

end Completing

section Responding
variable {ice : IceSess}

theorem checkSetState_speaks (ckid : Nat) (state : CheckState) (errCode : Status) :
    Speaks ice.role [] ice (checkSetState ice ckid state errCode) :=
  Speaks.quiet rfl rfl (Nat.le_refl _) rfl (List.Subset.refl _)

theorem finishTx_speaks (tx : Tx) : Speaks ice.role [] ice (finishTx ice tx) :=
  Speaks.quiet rfl rfl (Nat.le_refl _) rfl (List.filter_subset_self _)

theorem failCheck_speaks {ckid : Nat} {status : Status} {after : IceSess}
    (failed : failCheck ice ckid status = some after) : Speaks ice.role [] ice after := by
  obtain ⟨⟨result, done⟩, complete, rfl⟩ := Option.map_eq_some_iff.mp failed
  exact (checkSetState_speaks ckid .failed status).then (onCheckComplete_speaks complete)

theorem succeedCheck_speaks {ckid lcand : Nat} {check : Check} {after : IceSess}
    (succeeded : succeedCheck ice ckid lcand check = some after) :
    Speaks ice.role [] ice after := by
  rw [succeedCheck_eq] at succeeded
  obtain ⟨middle, gain, rest⟩ := Option.bind_eq_some_iff.mp succeeded
  obtain ⟨⟨result, done⟩, complete, rfl⟩ := Option.map_eq_some_iff.mp rest
  obtain ⟨validList, comp, rfl⟩ := gained_shape gain
  have gains : Speaks ice.role [] ice
      { checkSetState ice ckid .succeeded .success with validList := validList, comp := comp } :=
    Speaks.quiet rfl rfl (Nat.le_refl _) rfl (List.Subset.refl _)
  exact gains.then (onCheckComplete_speaks complete)

theorem addCand_speaks {after : IceSess} {compId lcand : Nat}
    {transportId : BitVec 8} {type : IceCandType}
    {localPref : BitVec 16} {foundation : CStr} {addr baseAddr : Option PjSockaddr}
    (added : pjIceSessAddCand ice compId transportId type localPref foundation addr baseAddr = .ok
        (after, lcand)) :
    Speaks ice.role [] ice after := by
  unfold pjIceSessAddCand at added
  split at added
  · cases added
  · split at added
    · cases added
    · obtain ⟨rfl, rfl⟩ := Prod.mk.inj (Except.ok.inj added)
      exact Speaks.quiet rfl rfl (Nat.le_refl _) rfl (List.Subset.refl _)

theorem mappedCand_speaks {check : Check} {mapped : PjSockaddr}
    {foundation : CStr} {after : IceSess}
    {lcand : Nat} (found : mappedCand ice check mapped foundation = .ok (after, lcand)) :
    Speaks ice.role [] ice after := by
  unfold mappedCand at found
  split at found
  · obtain ⟨rfl, rfl⟩ := Prod.mk.inj (Except.ok.inj found)
    exact Speaks.refl ice
  · exact addCand_speaks found

variable (env : StunEnv)

/-- The role that a session takes on a response to one of its checks. -/
def roleOnResponse (ice : IceSess) (tx : Tx) (response : Response) : Role :=
  if response.status = .stunRoleConflict then roleAfterConflict tx.controlling else ice.role

theorem onStunRequestComplete_speaks {tx : Tx} {response : Response}
    {foundation : CStr} {after : IceSess}
    (live : ice.isDestroying = false)
    (completed : onStunRequestComplete env ice tx response foundation = some after) :
    Speaks (roleOnResponse ice tx response) [] ice after := by
  rw [onStunRequestComplete] at completed
  dsimp only at completed
  rw [if_neg
    (by rw [show (finishTx ice tx).isDestroying = false from live]; exact Bool.false_ne_true)]
    at completed
  obtain ⟨check, _, rest⟩ := Option.bind_eq_some_iff.mp completed
  have finished := @finishTx_speaks ice tx
  rw [roleOnResponse]
  split at rest
  -- From here on the session speaks in the other role.
  case isTrue conflict =>
    obtain rfl := Option.some.inj rest
    rw [if_pos conflict]
    have turned : Speaks (roleAfterConflict tx.controlling) [] ice
        (checkSetState { finishTx ice tx with role := roleAfterConflict tx.controlling } tx.ckid
            .waiting .success) :=
      Speaks.quiet rfl rfl (Nat.le_refl _) rfl (List.filter_subset_self _)
    exact turned.trans (@performCheck_speaks env
      (checkSetState
        { finishTx ice tx with role := roleAfterConflict tx.controlling } tx.ckid .waiting .success)
      tx.ckid (check.nominated || ice.isNominating))
  case isFalse agreed =>
    rw [if_neg agreed]
    split at rest
    · exact finished.then (failCheck_speaks rest)
    · split at rest
      · exact finished.then (failCheck_speaks rest)
      · split at rest
        · exact finished.then (failCheck_speaks rest)
        · split at rest
          · exact finished.then (failCheck_speaks rest)
          case h_2 found =>
            exact (finished.then (mappedCand_speaks found)).then (succeedCheck_speaks rest)

end Responding

section Requesting
variable (env : StunEnv) {ice : IceSess}

theorem nominateValid_speaks (check : Check) (indices : List Nat) :
    Speaks ice.role [] ice (nominateValid check indices ice) := by
  induction indices generalizing ice with
  | nil => exact Speaks.refl ice
  | cons index rest ih =>
      rw [nominateValid]
      split
      · exact ih
      case h_2 valid _ =>
        split
        · have nominated : Speaks ice.role [] ice (updateCompCheck
              { ice with
                validList :=
                  ice.validList.modify index fun valid => { valid with nominated := true } }
              (compIdOf ice valid) index) :=
            Speaks.quiet rfl rfl (Nat.le_refl _) rfl (List.Subset.refl _)
          exact nominated.then ih
        · exact ih

theorem triggerCheck_speaks {ckid : Nat} {useCandidate : Bool} {after : IceSess}
    (triggered : triggerCheck env ice ckid useCandidate = some after) :
    Speaks ice.role [] ice after := by
  have noted : Speaks ice.role [] ice (updateCheck ice ckid fun check =>
      { check with nominated := useCandidate || check.nominated }) :=
    Speaks.quiet rfl rfl (Nat.le_refl _) rfl (List.Subset.refl _)
  rw [triggerCheck] at triggered
  dsimp only at triggered
  generalize updateCheck ice ckid
    (fun check => { check with nominated := useCandidate || check.nominated }) =
    middle at triggered noted
  obtain ⟨check, _, rest⟩ := Option.bind_eq_some_iff.mp triggered
  split at rest
  · exact Option.some.inj rest ▸ noted.then (performCheck_speaks env ckid _)
  · exact Option.some.inj rest ▸ noted.then (performCheck_speaks env ckid _)
  · obtain ⟨number, _, done⟩ := Option.bind_eq_some_iff.mp rest
    exact Option.some.inj done ▸ noted.then
      (Speaks.other rfl rfl rfl rfl rfl rfl (List.Subset.refl _))
  · obtain ⟨⟨result, done⟩, complete, rfl⟩ := Option.map_eq_some_iff.mp rest
    split at complete
    · exact (noted.then (nominateValid_speaks check _)).then (onCheckComplete_speaks complete)
    · exact noted.then (onCheckComplete_speaks complete)
  · exact Option.some.inj rest ▸ noted

theorem handleIncomingCheck_speaks {rcheck : RxCheck} {foundation : CStr} {after : IceSess}
    (handled : handleIncomingCheck env ice rcheck foundation = some after) :
    Speaks ice.role [] ice after := by
  rw [handleIncomingCheck] at handled
  split at handled
  · exact Option.some.inj handled ▸ Speaks.refl ice
  case h_2 middle rcand found =>
    -- At most a remote candidate is added first.
    have added : Speaks ice.role [] ice middle := by
      unfold sourceCand at found
      split at found
      · obtain ⟨rfl, rfl⟩ := Prod.mk.inj (Option.some.inj found)
        exact Speaks.refl ice
      · split at found
        · cases found
        · obtain ⟨rfl, rfl⟩ := Prod.mk.inj (Option.some.inj found)
          exact Speaks.quiet rfl rfl (Nat.le_refl _) rfl (List.Subset.refl _)
    dsimp only at handled
    split at handled
    · exact Option.some.inj handled ▸ added
    · split at handled
      · exact added.then (triggerCheck_speaks env handled)
      · obtain rfl := Option.some.inj handled
        rw [appendCheck]
        split
        · have appended (check : Check) :
              Speaks middle.role [] middle { middle with clist := middle.clist ++ [check] } :=
            Speaks.quiet rfl rfl (Nat.le_refl _) rfl (List.Subset.refl _)
          exact added.then ((appended _).then (performCheck_speaks env _ _))
        · exact added

/-- What becomes of a request that carries the role of its sender: it is dropped, refused, or
answered in the role that the session has then. -/
theorem onStunRxRequest_speaks {request : Request} {foundation : CStr} {after : IceSess}
    (live : ice.isDestroying = false)
    (handled : onStunRxRequest env ice request foundation = some after) :
    (request.priority = none ∧ after = ice) ∨
    (resolveConflict ice.role ice.tieBreaker request.roleAttr = none ∧
      Speaks ice.role [true] ice after) ∨
    ∃ role, resolveConflict ice.role ice.tieBreaker request.roleAttr = some role ∧
      Speaks role [false] ice after := by
  have answered (role : Role) (conflict : Bool) :
      Speaks role [conflict] ice (act { ice with role := role } (.respond conflict)) := by
    refine ⟨rfl, rfl, Nat.le_refl _, ⟨[], ?_, fun _ member => absurd member List.not_mem_nil⟩,
      List.filterMap_append, fun tx member => Or.inl member⟩
    exact List.filterMap_append
  rw [onStunRxRequest, if_neg (by rw [live]; exact Bool.false_ne_true)] at handled
  split at handled
  case h_1 dropped => exact Or.inl ⟨dropped, (Option.some.inj handled).symm⟩
  case h_2 priority _ =>
    split at handled
    case h_1 refused =>
      obtain rfl := Option.some.inj handled
      exact Or.inr (Or.inl ⟨refused, answered ice.role true⟩)
    case h_2 role accepted =>
      have said := answered role false
      refine Or.inr (Or.inr ⟨role, accepted, ?_⟩)
      dsimp only at handled
      split at handled
      · obtain rfl := Option.some.inj handled
        exact said.trans (Speaks.quiet rfl rfl (Nat.le_refl _) rfl (List.Subset.refl _))
      · exact said.trans (handleIncomingCheck_speaks env handled)

end Requesting

section Starting
variable (env : StunEnv) {ice : IceSess}

theorem handleEarly_speaks {foundation : Nat → CStr} {rchecks : List RxCheck} {after : IceSess}
    (handled : handleEarly env foundation rchecks ice = some after) :
    Speaks ice.role [] ice after := by
  induction rchecks generalizing ice with
  | nil => exact Option.some.inj handled ▸ Speaks.refl ice
  | cons rcheck rest ih =>
      obtain ⟨middle, first, later⟩ := Option.bind_eq_some_iff.mp handled
      exact (handleIncomingCheck_speaks env first).then (ih later)

theorem wakeFoundations_speaks (ckids : List Nat) (seen : List (Option CStr)) (done : IceSess) :
    Speaks done.role [] done (wakeFoundations ice ckids seen done) := by
  induction ckids generalizing seen done with
  | nil => exact Speaks.refl done
  | cons ckid rest ih =>
      rw [wakeFoundations]
      split
      · exact ih seen done
      · split
        · split
          · exact (checkSetState_speaks ckid .waiting .success).then (ih _ _)
          · exact ih _ done
        · exact ih seen done

theorem pjIceSessStartCheck_speaks {foundation : Nat → CStr} {status : Status} {after : IceSess}
    (started : pjIceSessStartCheck env ice foundation = some (after, status)) :
    Speaks ice.role [] ice after := by
  have same {before : IceSess} (flag : Bool) :
      Speaks before.role [] before { before with isNominating := flag } :=
    Speaks.quiet rfl rfl (Nat.le_refl _) rfl (List.Subset.refl _)
  rw [pjIceSessStartCheck] at started
  split at started
  · obtain ⟨rfl, rfl⟩ := Prod.mk.inj (Option.some.inj started)
    exact Speaks.refl ice
  · dsimp only at started
    have first :
        Speaks ice.role [] ice
        (if ice.aggressive = true then { ice with isNominating := true } else ice) := by
      split
      · exact same true
      · exact Speaks.refl ice
    generalize (if ice.aggressive = true then { ice with isNominating := true } else ice) = begun
      at first started
    split at started
    · obtain ⟨middle, handled, rest⟩ := Option.bind_eq_some_iff.mp started
      have woken :=
        first.then (@wakeFoundations_speaks begun (List.range begun.clist.length) [] begun)
      have early := woken.then (handleEarly_speaks env handled)
      have emptied (flag : Bool) :
          Speaks middle.role [] middle { middle with earlyCheck := [], clistTimer := flag } :=
        Speaks.quiet rfl rfl (Nat.le_refl _) rfl (List.Subset.refl _)
      split at rest
      · obtain ⟨rfl, rfl⟩ := Prod.mk.inj (Option.some.inj rest)
        exact early.then (emptied middle.clistTimer)
      · obtain ⟨rfl, rfl⟩ := Prod.mk.inj (Option.some.inj rest)
        exact early.then (emptied true)
    · obtain ⟨rfl, rfl⟩ := Prod.mk.inj (Option.some.inj started)
      exact first

theorem createCheckList_speaks (rcand : List IceSessCand) :
    Speaks ice.role [] ice (pjIceSessCreateCheckList ice rcand).1 := by
  have quiet (after : IceSess) (inRole : after.role = ice.role)
    (tieBreaker : after.tieBreaker = ice.tieBreaker)
      (performed : after.performed = ice.performed) (acts : after.acts = ice.acts)
      (pending : after.pending = ice.pending) : Speaks ice.role [] ice after :=
    Speaks.quiet inRole tieBreaker performed.ge acts (pending ▸ List.Subset.refl _)
  rw [pjIceSessCreateCheckList]
  split
  · exact Speaks.refl ice
  · split
    · exact Speaks.refl ice
    · dsimp only
      split
      · exact quiet _ rfl rfl rfl rfl rfl
      · split
        · exact quiet _ rfl rfl rfl rfl rfl
        · split
          · exact quiet _ rfl rfl rfl rfl rfl
          · exact quiet _ rfl rfl rfl rfl rfl

end Starting

section Expiring
variable {ice : IceSess}

theorem iceKeepAlive_speaks {sendNow : Bool} {after : IceSess}
    (kept : iceKeepAlive ice sendNow = some after) :
    Speaks ice.role [] ice after := by
  have armed (middle : IceSess) : Speaks middle.role [] middle
      (if middle.timer = .none then { middle with timer := .keepAlive } else middle) := by
    split
    · exact Speaks.quiet rfl rfl (Nat.le_refl _) rfl (List.Subset.refl _)
    · exact Speaks.refl middle
  rw [iceKeepAlive] at kept
  split at kept
  · cases kept
  · split at kept
    · obtain ⟨middle, indicated, rest⟩ := Option.bind_eq_some_iff.mp kept
      obtain ⟨comp, _, indicated⟩ := Option.bind_eq_some_iff.mp indicated
      obtain ⟨check, _, indicated⟩ := Option.bind_eq_some_iff.mp indicated
      obtain rfl := Option.some.inj indicated
      have said : Speaks ice.role [] ice { act ice (.sendIndication (ice.compKa + 1) check) with
          compKa := (ice.compKa + 1) % ice.compCnt } :=
        Speaks.other rfl rfl rfl rfl rfl rfl (List.Subset.refl _)
      exact Option.some.inj rest ▸ said.then (armed _)
    · exact Option.some.inj kept ▸ armed ice

theorem onTimer_speaks {after : IceSess} (expired : onTimer ice = some after) :
    Speaks ice.role [] ice after := by
  have disarmed : Speaks ice.role [] ice { ice with timer := .none } :=
    Speaks.quiet rfl rfl (Nat.le_refl _) rfl (List.Subset.refl _)
  have reported (middle : IceSess) (status : Status) :
      Speaks middle.role [] middle (act middle (.completed status)) :=
    Speaks.other rfl rfl rfl rfl rfl rfl (List.Subset.refl _)
  rw [onTimer] at expired
  dsimp only at expired
  split at expired
  · exact Option.some.inj expired ▸ disarmed
  · split at expired
    · exact Option.some.inj expired ▸ disarmed
    · exact Option.some.inj expired ▸ disarmed.then (onIceComplete_speaks .eicenomtimeout)
    · split at expired
      · obtain ⟨middle, kept, done⟩ := Option.bind_eq_some_iff.mp expired
        exact Option.some.inj done ▸ (disarmed.then (iceKeepAlive_speaks kept)).then
          (reported middle _)
      · exact Option.some.inj expired ▸ disarmed.then (reported { ice with timer := .none } _)
    · exact disarmed.then (startNominatedCheck_speaks expired)
    · exact disarmed.then (iceKeepAlive_speaks expired)

end Expiring

end NatClient.IceSession
