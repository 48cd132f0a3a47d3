import NatClient.IceInvariants

/-!
Each function of a session is a sequence of moves, and has a result: the checks that the
code only asserts hold wherever the invariants do.
-/

namespace NatClient.IceSession

open CString IceTypes SwapSort Runs

section Sequences

/-- Moves from one state to another, and the addresses whose answers made pairs valid. -/
def Steps (ice : IceSess) (sources : List (Option PjSockaddr)) (after : IceSess) : Prop :=
  ∃ moves, Trace Allows ice moves after ∧ moves.filterMap Move.source = sources

variable {ice middle after : IceSess} {sources first second : List (Option PjSockaddr)}

theorem Steps.refl (ice : IceSess) : Steps ice [] ice := ⟨[], rfl, rfl⟩

theorem Steps.move {move : Move} (allowed : Allows ice move after) (plain : move.source = none) :
    Steps ice [] after := by
  refine ⟨[move], ⟨after, allowed, rfl⟩, ?_⟩
  rw [List.filterMap_cons_none plain, List.filterMap_nil]

theorem Steps.gain {source : Option PjSockaddr} (allowed : Allows ice (.gain source) after) :
    Steps ice [source] after := ⟨[.gain source], ⟨after, allowed, rfl⟩, rfl⟩

theorem Steps.trans (before : Steps ice first middle) (later : Steps middle second after) :
    Steps ice (first ++ second) after := by
  obtain ⟨moves, trace, rfl⟩ := before
  obtain ⟨moves', trace', rfl⟩ := later
  exact ⟨moves ++ moves', trace_append trace trace', List.filterMap_append⟩

theorem Steps.then (before : Steps ice [] middle) (later : Steps middle [] after) :
    Steps ice [] after :=
  before.trans later

theorem Steps.inv (steps : Steps ice sources after) (inv : Inv ice) : Inv after := by
  obtain ⟨moves, trace, _⟩ := steps
  exact trace_invariant (fun _ _ _ holds allowed => holds.kept allowed) inv trace

theorem quiet_steps (ice : IceSess) (role : Role) (prefs : IceCandType → BitVec 8)
    (earlyCheck : List RxCheck) (clistTimer isNominating : Bool) :
    Steps ice [] { ice with
      role := role, prefs := prefs, earlyCheck := earlyCheck, clistTimer := clistTimer,
      isNominating := isNominating } :=
  Steps.move (Allows.quiet role prefs earlyCheck clistTimer isNominating ice.performed
    ice.acts [] (Nat.le_refl _) (List.append_nil _).symm rfl) rfl

theorem performed_steps (ice : IceSess) :
    Steps ice [] { ice with performed := ice.performed + 1 } :=
  Steps.move (Allows.quiet ice.role ice.prefs ice.earlyCheck
    ice.clistTimer ice.isNominating (ice.performed + 1) ice.acts [] (Nat.le_succ _)
    (List.append_nil _).symm rfl) rfl

theorem acts_steps (ice : IceSess) {actions : List Act} (silent : actions.filterMap reportOf = []) :
    Steps ice [] { ice with acts := ice.acts ++ actions } :=
  Steps.move (Allows.quiet ice.role ice.prefs ice.earlyCheck
    ice.clistTimer ice.isNominating ice.performed (ice.acts ++ actions) actions
      (Nat.le_refl _) rfl silent) rfl

theorem recheck_steps {clist : List Check} (calmer : Rechecked ice.clist clist) :
    Steps ice [] { ice with clist := clist } :=
  Steps.move (Allows.recheck clist ice.pending calmer (List.Sublist.refl _)
    fun _ _ _ _ _ member _ _ => member) rfl

theorem checkSetState_steps (ice : IceSess) (ckid : Nat) {state : CheckState} (errCode : Status)
    (idle : state ≠ .inProgress) : Steps ice [] (checkSetState ice ckid state errCode) :=
  recheck_steps (Rechecked.modify fun _ _ => ⟨rfl, rfl, fun flying => (idle flying).elim⟩)

end Sequences

section Sending
variable (env : StunEnv) {ice : IceSess}

theorem performCheck_steps {ckid : Nat} {check : Check} (here : ice.clist[ckid]? = some check)
    (idle : check.state ≠ .inProgress) (nominate : Bool) :
    Steps ice [] (performCheck env ice ckid nominate).1 := by
  rw [performCheck]
  dsimp only
  split
  · exact performed_steps ice
  · refine (performed_steps ice).then (recheck_steps (Rechecked.modify fun other there => ?_))
    obtain rfl := Option.some.inj (here.symm.trans there)
    exact ⟨rfl, rfl, fun flying => (idle flying).elim⟩
  · have inside := (List.getElem?_eq_some_iff.mp here).1
    have launched := Steps.move (Allows.launch ckid inside
      (fun check => check.nominated || (decide (ice.role = .controlling) && nominate))
      (decide (ice.role = .controlling))) rfl
    exact launched.then (acts_steps _ rfl)

theorem firstIn_spec {state : CheckState} {ckid : Nat} (found : firstIn ice state = some ckid) :
    ∃ check, ice.clist[ckid]? = some check ∧ check.state = state := by
  obtain ⟨inside, same, _⟩ := List.findIdx?_eq_some_iff_getElem.mp found
  exact ⟨ice.clist[ckid], List.getElem?_eq_getElem inside, of_decide_eq_true same⟩

theorem startPeriodicCheck_steps (live : ice.isDestroying = false) :
    Steps ice [] (startPeriodicCheck env ice) := by
  rw [startPeriodicCheck, if_neg (by rw [live]; exact Bool.false_ne_true)]
  dsimp only
  have stopped := quiet_steps ice ice.role ice.prefs ice.earlyCheck false ice.isNominating
  split
  · exact stopped
  case h_2 ckid found =>
    have idle : ∃ check, ice.clist[ckid]? = some check ∧ check.state ≠ .inProgress := by
      rcases Option.or_eq_some_iff.mp found with first | ⟨_, second⟩
      · obtain ⟨check, here, same⟩ := firstIn_spec first
        exact ⟨check, here, same ▸ by decide⟩
      · obtain ⟨check, here, same⟩ := firstIn_spec second
        exact ⟨check, here, same ▸ by decide⟩
    obtain ⟨check, here, idle⟩ := idle
    have performed :=
      @performCheck_steps env { ice with clistTimer := false } ckid check here idle ice.isNominating
    have both := stopped.then performed
    split
    · exact both.then (quiet_steps _ _ _ _ true _)
    · exact both

end Sending

section Nominating
variable {ice : IceSess}

theorem reopen_steps (valid : Check) :
    Steps ice [] (reopen ice valid) ∧ (reopen ice valid).validList = ice.validList := by
  rw [reopen]
  split
  · exact ⟨Steps.refl ice, rfl⟩
  case h_2 ckid _ => exact ⟨checkSetState_steps ice ckid .success (by decide), rfl⟩

theorem reopenChecks_cons {comp : Comp} {rest : List Comp} {index : Nat} {valid : Check}
    (pointer : comp.validCheck = some index) (here : ice.validList[index]? = some valid) :
    reopenChecks (comp :: rest) ice = reopenChecks rest (reopen ice valid) := by
  rw [reopenChecks, pointer]
  dsimp only [Option.bind_eq_bind, Option.bind_some]
  rw [here]
  rfl

theorem reopenChecks_steps (comps : List Comp)
    (valid : ∀ comp ∈ comps, ∃ index, comp.validCheck = some index ∧ index < ice.validList.length) :
    ∃ after, reopenChecks comps ice = some after ∧ Steps ice [] after := by
  induction comps generalizing ice with
  | nil => exact ⟨ice, rfl, Steps.refl ice⟩
  | cons comp rest ih =>
      obtain ⟨index, pointer, inside⟩ := valid comp List.mem_cons_self
      rw [reopenChecks_cons pointer (List.getElem?_eq_getElem inside)]
      obtain ⟨reopened, same⟩ := @reopen_steps ice ice.validList[index]
      obtain ⟨after, done, steps⟩ := @ih (reopen ice ice.validList[index])
        fun comp member => same ▸ valid comp (List.mem_cons_of_mem _ member)
      exact ⟨after, done, reopened.then steps⟩

theorem valid_of_compHas (arrays : Arrays ice) (all : compHas ice Comp.validCheck = true) :
    ∀ comp ∈ ice.comp.take ice.compCnt, ∃ index, comp.validCheck = some index ∧
        index < ice.validList.length := by
  intro comp member
  rw [compHas, List.all_eq_true] at all
  obtain ⟨index, pointer⟩ := Option.isSome_iff_exists.mp (all comp member)
  exact ⟨index, pointer, arrays.pointed.inside comp
    (List.mem_of_mem_take member) index (Or.inl pointer)⟩

theorem startNominatedCheck_steps (arrays : Arrays ice) (all : compHas ice Comp.validCheck = true) :
    ∃ after, startNominatedCheck ice = some after ∧ Steps ice [] after := by
  have valid := valid_of_compHas arrays all
  rw [startNominatedCheck]
  by_cases armed : ice.timer = .startNominatedCheck
  · rw [if_pos armed]
    obtain ⟨middle, reopened, steps⟩ := @reopenChecks_steps { ice with timer := .none }
      (ice.comp.take ice.compCnt) valid
    dsimp only
    rw [reopened]
    have disarmed := Steps.move (Allows.disarm (Or.inr armed)) rfl
    exact ⟨_, rfl, (disarmed.then steps).then (quiet_steps _ _ _ _ true true)⟩
  · rw [if_neg armed]
    obtain ⟨middle, reopened, steps⟩ := reopenChecks_steps (ice.comp.take ice.compCnt) valid
    rw [reopened]
    exact ⟨_, rfl, steps.then (quiet_steps _ _ _ _ true true)⟩

end Nominating

section Completing
variable {ice : IceSess}

theorem unfreeze_steps (check : Check) :
    Steps ice [] (unfreeze ice check) := by
  refine recheck_steps (Rechecked.map fun c => ?_)
  split
  · exact ⟨rfl, rfl, nofun⟩
  · exact Calmer.refl c

theorem settle_calmer (check c : Check) : Calmer c (settle ice check c) := by
  unfold settle
  split
  · split
    · exact ⟨rfl, rfl, nofun⟩
    · split
      · exact ⟨rfl, rfl, nofun⟩
      · exact Calmer.refl c
  · exact Calmer.refl c

theorem settle_inProgress {check c : Check} (flying : (settle ice check c).state = .inProgress)
    (sent : c.tdata ≠ none) : compIdOf ice c ≠ compIdOf ice check := by
  intro same
  unfold settle at flying
  rw [if_pos same] at flying
  split at flying
  · cases flying
  case isFalse early =>
    split at flying
    · cases flying
    case isFalse late => exact late ⟨flying, sent⟩

theorem settleComponent_steps (flight : Flight ice) (check : Check) :
    Steps ice [] (settleComponent ice check) := by
  have rechecked : Rechecked ice.clist (ice.clist.map (settle ice check)) :=
    Rechecked.map (settle_calmer check)
  have settled := Steps.move (Allows.recheck (ice.clist.map (settle ice check))
    (ice.pending.filter fun tx => !(cancelled ice check).contains tx.number)
      rechecked List.filter_sublist ?_) rfl
  · refine settled.then (acts_steps _ ?_)
    rw [List.filterMap_map, List.filterMap_eq_nil_iff]
    exact fun _ _ => rfl
  -- A check still in flight was not cancelled: the numbers of transactions are distinct.
  · intro p after here flying tx member own number
    refine List.mem_filter.mpr ⟨member, ?_⟩
    rw [Bool.not_eq_true', ← Bool.not_eq_true, List.contains_iff_mem]
    intro gone
    obtain ⟨other, member', chosen⟩ := List.mem_filterMap.mp gone
    split at chosen
    case isFalse => cases chosen
    case isTrue theirs =>
      obtain ⟨q, there⟩ := List.getElem?_of_mem member'
      obtain ⟨tx', inFlight, own', number'⟩ := flight.inFlight q other there theirs.2
      obtain rfl := flight.unique member inFlight (Option.some.inj (chosen.symm.trans number'))
      obtain rfl := own.symm.trans own'
      rw [List.getElem?_map, there] at here
      obtain rfl := Option.some.inj here
      exact settle_inProgress flying (by rw [chosen]; exact Option.some_ne_none _) theirs.1

theorem begun_of_length {after : IceSess} (begun : ice.clist ≠ [])
    (length : after.clist.length = ice.clist.length) :
    after.clist ≠ [] := by
  intro none'
  rw [none', List.length_nil] at length
  exact begun (List.length_eq_zero_iff.mp length.symm)

theorem onAllSettled_steps (arrays : Arrays ice) (begun : ice.clist ≠ []) :
    ∃ after done, onAllSettled ice = some (after, done) ∧ Steps ice [] after := by
  have failed := Steps.move (Allows.complete Status.eicefailed begun nofun) rfl
  rw [onAllSettled]
  by_cases controlled : ice.role = .controlled
  · rw [if_pos controlled]
    split
    · split
      case isTrue wait =>
        exact ⟨_, _, rfl, Steps.move (Allows.arm .controlledWaitNom wait.1 begun (Or.inl rfl)) rfl⟩
      case isFalse => exact ⟨_, _, rfl, Steps.refl ice⟩
    · exact ⟨_, _, rfl, failed⟩
  · rw [if_neg controlled]
    split
    · exact ⟨_, _, rfl, failed⟩
    · split
      case isTrue all =>
        obtain ⟨after, done, steps⟩ := startNominatedCheck_steps arrays all
        rw [done]
        exact ⟨_, _, rfl, steps⟩
      case isFalse => exact ⟨_, _, rfl, failed⟩

theorem scheduleNomination_steps (begun : ice.clist ≠ []) (check : Check) :
    Steps ice [] (scheduleNomination ice check) := by
  rw [scheduleNomination]
  split
  case isTrue due =>
    obtain ⟨_, _, _, free, all⟩ := due
    exact Steps.move (Allows.arm .startNominatedCheck free begun (Or.inr ⟨rfl, all⟩)) rfl
  case isFalse => exact Steps.refl ice

theorem successful_steps (inv : Inv ice) (check : Check) :
    let ice' := if check.errCode = .success then unfreeze ice check else ice
    let ice'' :=
      if check.errCode = .success ∧ check.nominated then settleComponent ice' check else ice'
    Steps ice [] ice'' ∧ ice''.clist.length = ice.clist.length := by
  intro ice' ice''
  have first : Steps ice [] ice' ∧ ice'.clist.length = ice.clist.length := by
    by_cases success : check.errCode = .success
    · rw [show ice' = unfreeze ice check from if_pos success]
      exact ⟨unfreeze_steps check, List.length_map _⟩
    · rw [show ice' = ice from if_neg success]
      exact ⟨Steps.refl ice, rfl⟩
  by_cases nominated : check.errCode = .success ∧ check.nominated
  · rw [show ice'' = settleComponent ice' check from if_pos nominated]
    exact ⟨first.1.then (settleComponent_steps (first.1.inv inv).flight check),
      (List.length_map _).trans first.2⟩
  · rw [show ice'' = ice' from if_neg nominated]
    exact first

theorem onCheckComplete_steps (inv : Inv ice) {ckid : Nat} (inside : ckid < ice.clist.length) :
    ∃ after done, onCheckComplete ice ckid = some (after, done) ∧ Steps ice [] after := by
  have here := List.getElem?_eq_getElem inside
  have nonempty : ice.clist ≠ [] := List.ne_nil_of_length_pos (Nat.zero_lt_of_lt inside)
  rw [onCheckComplete, here]
  dsimp only [Option.bind_eq_bind, Option.bind_some]
  obtain ⟨steps, length⟩ := successful_steps inv ice.clist[ckid]
  generalize ice.clist[ckid] = check at steps length ⊢
  generalize (if check.errCode = .success ∧ check.nominated = true then
    settleComponent (if check.errCode = .success then unfreeze ice check else ice) check
    else if check.errCode = .success then unfreeze ice check else ice) = middle at steps length ⊢
  have begun := begun_of_length nonempty length
  have arrays := (steps.inv inv).arrays
  by_cases connected : compHas middle Comp.nominatedCheck = true
  · rw [if_pos connected]
    exact ⟨_, _, rfl,
      steps.then (Steps.move (Allows.complete .success begun fun _ => connected) rfl)⟩
  · rw [if_neg connected]
    split
    · exact ⟨_, _, rfl, steps.then (scheduleNomination_steps begun check)⟩
    · obtain ⟨after, done, same, later⟩ := onAllSettled_steps arrays begun
      exact ⟨after, done, same, steps.then later⟩

end Completing

section Responding
variable (env : StunEnv) {ice : IceSess}

theorem settleTx_steps (flight : Flight ice) {tx : Tx}
    (member : tx ∈ ice.pending) (state : CheckState)
    (errCode : Status) (idle : state ≠ .inProgress) :
    Steps ice [] (checkSetState (finishTx ice tx) tx.ckid state errCode) := by
  have calmer : Rechecked ice.clist ((ice.clist.modify tx.ckid fun check =>
      { check with tdata := none }).modify tx.ckid (Check.setState state errCode)) := by
    refine ⟨by rw [List.length_modify, List.length_modify], fun p b a here there => ?_⟩
    rw [List.getElem?_modify, List.getElem?_modify, here] at there
    obtain rfl := Option.some.inj there
    by_cases same : tx.ckid = p
    · simp only [if_pos same]
      exact ⟨rfl, rfl, fun flying => (idle flying).elim⟩
    · simp only [if_neg same]
      exact Calmer.refl b
  refine Steps.move
    (Allows.recheck _ (ice.pending.filter fun other => other.number ≠ tx.number) calmer
    List.filter_sublist fun p check here flying other member' own _ => ?_) rfl
  refine List.mem_filter.mpr ⟨member', decide_eq_true fun same => ?_⟩
  obtain rfl := flight.unique member' member same
  rw [List.getElem?_modify] at here
  obtain ⟨before, _, rfl⟩ := Option.map_eq_some_iff.mp here
  rw [if_pos own] at flying
  exact idle flying

theorem settleTx_length (ice : IceSess) (tx : Tx) (state : CheckState) (errCode : Status) :
    (checkSetState (finishTx ice tx) tx.ckid state errCode).clist.length = ice.clist.length := by
  rw [checkSetState, updateCheck, finishTx, updateCheck, List.length_modify, List.length_modify]

theorem failCheck_steps (inv : Inv ice) {tx : Tx} (member : tx ∈ ice.pending) (status : Status) :
    ∃ after, failCheck (finishTx ice tx) tx.ckid status = some after ∧ Steps ice [] after := by
  have settled := settleTx_steps inv.flight member .failed status (by decide)
  have inside :
      tx.ckid < (checkSetState (finishTx ice tx) tx.ckid .failed status).clist.length := by
    rw [settleTx_length]
    exact (inv.flight.numbers tx member).2
  obtain ⟨after, done, same, steps⟩ := onCheckComplete_steps (settled.inv inv) inside
  rw [failCheck, same]
  exact ⟨after, rfl, settled.then steps⟩

theorem mappedCand_ok {check : Check} {mapped : PjSockaddr} {foundation : CStr}
    {after : IceSess} {lcand : Nat}
    (found : mappedCand ice check mapped foundation = .ok (after, lcand)) :
    (after = ice ∧ lcand < ice.lcand.length) ∨
      ∃ cand, after = { ice with lcand := ice.lcand ++ [cand] } ∧ lcand = ice.lcand.length ∧
        ice.lcand.length < pjIceMaxCand ∧ cand.compId = BitVec.ofNat 8 (compIdOf ice check) ∧
        1 ≤ compIdOf ice check ∧ compIdOf ice check ≤ ice.compCnt := by
  unfold mappedCand at found
  split at found
  case h_1 index known =>
    obtain ⟨rfl, rfl⟩ := Prod.mk.inj (Except.ok.inj found)
    exact Or.inl ⟨rfl, (List.findIdx?_eq_some_iff_getElem.mp known).1⟩
  case h_2 =>
    unfold pjIceSessAddCand at found
    split at found
    · cases found
    case isFalse within =>
      split at found
      · cases found
      case isFalse room =>
        obtain ⟨rfl, rfl⟩ := Prod.mk.inj (Except.ok.inj found)
        exact Or.inr ⟨_, rfl, rfl, Nat.lt_of_not_le room, rfl, by omega, by omega⟩

theorem addCand_within {compId compCnt : Nat} (low : 1 ≤ compId) (high : compId ≤ compCnt)
    (few : compCnt ≤ pjIceMaxComp) :
    1 ≤ (BitVec.ofNat 8 compId).toNat ∧ (BitVec.ofNat 8 compId).toNat ≤ pjIceMaxComp := by
  have small : pjIceMaxComp < 2 ^ 8 := by decide
  rw [BitVec.toNat_ofNat, Nat.mod_eq_of_lt (by omega)]
  exact ⟨low, high.trans few⟩

theorem gained_clist (clist : List Check) (lcand : Nat) (check : Check) :
    gained { ice with clist := clist } lcand check =
      (gained ice lcand check).map fun after => { after with clist := clist } := by
  rw [gained, gained, addValid, addValid]
  dsimp only
  split
  · rfl
  · split
    · rfl
    · rfl

theorem gained_none {lcand : Nat} {check : Check} (full : gained ice lcand check = none) :
    pjIceMaxChecks ≤ ice.validList.length := by
  rw [gained, addValid] at full
  split at full
  · cases full
  · split at full
    case isTrue many => exact many
    case isFalse => cases full

theorem succeedCheck_eq (ckid lcand : Nat) (check : Check) :
    succeedCheck ice ckid lcand check = (gained ice lcand check).bind fun after =>
      (onCheckComplete (checkSetState after ckid .succeeded .success) ckid).map Prod.fst := by
  rw [succeedCheck, gained]
  cases addValid ice lcand check with
  | none => rfl
  | some result => rfl

theorem gained_steps {ckid lcand : Nat} {check : Check} {cand : SessCand} {after : IceSess}
    (insideLocal : lcand < ice.lcand.length) (remote : ice.rcand[check.rcand]? = some cand)
    (here : ice.clist[ckid]? = some check) (gain : gained ice lcand check = some after) :
    Steps (checkSetState ice ckid .succeeded .success) [cand.addr]
      (checkSetState after ckid .succeeded .success) := by
  have clist : after.clist = ice.clist := by
    obtain ⟨validList, comp, rfl⟩ := gained_shape gain
    rfl
  have same : gained (checkSetState ice ckid .succeeded .success) lcand check =
      some (checkSetState after ckid .succeeded .success) := by
    rw [checkSetState, updateCheck, gained_clist, gain, Option.map_some,
      checkSetState, updateCheck, clist]
  have origin :
      ∃ c ∈ (checkSetState ice ckid .succeeded .success).clist, c.rcand = check.rcand := by
    have found : (checkSetState ice ckid .succeeded .success).clist[ckid]? =
        some (check.setState .succeeded .success) := by
      rw [checkSetState, updateCheck, List.getElem?_modify_eq, here]
      rfl
    exact ⟨_, List.mem_of_getElem? found, rfl⟩
  exact Steps.gain (@Allows.gain (checkSetState ice ckid .succeeded .success) _ lcand check cand
    insideLocal remote origin same)

/-- The pair of the check is gained, unless the valid list is full. -/
theorem succeedCheck_steps {ckid lcand : Nat} {check : Check} {cand : SessCand}
    (inv : Inv (checkSetState ice ckid .succeeded .success))
    (insideLocal : lcand < ice.lcand.length) (remote : ice.rcand[check.rcand]? = some cand)
    (here : ice.clist[ckid]? = some check) :
    (∃ after, succeedCheck ice ckid lcand check = some after ∧
      Steps (checkSetState ice ckid .succeeded .success) [cand.addr] after) ∨
    (succeedCheck ice ckid lcand check = none ∧ pjIceMaxChecks ≤ ice.validList.length) := by
  rw [succeedCheck_eq]
  cases gain : gained ice lcand check with
  | none => exact Or.inr ⟨rfl, gained_none gain⟩
  | some after =>
      have gains := gained_steps insideLocal remote here gain
      have inside : ckid < (checkSetState after ckid .succeeded .success).clist.length := by
        obtain ⟨validList, comp, rfl⟩ := gained_shape gain
        rw [checkSetState, updateCheck, List.length_modify]
        exact (List.getElem?_eq_some_iff.mp here).1
      obtain ⟨final, done, complete, steps⟩ := onCheckComplete_steps (gains.inv inv) inside
      refine Or.inl ⟨final, ?_, gains.trans steps⟩
      rw [Option.bind_some, complete]
      rfl

def Response.sources (response : Response) : List (Option PjSockaddr) :=
  if response.status = .success then [response.srcAddr] else []

/-- Without a result the valid list was full. -/
def Handles (ice : IceSess) (sources : List (Option PjSockaddr)) (result : Option IceSess) : Prop :=
  (∃ after used, result = some after ∧ Steps ice used after ∧ used.Sublist sources) ∨
    (result = none ∧ pjIceMaxChecks ≤ ice.validList.length ∧ sources ≠ [])

theorem Handles.plain {sources : List (Option PjSockaddr)} {result : Option IceSess}
    (handled : ∃ after, result = some after ∧ Steps ice [] after) : Handles ice sources result := by
  obtain ⟨after, same, steps⟩ := handled
  exact Or.inl ⟨after, [], same, steps, List.nil_sublist sources⟩

theorem succeedTx_handles (inv : Inv ice) {tx : Tx} (member : tx ∈ ice.pending) {check : Check}
    {mapped : PjSockaddr} {foundation : CStr} {middle : IceSess} {lcand : Nat} {cand : SessCand}
    (found : mappedCand (finishTx ice tx) check mapped foundation = .ok (middle, lcand))
    (remote : ice.rcand[check.rcand]? = some cand)
    (here : (finishTx ice tx).clist[tx.ckid]? = some check) :
    Handles ice [cand.addr] (succeedCheck middle tx.ckid lcand check) := by
  have settled := settleTx_steps inv.flight member .succeeded .success (by decide)
  rcases mappedCand_ok found with ⟨rfl, insideLocal⟩ | ⟨new, rfl, rfl, room, id, low, high⟩
  · rcases succeedCheck_steps (settled.inv inv) insideLocal remote here
      with ⟨after, same, steps⟩ | ⟨none', full⟩
    · exact Or.inl ⟨after, _, same, settled.trans steps, List.Sublist.refl _⟩
    · exact Or.inr ⟨none', full, List.cons_ne_nil _ _⟩
  · have within := addCand_within low high inv.arrays.compCnt
    have added : Steps (checkSetState (finishTx ice tx) tx.ckid .succeeded .success) []
        (checkSetState { finishTx ice tx with lcand := (finishTx ice tx).lcand ++ [new] } tx.ckid
          .succeeded .success) :=
      Steps.move (Allows.addLocal new room (id ▸ within.1) (id ▸ within.2)) rfl
    have insideLocal :
        (finishTx ice tx).lcand.length < ((finishTx ice tx).lcand ++ [new]).length := by
      rw [List.length_append]
      exact Nat.lt_succ_self _
    have before := settled.then added
    rcases succeedCheck_steps (before.inv inv) insideLocal remote here
      with ⟨after, same, steps⟩ | ⟨none', full⟩
    · exact Or.inl ⟨after, _, same, before.trans steps, List.Sublist.refl _⟩
    · exact Or.inr ⟨none', full, List.cons_ne_nil _ _⟩

theorem onStunRequestComplete_handles (inv : Inv ice) {tx : Tx} (member : tx ∈ ice.pending)
    (response : Response) (foundation : CStr) :
    Handles ice response.sources (onStunRequestComplete env ice tx response foundation) := by
  have inside : tx.ckid < (finishTx ice tx).clist.length := by
    rw [finishTx, updateCheck, List.length_modify]
    exact (inv.flight.numbers tx member).2
  have here := List.getElem?_eq_getElem inside
  have live : (finishTx ice tx).isDestroying = false := inv.live
  rw [onStunRequestComplete]
  dsimp only
  rw [if_neg (by rw [live]; exact Bool.false_ne_true), here]
  generalize (finishTx ice tx).clist[tx.ckid] = check at here
  dsimp only [Option.bind_eq_bind, Option.bind_some]
  by_cases conflict : response.status = .stunRoleConflict
  -- The role is taken over and the same check is sent again.
  · rw [if_pos conflict]
    refine Handles.plain ⟨_, rfl, ?_⟩
    have turned :=
      quiet_steps ice (roleAfterConflict tx.controlling) ice.prefs ice.earlyCheck ice.clistTimer
      ice.isNominating
    have waiting :=
      turned.then (settleTx_steps (turned.inv inv).flight member .waiting .success (by decide))
    have there :
      (checkSetState (finishTx { ice with role := roleAfterConflict tx.controlling } tx) tx.ckid
        .waiting .success).clist[tx.ckid]? = some (check.setState .waiting .success) := by
      rw [checkSetState, updateCheck]
      dsimp only
      rw [List.getElem?_modify_eq]
      exact congrArg (Option.map _) here
    exact waiting.then (performCheck_steps env there nofun _)
  rw [if_neg conflict]
  by_cases success : response.status = .success
  case neg =>
    rw [if_pos success]
    exact Handles.plain (failCheck_steps inv member response.status)
  rw [if_neg (not_not.mpr success)]
  split
  · exact Handles.plain (failCheck_steps inv member .eiceinsrcaddr)
  -- The answer came from where the check went.
  case isFalse answered =>
    obtain ⟨cand, remote, same⟩ :
        ∃ cand, ice.rcand[check.rcand]? = some cand ∧ cand.addr = response.srcAddr := by
      cases remote : ice.rcand[check.rcand]? with
      | none =>
          exact (answered
            (by rw [show (finishTx ice tx).rcand = ice.rcand from rfl, remote]; rfl)).elim
      | some cand =>
          refine ⟨cand, rfl, not_not.mp fun other => answered ?_⟩
          rw [show (finishTx ice tx).rcand = ice.rcand from rfl, remote]
          exact decide_eq_true other
    split
    · exact Handles.plain (failCheck_steps inv member .estunnomappedaddr)
    · split
      case h_1 status _ => exact Handles.plain (failCheck_steps inv member status)
      case h_2 middle lcand found =>
        have handled := succeedTx_handles inv member found remote here
        rw [same] at handled
        rw [Response.sources, if_pos success]
        exact handled

end Responding

section Requesting
variable (env : StunEnv) {ice : IceSess}

theorem sourceCand_steps {rcheck : RxCheck} {foundation : CStr} {after : IceSess} {rcand : Nat}
    (found : sourceCand ice rcheck foundation = some (after, rcand)) :
    Steps ice [] after ∧ after.clist = ice.clist ∧ after.lcand = ice.lcand ∧
        rcand < after.rcand.length := by
  unfold sourceCand at found
  split at found
  case h_1 index known =>
    obtain ⟨rfl, rfl⟩ := Prod.mk.inj (Option.some.inj found)
    exact ⟨Steps.refl ice, rfl, rfl, (List.findIdx?_eq_some_iff_getElem.mp known).1⟩
  case h_2 =>
    split at found
    · cases found
    case isFalse room =>
      obtain ⟨rfl, rfl⟩ := Prod.mk.inj (Option.some.inj found)
      refine ⟨Steps.move (Allows.addRemote _ (Nat.lt_of_not_le room)) rfl, rfl, rfl, ?_⟩
      rw [List.length_append]
      exact Nat.lt_succ_self _

theorem nominateValid_steps (check : Check) (indices : List Nat) :
    Steps ice [] (nominateValid check indices ice) ∧
      (nominateValid check indices ice).clist = ice.clist := by
  induction indices generalizing ice with
  | nil => exact ⟨Steps.refl ice, rfl⟩
  | cons index rest ih =>
      rw [nominateValid]
      split
      · exact ih
      case h_2 valid here =>
        split
        · obtain ⟨steps, same⟩ := @ih (updateCompCheck
            { ice with
              validList :=
                ice.validList.modify index fun valid => { valid with nominated := true } }
            (compIdOf ice valid) index)
          exact ⟨(Steps.move (Allows.nominate index valid here) rfl).then steps, same⟩
        · exact ih

theorem triggerCheck_steps (inv : Inv ice) {ckid : Nat} (inside : ckid < ice.clist.length)
    (useCandidate : Bool) :
    ∃ after, triggerCheck env ice ckid useCandidate = some after ∧ Steps ice [] after := by
  have here := List.getElem?_eq_getElem inside
  have noted : Steps ice [] (updateCheck ice ckid fun check =>
      { check with nominated := useCandidate || check.nominated }) :=
    recheck_steps (Rechecked.modify fun check _ => ⟨rfl, rfl, fun flying => ⟨flying, rfl⟩⟩)
  have there : (updateCheck ice ckid fun check =>
      { check with nominated := useCandidate || check.nominated }).clist[ckid]? =
        some { ice.clist[ckid] with nominated := useCandidate || ice.clist[ckid].nominated } := by
    rw [updateCheck, List.getElem?_modify_eq, here]
    rfl
  have inv' := noted.inv inv
  rw [triggerCheck]
  dsimp only [Option.bind_eq_bind]
  rw [there, Option.bind_some]
  generalize
    ({ ice.clist[ckid] with nominated := useCandidate || ice.clist[ckid].nominated } : Check) =
    check
    at there ⊢
  generalize updateCheck ice ckid
    (fun check => { check with nominated := useCandidate || check.nominated }) =
    middle at noted there inv' ⊢
  have inside' := (List.getElem?_eq_some_iff.mp there).1
  cases state : check.state with
  | frozen => exact ⟨_, rfl, noted.then (performCheck_steps env there (state ▸ by decide) _)⟩
  | waiting => exact ⟨_, rfl, noted.then (performCheck_steps env there (state ▸ by decide) _)⟩
  -- A check in flight has a transaction, whose number is there to retransmit.
  | inProgress =>
      obtain ⟨tx, _, _, number⟩ := inv'.flight.inFlight ckid check there state
      dsimp only
      rw [number]
      exact ⟨_, rfl, noted.then (acts_steps middle rfl)⟩
  | succeeded =>
      dsimp only
      split
      -- With USE-CANDIDATE the pairs that came from the check are nominated first.
      · obtain ⟨nominated, same⟩ :=
          @nominateValid_steps middle check (List.range middle.validList.length)
        have before := noted.then nominated
        obtain ⟨after, done, complete, steps⟩ :=
          onCheckComplete_steps (before.inv inv) (same ▸ inside')
        rw [complete]
        exact ⟨after, rfl, before.then steps⟩
      · obtain ⟨after, done, complete, steps⟩ := onCheckComplete_steps inv' inside'
        rw [complete]
        exact ⟨after, rfl, noted.then steps⟩
  | failed => exact ⟨_, rfl, noted⟩

theorem appendCheck_steps {lcand rcand : Nat} (begun : ice.clist ≠ [])
    (insideLocal : lcand < ice.lcand.length)
    (insideRemote : rcand < ice.rcand.length) (useCandidate : Bool) :
    Steps ice [] (appendCheck env ice lcand rcand useCandidate) := by
  rw [appendCheck]
  split
  case isTrue room =>
    have appended (check : Check) (first : check.lcand = lcand) (second : check.rcand = rcand)
        (waiting : check.state = .waiting) (nominate : Bool) :
        Steps ice []
          (performCheck env { ice with clist := ice.clist ++ [check] } ice.clist.length
            nominate).1 := by
      have added :=
        Steps.move (Allows.append check room begun (first ▸ insideLocal) (second ▸ insideRemote)
        waiting) rfl
      have here : (ice.clist ++ [check])[ice.clist.length]? = some check :=
        List.getElem?_concat_length
      exact added.then (performCheck_steps env here (waiting ▸ by decide) nominate)
    exact appended _ rfl rfl rfl _
  case isFalse => exact Steps.refl ice

theorem handleIncomingCheck_steps (inv : Inv ice) (rcheck : RxCheck) (foundation : CStr) :
    ∃ after, handleIncomingCheck env ice rcheck foundation = some after ∧ Steps ice [] after := by
  rw [handleIncomingCheck]
  split
  · exact ⟨ice, rfl, Steps.refl ice⟩
  case h_2 middle rcand found =>
    obtain ⟨added, clist, lcand, inside⟩ := sourceCand_steps found
    have inv' := added.inv inv
    dsimp only
    split
    · exact ⟨middle, rfl, added⟩
    case h_2 check known =>
      have member := List.mem_of_find?_eq_some known
      split
      case h_1 ckid same =>
        obtain ⟨after, done, steps⟩ := triggerCheck_steps env inv'
          (List.findIdx?_eq_some_iff_getElem.mp same).1 rcheck.useCandidate
        exact ⟨after, done, added.then steps⟩
      case h_2 =>
        exact ⟨_, rfl, added.then (appendCheck_steps env (List.ne_nil_of_mem member)
          (inv'.arrays.inside check member).lcand inside rcheck.useCandidate)⟩

theorem onStunRxRequest_steps (inv : Inv ice) (request : Request) (foundation : CStr) :
    ∃ after, onStunRxRequest env ice request foundation = some after ∧ Steps ice [] after := by
  rw [onStunRxRequest, if_neg (by rw [inv.live]; exact Bool.false_ne_true)]
  split
  · exact ⟨ice, rfl, Steps.refl ice⟩
  case h_2 priority _ =>
    split
    · exact ⟨_, rfl, acts_steps ice rfl⟩
    case h_2 role _ =>
      have turned :=
        (quiet_steps ice role ice.prefs ice.earlyCheck ice.clistTimer ice.isNominating).then
          (@acts_steps { ice with role := role } [.respond false] rfl)
      dsimp only
      split
      · exact ⟨_, rfl, turned.then (quiet_steps _ _ _ _ _ _)⟩
      · obtain ⟨after, done, steps⟩ := handleIncomingCheck_steps env (turned.inv inv)
          { compId := request.compId,
            transportId := request.transportId, srcAddr := request.srcAddr,
            useCandidate := request.useCandidate, priority } foundation
        exact ⟨after, done, turned.then steps⟩

end Requesting

section Beginning
variable (env : StunEnv) {ice : IceSess}

theorem wakeFoundations_steps (ckids : List Nat) (seen : List (Option CStr)) (done : IceSess) :
    Steps done [] (wakeFoundations ice ckids seen done) := by
  induction ckids generalizing seen done with
  | nil => exact Steps.refl done
  | cons ckid rest ih =>
      rw [wakeFoundations]
      split
      · exact ih seen done
      case h_2 check _ =>
        split
        · split
          · exact (checkSetState_steps done ckid .success (by decide)).then (ih _ _)
          · exact ih _ _
        · exact ih seen done

theorem handleEarly_steps (foundation : Nat → CStr) (rchecks : List RxCheck) (inv : Inv ice) :
    ∃ after, handleEarly env foundation rchecks ice = some after ∧ Steps ice [] after := by
  induction rchecks generalizing ice with
  | nil => exact ⟨ice, rfl, Steps.refl ice⟩
  | cons rcheck rest ih =>
      obtain ⟨middle, done, steps⟩ :=
        handleIncomingCheck_steps env inv rcheck (foundation rest.length)
      obtain ⟨after, done', steps'⟩ := ih (steps.inv inv)
      refine ⟨after, ?_, steps.then steps'⟩
      rw [handleEarly, done]
      exact done'

theorem pjIceSessStartCheck_steps (inv : Inv ice) (foundation : Nat → CStr) :
    ∃ after status, pjIceSessStartCheck env ice foundation = some (after, status) ∧
        Steps ice [] after := by
  have nominating (flag : Bool) :=
    quiet_steps ice ice.role ice.prefs ice.earlyCheck ice.clistTimer flag
  rw [pjIceSessStartCheck]
  split
  · exact ⟨_, _, rfl, Steps.refl ice⟩
  · dsimp only
    -- Aggressive nomination is noted before anything is tested.
    have first :
        Steps ice []
          (if ice.aggressive = true then { ice with isNominating := true } else ice) := by
      split
      · exact nominating true
      · exact Steps.refl ice
    generalize (if ice.aggressive = true then { ice with isNominating := true } else ice) =
      begun at first ⊢
    split
    · have woken :=
        first.then (@wakeFoundations_steps begun (List.range begun.clist.length) [] begun)
      generalize wakeFoundations begun (List.range begun.clist.length) [] begun = middle at woken ⊢
      obtain ⟨after, done, steps⟩ :=
        handleEarly_steps env foundation middle.earlyCheck (woken.inv inv)
      rw [done]
      dsimp only [Option.bind_eq_bind, Option.bind_some]
      have both := woken.then steps
      split
      · exact ⟨_, _, rfl, both.then (quiet_steps _ _ _ _ _ _)⟩
      · exact ⟨_, _, rfl, both.then (quiet_steps _ _ _ _ _ _)⟩
    · exact ⟨_, _, rfl, first⟩

end Beginning

section Expiring
variable {ice : IceSess}

theorem Inv.begun (inv : Inv ice) (armed : ice.timer ≠ .none) : 1 ≤ ice.compCnt :=
  inv.arrays.used (inv.outcome.begun armed)

theorem nominated_of_next (inv : Inv ice) (alive : ice.timer = .keepAlive) :
    ∃ comp check, ice.comp[ice.compKa]? = some comp ∧ comp.nominatedCheck = some check := by
  have begun := inv.begun (alive ▸ by decide)
  obtain ⟨complete, success⟩ := inv.outcome.alive alive
  have inUse : ice.compKa < ice.compCnt := by
    rcases inv.outcome.next with zero | less
    · omega
    · exact less
  have inside : ice.compKa < ice.comp.length := by
    rw [inv.arrays.pointed.comps]
    exact Nat.lt_of_lt_of_le inUse inv.arrays.compCnt
  have here := List.getElem?_eq_getElem inside
  have some' := (compHas_iff Comp.nominatedCheck).mp
    (inv.outcome.connected complete success) ice.compKa _ inUse here
  obtain ⟨check, pointer⟩ := Option.ne_none_iff_exists'.mp some'
  exact ⟨_, check, here, pointer⟩

theorem onTimer_steps (inv : Inv ice) (armed : ice.timer ≠ .none) :
    ∃ after, onTimer ice = some after ∧ Steps ice [] after := by
  have used : ¬ ice.compCnt = 0 := by
    have := inv.begun armed
    omega
  rw [onTimer]
  dsimp only
  rw [if_neg (by rw [inv.live]; exact Bool.false_ne_true)]
  cases type : ice.timer with
  | none => exact (armed type).elim
  -- The report, and the keep-alive timer after a success.
  | completionCallback =>
      have reported := Steps.move (Allows.report type) rfl
      dsimp only
      by_cases success : ice.iceStatus = .success
      · rw [if_pos success] at reported
        rw [if_pos success, iceKeepAlive, if_neg used]
        exact ⟨_, rfl, reported⟩
      · rw [if_neg success] at reported
        rw [if_neg success]
        exact ⟨_, rfl, reported⟩
  | controlledWaitNom =>
      have disarmed := Steps.move (Allows.disarm (Or.inl type)) rfl
      have begun := inv.outcome.begun armed
      exact ⟨_, rfl,
        disarmed.then (Steps.move (@Allows.complete { ice with timer := .none } .eicenomtimeout
        begun nofun) rfl)⟩
  | startNominatedCheck =>
      have disarmed := Steps.move (Allows.disarm (Or.inr type)) rfl
      obtain ⟨after, done, steps⟩ := @startNominatedCheck_steps { ice with timer := .none }
        (inv.arrays.same rfl rfl rfl rfl rfl rfl) (inv.outcome.nominating type)
      exact ⟨after, done, disarmed.then steps⟩
  | keepAlive =>
      -- Keep-alives are for complete sessions, so every component has a nominated pair.
      obtain ⟨comp, check, here, pointer⟩ := nominated_of_next inv type
      refine ⟨_, ?_, Steps.move (Allows.indicate check type) rfl⟩
      dsimp only
      rw [iceKeepAlive, if_neg used, if_pos rfl, sendIndication]
      dsimp only [Option.bind_eq_bind]
      rw [here, Option.bind_some, pointer]
      rfl

end Expiring

section Running
variable (env : StunEnv) {ice : IceSess}

def IceEvent.sources : IceEvent → List (Option PjSockaddr)
  | .response _ answer _ => answer.sources
  | _ => []

theorem addCand_steps {after : IceSess} {compId lcand : Nat}
    {transportId : BitVec 8} {type : IceCandType}
    {localPref : BitVec 16} {foundation : CStr}
    {addr baseAddr : Option PjSockaddr} (arrays : Arrays ice)
    (added : pjIceSessAddCand ice compId transportId type localPref foundation addr baseAddr = .ok
        (after, lcand)) :
    Steps ice [] after := by
  unfold pjIceSessAddCand at added
  split at added
  · cases added
  case isFalse within =>
    split at added
    · cases added
    case isFalse room =>
      obtain ⟨rfl, rfl⟩ := Prod.mk.inj (Except.ok.inj added)
      have bounds := @addCand_within compId ice.compCnt (by omega) (by omega) arrays.compCnt
      exact Steps.move (Allows.addLocal _ (Nat.lt_of_not_le room) bounds.1 bounds.2) rfl

/-- A first description finds neither candidates nor checks. -/
theorem first_description {event : IceEvent} (live : ice.isDestroying = false)
    (describes : event.describes = true)
    (fresh : event.again ice = false) : ice.rcand = [] ∧ ice.clist = [] := by
  rw [IceEvent.again, describes, live] at fresh
  simpa using fresh

theorem handleEvent_handles (inv : Inv ice) (event : IceEvent) (fresh : event.again ice = false) :
    Handles ice event.sources (handleEvent env ice event) ∨ event = .destroy := by
  have stays : ∃ after, some ice = some after ∧ Steps ice [] after := ⟨ice, rfl, Steps.refl ice⟩
  cases event with
  | addCand compId transportId type localPref foundation addr baseAddr =>
      refine Or.inl (Handles.plain ?_)
      rw [handleEvent]
      split
      case h_1 result added => exact ⟨result.1, rfl, addCand_steps inv.arrays added⟩
      case h_2 => exact stays
  | createCheckList rcand =>
      obtain ⟨noCands, noChecks⟩ := first_description inv.live rfl fresh
      exact Or.inl (Handles.plain ⟨_, rfl, Steps.move (Allows.pair rcand noCands noChecks) rfl⟩)
  | startCheck foundation =>
      obtain ⟨after, status, done, steps⟩ := pjIceSessStartCheck_steps env inv foundation
      exact Or.inl (Handles.plain ⟨after, by rw [handleEvent, done]; rfl, steps⟩)
  | checkTimer =>
      refine Or.inl (Handles.plain ?_)
      rw [handleEvent]
      split
      · exact ⟨_, rfl, startPeriodicCheck_steps env inv.live⟩
      · exact stays
  | timer =>
      refine Or.inl (Handles.plain ?_)
      rw [handleEvent]
      split
      · exact stays
      -- A timer that is set belongs to a session with checks.
      case isFalse armed => exact onTimer_steps inv armed
  | response number response foundation =>
      refine Or.inl ?_
      rw [handleEvent]
      split
      · exact Handles.plain stays
      case h_2 tx found =>
        exact onStunRequestComplete_handles env inv
          (List.mem_of_find?_eq_some found) response foundation
  | request request foundation =>
      exact Or.inl (Handles.plain (onStunRxRequest_steps env inv request foundation))
  | changeRole role => exact Or.inl (Handles.plain ⟨_, rfl, quiet_steps ice role _ _ _ _⟩)
  | setPrefs prefs => exact Or.inl (Handles.plain ⟨_, rfl, quiet_steps ice _ prefs _ _ _⟩)
  | destroy => exact Or.inr rfl

end Running

end NatClient.IceSession
