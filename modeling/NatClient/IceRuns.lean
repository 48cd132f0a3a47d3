import NatClient.IceTraces

/-!
Whole runs of a session, from its creation and in any order of events: that nothing is
read beyond the arrays, that completion is reported once, and where data is sent.
-/

namespace NatClient.IceSession

open CString IceTypes SwapSort Runs

section Unpaired
variable {env : StunEnv} {ice after : IceSess} {event : IceEvent}

theorem noChecks_of_noCands (inv : Inv ice) (noCands : ice.rcand = []) : ice.clist = [] := by
  refine List.eq_nil_iff_forall_not_mem.mpr fun check member => ?_
  have inside := (inv.arrays.inside check member).rcand
  rw [noCands] at inside
  exact Nat.not_lt_zero _ inside

def IceEvent.gathers : IceEvent → Bool
  | .addCand .. => true
  | _ => false

theorem unpaired_event (inv : Inv ice) (noCands : ice.rcand = []) (other : event.describes = false)
    (handled : handleEvent env ice event = some after) :
    after.rcand = [] ∧ after.compCnt = ice.compCnt ∧
        (event.gathers = false → after.lcand = ice.lcand) := by
  have noChecks := noChecks_of_noCands inv noCands
  have live : ¬ ice.isDestroying = true := by
    rw [inv.live]
    exact Bool.false_ne_true
  have stays (same : some ice = some after) :
      after.rcand = [] ∧ after.compCnt = ice.compCnt ∧
          (event.gathers = false → after.lcand = ice.lcand) :=
    Option.some.inj same ▸ ⟨noCands, rfl, fun _ => rfl⟩
  cases event with
  | addCand compId transportId type localPref foundation addr baseAddr =>
      rw [handleEvent] at handled
      split at handled
      case h_1 result added =>
        obtain rfl := Option.some.inj handled
        unfold pjIceSessAddCand at added
        split at added
        · cases added
        · split at added
          · cases added
          · obtain rfl := Except.ok.inj added
            exact ⟨noCands, rfl, fun other' => by cases other'⟩
      case h_2 => exact stays handled
  -- The only event that reads a description.
  | createCheckList => cases other
  | startCheck foundation =>
      rw [handleEvent, pjIceSessStartCheck, if_pos noChecks] at handled
      exact stays handled
  | checkTimer =>
      rw [handleEvent] at handled
      split at handled
      · have nothing (state : CheckState) :
            firstIn { ice with clistTimer := false } state = none := by
          rw [firstIn]
          dsimp only
          rw [noChecks, List.findIdx?_nil]
        rw [startPeriodicCheck, if_neg live] at handled
        dsimp only at handled
        rw [nothing, nothing, Option.or_none] at handled
        exact Option.some.inj handled ▸ ⟨noCands, rfl, fun _ => rfl⟩
      · exact stays handled
  | timer =>
      rw [handleEvent, if_pos (inv.outcome.unbegun noChecks).2.1] at handled
      exact stays handled
  | response number response foundation =>
      -- A transaction belongs to a check, and there is none.
      have nothing : ice.pending = [] := by
        refine List.eq_nil_iff_forall_not_mem.mpr fun tx member => ?_
        have inside := (inv.flight.numbers tx member).2
        rw [noChecks] at inside
        exact Nat.not_lt_zero _ inside
      rw [handleEvent, nothing, List.find?_nil] at handled
      exact stays handled
  | request request foundation =>
      rw [handleEvent, onStunRxRequest, if_neg live] at handled
      split at handled
      · exact stays handled
      · split at handled
        · exact Option.some.inj handled ▸ ⟨noCands, rfl, fun _ => rfl⟩
        -- Without remote candidates the request is kept for later.
        · dsimp only [act] at handled
          rw [if_pos noCands] at handled
          exact Option.some.inj handled ▸ ⟨noCands, rfl, fun _ => rfl⟩
  | changeRole role => exact Option.some.inj handled ▸ ⟨noCands, rfl, fun _ => rfl⟩
  | setPrefs prefs => exact Option.some.inj handled ▸ ⟨noCands, rfl, fun _ => rfl⟩
  | destroy =>
      obtain rfl := Option.some.inj handled
      rw [destroyIce, if_neg live]
      exact ⟨noCands, rfl, fun _ => rfl⟩

end Unpaired

section Running
variable (env : StunEnv) {ice : IceSess}

def answered (events : List IceEvent) : List (Option PjSockaddr) := events.flatMap IceEvent.sources

def newSession (role : Role) (compCnt : Nat) (tieBreaker : BitVec 64) (aggressive : Bool)
    (controlledAgentWantNomTimeout : Int) : IceSess :=
  pjIceSessSetOptions (pjIceSessCreate role compCnt tieBreaker)
    aggressive controlledAgentWantNomTimeout

theorem created_inv (role : Role) {compCnt : Nat} (tieBreaker : BitVec 64)
    (aggressive : Bool) (timeout : Int)
    (few : compCnt ≤ pjIceMaxComp) :
    Inv (newSession role compCnt tieBreaker aggressive timeout) where
  arrays := {
    pointed := {
      comps := List.length_replicate
      inside := fun comp member index pointer => by
        rw [List.eq_of_mem_replicate member] at pointer
        rcases pointer with first | second
        · cases first
        · cases second
      best := fun k comp _ here => by
        obtain rfl := List.eq_of_mem_replicate (List.mem_of_getElem? here)
        exact ⟨fun _ _ _ _ found => (nomatch found), nofun, nofun⟩ }
    compCnt := few
    lcands := Nat.zero_le _
    rcands := Nat.zero_le _
    checks := Nat.zero_le _
    valids := Nat.zero_le _
    compIds := nofun
    inside := nofun
    insideValid := nofun
    sorted := List.Pairwise.nil
    used := fun some' => (some' rfl).elim }
  flight := ⟨nofun, List.nodup_nil, fun p check here => by cases here⟩
  outcome :=
    ⟨fun _ => ⟨rfl, nofun, nofun⟩, nofun, nofun, nofun, nofun, Or.inl rfl, fun _ => ⟨rfl, rfl, rfl⟩⟩
  live := rfl

theorem iceRun_destroyed (destroyed : ice.isDestroying = true) (events : List IceEvent) :
    iceRun env ice events = some ice := by
  induction events with
  | nil => rfl
  | cons event rest ih =>
      have fresh : ¬ event.again ice = true := by
        rw [IceEvent.again, destroyed, Bool.not_true, Bool.and_false, Bool.false_and]
        exact Bool.false_ne_true
      rw [iceRun, if_neg fresh, iceStep, if_pos destroyed]
      exact ih

theorem validList_grows {move : Move} {after : IceSess} (arrays : Arrays ice)
    (allowed : Allows ice move after) :
    after.validList.length ≤ ice.validList.length + move.source.toList.length := by
  cases allowed with
  | pair rcand noCands noChecks =>
      obtain ⟨known, clist, compCnt, comp, same, _⟩ := arrays.pair_shape rcand noCands noChecks
      rw [same]
      exact Nat.le_refl _
  | gain lcand check cand insideLocal remote origin' gain =>
      obtain ⟨validList, comp, rfl, _, grows, _⟩ :=
        arrays.gain_spec insideLocal gain
      -- One pair, unless the list is full.
      exact grows
  | nominate index valid here => exact (List.length_modify _ _ _).le
  | complete status =>
      unfold onIceComplete
      split <;> exact Nat.le_refl _
  | quiet => exact Nat.le_refl _
  | addLocal => exact Nat.le_refl _
  | addRemote => exact Nat.le_refl _
  | append => exact Nat.le_refl _
  | recheck => exact Nat.le_refl _
  | launch => exact Nat.le_refl _
  | arm => exact Nat.le_refl _
  | disarm => exact Nat.le_refl _
  | report => exact Nat.le_refl _
  | indicate => exact Nat.le_refl _

theorem Steps.grows {used : List (Option PjSockaddr)} {after : IceSess}
    (steps : Steps ice used after)
    (inv : Inv ice) : after.validList.length ≤ ice.validList.length + used.length := by
  obtain ⟨moves, trace, rfl⟩ := steps
  induction moves generalizing ice with
  | nil => exact (show ice = after from trace) ▸ Nat.le_refl _
  | cons move rest ih =>
      obtain ⟨next, allowed, later⟩ := trace
      have first := validList_grows inv.arrays allowed
      have second := ih (inv.kept allowed) later
      cases source : move.source with
      | none =>
          rw [source, Option.toList_none, List.length_nil] at first
          rw [List.filterMap_cons_none source]
          omega
      | some addr =>
          rw [source, Option.toList_some, List.length_singleton] at first
          rw [List.filterMap_cons_some source, List.length_cons]
          omega

def paired (ice : IceSess) : Nat := if ice.rcand = [] then 0 else 1

def descriptions (events : List IceEvent) : Nat := events.countP IceEvent.describes

theorem paired_le (ice : IceSess) : paired ice ≤ 1 := by
  rw [paired]
  split <;> decide

theorem again_paired {event : IceEvent} (inv : Inv ice) (again : event.again ice = true) :
    event.describes = true ∧ paired ice = 1 := by
  rw [IceEvent.again, inv.live, Bool.and_eq_true, Bool.and_eq_true] at again
  refine ⟨again.1.1, if_neg fun noCands => ?_⟩
  rw [noCands, noChecks_of_noCands inv noCands] at again
  exact Bool.false_ne_true again.2

theorem iceRun_cons {event : IceEvent} (rest : List IceEvent) (live : ice.isDestroying = false)
    (fresh : ¬ event.again ice = true) :
    iceRun env ice (event :: rest) = (handleEvent env ice event).bind fun middle =>
        iceRun env middle rest := by
  rw [iceRun, if_neg fresh, iceStep, if_neg (by rw [live]; exact Bool.false_ne_true)]
  rfl

/-- A run is a sequence of moves, and maybe a destruction. Without a result, there were more
answers than the valid list has room for, or two descriptions. -/
theorem iceRun_spec (inv : Inv ice) (events : List IceEvent) :
    (∃ before used, Steps ice used before ∧ used.Sublist (answered events) ∧
      (iceRun env ice events = some before ∨ iceRun env ice events = some (destroyIce before))) ∨
    (iceRun env ice events = none ∧
      (pjIceMaxChecks < ice.validList.length + (answered events).length ∨
        1 < paired ice + descriptions events)) := by
  induction events generalizing ice with
  | nil => exact Or.inl ⟨ice, [], Steps.refl ice, List.Sublist.refl _, Or.inl rfl⟩
  | cons event rest ih =>
      have lengths :
          (answered (event :: rest)).length = event.sources.length + (answered rest).length := by
        rw [answered, List.flatMap_cons, List.length_append]
        rfl
      have counts :
          descriptions (event :: rest) = descriptions rest + if event.describes then 1 else 0 :=
        List.countP_cons
      by_cases again : event.again ice = true
      · obtain ⟨describes, before⟩ := again_paired inv again
        rw [if_pos describes] at counts
        refine Or.inr ⟨by rw [iceRun, if_pos again]; rfl, Or.inr ?_⟩
        omega
      rw [iceRun_cons env rest inv.live again]
      rcases handleEvent_handles env inv event (Bool.eq_false_iff.mpr again) with
        (⟨middle, used, done, steps, fewer⟩ | ⟨failed, full, some'⟩) | rfl
      · rw [done, Option.bind_some]
        rcases ih (steps.inv inv)
          with ⟨before, later, steps', fewer', ended⟩ | ⟨failed, full | twice⟩
        · refine Or.inl ⟨before, used ++ later, steps.trans steps', ?_, ended⟩
          rw [answered, List.flatMap_cons]
          exact fewer.append fewer'
        · have grown := steps.grows inv
          have short := fewer.length_le
          exact Or.inr ⟨failed, Or.inl (by omega)⟩
        · refine Or.inr ⟨failed, Or.inr ?_⟩
          by_cases describes : event.describes = true
          · rw [if_pos describes] at counts
            have once := paired_le middle
            omega
          · rw [if_neg describes] at counts
            -- What is no description leaves an unpaired session unpaired.
            have fewer' : paired middle ≤ paired ice := by
              by_cases noCands : ice.rcand = []
              · have still := (unpaired_event inv noCands (Bool.eq_false_iff.mpr describes) done).1
                rw [paired, if_pos still]
                exact Nat.zero_le _
              · rw [show paired ice = 1 from if_neg noCands]
                exact paired_le middle
            omega
      · rw [failed]
        have positive := List.length_pos_of_ne_nil some'
        exact Or.inr ⟨rfl, Or.inl (by omega)⟩
      · have gone : (destroyIce ice).isDestroying = true := by
          rw [destroyIce, if_neg (by rw [inv.live]; exact Bool.false_ne_true)]
        exact Or.inl
          ⟨ice, [], Steps.refl ice, List.nil_sublist _, Or.inr (iceRun_destroyed env gone rest)⟩

/-- The state that a run reaches is that of a sequence of moves, apart from its timers and
transactions when the session is destroyed. -/
theorem reached_spec (inv : Inv ice) {events : List IceEvent} {reached : IceSess}
    (ran : iceRun env ice events = some reached) :
    ∃ before used, Steps ice used before ∧ used.Sublist (answered events) ∧
      (reached = before ∨ reached = destroyIce before) := by
  rcases iceRun_spec env inv events with ⟨before, used, steps, fewer, same | same⟩ | ⟨failed, _⟩
  · rw [ran] at same
    exact ⟨before, used, steps, fewer, Or.inl (Option.some.inj same)⟩
  · rw [ran] at same
    exact ⟨before, used, steps, fewer, Or.inr (Option.some.inj same)⟩
  · rw [ran] at failed
    cases failed

theorem destroyIce_eq (inv : Inv ice) : destroyIce ice =
    { ice with isDestroying := true, timer := .none, clistTimer := false, pending := [] } := by
  rw [destroyIce, if_neg (by rw [inv.live]; exact Bool.false_ne_true)]

end Running

section Hosts

def allSent : StunEnv := fun _ => .sent

def hostEvents : List IceEvent :=
  [.addCand 1 0 .host 65535 [] (some hostAddr) (some hostAddr), .createCheckList [peerCand],
   .startCheck fun _ => [], .checkTimer,
     .response 0 ⟨.success, some peerAddr, some hostAddr⟩ [], .timer]

def hostSession : IceSess := newSession .controlling 1 0 true 10000

def hostEnd : IceSess := (iceRun allSent hostSession hostEvents).get (by decide)

theorem hostEvents_ran : iceRun allSent hostSession hostEvents = some hostEnd :=
  (Option.some_get _).symm

end Hosts

section Faults

/-- In every run of a session all indices stay within their arrays, the valid list is
sorted with the components pointing to their highest pairs, and each check in progress
has its transaction. No NULL pointer is followed. A run lacks a result only after more than
32 successful answers, or with a second description. -/
theorem session_runs_in_bounds (env : StunEnv) (role : Role)
    {compCnt : Nat} (tieBreaker : BitVec 64)
    (aggressive : Bool) (timeout : Int) (few : compCnt ≤ pjIceMaxComp) (events : List IceEvent) :
    (∀ reached,
      iceRun env (newSession role compCnt tieBreaker aggressive timeout) events = some reached →
      Arrays reached ∧ (reached.isDestroying = false → Flight reached)) ∧
    (iceRun env (newSession role compCnt tieBreaker aggressive timeout) events = none →
      pjIceMaxChecks < (answered events).length ∨ 1 < descriptions events) := by
  have inv := created_inv role tieBreaker aggressive timeout few
  refine ⟨fun reached ran => ?_, fun failed => ?_⟩
  · obtain ⟨before, used, steps, _, rfl | rfl⟩ := reached_spec env inv ran
    · exact ⟨(steps.inv inv).arrays, fun _ => (steps.inv inv).flight⟩
    · rw [destroyIce_eq (steps.inv inv)]
      exact ⟨(steps.inv inv).arrays.same rfl rfl rfl rfl rfl rfl, nofun⟩
  · rcases iceRun_spec env inv events with ⟨before, used, _, _, same | same⟩ | ⟨_, full⟩
    · rw [failed] at same
      cases same
    · rw [failed] at same
      cases same
    · have empty :
        (newSession role compCnt tieBreaker aggressive timeout).validList.length = 0 := rfl
      have unpaired : paired (newSession role compCnt tieBreaker aggressive timeout) = 0 := rfl
      rcases full with full | twice
      · exact Or.inl (by omega)
      · exact Or.inr (by omega)

theorem session_runs_in_bounds_hosts : Arrays hostEnd ∧ Flight hostEnd := by
  have bounds := session_runs_in_bounds allSent .controlling 0 true 10000
    (by decide : 1 ≤ pjIceMaxComp) hostEvents
  obtain ⟨arrays, flight⟩ := bounds.1 hostEnd hostEvents_ran
  exact ⟨arrays, flight (by decide)⟩

end Faults

section Reports
variable {ice : IceSess}

/-- The outcome of a complete session, which later moves leave as it is. -/
structure SameOutcome (before after : IceSess) : Prop where
  complete : before.isComplete = true → after.isComplete = true ∧ after.iceStatus = before.iceStatus
  reported : reports before <+: reports after

theorem SameOutcome.refl (ice : IceSess) : SameOutcome ice ice :=
  ⟨fun complete => ⟨complete, rfl⟩, List.prefix_refl _⟩

theorem SameOutcome.trans {first second third : IceSess} (before : SameOutcome first second)
    (after : SameOutcome second third) : SameOutcome first third where
  complete := fun complete => by
    obtain ⟨complete', same⟩ := before.complete complete
    obtain ⟨complete'', same'⟩ := after.complete complete'
    exact ⟨complete'', same'.trans same⟩
  reported := before.reported.trans after.reported

theorem allows_sameOutcome {move : Move} {after : IceSess} (arrays : Arrays ice)
    (allowed : Allows ice move after) : SameOutcome ice after := by
  have same := SameOutcome.refl ice
  cases allowed with
  | quiet role prefs early clistTimer nominating performed acts actions later grown silent =>
      refine ⟨same.complete, ?_⟩
      rw [reports, reports, grown, List.filterMap_append, silent, List.append_nil]
  | pair rcand noCands noChecks =>
      obtain ⟨known, clist, compCnt, comp, shape, _⟩ := arrays.pair_shape rcand noCands noChecks
      rw [shape]
      exact ⟨same.complete, same.reported⟩
  | gain lcand check cand insideLocal remote origin' gain =>
      obtain ⟨validList, comp, rfl⟩ := gained_shape gain
      exact ⟨same.complete, same.reported⟩
  | complete status =>
      unfold onIceComplete
      split
      · exact same
      -- A session that is complete already keeps its status.
      case isFalse incomplete => exact ⟨fun complete => (incomplete complete).elim, same.reported⟩
  | report due =>
      refine ⟨same.complete, ?_⟩
      rw [reports, reports, act]
      dsimp only
      rw [List.filterMap_append]
      exact List.prefix_append _ _
  | indicate check due =>
      refine ⟨same.complete, ?_⟩
      rw [reports, reports, act]
      dsimp only
      rw [List.filterMap_append]
      exact List.prefix_append _ _
  | addLocal => exact ⟨same.complete, same.reported⟩
  | addRemote => exact ⟨same.complete, same.reported⟩
  | append => exact ⟨same.complete, same.reported⟩
  | recheck => exact ⟨same.complete, same.reported⟩
  | launch => exact ⟨same.complete, same.reported⟩
  | nominate => exact ⟨same.complete, same.reported⟩
  | arm => exact ⟨same.complete, same.reported⟩
  | disarm => exact ⟨same.complete, same.reported⟩

theorem Steps.sameOutcome {used : List (Option PjSockaddr)} {after : IceSess}
    (steps : Steps ice used after) (inv : Inv ice) : SameOutcome ice after := by
  obtain ⟨moves, trace, rfl⟩ := steps
  induction moves generalizing ice with
  | nil => exact (show ice = after from trace) ▸ SameOutcome.refl ice
  | cons move rest ih =>
      obtain ⟨next, allowed, later⟩ := trace
      exact (allows_sameOutcome inv.arrays allowed).trans (ih (inv.kept allowed) later)

variable (env : StunEnv)

theorem destroyed_sameOutcome (inv : Inv ice) : SameOutcome ice (destroyIce ice) := by
  rw [destroyIce_eq inv]
  exact ⟨fun complete => ⟨complete, rfl⟩, List.prefix_refl _⟩

theorem later_sameOutcome (inv : Inv ice) {events : List IceEvent} {reached : IceSess}
    (ran : iceRun env ice events = some reached) : SameOutcome ice reached := by
  obtain ⟨before, used, steps, _, rfl | rfl⟩ := reached_spec env inv ran
  · exact steps.sameOutcome inv
  · exact (steps.sameOutcome inv).trans (destroyed_sameOutcome (steps.inv inv))

/-- The application hears of completion at most once, with the status that the session
keeps from then on; before that the callback is due, and a success has a nominated pair
for every component. -/
theorem completion_reported_once (role : Role) {compCnt : Nat} (tieBreaker : BitVec 64)
    (aggressive : Bool) (timeout : Int) (few : compCnt ≤ pjIceMaxComp)
    {events : List IceEvent} {reached : IceSess}
    (ran :
      iceRun env (newSession role compCnt tieBreaker aggressive timeout) events = some reached) :
    (reached.isComplete = false → reports reached = []) ∧
    (reached.isComplete = true →
      (reports reached = [reached.iceStatus] ∨
        (reports reached = [] ∧
          (reached.timer = .completionCallback ∨ reached.isDestroying = true))) ∧
      (reached.iceStatus = .success → compHas reached Comp.nominatedCheck = true)) ∧
    ∀ later final, iceRun env reached later = some final → SameOutcome reached final := by
  have inv := created_inv role tieBreaker aggressive timeout few
  obtain ⟨before, used, steps, _, rfl | rfl⟩ := reached_spec env inv ran
  · have holds := steps.inv inv
    refine ⟨fun running => (holds.outcome.running running).1, fun complete =>
      ⟨?_, holds.outcome.connected complete⟩,
      fun later final ran' => later_sameOutcome env holds ran'⟩
    rcases holds.outcome.reported complete with ⟨unreported, due⟩ | ⟨reported, _⟩
    · exact Or.inr ⟨unreported, Or.inl due⟩
    · exact Or.inl reported
  · have holds := steps.inv inv
    rw [destroyIce_eq holds]
    refine ⟨fun running => (holds.outcome.running running).1, fun complete =>
      ⟨?_, holds.outcome.connected complete⟩,
      fun later final ran' => ?_⟩
    · rcases holds.outcome.reported complete with ⟨unreported, _⟩ | ⟨reported, _⟩
      · exact Or.inr ⟨unreported, Or.inr rfl⟩
      · exact Or.inl reported
    · rw [iceRun_destroyed env rfl later] at ran'
      rw [← Option.some.inj ran']
      exact SameOutcome.refl _

theorem completion_reported_once_hosts :
    reports hostEnd = [.success] ∧
      ∀ later final, iceRun allSent hostEnd later = some final → SameOutcome hostEnd final :=
  ⟨by decide,
    (completion_reported_once allSent .controlling 0 true 10000 (by decide : 1 ≤ pjIceMaxComp)
      hostEvents_ran).2.2⟩

end Reports

section Answered
variable {ice : IceSess}

def ValidAnswered (known : List (Option PjSockaddr)) (ice : IceSess) : Prop :=
  ∀ v ∈ ice.validList, ∃ cand, ice.rcand[v.rcand]? = some cand ∧ cand.addr ∈ known

theorem ValidAnswered.mono {known more : List (Option PjSockaddr)}
    (answers : ValidAnswered known ice) (within : known ⊆ more) : ValidAnswered more ice := by
  intro v member
  obtain ⟨cand, here, heard⟩ := answers v member
  exact ⟨cand, here, within heard⟩

theorem validAnswered_kept {known : List (Option PjSockaddr)} {move : Move} {after : IceSess}
    (arrays : Arrays ice) (answers : ValidAnswered known ice) (allowed : Allows ice move after) :
    ValidAnswered (known ++ move.source.toList) after := by
  have same : ValidAnswered (known ++ []) ice := answers.mono (List.subset_append_left known [])
  cases allowed with
  | addRemote cand room =>
      intro v member
      obtain ⟨other, here, heard⟩ := same v member
      refine ⟨other, ?_, heard⟩
      dsimp only
      rw [List.getElem?_append_left (List.getElem?_eq_some_iff.mp here).1]
      exact here
  -- No pair is valid before there are remote candidates.
  | pair rcand noCands noChecks =>
      obtain ⟨known', clist, compCnt, comp, shape, _⟩ := arrays.pair_shape rcand noCands noChecks
      rw [shape]
      intro v member
      obtain ⟨other, here, _⟩ := answers v member
      rw [noCands] at here
      cases here
  | gain lcand check cand insideLocal remote origin' gain =>
      obtain ⟨validList, comp, rfl, _, _, _, origin, _⟩ :=
        arrays.gain_spec insideLocal gain
      intro v member
      -- The new pair goes to the address that has just answered, the others are as old as their
      -- answers.
      rcases origin v member with ⟨_, second⟩ | ⟨w, member', _, second⟩
      · refine ⟨cand, second ▸ remote, List.mem_append_right known ?_⟩
        exact List.mem_singleton_self _
      · obtain ⟨other, here', heard⟩ := answers w member'
        exact ⟨other, second ▸ here', List.mem_append_left _ heard⟩
  | nominate index valid here =>
      intro v member
      obtain ⟨w, member', _, second⟩ := mem_modify_nominated member
      obtain ⟨other, here', heard⟩ := same w member'
      exact ⟨other, second ▸ here', heard⟩
  | complete status =>
      unfold onIceComplete
      split <;> exact same
  | quiet => exact same
  | addLocal => exact same
  | append => exact same
  | recheck => exact same
  | launch => exact same
  | arm => exact same
  | disarm => exact same
  | report => exact same
  | indicate => exact same

theorem Steps.validAnswered {known used : List (Option PjSockaddr)} {after : IceSess}
    (steps : Steps ice used after) (inv : Inv ice) (answers : ValidAnswered known ice) :
    ValidAnswered (known ++ used) after := by
  obtain ⟨moves, trace, rfl⟩ := steps
  induction moves generalizing ice known with
  | nil => exact (show ice = after from trace) ▸ answers.mono (List.subset_append_left known [])
  | cons move rest ih =>
      obtain ⟨next, allowed, later⟩ := trace
      have further := ih (inv.kept allowed) (validAnswered_kept inv.arrays answers allowed) later
      cases source : move.source with
      | none =>
          rw [source, Option.toList_none, List.append_nil] at further
          rw [List.filterMap_cons_none source]
          exact further
      | some addr =>
          rw [source, Option.toList_some, List.append_assoc, List.singleton_append] at further
          rw [List.filterMap_cons_some source]
          exact further

/-- Data of a component goes along its highest valid pair, whose address has answered. -/
structure SendsAlong (ice : IceSess) (answers : List (Option PjSockaddr))
    (compId : Nat) (valid : Check) (sent : Option (BitVec 8) × Option PjSockaddr) : Prop where
  listed : valid ∈ ice.validList
  own : compIdOf ice valid = compId
  highest : ∀ w ∈ ice.validList, compIdOf ice w = compId → prioKey w ≤ prioKey valid
  transport : sent.1 = transportOf ice valid
  address : ∃ cand, ice.rcand[valid.rcand]? = some cand ∧ sent.2 = cand.addr
  answered : sent.2 ∈ answers

theorem sendData_spec {answers : List (Option PjSockaddr)} {compId : Nat} (arrays : Arrays ice)
    (heard : ValidAnswered answers ice) :
    (∀ sent, pjIceSessSendData ice compId = .ok sent →
      ∃ valid, SendsAlong ice answers compId valid sent) ∧
    (1 ≤ compId → compId ≤ ice.compCnt → ice.isDestroying = false →
      compHas ice Comp.validCheck = true →
      ∃ sent, pjIceSessSendData ice compId = .ok sent) := by
  rw [pjIceSessSendData]
  -- The three tests of the source, in its order.
  by_cases zero : compId = 0
  · rw [if_pos zero]
    refine ⟨fun sent same => ?_, fun low => ?_⟩
    · cases same
    · omega
  rw [if_neg zero]
  by_cases above : compId > ice.compCnt
  · rw [if_pos above]
    refine ⟨fun sent same => ?_, fun _ high => ?_⟩
    · cases same
    · omega
  rw [if_neg above]
  by_cases gone : ice.isDestroying = true
  · rw [if_pos gone]
    refine ⟨fun sent same => ?_, fun _ _ live => ?_⟩
    · cases same
    · rw [gone] at live
      cases live
  rw [if_neg gone]
  have inUse : compId - 1 < ice.compCnt := by omega
  have inside : compId - 1 < ice.comp.length := by
    rw [arrays.pointed.comps]
    exact Nat.lt_of_lt_of_le inUse arrays.compCnt
  obtain ⟨comp, here⟩ : ∃ comp, ice.comp[compId - 1]? = some comp :=
    ⟨_, List.getElem?_eq_getElem inside⟩
  -- The pointer of the component leads to its highest valid pair.
  have best := arrays.pointed.best (compId - 1) comp inUse here
  rw [Nat.sub_add_cancel (by omega)] at best
  rw [here, Option.bind_some]
  cases pointer : comp.validCheck with
  | none =>
      refine ⟨fun sent same => ?_, fun _ _ _ all => ?_⟩
      · cases same
      · exact ((compHas_iff Comp.validCheck).mp all (compId - 1) comp inUse here pointer).elim
  | some index =>
      obtain ⟨valid, found, own, high⟩ := best.top index pointer
      obtain ⟨cand, remote, answer⟩ := heard valid (List.mem_of_getElem? found)
      rw [Option.bind_some, found]
      dsimp only
      refine ⟨fun sent same => ⟨valid, ?_⟩, fun _ _ _ _ => ⟨_, rfl⟩⟩
      obtain rfl := Except.ok.inj same
      have address : (ice.rcand[valid.rcand]?).bind (fun cand => cand.addr) = cand.addr := by
        rw [remote, Option.bind_some]
      exact {
        listed := List.mem_of_getElem? found
        own := own
        highest := fun w member => by
          obtain ⟨p, there⟩ := List.getElem?_of_mem member
          exact high p w (Option.some_ne_none p) there
        transport := rfl
        address := ⟨cand, remote, address⟩
        answered := address ▸ answer }

/-- In every run data is sent only along the highest valid pair of the component, to an
address from which a successful answer has come; and after a successful completion it is
sent for every component, until the session is destroyed. -/
theorem data_follows_answers (env : StunEnv) (role : Role) {compCnt : Nat} (tieBreaker : BitVec 64)
    (aggressive : Bool) (timeout : Int) (few : compCnt ≤ pjIceMaxComp)
    {events : List IceEvent} {reached : IceSess}
    (ran : iceRun env (newSession role compCnt tieBreaker aggressive timeout) events = some reached)
    (compId : Nat) :
    (∀ sent, pjIceSessSendData reached compId = .ok sent →
      ∃ valid, SendsAlong reached (answered events) compId valid sent) ∧
    (reached.isComplete = true → reached.iceStatus = .success → reached.isDestroying = false →
      1 ≤ compId → compId ≤ reached.compCnt →
          ∃ sent, pjIceSessSendData reached compId = .ok sent) := by
  have inv := created_inv role tieBreaker aggressive timeout few
  obtain ⟨before, used, steps, fewer, same⟩ := reached_spec env inv ran
  have holds := steps.inv inv
  have heard : ValidAnswered (answered events) before :=
    (@Steps.validAnswered _ [] used before steps inv nofun).mono fewer.subset
  rcases same with rfl | rfl
  · obtain ⟨along, sends⟩ := @sendData_spec reached (answered events) compId holds.arrays heard
    -- A success needs a nominated pair for every component, and such a pair is valid.
    refine ⟨along, fun complete success live low high => sends low high live ?_⟩
    refine (compHas_iff Comp.validCheck).mpr fun k comp inUse here => ?_
    exact (holds.arrays.pointed.best k comp inUse here).valid_of_nominated
      ((compHas_iff Comp.nominatedCheck).mp
        (holds.outcome.connected complete success) k comp inUse here)
  · have shape := destroyIce_eq holds
    have arrays : Arrays (destroyIce before) := by
      rw [shape]
      exact holds.arrays.same rfl rfl rfl rfl rfl rfl
    have heard' : ValidAnswered (answered events) (destroyIce before) := by
      rw [shape]
      exact heard
    refine ⟨(@sendData_spec _ (answered events) compId arrays heard').1, fun _ _ live => ?_⟩
    rw [shape] at live
    cases live

theorem data_follows_answers_hosts :
    ∃ valid, SendsAlong hostEnd [some peerAddr] 1 valid (some 0, some peerAddr) :=
  (data_follows_answers allSent .controlling 0 true 10000
    (by decide : 1 ≤ pjIceMaxComp) hostEvents_ran 1).1 _
    (by decide)

end Answered

end NatClient.IceSession
