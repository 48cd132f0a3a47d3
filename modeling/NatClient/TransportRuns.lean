import NatClient.TransportSessions

/-!
Runs of a stream transport, from its creation and in any order of events: its candidates
stay within their arrays, the application is told of every result once, and data goes where
the session found a pair.
-/

namespace NatClient.IceTransport

open CString IceTypes IceSession IceLifetime

section Creating
variable {ice after : IceSess} {comps : Nat}

structure NewSession (comps : Nat) (ice : IceSess) : Prop where
  inv : Inv ice
  compCnt : ice.compCnt = comps
  noValid : ice.validList = []
  silent : reports ice = []

theorem NewSession.addCand (new : NewSession comps ice) {compId : Nat}
    {cand : GatheredCand} {lcand : Nat}
    (added : pjIceSessAddCand ice compId cand.transportId cand.type localPref
        cand.foundation cand.addr cand.baseAddr =
      .ok (after, lcand)) :
    NewSession comps after ∧ after.prefs = ice.prefs ∧
        after.lcand = ice.lcand ++ [sessCand ice.prefs compId cand] := by
  have inv := (addCand_steps new.inv.arrays added).inv new.inv
  unfold pjIceSessAddCand at added
  split at added
  · cases added
  · split at added
    · cases added
    · obtain ⟨rfl, _⟩ := Prod.mk.inj (Except.ok.inj added)
      exact ⟨⟨inv, new.compCnt, new.noValid, new.silent⟩, rfl, rfl⟩

theorem NewSession.addCands (new : NewSession comps ice) {compId : Nat}
    {candList : List GatheredCand} (added : addCands compId candList ice = .ok after) :
    NewSession comps after ∧ after.prefs = ice.prefs ∧
      after.lcand = ice.lcand ++ (candList.filter isReady).map (sessCand ice.prefs compId) := by
  induction candList generalizing ice with
  | nil =>
      obtain rfl := Except.ok.inj added
      exact ⟨new, rfl, (List.append_nil _).symm⟩
  | cons cand rest ih =>
      rw [IceTransport.addCands] at added
      split at added
      case isTrue ready =>
        cases first :
          pjIceSessAddCand ice compId cand.transportId cand.type localPref cand.foundation cand.addr
            cand.baseAddr with
        | error status =>
            rw [first] at added
            cases added
        | ok result =>
            rw [first] at added
            obtain ⟨middle, prefs, lcand⟩ := new.addCand first
            obtain ⟨later, prefs', lcand'⟩ := ih middle added
            refine ⟨later, prefs'.trans prefs, ?_⟩
            rw [lcand', lcand, prefs,
              List.filter_cons_of_pos (show isReady cand = true from decide_eq_true ready),
              List.map_cons, List.append_assoc]
            rfl
      -- A candidate that is not ready is passed over.
      case isFalse waits =>
        obtain ⟨later, prefs, lcand⟩ := ih new added
        rw [List.filter_cons_of_neg
          (show ¬ isReady cand = true from fun ready => waits (of_decide_eq_true ready))]
        exact ⟨later, prefs, lcand⟩

theorem NewSession.addComps (new : NewSession comps ice) {compId : Nat} {list : List TransComp}
    (added : addComps compId list ice = .ok after) :
    NewSession comps after ∧ after.prefs = ice.prefs ∧
        after.lcand = ice.lcand ++ readyCands ice.prefs compId list := by
  induction list generalizing ice compId with
  | nil =>
      obtain rfl := Except.ok.inj added
      exact ⟨new, rfl, (List.append_nil _).symm⟩
  | cons comp rest ih =>
      rw [IceTransport.addComps] at added
      cases first : IceTransport.addCands compId comp.candList ice with
      | error status =>
          rw [first] at added
          cases added
      | ok middle =>
          rw [first] at added
          obtain ⟨begun, prefs, lcand⟩ := new.addCands first
          obtain ⟨later, prefs', lcand'⟩ := ih begun added
          refine ⟨later, prefs'.trans prefs, ?_⟩
          rw [lcand', lcand, prefs, readyCands, readyOf, List.append_assoc]

theorem createCheckList_comps (rcand : List IceSessCand) (noChecks : ice.clist = []) :
    (pjIceSessCreateCheckList ice rcand).1.compCnt = ice.compCnt ∨
      (pjIceSessCreateCheckList ice rcand).1.rcand ≠ [] := by
  unfold pjIceSessCreateCheckList
  split
  · exact Or.inl rfl
  split
  · exact Or.inl rfl
  dsimp only
  split
  · exact Or.inl rfl
  split
  · exact Or.inl rfl
  case isFalse some' =>
    split
    · exact Or.inl rfl
    · refine Or.inr fun none' => some' ?_
      dsimp only at none'
      rw [none']
      have nothing : pairings ice.lcand.length ([] : List SessCand).length = [] := by
        rw [pairings, List.length_nil, List.range_zero, List.flatMap_eq_nil_iff]
        exact fun _ _ => rfl
      rw [nothing, pairCandidates]
      exact noChecks

end Creating

section Holding

/-- The session of a transport, with the addresses that have answered. -/
structure Holds (comps : Nat) (answers : List (Option PjSockaddr)) (ice : IceSess) : Prop where
  session : SessionOf comps ice
  heard : ValidAnswered answers ice
  few : ice.validList.length ≤ answers.length

variable {comps : Nat} {answers used sources : List (Option PjSockaddr)} {ice after : IceSess}

theorem Holds.steps (holds : Holds comps answers ice) (steps : Steps ice used after)
    (fewer : used.Sublist sources)
    (session : SessionOf comps after) : Holds comps (answers ++ sources) after where
  session := session
  heard := by
    refine (steps.validAnswered holds.session.inv holds.heard).mono fun addr member => ?_
    rcases List.mem_append.mp member with old | new
    · exact List.mem_append_left _ old
    · exact List.mem_append_right _ (fewer.subset new)
  few := by
    have grown := steps.grows holds.session.inv
    have short := fewer.length_le
    have before := holds.few
    rw [List.length_append]
    omega

theorem Holds.more (holds : Holds comps answers ice) (sources : List (Option PjSockaddr)) :
    Holds comps (answers ++ sources) ice :=
  holds.steps (Steps.refl ice) (List.nil_sublist sources) holds.session

theorem NewSession.holds (new : NewSession comps ice) (own : Own comps ice.lcand)
    (answers : List (Option PjSockaddr)) : Holds comps answers ice where
  session := ⟨new.inv, new.compCnt.le, fun _ => new.compCnt, fun _ => own⟩
  heard := fun v member => by
    rw [new.noValid] at member
    cases member
  few := by
    rw [new.noValid]
    exact Nat.zero_le _

end Holding

section Invariant

def unreported (ice : IceSess) : Bool := (reports ice).isEmpty

def StransEvent.sources : StransEvent → List (Option PjSockaddr)
  | .session event _ => event.sources
  | _ => []

def StransEvent.inits : StransEvent → Nat
  | .initIce _ _ _ => 1
  | _ => 0

/-- `calls` is how often a session was asked for. -/
structure TransInv (cfg : StransCfg) (answers : List (Option PjSockaddr))
    (calls : Nat) (st : IceStrans) :
    Prop where
  configured : st.cfg = cfg
  each : ∀ comp ∈ st.comps, CompInv comp
  few : st.comps.length ≤ pjIceMaxComp
  told : Told st
  holds : ∀ ice, st.ice = some ice → Holds st.comps.length answers ice
  running : st.state = .running → st.destroyReq = false →
    ∃ ice, st.ice = some ice ∧ ice.isComplete = true ∧ ice.iceStatus = .success
  gone : st.destroyReq = true → st.ice = none
  negotiations : (st.reports.filter (about .negotiation)).length +
    (if st.ice.any unreported then 1 else 0) ≤ calls

variable {env : StunEnv} {cfg : StransCfg} {answers : List (Option PjSockaddr)}
    {calls : Nat} {st after : IceStrans}

theorem gathers_frame {comps : List TransComp} (gathers : Gathers st comps after) :
    after.cfg = st.cfg ∧ after.comps = comps ∧ after.ice = st.ice ∧
      after.destroyReq = st.destroyReq ∧
      (after.state = st.state ∨ after.state = .ready) ∧
      after.reports.filter (about .negotiation) = st.reports.filter (about .negotiation) := by
  cases gathers with
  | quiet => exact ⟨rfl, rfl, rfl, rfl, Or.inl rfl, rfl⟩
  | failed op status gathering error =>
      rw [sessFail]
      split
      · exact ⟨rfl, rfl, rfl, rfl, Or.inl rfl, rfl⟩
      · exact ⟨rfl, rfl, rfl, rfl, Or.inl rfl, about_other gathering _ status⟩
  | updated =>
      rcases sessInitUpdate_cases { st with comps := comps } with ⟨same, _⟩ | ⟨_, _, same⟩
      · rw [same]
        exact ⟨rfl, rfl, rfl, rfl, Or.inl rfl, rfl⟩
      · rw [same]
        exact ⟨rfl, rfl, rfl, rfl, Or.inr rfl, about_other (by decide) _ .success⟩

theorem TransInv.gathers (inv : TransInv cfg answers calls st)
    {comps : List TransComp} (keeps : Keeps st comps)
    (gathers : Gathers st comps after) : TransInv cfg answers calls after := by
  obtain ⟨sameCfg, sameComps, sameIce, sameReq, state, sameReports⟩ := gathers_frame gathers
  refine ⟨sameCfg.trans inv.configured, ?_, ?_, gathers.told inv.told, ?_, ?_, ?_, ?_⟩
  · rw [sameComps]
    exact keeps.each
  · rw [sameComps, keeps.length]
    exact inv.few
  · rw [sameComps, keeps.length, sameIce]
    exact inv.holds
  · intro running live
    rw [sameIce]
    rcases state with same | ready
    · exact inv.running (same ▸ running) (sameReq ▸ live)
    · rw [ready] at running
      cases running
  · rw [sameReq, sameIce]
    exact inv.gone
  · rw [sameReports, sameIce]
    exact inv.negotiations

theorem TransInv.withSession (inv : TransInv cfg answers calls st)
    {ice : Option IceSess} {state : StransState}
    (live : st.destroyReq = false)
    (holds : ∀ new, ice = some new → Holds st.comps.length answers new)
    (running : state ≠ .running)
    (unheard : ice.any unreported = true → st.ice.any unreported = true) :
    TransInv cfg answers calls { st with ice := ice, state := state } where
  configured := inv.configured
  each := inv.each
  few := inv.few
  told := ⟨inv.told.silent, inv.told.called, inv.told.once, inv.told.waiting⟩
  holds := holds
  running := fun runs => (running runs).elim
  gone := fun destroyed => by
    rw [show st.destroyReq = true from destroyed] at live
    cases live
  negotiations := by
    have before := inv.negotiations
    dsimp only
    split
    case isTrue new =>
      rw [if_pos (unheard new)] at before
      exact before
    case isFalse => omega

theorem TransInv.stop (inv : TransInv cfg answers calls st) (live : st.destroyReq = false) :
    TransInv cfg answers calls (pjIceStransStopIce st) :=
  inv.withSession live (fun _ none' => by cases none') (by decide) fun none' => by cases none'

theorem TransInv.destroy (inv : TransInv cfg answers calls st) :
    TransInv cfg answers calls { st with
      destroyReq := true
      ice := none
      comps := st.comps.map fun comp => { comp with turnSock := .none } } where
  configured := inv.configured
  each := fun comp member => by
    obtain ⟨before, member', rfl⟩ := List.mem_map.mp member
    exact (inv.each before member').changed rfl (inv.each before member').default
      (fun allocating => by cases allocating) (inv.each before member').gathered
  few := by
    dsimp only
    rw [List.length_map]
    exact inv.few
  told := ⟨inv.told.silent, inv.told.called, inv.told.once, (fun _ _ live => by cases live)⟩
  holds := fun _ none' => by cases none'
  running := fun _ live => by cases live
  gone := fun _ => rfl
  negotiations := Nat.le_of_add_right_le inv.negotiations

end Invariant

section Steps
variable {env : StunEnv} {cfg : StransCfg} {answers : List (Option PjSockaddr)}
    {calls : Nat} {st : IceStrans}

/-- A session is refused, or cannot be completed, or has the candidates of the components. -/
inductive Inits (st : IceStrans) : IceStrans → Prop where
  | refused : Inits st st
  | stopped (free : st.ice = none) : Inits st (pjIceStransStopIce st)
  | created (free : st.ice = none) (ice : IceSess) (new : NewSession st.comps.length ice)
      (own : Own st.comps.length ice.lcand) :
        Inits st { st with ice := some ice, state := .sessReady }

theorem initIce_inits (each : ∀ comp ∈ st.comps, CompInv comp)
    (few : st.comps.length ≤ pjIceMaxComp) (role : Role) (tieBreaker : BitVec 64)
    (created : Option Status) : Inits st (pjIceStransInitIce st role tieBreaker created).1 := by
  unfold pjIceStransInitIce
  split
  · exact Inits.refused
  case isFalse taken =>
    have free : st.ice = none := Option.not_isSome_iff_eq_none.mp taken
    split
    · exact Inits.refused
    · dsimp only
      have started :
        NewSession st.comps.length (newSession role st.comps.length tieBreaker st.cfg.aggressive
          st.cfg.controlledAgentWantNomTimeout) :=
        ⟨created_inv role tieBreaker _ _ few, rfl, rfl, rfl⟩
      have preferred : ∃ prefs, (prefs = candTypePrefs ∨ prefs = srflxPrefTable) ∧
        (if prefersSrflx st = true then
          { newSession role st.comps.length tieBreaker st.cfg.aggressive
            st.cfg.controlledAgentWantNomTimeout with
            prefs := srflxPrefTable }
          else newSession role st.comps.length tieBreaker st.cfg.aggressive
            st.cfg.controlledAgentWantNomTimeout) =
          { newSession role st.comps.length tieBreaker st.cfg.aggressive
            st.cfg.controlledAgentWantNomTimeout with
            prefs := prefs } := by
        split
        · exact ⟨srflxPrefTable, Or.inr rfl, rfl⟩
        · exact ⟨candTypePrefs, Or.inl rfl, rfl⟩
      obtain ⟨prefs, table, same⟩ := preferred
      split
      case h_1 ice added =>
        have begun :
          NewSession st.comps.length { newSession role st.comps.length tieBreaker st.cfg.aggressive
            st.cfg.controlledAgentWantNomTimeout with prefs := prefs } :=
          ⟨(quiet_steps _ _ prefs _ _ _).inv started.inv, rfl, rfl, rfl⟩
        obtain ⟨new, _, lcand⟩ := begun.addComps (same ▸ added)
        exact Inits.created free ice new ⟨prefs, st.comps, table, rfl, each, lcand⟩
      -- A candidate was refused, and the new session goes again.
      case h_2 => exact Inits.stopped free

theorem unpaired_spec {ice : IceSess} (inv : Inv ice) (none' : unpaired ice = true) :
    ice.rcand = [] ∧ ice.clist = [] ∧ ice.isComplete = false ∧ reports ice = [] := by
  rw [unpaired, Bool.and_eq_true, decide_eq_true_eq, decide_eq_true_eq] at none'
  have running := (inv.outcome.unbegun none'.2).1
  exact ⟨none'.1, none'.2, running, (inv.outcome.running running).1⟩

/-- A session that is not complete yet is stopped, or paired and maybe started. -/
inductive Starts (st : IceStrans) : IceStrans → Prop where
  | nothing (free : st.ice = none) : Starts st st
  | stopped : Starts st (pjIceStransStopIce st)
  | paired (before later : IceSess) (here : st.ice = some before)
      (incomplete : before.isComplete = false) (silent : reports before = [])
      (steps : Steps before [] later) (session : SessionOf st.comps.length later)
      (fewer : later.compCnt ≤ before.compCnt) (state : StransState)
      (begun : state = st.state ∨ state = .nego) :
      Starts st { st with ice := some later, state := state }

/-- The description has candidates of a component that has no TURN socket, while the first
component has one. -/
def StransEvent.NullSock (st : IceStrans) : StransEvent → Prop
  | .startIce rem _ _ =>
      (∃ first, st.comps.head? = some first ∧ first.turnSock ≠ .none) ∧
        ∃ index comp, st.comps[index]? = some comp ∧ comp.turnSock = .none ∧
          ∃ cand ∈ rem, cand.compId.toNat = index + 1
  | _ => False

theorem setPerms_none {rem : List IceSessCand} {perm : Nat → Status}
    {start : Nat} {comps : List TransComp} (failed : setPerms rem perm start comps = none) :
    ∃ index comp, comps[index]? = some comp ∧ comp.turnSock = .none ∧
      ∃ cand ∈ rem, cand.compId.toNat = start + index + 1 := by
  induction comps generalizing start with
  | nil => cases failed
  | cons comp rest ih =>
      have further (later : setPerms rem perm (start + 1) rest = none) :
          ∃ index other, (comp :: rest)[index]? = some other ∧ other.turnSock = .none ∧
            ∃ cand ∈ rem, cand.compId.toNat = start + index + 1 := by
        obtain ⟨index, other, here, noSock, cand, member, same⟩ := ih later
        exact ⟨index + 1, other, here, noSock, cand, member, by omega⟩
      rw [setPerms] at failed
      split at failed
      case isTrue wanted =>
        split at failed
        case isTrue noSock =>
          obtain ⟨cand, member, same⟩ := List.any_eq_true.mp wanted
          exact ⟨0, comp, rfl, noSock, cand, member, of_decide_eq_true same⟩
        case isFalse =>
          split at failed
          · cases failed
          · exact further failed
      case isFalse => exact further failed

theorem permissions_none {rem : List IceSessCand} {perm : Nat → Status} {foundation : Nat → CStr}
    (failed : permissions st rem perm = none) :
    (StransEvent.startIce rem perm foundation).NullSock st := by
  rw [permissions] at failed
  split at failed
  case isTrue own =>
    obtain ⟨first, here, sock⟩ := (Option.any_eq_true _ _).mp own
    obtain ⟨index, comp, found, noSock, cand, member, same⟩ := setPerms_none failed
    exact ⟨⟨first, here, of_decide_eq_true sock⟩, index, comp, found,
      noSock, cand, member, by omega⟩
  case isFalse => cases failed

theorem startIce_starts (session : ∀ ice, st.ice = some ice → SessionOf st.comps.length ice)
    (new : st.ice.all unpaired = true) (rem : List IceSessCand)
    (perm : Nat → Status) (foundation : Nat → CStr) :
    (∃ result, pjIceStransStartIce env st rem perm foundation = some result ∧ Starts st result.1) ∨
    (pjIceStransStartIce env st rem perm foundation = none ∧
      (StransEvent.startIce rem perm foundation).NullSock st) := by
  rw [pjIceStransStartIce]
  cases here : st.ice with
  | none => exact Or.inl ⟨_, rfl, Starts.nothing here⟩
  | some ice =>
      rw [here, Option.all_some] at new
      have before := session ice here
      obtain ⟨noCands, noChecks, incomplete, silent⟩ := unpaired_spec before.inv new
      have steps : Steps ice [] (pjIceSessCreateCheckList ice rem).1 :=
        Steps.move (Allows.pair rem noCands noChecks) rfl
      have fewer : (pjIceSessCreateCheckList ice rem).1.compCnt ≤ ice.compCnt ∧
          (pjIceSessCreateCheckList ice rem).1.lcand = ice.lcand := by
        obtain ⟨known, clist, compCnt, comp, shape, paired⟩ :=
          before.inv.arrays.pair_shape rem noCands noChecks
        rw [shape]
        exact ⟨paired.fewer, rfl⟩
      have counted := createCheckList_comps rem noChecks
      dsimp only
      generalize pjIceSessCreateCheckList ice rem = result at steps fewer counted ⊢
      obtain ⟨paired, status⟩ := result
      dsimp only at steps fewer counted ⊢
      have listed : SessionOf st.comps.length paired :=
        ⟨steps.inv before.inv, fewer.1.trans before.most, fun none' =>
          (counted.resolve_right fun some' => some' none').trans (before.all noCands),
          fun _ => fewer.2 ▸ before.own noCands⟩
      split
      · exact Or.inl
          ⟨_, rfl, Starts.paired ice paired here incomplete silent steps listed fewer.1 st.state
            (Or.inl rfl)⟩
      have same :
        permissions { st with ice := some paired } rem perm = permissions st rem perm := rfl
      rw [same]
      cases asked : permissions st rem perm with
      | none => exact Or.inr ⟨rfl, permissions_none asked⟩
      | some permitted =>
        dsimp only [Option.bind_eq_bind, Option.bind_some]
        split
        · exact Or.inl ⟨_, rfl, Starts.stopped⟩
        · obtain ⟨begun, status', started, steps'⟩ :=
            pjIceSessStartCheck_steps env listed.inv foundation
          rw [started]
          dsimp only [Option.bind_some]
          split
          · exact Or.inl ⟨_, rfl, Starts.stopped⟩
          case isFalse success =>
            -- The checks have started, so there are remote candidates.
            have remote : paired.rcand ≠ [] := fun none' => success <| by
              rw [pjIceSessStartCheck, if_pos (noChecks_of_noCands listed.inv none')] at started
              rw [← (Prod.mk.inj (Option.some.inj started)).2]
              decide
            have same := ((steps_onward steps' listed.inv).comps remote).1
            exact Or.inl ⟨_, rfl, Starts.paired ice begun here incomplete silent (steps.then steps')
              (listed.steps steps' remote) (same.le.trans fewer.1) .nego (Or.inr rfl)⟩

theorem TransInv.init (inv : TransInv cfg answers calls st)
    (live : st.destroyReq = false) {after : IceStrans}
    (inits : Inits st after) : TransInv cfg answers (calls + 1) after := by
  have unchanged : TransInv cfg answers (calls + 1) st :=
    ⟨inv.configured, inv.each, inv.few, inv.told, inv.holds, inv.running, inv.gone,
      Nat.le_succ_of_le inv.negotiations⟩
  cases inits with
  | refused => exact unchanged
  | stopped => exact unchanged.stop live
  | created free ice new own =>
      refine ⟨inv.configured, inv.each, inv.few,
        ⟨inv.told.silent, inv.told.called, inv.told.once, inv.told.waiting⟩, fun other same => ?_,
        (fun runs => by cases runs), fun destroyed => ?_, ?_⟩
      · exact Option.some.inj same ▸ new.holds own answers
      · rw [show st.destroyReq = true from destroyed] at live
        cases live
      · have before := inv.negotiations
        dsimp only
        split
        · omega
        · omega

theorem TransInv.start (inv : TransInv cfg answers calls st)
    (live : st.destroyReq = false) {after : IceStrans}
    (starts : Starts st after) : TransInv cfg answers calls after := by
  cases starts with
  | nothing => exact inv
  | stopped => exact inv.stop live
  | paired before later here incomplete silent steps session fewer state begun =>
      have idle : st.state ≠ .running := by
        intro running
        obtain ⟨other, there, complete, _⟩ := inv.running running live
        obtain rfl := Option.some.inj (here.symm.trans there)
        rw [incomplete] at complete
        cases complete
      refine inv.withSession live (fun other same => ?_) ?_ fun _ => ?_
      · have further := (inv.holds before here).steps steps (List.nil_sublist []) session
        rw [List.append_nil] at further
        exact Option.some.inj same ▸ further
      · rcases begun with rfl | rfl
        · exact idle
        · decide
      · rw [here, Option.any_some, unreported, silent]
        rfl

theorem bindChannels_success {bind : Nat → Status} {status : Status}
    (success : bindChannels st bind status = .success) : status = .success := by
  rw [bindChannels] at success
  split at success
  case isTrue same => exact same
  case isFalse => exact success

/-- A session's event, after which the application hears of its completion. -/
theorem TransInv.session (inv : TransInv cfg answers calls st)
    (live : st.destroyReq = false) {event : IceEvent}
    (may : sessionMay event = true) (bind : Nat → Status) :
    (∃ after, sessionEvent env st event bind = some after ∧
      TransInv cfg (answers ++ event.sources) calls after) ∨
    (sessionEvent env st event bind = none ∧
      pjIceMaxChecks < (answers ++ event.sources).length) := by
  unfold sessionEvent
  cases here : st.ice with
  | none =>
      refine Or.inl ⟨_, rfl, inv.configured, inv.each, inv.few, inv.told, fun ice there => ?_,
        inv.running, inv.gone, inv.negotiations⟩
      rw [here] at there
      cases there
  | some ice =>
      have holds := inv.holds ice here
      dsimp only
      rcases @sessionEvent_moved env ice event _ holds.session may
        with ⟨after, stepped, moved⟩ | ⟨failed, full, some'⟩
      · obtain ⟨used, steps, fewer⟩ := moved.steps
        have later := holds.steps steps fewer moved.session
        have onward := steps_onward steps holds.session.inv
        have same := steps.sameOutcome holds.session.inv
        have before := inv.negotiations
        rw [here, Option.any_some] at before
        rw [stepped]
        dsimp only [Option.bind_eq_bind, Option.bind_some]
        refine Or.inl ⟨_, rfl, ?_⟩
        -- Nothing is reported, or completion for the first time.
        rcases completions_cases moved.session.inv onward with silent | ⟨told, first, complete⟩
        · rw [silent, List.foldl_nil]
          have kept :
            reports after = reports ice := by rw [reports_onward onward, silent, List.append_nil]
          refine ⟨inv.configured, inv.each, inv.few,
            ⟨inv.told.silent, inv.told.called, inv.told.once, inv.told.waiting⟩,
            fun other there => ?_, fun running _ => ?_, fun destroyed => ?_, ?_⟩
          · exact Option.some.inj there ▸ later
          · obtain ⟨other, there, complete, success⟩ := inv.running running live
            obtain rfl := Option.some.inj (here.symm.trans there)
            obtain ⟨complete', status⟩ := same.complete complete
            exact ⟨after, rfl, complete', status.trans success⟩
          · rw [show st.destroyReq = true from destroyed] at live
            cases live
          · dsimp only
            rw [Option.any_some, unreported, kept]
            exact before
        · rw [told, List.foldl_cons, List.foldl_nil]
          have heard : reports after ≠ [] := by
            rw [reports_onward onward, told]
            exact List.append_ne_nil_of_right_ne_nil _ (List.cons_ne_nil _ _)
          have silent : unreported ice = true := by rw [unreported, first]; rfl
          have loud : unreported after = false := by
            rw [unreported, List.isEmpty_eq_false_iff]
            exact heard
          rw [if_pos silent] at before
          generalize bound :
            bindChannels { st with ice := some after } bind after.iceStatus = result
          rw [onIceComplete, bound]
          refine ⟨inv.configured, inv.each, inv.few, ?_, fun other there => ?_,
            fun running _ => ?_, fun destroyed => ?_, ?_⟩
          · refine ⟨fun uncalled report member => ?_, fun called => ?_, ?_, inv.told.waiting⟩
            · rcases List.mem_append.mp member with old | new
              · exact inv.told.silent uncalled report old
              · rw [List.mem_singleton.mp new]
            · obtain ⟨report, member, gathering⟩ := inv.told.called called
              exact ⟨report, List.mem_append_left _ member, gathering⟩
            · rw [report, about_other (by decide)]
              exact inv.told.once
          · exact Option.some.inj there ▸ later
          · refine ⟨after, rfl, complete, ?_⟩
            -- Channels are bound after a success only, and their failure takes its place.
            by_cases success : result = .success
            · exact @bindChannels_success { st with ice := some after } bind _ (bound.trans success)
            · rw [report] at running
              dsimp only at running
              rw [if_neg success] at running
              cases running
          · rw [show st.destroyReq = true from destroyed] at live
            cases live
          · rw [report]
            dsimp only
            rw [Option.any_some, loud, if_neg Bool.false_ne_true,
              List.filter_append, List.length_append]
            exact before
      · rw [failed]
        have short := holds.few
        have positive := List.length_pos_of_ne_nil some'
        refine Or.inr ⟨rfl, ?_⟩
        rw [List.length_append]
        omega

theorem TransInv.more (inv : TransInv cfg answers calls st)
    (sources : List (Option PjSockaddr)) (further : Nat) :
    TransInv cfg (answers ++ sources) (calls + further) st :=
  ⟨inv.configured, inv.each, inv.few, inv.told, fun ice here =>
    (inv.holds ice here).more sources, inv.running, inv.gone,
    Nat.le_add_right_of_le inv.negotiations⟩

def StransEvent.gathering : StransEvent → Bool
  | .stunStatus _ _ _ _ => true
  | .turnReady _ _ => true
  | .turnClosed _ _ _ => true
  | _ => false

theorem handleEvent_gathers (each : ∀ comp ∈ st.comps, CompInv comp) {event : StransEvent}
    (gathering : event.gathering = true) :
    ∃ after comps, handleEvent env st event = some after ∧
        Keeps st comps ∧ Gathers st comps after := by
  have unchanged : ∃ after comps, some st = some after ∧ Keeps st comps ∧ Gathers st comps after :=
    ⟨st, st.comps, rfl, Keeps.refl each, Gathers.quiet fun _ waits => waits⟩
  cases event with
  | stunStatus compIdx op status info =>
      obtain ⟨comps, keeps, gathers⟩ := @stunOnStatus_gathers st compIdx each op status info
      exact ⟨_, comps, rfl, keeps, gathers⟩
  | turnReady compIdx relay =>
      rw [handleEvent]
      split
      case isTrue allocating =>
        obtain ⟨after, ready, comps, keeps, gathers⟩ := turnReady_gathers each allocating relay
        exact ⟨after, comps, ready, keeps, gathers⟩
      · exact unchanged
  | turnClosed compIdx lastStatus retry =>
      rw [handleEvent]
      split
      · obtain ⟨comps, keeps, gathers⟩ := @turnClosed_gathers st compIdx each lastStatus retry
        exact ⟨_, comps, rfl, keeps, gathers⟩
      · exact unchanged
  | initIce => cases gathering
  | startIce => cases gathering
  | session => cases gathering
  | stopIce => cases gathering
  | destroy => cases gathering

/-- Each step has a result, unless the session has more answers than pairs or a TURN socket
is missing. -/
theorem stransStep_inv (inv : TransInv cfg answers calls st) (event : StransEvent)
    (first : event.again st = false) :
    (∃ after, stransStep env st event = some after ∧
      TransInv cfg (answers ++ event.sources) (calls + event.inits) after) ∨
    (stransStep env st event = none ∧
      (pjIceMaxChecks < (answers ++ event.sources).length ∨ event.NullSock st)) := by
  -- Most events bring no answer and ask for no session.
  have plain (after : IceStrans) (kept : TransInv cfg answers calls after) :
      TransInv cfg (answers ++ []) (calls + 0) after := by
    rwa [List.append_nil]
  rw [stransStep]
  split
  · exact Or.inl ⟨st, rfl, inv.more _ _⟩
  case isFalse some' =>
    have live := Bool.eq_false_iff.mpr some'
    have news (gathering : event.gathering = true) :
      ∃ after, handleEvent env st event = some after ∧
        TransInv cfg (answers ++ []) (calls + 0) after := by
      obtain ⟨after, comps, handled, keeps, gathers⟩ := handleEvent_gathers inv.each gathering
      exact ⟨after, handled, plain _ (inv.gathers keeps gathers)⟩
    cases event with
    | stunStatus => exact Or.inl (news rfl)
    | turnReady => exact Or.inl (news rfl)
    | turnClosed => exact Or.inl (news rfl)
    | initIce role tieBreaker created =>
        exact Or.inl ⟨_, rfl,
          (inv.init live (initIce_inits inv.each inv.few role tieBreaker created)).more [] 0⟩
    | startIce rem perm foundation =>
        have new : st.ice.all unpaired = true := by
          rw [StransEvent.again, live] at first
          simpa using first
        rcases @startIce_starts env st
          (fun ice here => (inv.holds ice here).session) new rem perm foundation with
          ⟨result, started, starts⟩ | ⟨failed, noSock⟩
        · exact Or.inl
            ⟨result.1, by rw [handleEvent, started]; rfl, plain _ (inv.start live starts)⟩
        · exact Or.inr ⟨by rw [handleEvent, failed]; rfl, Or.inr noSock⟩
    | session event bind =>
        rw [handleEvent]
        split
        case isTrue may =>
          rcases inv.session live may bind with kept | ⟨failed, full⟩
          · exact Or.inl kept
          · exact Or.inr ⟨failed, Or.inl full⟩
        · exact Or.inl ⟨st, rfl, inv.more _ _⟩
    | stopIce => exact Or.inl ⟨_, rfl, plain _ (inv.stop live)⟩
    | destroy => exact Or.inl ⟨_, rfl, plain _ inv.destroy⟩

def heardFrom (events : List StransEvent) : List (Option PjSockaddr) :=
  events.flatMap StransEvent.sources

def initCalls (events : List StransEvent) : Nat := (events.map StransEvent.inits).sum

/-- A start that a run does not survive. -/
def Breaks (env : StunEnv) (st : IceStrans) (events : List StransEvent) : Prop :=
  ∃ early event later before, events = early ++ event :: later ∧
    stransRun env st early = some before ∧
    (event.again before = true ∨ event.NullSock before)

theorem stransRun_cons {event : StransEvent} (rest : List StransEvent)
    (first : event.again st = false) :
    stransRun env st (event :: rest) = (stransStep env st event).bind fun middle =>
        stransRun env middle rest := by
  rw [stransRun, if_neg (by rw [first]; exact Bool.false_ne_true)]
  rfl

theorem Breaks.cons {event : StransEvent} {rest : List StransEvent} {middle : IceStrans}
    (breaks : Breaks env middle rest) (first : event.again st = false)
    (stepped : stransStep env st event = some middle) : Breaks env st (event :: rest) := by
  obtain ⟨early, broken, later, before, rfl, ran, why⟩ := breaks
  refine ⟨event :: early, broken, later, before, rfl, ?_, why⟩
  rw [stransRun_cons early first, stepped]
  exact ran

theorem stransRun_inv (inv : TransInv cfg answers calls st) (events : List StransEvent) :
    (∃ reached, stransRun env st events = some reached ∧
      TransInv cfg (answers ++ heardFrom events) (calls + initCalls events) reached) ∨
    (stransRun env st events = none ∧
      (pjIceMaxChecks < (answers ++ heardFrom events).length ∨ Breaks env st events)) := by
  induction events generalizing answers calls st with
  | nil => exact Or.inl ⟨st, rfl, inv.more [] 0⟩
  | cons event rest ih =>
      have sources : heardFrom (event :: rest) = event.sources ++ heardFrom rest :=
        List.flatMap_cons
      have inits : initCalls (event :: rest) = event.inits + initCalls rest := rfl
      -- A run ends at a second start.
      cases first : event.again st with
      | true =>
          refine Or.inr ⟨?_, Or.inr ⟨[], event, rest, st, rfl, rfl, Or.inl first⟩⟩
          rw [stransRun, if_pos first]
          rfl
      | false =>
          rw [stransRun_cons rest first, sources, inits, ← List.append_assoc, ← Nat.add_assoc]
          rcases @stransStep_inv env cfg answers calls st inv event first with
            ⟨after, stepped, kept⟩ | ⟨failed, full | noSock⟩
          · rw [stepped]
            rcases ih kept with reached | ⟨failed, full | breaks⟩
            · exact Or.inl reached
            · exact Or.inr ⟨failed, Or.inl full⟩
            · exact Or.inr ⟨failed, Or.inr (breaks.cons first stepped)⟩
          · rw [failed]
            refine Or.inr ⟨rfl, Or.inl ?_⟩
            rw [List.length_append]
            omega
          · rw [failed]
            exact Or.inr ⟨rfl, Or.inr ⟨[], event, rest, st, rfl, rfl, Or.inr noSock⟩⟩

theorem createComps_spec {envs : List SockEnv} {created : List (TransComp × Option Status)}
    (done : envs.mapM (createComp cfg) = some created) :
    created.length = envs.length ∧ ∀ comp ∈ created.map Prod.fst, CompInv comp := by
  induction envs generalizing created with
  | nil =>
      rw [List.mapM_nil] at done
      exact Option.some.inj done ▸ ⟨rfl, fun _ member => absurd member List.not_mem_nil⟩
  | cons env rest ih =>
      rw [List.mapM_cons] at done
      obtain ⟨comp, first, later⟩ := Option.bind_eq_some_iff.mp done
      obtain ⟨others, done', same⟩ := Option.bind_eq_some_iff.mp later
      obtain rfl := Option.some.inj same
      obtain ⟨length, each⟩ := ih done'
      refine ⟨congrArg Nat.succ length, fun other member => ?_⟩
      rw [List.map_cons] at member
      rcases List.mem_cons.mp member with rfl | inside
      · exact createComp_inv first
      · exact each other inside

theorem failures_called (called : st.cbCalled = true) (statuses : List Status) :
    statuses.foldl (turnFailed · .init ·) st = st := by
  induction statuses with
  | nil => rfl
  | cons status rest ih =>
      have same : turnFailed st .init status = st := by
        rw [turnFailed]
        split
        · rfl
        · exact if_pos ⟨rfl, called⟩
      rw [List.foldl_cons, same]
      exact ih

/-- Of the sockets that fail at once the first is reported. -/
theorem failures_cases (uncalled : st.cbCalled = false) (statuses : List Status) :
    statuses.foldl (turnFailed · .init ·) st = st ∨
    ∃ status, statuses.foldl (turnFailed · .init ·) st = report
        { st with cbCalled := true } .init status := by
  induction statuses with
  | nil => exact Or.inl rfl
  | cons status rest ih =>
      rw [List.foldl_cons]
      by_cases closed : status = .success
      · rw [turnFailed, if_pos closed]
        exact ih
      · rw [turnFailed, if_neg closed, sessFail,
          if_neg (by rw [uncalled]; exact fun both => Bool.false_ne_true both.2)]
        exact Or.inr ⟨status, failures_called rfl rest⟩

def newTransport (cfg : StransCfg) (comps : List TransComp) : IceStrans :=
  ⟨cfg, comps, .init, false, none, false, []⟩

/-- A new transport still gathers, or its first report is about gathering. -/
theorem created_cases {envs : List SockEnv} (created : pjIceStransCreate cfg envs = some st) :
    ∃ comps, comps.length = envs.length ∧ comps.length ≤ pjIceMaxComp ∧
      (∀ comp ∈ comps, CompInv comp) ∧
      ((st = newTransport cfg comps ∧ Ungathered comps) ∨
        ∃ status state, state ≠ .running ∧
          st = report
              { newTransport cfg comps with cbCalled := true, state := state } .init status) := by
  obtain ⟨some', rest⟩ := Option.ite_none_left_eq_some.mp created
  obtain ⟨made, gathered, same⟩ := Option.bind_eq_some_iff.mp rest
  obtain rfl := Option.some.inj same
  obtain ⟨length, each⟩ := createComps_spec gathered
  have comps : (made.map Prod.fst).length = envs.length := (List.length_map _).trans length
  refine ⟨made.map Prod.fst, comps, by omega, each, ?_⟩
  rcases @failures_cases (newTransport cfg (made.map Prod.fst)) rfl
    (made.filterMap Prod.snd) with same | ⟨status, same⟩
  · rw [← newTransport, same]
    rcases sessInitUpdate_cases (newTransport cfg (made.map Prod.fst))
      with ⟨same, waits⟩ | ⟨_, _, same⟩
    · exact Or.inl ⟨same, waits.resolve_left Bool.false_ne_true⟩
    · exact Or.inr ⟨.success, .ready, by decide, same⟩
  · rw [← newTransport, same]
    exact Or.inr ⟨status, .init, by decide, if_pos rfl⟩

theorem created_transInv {envs : List SockEnv} (created : pjIceStransCreate cfg envs = some st) :
    TransInv cfg [] 0 st := by
  obtain ⟨comps, _, few, each, ⟨rfl, waits⟩ | ⟨status, state, idle, rfl⟩⟩ := created_cases created
  · have told : Told (newTransport cfg comps) :=
      ⟨fun _ _ member => absurd member List.not_mem_nil,
        (fun called => by cases called), Nat.zero_le _,
        fun _ _ _ => waits⟩
    exact ⟨rfl, each, few, told, (fun _ none' => by cases none'), (fun running => by cases running),
      (fun gone => by cases gone), Nat.le_refl _⟩
  · have told :=
      @Told.first (newTransport cfg comps) (fun _ _ member => absurd member List.not_mem_nil) rfl
      .init status (Or.inl rfl) state
    exact ⟨rfl, each, few, told, (fun _ none' => by cases none'),
      (fun running => (idle running).elim),
      (fun gone => by cases gone), Nat.le_refl _⟩

theorem later_transInv (inv : TransInv cfg answers calls st)
    {events : List StransEvent} {reached : IceStrans}
    (ran : stransRun env st events = some reached) :
    TransInv cfg (answers ++ heardFrom events) (calls + initCalls events) reached := by
  rcases @stransRun_inv env cfg answers calls st inv events with ⟨other, same, kept⟩ | ⟨failed, _⟩
  · obtain rfl := Option.some.inj (ran.symm.trans same)
    exact kept
  · rw [failed] at ran
    cases ran

theorem reached_transInv {envs : List SockEnv} (created : pjIceStransCreate cfg envs = some st)
    {events : List StransEvent} {reached : IceStrans}
    (ran : stransRun env st events = some reached) :
    TransInv cfg (heardFrom events) (initCalls events) reached := by
  have inv := later_transInv (created_transInv created) ran
  rwa [List.nil_append, Nat.zero_add] at inv

end Steps

section Host

def hostCfg : StransCfg := ⟨false, 1, false, false, false, true, 10000⟩

def hostSocks : SockEnv := ⟨some (hostAddr, []), .refused⟩

def hostTransport : IceStrans := (pjIceStransCreate hostCfg [hostSocks]).get (by decide)

theorem hostTransport_created : pjIceStransCreate hostCfg [hostSocks] = some hostTransport :=
  (Option.some_get _).symm

def negotiation : List StransEvent :=
  [.initIce .controlling 0 none, .startIce [peerCand] (fun _ => .success) fun _ => [],
   .session .checkTimer fun _ => .success,
   .session (.response 0 ⟨.success, some peerAddr, some hostAddr⟩ []) fun _ => .success,
   .session .timer fun _ => .success]

def runningTransport : IceStrans := (stransRun allSent hostTransport negotiation).get (by decide)

theorem negotiation_ran : stransRun allSent hostTransport negotiation = some runningTransport :=
  (Option.some_get _).symm

end Host

section Results
variable (env : StunEnv) {cfg : StransCfg} {envs : List SockEnv} {st : IceStrans}

end Results

end NatClient.IceTransport
