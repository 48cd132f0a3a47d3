import NatClient.TransportRuns
import NatClient.IceWrapper

/-!
The wrapper functions know of a transport no more than a handle, its number of components
and the number that its session uses. That is an abstraction of the transport: every event
does to it what the wrapper takes the library to do.
-/

namespace NatClient.IceTransport

open IceTypes IceSession IceLifetime IceWrapper Runs

section Abstraction

/-- A transport as its application sees it; a destroyed one has no state. -/
def instanceOf (st : IceStrans) : Option Instance :=
  if st.destroyReq then none else some ⟨st.comps.length, st.ice.map IceSess.compCnt⟩

def StransEvent.inside : StransEvent → Bool
  | .session _ _ => true
  | event => event.gathering

/-- What the wrapper takes an event to do to the library. -/
inductive LibStep (handle : Handle) : PjNath → StransEvent → PjNath → Prop where
  | initIce (lib : PjNath) (role : Role) (tieBreaker : BitVec 64)
      (failed : Option Status) (created : Bool)
      (free : lib.hasSess handle = false) :
      LibStep handle lib (.initIce role tieBreaker failed) (lib.initIce handle created)
  | refused (lib : PjNath) (role : Role) (tieBreaker : BitVec 64) (failed : Option Status)
      (taken : lib.hasSess handle = true) : LibStep handle lib (.initIce role tieBreaker failed) lib
  | startIce (lib : PjNath) (rem : List IceSessCand) (perm : Nat → Status)
      (foundation : Nat → CString.CStr)
      (left : Option Nat) :
        LibStep handle lib (.startIce rem perm foundation) (lib.startIce handle left)
  | stopIce (lib : PjNath) : LibStep handle lib .stopIce (lib.setSess handle none)
  | destroy (lib : PjNath) : LibStep handle lib .destroy (lib.destroy handle)
  | inside (lib : PjNath) (event : StransEvent) (own : event.inside = true) :
      LibStep handle lib event lib

variable {lib : PjNath} {handle : Handle} {st after : IceStrans}

theorem setSess_live (sess : Option Nat) : (lib.setSess handle sess).live handle =
    (lib.live handle).map fun inst => { inst with sess := sess } := Function.update_self _ _ _

theorem hasSess_of (knows : lib.live handle = instanceOf st)
    (gone : st.destroyReq = true → st.ice = none) :
    lib.hasSess handle = pjIceStransHasSess st := by
  rw [PjNath.hasSess, knows, instanceOf, pjIceStransHasSess]
  split
  case isTrue destroyed => rw [gone destroyed]; rfl
  case isFalse =>
    cases st.ice with
    | none => rfl
    | some ice => rfl

theorem runningCompCnt_of (knows : lib.live handle = instanceOf st) (live : st.destroyReq = false)
    (session : ∀ ice, st.ice = some ice → SessionOf st.comps.length ice) :
    lib.runningCompCnt handle = pjIceStransGetRunningCompCnt st := by
  rw [PjNath.runningCompCnt, knows, instanceOf, if_neg (by rw [live]; exact Bool.false_ne_true),
    pjIceStransGetRunningCompCnt]
  cases here : st.ice with
  | none => rfl
  | some ice =>
      dsimp only [Option.elim_some, Option.map_some, Option.getD_some]
      split
      · rfl
      case isFalse none' => exact (session ice here).all (not_not.mp none')

end Abstraction

section Refining
variable {env : StunEnv} {cfg : StransCfg} {answers : List (Option PjSockaddr)} {calls : Nat}
  {lib : PjNath} {handle : Handle} {st after : IceStrans}

structure Within (st after : IceStrans) : Prop where
  comps : after.comps.length = st.comps.length
  destroyReq : after.destroyReq = st.destroyReq
  session : after.ice.map IceSess.compCnt = st.ice.map IceSess.compCnt

theorem Within.instanceOf (within : Within st after) : instanceOf after = instanceOf st := by
  rw [IceTransport.instanceOf, IceTransport.instanceOf, within.comps,
    within.destroyReq, within.session]

theorem completions_within (bind : Nat → Status) (statuses : List Status) :
    Within st (statuses.foldl (fun st status => onIceComplete st bind status) st) := by
  induction statuses generalizing st with
  | nil => exact ⟨rfl, rfl, rfl⟩
  | cons status rest ih =>
      have later := @ih (onIceComplete st bind status)
      exact ⟨later.comps, later.destroyReq, later.session⟩

theorem handleEvent_within (inv : TransInv cfg answers calls st)
    {event : StransEvent} (own : event.inside = true)
    (handled : handleEvent env st event = some after) : Within st after := by
  have unchanged : Within st st := ⟨rfl, rfl, rfl⟩
  have news (gathering : event.gathering = true) : Within st after := by
    obtain ⟨other, comps, handled', keeps, gathers⟩ :=
      @handleEvent_gathers env st inv.each event gathering
    obtain rfl := Option.some.inj (handled'.symm.trans handled)
    obtain ⟨_, sameComps, sameIce, sameReq, _⟩ := gathers_frame gathers
    exact ⟨by rw [sameComps, keeps.length], sameReq, by rw [sameIce]⟩
  cases event with
  | stunStatus => exact news rfl
  | turnReady => exact news rfl
  | turnClosed => exact news rfl
  | session event bind =>
      rw [handleEvent] at handled
      split at handled
      case isTrue may =>
        unfold sessionEvent at handled
        cases here : st.ice with
        | none =>
            rw [here] at handled
            exact Option.some.inj handled ▸ unchanged
        | some ice =>
            rw [here] at handled
            obtain ⟨later, stepped, same⟩ := Option.bind_eq_some_iff.mp handled
            rcases @sessionEvent_moved env ice event _ (inv.holds ice here).session may with
              ⟨other, stepped', moved⟩ | ⟨failed, _⟩
            · obtain rfl := Option.some.inj (stepped'.symm.trans stepped)
              -- What the application hears changes neither components nor session.
              have told :=
                @completions_within { st with ice := some other } bind (completions ice other)
              rw [← Option.some.inj same]
              refine ⟨told.comps, told.destroyReq, told.session.trans ?_⟩
              rw [here, Option.map_some, Option.map_some, moved.compCnt]
            · rw [failed] at stepped
              cases stepped
      · exact Option.some.inj handled ▸ unchanged
  | initIce => cases own
  | startIce => cases own
  | stopIce => cases own
  | destroy => cases own

theorem stopped_instanceOf (knows : lib.live handle = instanceOf st) :
    (lib.setSess handle none).live handle = instanceOf (pjIceStransStopIce st) := by
  rw [setSess_live, knows, instanceOf, instanceOf, pjIceStransStopIce]
  dsimp only
  split <;> rfl

theorem initIce_refines (knows : lib.live handle = instanceOf st)
    (gone : st.destroyReq = true → st.ice = none)
    (live : st.destroyReq = false) (inits : Inits st after) (role : Role) (tieBreaker : BitVec 64)
    (failed : Option Status) :
    ∃ later, LibStep handle lib (.initIce role tieBreaker failed) later ∧
        later.live handle = instanceOf after := by
  have has := hasSess_of knows gone
  have unknown (free : st.ice = none) :
      (lib.initIce handle false).live handle = instanceOf (pjIceStransStopIce st) :=
    stopped_instanceOf knows
  cases inits with
  | refused =>
      cases here : st.ice with
      | none =>
          rw [pjIceStransHasSess, here] at has
          refine ⟨_, LibStep.initIce lib role tieBreaker failed false has, (unknown here).trans ?_⟩
          rw [instanceOf, instanceOf, pjIceStransStopIce, here]
      | some ice =>
          rw [pjIceStransHasSess, here] at has
          exact ⟨lib, LibStep.refused lib role tieBreaker failed has, knows⟩
  -- The session is created and destroyed again, which the library shows as none.
  | stopped free =>
      rw [pjIceStransHasSess, free] at has
      exact ⟨_, LibStep.initIce lib role tieBreaker failed false has, unknown free⟩
  | created free ice new =>
      rw [pjIceStransHasSess, free] at has
      refine ⟨_, LibStep.initIce lib role tieBreaker failed true has, ?_⟩
      have alive : ¬ st.destroyReq = true := by rw [live]; exact Bool.false_ne_true
      rw [PjNath.initIce, setSess_live, knows, instanceOf, instanceOf, if_neg alive, if_neg alive]
      exact congrArg some (congrArg (Instance.mk _) (congrArg some new.compCnt.symm))

theorem startIce_refines (knows : lib.live handle = instanceOf st)
    (live : st.destroyReq = false) (starts : Starts st after) (rem : List IceSessCand)
    (perm : Nat → Status) (foundation : Nat → CString.CStr) :
    ∃ later, LibStep handle lib (.startIce rem perm foundation) later ∧
        later.live handle = instanceOf after := by
  have alive : ¬ st.destroyReq = true := by rw [live]; exact Bool.false_ne_true
  have stopped : ∃ later, LibStep handle lib (.startIce rem perm foundation) later ∧
      later.live handle = instanceOf (pjIceStransStopIce st) :=
    ⟨_, LibStep.startIce lib rem perm foundation none, stopped_instanceOf knows⟩
  cases starts with
  | nothing free =>
      obtain ⟨later, step, ends⟩ := stopped
      refine ⟨later, step, ends.trans ?_⟩
      rw [instanceOf, instanceOf, pjIceStransStopIce, free]
  | stopped => exact stopped
  | paired before later here _ _ _ session =>
      refine ⟨_, LibStep.startIce lib rem perm foundation (some later.compCnt), ?_⟩
      rw [PjNath.startIce, setSess_live, knows, instanceOf, if_neg alive,
        Option.elim_some, Option.map_some,
        Option.map_some, Nat.min_eq_right session.most, instanceOf, if_neg alive]
      rfl

/-- An event of a transport is a step of the library that the wrapper knows. -/
theorem stransStep_refines (inv : TransInv cfg answers calls st)
    (knows : lib.live handle = instanceOf st)
    {event : StransEvent} (first : event.again st = false)
    (stepped : stransStep env st event = some after) :
    ∃ later, LibStep handle lib event later ∧ later.live handle = instanceOf after := by
  rw [stransStep] at stepped
  split at stepped
  case isTrue destroyed =>
    obtain rfl := Option.some.inj stepped
    have nothing : instanceOf st = none := if_pos destroyed
    have none' (sess : Option Nat) : (lib.setSess handle sess).live handle = instanceOf st := by
      rw [setSess_live, knows, nothing]
      rfl
    -- A destroyed transport is no instance, so the library has nothing to change.
    cases event with
    | initIce role tieBreaker failed =>
        have free : lib.hasSess handle = false := by rw [PjNath.hasSess, knows, nothing]; rfl
        exact ⟨_, LibStep.initIce lib role tieBreaker failed false free, none' _⟩
    | startIce rem perm foundation =>
        exact ⟨_, LibStep.startIce lib rem perm foundation none, none' _⟩
    | stopIce => exact ⟨_, LibStep.stopIce lib, none' _⟩
    | destroy => exact ⟨_, LibStep.destroy lib, (Function.update_self _ _ _).trans nothing.symm⟩
    | stunStatus => exact ⟨lib, LibStep.inside lib _ rfl, knows⟩
    | turnReady => exact ⟨lib, LibStep.inside lib _ rfl, knows⟩
    | turnClosed => exact ⟨lib, LibStep.inside lib _ rfl, knows⟩
    | session => exact ⟨lib, LibStep.inside lib _ rfl, knows⟩
  case isFalse some' =>
    have live := Bool.eq_false_iff.mpr some'
    have within (own : event.inside = true) :
        ∃ later, LibStep handle lib event later ∧ later.live handle = instanceOf after :=
      ⟨lib, LibStep.inside lib event own,
        knows.trans (handleEvent_within inv own stepped).instanceOf.symm⟩
    cases event with
    | initIce role tieBreaker failed =>
        obtain rfl := Option.some.inj stepped
        exact initIce_refines knows inv.gone live
          (initIce_inits inv.each inv.few role tieBreaker failed) role tieBreaker failed
    | startIce rem perm foundation =>
        -- The session has had no description, as in every step of a run.
        have new : st.ice.all unpaired = true := by
          rw [StransEvent.again, live] at first
          simpa using first
        obtain ⟨result, started, rfl⟩ := Option.map_eq_some_iff.mp stepped
        rcases @startIce_starts env st
          (fun ice here => (inv.holds ice here).session) new rem perm foundation with
          ⟨other, started', starts⟩ | ⟨failed, _⟩
        · obtain rfl := Option.some.inj (started'.symm.trans started)
          exact startIce_refines knows live starts rem perm foundation
        · rw [failed] at started
          cases started
    | stopIce =>
        obtain rfl := Option.some.inj stepped
        exact ⟨_, LibStep.stopIce lib, stopped_instanceOf knows⟩
    | destroy =>
        obtain rfl := Option.some.inj stepped
        exact ⟨_, LibStep.destroy lib, Function.update_self _ _ _⟩
    | stunStatus => exact within rfl
    | turnReady => exact within rfl
    | turnClosed => exact within rfl
    | session => exact within rfl

end Refining

section Runs
variable {env : StunEnv} {cfg : StransCfg} {answers : List (Option PjSockaddr)} {calls : Nat}
  {lib : PjNath} {handle : Handle} {st reached : IceStrans}

theorem stransRun_refines (inv : TransInv cfg answers calls st)
    (knows : lib.live handle = instanceOf st)
    {events : List StransEvent} (ran : stransRun env st events = some reached) :
    ∃ final, Trace (LibStep handle) lib events final ∧ final.live handle = instanceOf reached := by
  induction events generalizing answers calls st lib with
  | nil => exact ⟨lib, rfl, Option.some.inj ran ▸ knows⟩
  | cons event rest ih =>
      cases first : event.again st with
      | true =>
          rw [stransRun, if_pos first] at ran
          cases ran
      | false =>
      rw [stransRun_cons rest first] at ran
      obtain ⟨middle, stepped, later⟩ := Option.bind_eq_some_iff.mp ran
      obtain ⟨next, step, knows'⟩ := stransStep_refines inv knows first stepped
      rcases @stransStep_inv env cfg answers calls st inv event first
        with ⟨other, same, kept⟩ | ⟨failed, _⟩
      · obtain rfl := Option.some.inj (same.symm.trans stepped)
        obtain ⟨final, trace, ends⟩ := ih kept knows' later
        exact ⟨final, ⟨next, step, trace⟩, ends⟩
      · rw [failed] at stepped
        cases stepped

/-- Whatever happens to a transport that is created, the library of the wrapper can do the
same with an instance of as many components; then both have a session or none, with as many
components in use. -/
theorem transport_refines_library (env : StunEnv) {cfg : StransCfg} {envs : List SockEnv}
    (created : pjIceStransCreate cfg envs = some st) {events : List StransEvent}
    (ran : stransRun env st events = some reached) (lib : PjNath) :
    ∃ final, Trace (LibStep lib.next) (lib.create envs.length) events final ∧
      final.live lib.next = instanceOf reached ∧
        final.hasSess lib.next = pjIceStransHasSess reached ∧
      (reached.destroyReq = false →
        final.runningCompCnt lib.next = pjIceStransGetRunningCompCnt reached) := by
  have knows : (lib.create envs.length).live lib.next = instanceOf st := by
    obtain ⟨comps, length, _, _, ⟨rfl, _⟩ | ⟨_, _, _, rfl⟩⟩ := created_cases created
    all_goals
      refine (Function.update_self _ _ _).trans ?_
      rw [← length]
      rfl
  have inv := reached_transInv created ran
  obtain ⟨final, trace, ends⟩ := stransRun_refines (created_transInv created) knows ran
  exact ⟨final, trace, ends, hasSess_of ends inv.gone, fun live =>
    runningCompCnt_of ends live fun ice here => (inv.holds ice here).session⟩

theorem transport_refines_library_host : ∃ final,
    Trace (LibStep 0) (PjNath.empty.create 1) negotiation final ∧
        final.live 0 = some ⟨1, some 1⟩ := by
  obtain ⟨final, trace, ends, _⟩ :=
    transport_refines_library allSent hostTransport_created negotiation_ran PjNath.empty
  exact ⟨final, trace, ends⟩

end Runs

end NatClient.IceTransport
