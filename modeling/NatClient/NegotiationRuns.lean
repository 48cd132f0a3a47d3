import NatClient.IceWrapper
import NatClient.DescriptionVerdict
import NatClient.Runs

/-!
Which remote description a negotiation starts with. `rem` is zeroed whenever a
session is created, also after the library dropped the previous one by itself, so
what is loaded while a session exists was connected after the session began.
-/

namespace NatClient.NegotiationRuns

open CString IceTypes XmlDecoder IceWrapper Runs DescriptionReading DescriptionVerdict

/-! Runs with a history. -/
section History

inductive Event where
  | sessionCreated
  | connected (env : PeerEnv) (usrId : CStr)

structure NegoState where
  icetrans : IceTrans
  lib : PjNath
  history : List Event

def fresh : NegoState := ⟨.zero, .empty, []⟩

/-- A call, with what had happened before the operation that makes it. -/
structure NegoCall where
  call : LibCall
  history : List Event

def inSession (icetrans : IceTrans) (lib : PjNath) : Bool := icetrans.icest.any lib.hasSess

def eventsOf (icetrans : IceTrans) (lib : PjNath) (effect : Effect) : WrapperOp → List Event
  | .connectWithUser env usrId => [.connected env usrId]
  | _ =>
      if inSession icetrans lib = false ∧ inSession effect.icetrans effect.lib = true then
        [.sessionCreated]
      else []

def negoStep (compCnt : Nat) : StepFn NegoState WrapperOp NegoCall :=
  fun ⟨icetrans, lib, history⟩ op => (wrapperEffect compCnt icetrans lib op).map fun effect =>
    (⟨effect.icetrans, effect.lib, eventsOf icetrans lib effect op ++ history⟩,
      effect.calls.map fun call => ⟨call, history⟩)

/-- The description is the one accepted document of the newest connect, which came
after the newest session was created. -/
def FromNewest (history : List Event) (rem : RemInfo) : Prop :=
  ∃ env usrId doc peer list ufrag pwd cands earlier,
    history = .connected env usrId :: earlier ∧ Event.sessionCreated ∈ earlier ∧
      Receives env usrId doc ∧ Header doc peer list ufrag pwd ∧
        Accepts env.sockaddr list ufrag pwd ∧
        Describes env.sockaddr list ufrag pwd cands rem

def StartsFresh (made : NegoCall) : Prop :=
  match made.call.fn with
  | .startIce rem =>
      (∃ known, made.call.inst = some known ∧ known.sess ≠ none) ∧ FromNewest made.history rem
  | _ => True

structure Invariant (state : NegoState) : Prop where
  began : inSession state.icetrans state.lib = true → Event.sessionCreated ∈ state.history
  rem : inSession state.icetrans state.lib = true →
    state.icetrans.rem = resetRemInfo ∨ FromNewest state.history state.icetrans.rem

end History

/-! What one operation does to the session. -/
section Session
variable {icetrans : IceTrans} {lib : PjNath}

theorem inSession_of {icest : Handle} (occupied : icetrans.icest = some icest) :
    inSession icetrans lib = lib.hasSess icest := by
  rw [inSession, occupied, Option.any_some]

theorem startNego_idle (idle : inSession icetrans lib = false) (outcome : StartOutcome) :
    ∃ calls, natclientStartNego icetrans lib outcome = ⟨icetrans, lib, calls⟩ := by
  rw [natclientStartNego]
  cases occupied : icetrans.icest with
  | none => exact ⟨[], rfl⟩
  | some icest =>
      rw [inSession_of occupied] at idle
      exact ⟨[lib.call icest .hasSess], by simp only [idle, Bool.false_eq_true, ↓reduceIte]⟩

theorem stopSession_idle (idle : inSession icetrans lib = false) (stopped : Bool) :
    ∃ calls, natclientStopSession icetrans lib stopped = ⟨icetrans, lib, calls⟩ := by
  rw [natclientStopSession]
  cases occupied : icetrans.icest with
  | none => exact ⟨[], rfl⟩
  | some icest =>
      rw [inSession_of occupied] at idle
      exact ⟨[lib.call icest .hasSess], by simp only [idle, Bool.false_eq_true, ↓reduceIte]⟩

theorem initSession_idle (idle : inSession icetrans lib = false)
    (rolechar : Char) (created : Bool) :
    (∃ calls, natclientInitSession icetrans lib rolechar created = ⟨icetrans, lib, calls⟩) ∨
      (natclientInitSession icetrans lib rolechar created).icetrans.rem = resetRemInfo := by
  rw [natclientInitSession]
  cases occupied : icetrans.icest with
  | none => exact Or.inl ⟨[], rfl⟩
  | some icest =>
      rw [inSession_of occupied] at idle
      exact Or.inr (by simp only [idle, Bool.false_eq_true, ↓reduceIte])

/-- Without a session nothing but `natclient_init_session` begins one, and it zeroes `rem`. -/
theorem session_begins {compCnt : Nat} {op : WrapperOp} {effect : Effect}
    (ran : wrapperEffect compCnt icetrans lib op = some effect)
    (before : inSession icetrans lib = false)
    (after : inSession effect.icetrans effect.lib = true) :
    effect.icetrans.rem = resetRemInfo := by
  have unchanged (same : ∃ calls, effect = ⟨icetrans, lib, calls⟩) :
      effect.icetrans.rem = resetRemInfo := by
    obtain ⟨calls, rfl⟩ := same
    exact absurd (before.symm.trans after) (by simp)
  cases op with
  | createInstance created =>
      cases ran
      rcases createInstance_cases icetrans lib compCnt created with same | ⟨_, same⟩
      · exact unchanged ⟨_, same⟩
      · rw [same, inSession_of rfl] at after
        exact absurd after (by simp [PjNath.hasSess, PjNath.create])
  | initSession rolechar created =>
      cases ran
      rcases initSession_idle before rolechar created with same | reset
      · exact unchanged same
      · exact reset
  | connectWithUser env usrId =>
      obtain ⟨rem, _, rfl⟩ := Option.map_eq_some_iff.mp ran
      exact absurd (before.symm.trans after) (by simp)
  | startNego outcome =>
      cases ran
      exact unchanged (startNego_idle before outcome)
  | sendData compId data =>
      cases ran
      obtain ⟨same, sameLib⟩ := sendData_state icetrans lib compId data
      rw [same, sameLib] at after
      exact absurd (before.symm.trans after) (by simp)
  | stopSession stopped =>
      cases ran
      exact unchanged (stopSession_idle before stopped)
  | destroyInstance =>
      cases ran
      rcases destroyInstance_cases icetrans lib with ⟨same, _⟩ | ⟨icest, _, same⟩
      · exact unchanged ⟨_, same⟩
      · rw [same]

end Session

/-! One step, and all runs. -/
section Steps
variable {icetrans : IceTrans} {lib : PjNath} {history : List Event} {compCnt : Nat}

theorem fresh_invariant : Invariant fresh :=
  ⟨fun impossible => absurd impossible (by simp [fresh, inSession, IceTrans.zero]),
    fun impossible => absurd impossible (by simp [fresh, inSession, IceTrans.zero])⟩

/-- A connect leaves nothing or the description it accepted. -/
theorem connect_newest (env : PeerEnv) (usrId : CStr) {rem rem' : RemInfo}
    (connected : natclientConnectWithUser env rem usrId = some rem')
    (began : Event.sessionCreated ∈ history) :
    rem' = resetRemInfo ∨ FromNewest (.connected env usrId :: history) rem' := by
  obtain ⟨doc, received⟩ := received_of_connect connected
  rcases connect_cases rem received with
    ⟨rem'', peer, list, ufrag, pwd, cands, accepted, header, accepts,
      describes⟩ | ⟨rejected, _⟩ | ⟨fault, _⟩
  · cases connected.symm.trans accepted
    exact Or.inr
      ⟨env, usrId, doc, peer, list, ufrag, pwd, cands, history, rfl, began, received, header,
      accepts, describes⟩
  · exact Or.inl (Option.some_inj.mp (connected.symm.trans rejected))
  · exact absurd (connected.symm.trans fault) (by simp)

theorem step_invariant {state state' : NegoState} {op : WrapperOp} {calls : List NegoCall}
    (holds : Invariant state) (taken : negoStep compCnt state op = some (state', calls)) :
    Invariant state' := by
  obtain ⟨icetrans, lib, history⟩ := state
  obtain ⟨effect, ran, same⟩ := Option.map_eq_some_iff.mp taken
  cases same
  cases before : inSession icetrans lib with
  | false =>
      -- A session that begins in this step is recorded and starts with nothing.
      have began (after : inSession effect.icetrans effect.lib = true) :
          Event.sessionCreated ∈ eventsOf icetrans lib effect op := by
        cases op with
        | connectWithUser env usrId =>
            obtain ⟨rem, _, rfl⟩ := Option.map_eq_some_iff.mp ran
            exact absurd (before.symm.trans after) (by simp)
        | _ => simp [eventsOf, before, after]
      exact ⟨fun after => List.mem_append_left _ (began after),
        fun after => Or.inl (session_begins ran before after)⟩
  | true =>
      have older := holds.began before
      refine ⟨fun _ => List.mem_append_right _ older, fun _ => ?_⟩
      rcases wrapperEffect_cases ran with
        within | ⟨free, _⟩ | ⟨icest, _, rfl⟩ | ⟨env, usrId, rem, rfl, connected, rfl⟩
      · -- Inside a session only a connect adds to the history.
        by_cases connects : ∃ env usrId, op = .connectWithUser env usrId
        · obtain ⟨env, usrId, rfl⟩ := connects
          obtain ⟨rem, connected, rfl⟩ := Option.map_eq_some_iff.mp ran
          exact connect_newest env usrId connected older
        · have quiet : eventsOf icetrans lib effect op ++ history = history := by
            cases op with
            | connectWithUser env usrId => exact absurd ⟨env, usrId, rfl⟩ connects
            | _ => simp [eventsOf, before]
          change effect.icetrans.rem = _ ∨ FromNewest (eventsOf icetrans lib effect op ++ history) _
          rw [quiet]
          rcases within.rem with kept | reset
          · exact kept ▸ holds.rem before
          · exact Or.inl reset
      · rw [inSession, free] at before
        exact absurd before (by simp)
      · exact Or.inl rfl
      · exact connect_newest env usrId connected older

theorem startNego_fresh (holds : Invariant ⟨icetrans, lib, history⟩) (outcome : StartOutcome) :
    ∀ call ∈ (natclientStartNego icetrans lib outcome).calls, StartsFresh ⟨call, history⟩ := by
  rw [natclientStartNego]
  cases occupied : icetrans.icest with
  | none => simp
  | some icest =>
      by_cases present : lib.hasSess icest = true
      · by_cases empty : icetrans.rem.candCnt = 0
        · simp [present, empty, StartsFresh, PjNath.call]
        · have session : inSession icetrans lib = true := by rw [inSession_of occupied, present]
          have newest : FromNewest history icetrans.rem := by
            rcases holds.rem session with reset | newest
            · change icetrans.rem = resetRemInfo at reset
              exact absurd (by rw [reset]; rfl) empty
            · exact newest
          simp only [present, empty, ↓reduceIte, List.forall_mem_cons]
          exact ⟨trivial, ⟨hasSess_iff.mp present, newest⟩, by simp⟩
      · simp [present, StartsFresh, PjNath.call]

theorem effect_fresh (holds : Invariant ⟨icetrans, lib, history⟩) {op : WrapperOp} {effect : Effect}
    (ran : wrapperEffect compCnt icetrans lib op = some effect) :
    ∀ call ∈ effect.calls, StartsFresh ⟨call, history⟩ := by
  cases op with
  | createInstance created =>
      cases ran
      rcases createInstance_cases icetrans lib compCnt created with same | ⟨_, same⟩ <;>
        simp [same, StartsFresh, PjNath.call]
  | initSession rolechar created =>
      cases ran
      rw [natclientInitSession]
      split
      · simp
      · split <;> simp [StartsFresh, PjNath.call]
  | connectWithUser env usrId =>
      obtain ⟨rem, _, rfl⟩ := Option.map_eq_some_iff.mp ran
      simp
  | startNego outcome =>
      cases ran
      exact startNego_fresh holds outcome
  | sendData compId data =>
      cases ran
      rw [natclientSendData]
      split
      · simp
      · split
        · split
          · simp [StartsFresh, PjNath.call]
          · split <;> simp [StartsFresh, PjNath.call]
        · simp [StartsFresh, PjNath.call]
  | stopSession stopped =>
      cases ran
      rw [natclientStopSession]
      split
      · simp
      · split <;> simp [StartsFresh, PjNath.call]
  | destroyInstance =>
      cases ran
      rcases destroyInstance_cases icetrans lib with ⟨same, _⟩ | ⟨_, _, same⟩ <;>
        simp [same, StartsFresh, PjNath.call]

/-- In every run each negotiation starts with the description of the newest connect. -/
theorem negotiation_starts_fresh (compCnt : Nat) (ops : List WrapperOp) :
    Along (negoStep compCnt) (fun _ _ calls _ => ∀ made ∈ calls, StartsFresh made) fresh ops := by
  apply along_of_invariant _ fresh_invariant
  intro state op calls state' holds taken
  refine ⟨?_, step_invariant holds taken⟩
  obtain ⟨effect, ran, same⟩ := Option.map_eq_some_iff.mp taken
  cases same
  exact List.forall_mem_map.mpr (effect_fresh holds ran)

end Steps

end NatClient.NegotiationRuns
