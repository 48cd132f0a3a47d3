import NatClient.IceWrapper
import NatClient.DescriptionVerdict
import NatClient.Runs

/-!
Any order of wrapper calls on one `ice_trans_t`. The guards cover every library
call but one: a send takes its address from `def_addr`, which only an accepted
description fills, and only for the first component.
-/

namespace NatClient.WrapperRuns

open CString IceTypes XmlDecoder IceWrapper Runs

/-- `loaded` remembers the descriptions that were decoded so far. -/
structure WrapperState where
  icetrans : IceTrans
  lib : PjNath
  loaded : List RemInfo

def fresh : WrapperState := ⟨.zero, .empty, []⟩

structure RunCall where
  call : LibCall
  loaded : List RemInfo

def loadedBy (effect : Effect) (loaded : List RemInfo) : WrapperOp → List RemInfo
  | .connectWithUser _ _ => effect.icetrans.rem :: loaded
  | _ => loaded

def wrapperStep (compCnt : Nat) : StepFn WrapperState WrapperOp RunCall :=
  fun ⟨icetrans, lib, loaded⟩ op => (wrapperEffect compCnt icetrans lib op).map fun effect =>
    (⟨effect.icetrans, effect.lib, loadedBy effect loaded op⟩,
      effect.calls.map fun call => ⟨call, loaded⟩)

section Preconditions

def HasSession (inst : Option Instance) : Prop := ∃ known, inst = some known ∧ known.sess ≠ none

/-- The address is one that an earlier description brought for this component. -/
def FromPeer (loaded : List RemInfo) (compId : Nat) (addr : Option PjSockaddr) : Prop :=
  ∃ known rem, addr = some known ∧ rem ∈ loaded ∧ rem.defAddr[compId - 1]? = some (some known)

/-- The library's preconditions, on the instance as it was at the call. -/
def Respects (made : RunCall) : Prop :=
  match made.call.fn with
  | .initIce _ => ∃ known, made.call.inst = some known ∧ known.sess = none
  | .startIce rem => HasSession made.call.inst ∧ rem.candCnt ≠ 0
  | .stopIce => HasSession made.call.inst
  | .sendto compId _ addr =>
      (∃ known, made.call.inst = some known ∧ 1 ≤ compId ∧ compId ≤ known.sess.getD known.compCnt) ∧
        FromPeer made.loaded compId addr
  | _ => True

def Refused (state : WrapperState) (compId : Nat) : Prop :=
  ∀ icest, state.icetrans.icest = some icest →
    state.lib.hasSess icest = false ∨ compId < 1 ∨ state.lib.runningCompCnt icest < compId

def SendReady (state : WrapperState) : WrapperOp → Prop
  | .sendData compId _ => Refused state compId ∨ compId = 1 ∧ state.icetrans.rem.candCnt ≠ 0
  | _ => True

end Preconditions

/-! What a remote description can hold. -/
section Remote

/-- A description has a first default address exactly when it has candidates, and
never another one. -/
structure FirstOnly (rem : RemInfo) : Prop where
  others : ∀ index, index ≠ 0 → (rem.defAddr[index]?).join = none
  first : rem.candCnt ≠ 0 ↔ ∃ addr, rem.defAddr[0]? = some (some addr)

theorem firstOnly_reset : FirstOnly resetRemInfo := by
  constructor
  · intro index _
    by_cases inside : index < pjIceMaxComp
    · simp [resetRemInfo, inside]
    · simp [resetRemInfo, inside]
  · simp [resetRemInfo]

theorem firstOnly_connect {env : PeerEnv} {rem rem' : RemInfo} {usrId : CStr}
    (connected : natclientConnectWithUser env rem usrId = some rem') : FirstOnly rem' := by
  rcases DescriptionVerdict.connect_loads connected with rfl | ⟨nonzero, addr, stored⟩
  · exact firstOnly_reset
  · constructor
    · intro index different
      rw [stored]
      by_cases inside : index < pjIceMaxComp
      · simp [inside, Vector.getElem_set_ne _ _ different.symm]
      · simp [inside]
    · simp [stored, nonzero]

structure Invariant (state : WrapperState) : Prop where
  shape : FirstOnly state.icetrans.rem
  source : state.icetrans.rem = resetRemInfo ∨ state.icetrans.rem ∈ state.loaded
  live : ∀ icest, state.icetrans.icest = some icest → state.lib.live icest ≠ none

end Remote

/-! One step. -/
section Step
variable {icetrans : IceTrans} {lib : PjNath} {loaded : List RemInfo}

theorem loadedBy_kept (effect : Effect) (op : WrapperOp) {rem : RemInfo} (member : rem ∈ loaded) :
    rem ∈ loadedBy effect loaded op := by
  cases op with
  | connectWithUser env usrId => exact List.mem_cons_of_mem _ member
  | _ => exact member

theorem step_invariant {compCnt : Nat} {state state' : WrapperState} {op : WrapperOp}
    {calls : List RunCall} (holds : Invariant state)
    (taken : wrapperStep compCnt state op = some (state', calls)) : Invariant state' := by
  obtain ⟨icetrans, lib, loaded⟩ := state
  obtain ⟨effect, ran, same⟩ := Option.map_eq_some_iff.mp taken
  cases same
  have source : icetrans.rem = resetRemInfo ∨ icetrans.rem ∈ loadedBy effect loaded op :=
    holds.source.imp_right (loadedBy_kept effect op)
  rcases wrapperEffect_cases ran with
    within | ⟨_, rfl⟩ | ⟨icest, _, rfl⟩ | ⟨env, usrId, rem, rfl, connected, rfl⟩
  · constructor
    · change FirstOnly effect.icetrans.rem
      rcases within.rem with same | reset
      · exact same ▸ holds.shape
      · exact reset ▸ firstOnly_reset
    · change effect.icetrans.rem = resetRemInfo ∨ effect.icetrans.rem ∈ loadedBy effect loaded op
      rcases within.rem with same | reset
      · exact same ▸ source
      · exact Or.inl reset
    · intro icest occupied dead
      rw [within.icest] at occupied
      exact holds.live icest occupied ((within.live icest).mp dead)
  · refine ⟨holds.shape, source, ?_⟩
    rintro icest ⟨⟩
    simp [PjNath.create]
  · exact ⟨firstOnly_reset, Or.inl rfl, by simp⟩
  · exact ⟨firstOnly_connect connected, Or.inr List.mem_cons_self, holds.live⟩

theorem respects_map {calls : List LibCall} :
    (∀ made ∈ calls.map fun call => RunCall.mk call loaded, Respects made) ↔
      ∀ call ∈ calls, Respects ⟨call, loaded⟩ := by
  simp only [List.forall_mem_map]

theorem noSession_of {icest : Handle} (absent : ¬ lib.hasSess icest = true)
    (live : lib.live icest ≠ none) : ∃ known, lib.live icest = some known ∧ known.sess = none := by
  obtain ⟨known, found⟩ := Option.ne_none_iff_exists'.mp live
  refine ⟨known, found, ?_⟩
  by_contra session
  exact absent (hasSess_iff.mpr ⟨known, found, session⟩)

theorem initSession_respects (live : ∀ icest, icetrans.icest = some icest → lib.live icest ≠ none)
    (rolechar : Char) (created : Bool) :
    ∀ call ∈ (natclientInitSession icetrans lib rolechar created).calls,
        Respects ⟨call, loaded⟩ := by
  rw [natclientInitSession]
  cases handle : icetrans.icest with
  | none => simp
  | some icest =>
      by_cases present : lib.hasSess icest = true
      · simp [present, Respects, PjNath.call]
      · simp only [present, Bool.false_eq_true, ↓reduceIte, List.forall_mem_cons]
        exact ⟨trivial, noSession_of present (live icest handle), by simp⟩

theorem stopSession_respects (stopped : Bool) :
    ∀ call ∈ (natclientStopSession icetrans lib stopped).calls, Respects ⟨call, loaded⟩ := by
  rw [natclientStopSession]
  cases icetrans.icest with
  | none => simp
  | some icest =>
      by_cases present : lib.hasSess icest = true
      · simp only [present, ↓reduceIte, List.forall_mem_cons]
        exact ⟨trivial, hasSess_iff.mp present, by simp⟩
      · simp [present, Respects, PjNath.call]

theorem startNego_respects (outcome : StartOutcome) :
    ∀ call ∈ (natclientStartNego icetrans lib outcome).calls, Respects ⟨call, loaded⟩ := by
  rw [natclientStartNego]
  cases icetrans.icest with
  | none => simp
  | some icest =>
      by_cases present : lib.hasSess icest = true
      · by_cases empty : icetrans.rem.candCnt = 0
        · simp [present, empty, Respects, PjNath.call]
        · simp only [present, empty, ↓reduceIte, List.forall_mem_cons]
          exact ⟨trivial, ⟨hasSess_iff.mp present, empty⟩, by simp⟩
      · simp [present, Respects, PjNath.call]

theorem fromPeer_iff (holds : Invariant ⟨icetrans, lib, loaded⟩)
    {compId : Nat} (positive : 1 ≤ compId) :
    FromPeer loaded compId (icetrans.rem.defAddr[compId - 1]?).join ↔
      compId = 1 ∧ icetrans.rem.candCnt ≠ 0 := by
  constructor
  · rintro ⟨addr, _, stored, _⟩
    by_cases first : compId = 1
    · subst first
      have present := Option.join_eq_some_iff.mp stored
      exact ⟨rfl, holds.shape.first.mpr ⟨addr, present⟩⟩
    · rw [holds.shape.others (compId - 1) (by omega)] at stored
      exact absurd stored (by simp)
  -- A description with candidates is not the reset one, so it was decoded in this run.
  · rintro ⟨rfl, nonzero⟩
    obtain ⟨addr, stored⟩ := holds.shape.first.mp nonzero
    rcases holds.source with reset | member
    · have zero : icetrans.rem.candCnt = 0 := by
        change icetrans.rem = resetRemInfo at reset
        rw [reset]
        rfl
      exact absurd zero nonzero
    · exact ⟨addr, icetrans.rem, Option.join_eq_some_iff.mpr stored, member, stored⟩

theorem sendData_respects_iff (holds : Invariant ⟨icetrans, lib, loaded⟩)
    (compId : Nat) (data : CStr) :
    (∀ call ∈ (natclientSendData icetrans lib compId data).calls, Respects ⟨call, loaded⟩) ↔
      Refused ⟨icetrans, lib, loaded⟩ compId ∨ compId = 1 ∧ icetrans.rem.candCnt ≠ 0 := by
  rw [natclientSendData]
  cases handle : icetrans.icest with
  | none => simp [Refused, handle]
  | some icest =>
      by_cases present : lib.hasSess icest = true
      · by_cases outside : compId < 1 ∨ lib.runningCompCnt icest < compId
        · have refused : Refused ⟨icetrans, lib, loaded⟩ compId := by
            intro other same
            cases handle.symm.trans same
            exact Or.inr outside
          refine iff_of_true ?_ (Or.inl refused)
          -- The number of components is asked for only when the first test passes.
          by_cases low : compId < 1
          · simp only [present, ↓reduceIte, low, List.forall_mem_cons]
            exact ⟨trivial, by simp⟩
          · simp only [present, ↓reduceIte, low, outside.resolve_left low, List.forall_mem_cons]
            exact ⟨trivial, trivial, by simp⟩
        · have accepted : ¬ Refused ⟨icetrans, lib, loaded⟩ compId := by
            intro refused
            rcases refused icest handle with absent | range
            · exact absurd present (by simp [absent])
            · exact outside range
          push Not at outside
          obtain ⟨known, found, _⟩ := hasSess_iff.mp present
          have bound : compId ≤ known.sess.getD known.compCnt := by
            simpa [PjNath.runningCompCnt, found] using outside.2
          have inside : ∃ known, lib.live icest = some known ∧ 1 ≤ compId ∧
              compId ≤ known.sess.getD known.compCnt := ⟨known, found, outside.1, bound⟩
          simp only [present, ↓reduceIte, Nat.not_lt.mpr outside.1, Nat.not_lt.mpr outside.2,
            List.forall_mem_cons, accepted, false_or]
          rw [← fromPeer_iff holds outside.1]
          constructor
          · rintro ⟨_, _, ⟨_, peer⟩, _⟩
            exact peer
          · intro peer
            exact ⟨trivial, trivial, ⟨inside, peer⟩, by simp⟩
      · simp only [present, Bool.false_eq_true, ↓reduceIte, List.forall_mem_cons]
        have absent : lib.hasSess icest = false := by simpa using present
        have refused : Refused ⟨icetrans, lib, loaded⟩ compId := by
          intro other same
          cases handle.symm.trans same
          exact Or.inl absent
        exact iff_of_true ⟨trivial, by simp⟩ (Or.inl refused)

theorem step_respects_iff {compCnt : Nat} {state state' : WrapperState} {op : WrapperOp}
    {calls : List RunCall} (holds : Invariant state)
    (taken : wrapperStep compCnt state op = some (state', calls)) :
    (∀ made ∈ calls, Respects made) ↔ SendReady state op := by
  obtain ⟨icetrans, lib, loaded⟩ := state
  cases op with
  | createInstance created =>
      cases taken
      rw [respects_map]
      rcases createInstance_cases icetrans lib compCnt created with same | ⟨_, same⟩
      · simp [same, SendReady]
      · simp [same, SendReady, Respects, PjNath.call]
  | initSession rolechar created =>
      cases taken
      rw [respects_map]
      exact iff_of_true (initSession_respects holds.live rolechar created) trivial
  | connectWithUser env usrId =>
      obtain ⟨effect, ran, same⟩ := Option.map_eq_some_iff.mp taken
      obtain ⟨rem, _, rfl⟩ := Option.map_eq_some_iff.mp ran
      cases same
      simp [SendReady]
  | startNego outcome =>
      cases taken
      rw [respects_map]
      exact iff_of_true (startNego_respects outcome) trivial
  -- The only call whose preconditions the wrapper may miss.
  | sendData compId data =>
      cases taken
      rw [respects_map]
      exact sendData_respects_iff holds compId data
  | stopSession stopped =>
      cases taken
      rw [respects_map]
      exact iff_of_true (stopSession_respects stopped) trivial
  | destroyInstance =>
      cases taken
      rw [respects_map]
      rcases destroyInstance_cases icetrans lib with ⟨same, _⟩ | ⟨_, _, same⟩
      · simp [same, SendReady]
      · simp [same, SendReady, Respects, PjNath.call]

end Step

section Run

theorem fresh_invariant : Invariant fresh :=
  ⟨firstOnly_reset, Or.inl rfl, fun _ impossible =>
    absurd impossible (by simp [fresh, IceTrans.zero])⟩

/-- A run respects the library exactly when each of its sends is refused by the
guards or is for component 1 while an accepted description is loaded. -/
theorem wrapper_respects_iff (compCnt : Nat) (ops : List WrapperOp) :
    Along (wrapperStep compCnt) (fun _ _ calls _ => ∀ made ∈ calls, Respects made) fresh ops ↔
      Along (wrapperStep compCnt) (fun state op _ _ => SendReady state op) fresh ops := by
  apply along_congr (fun _ _ _ _ holds taken _ => step_invariant holds taken) _ fresh_invariant
  intro state op calls state' holds taken
  exact step_respects_iff holds taken

/-- A send right after the session is created has no address at all. -/
theorem early_send_disrespects :
    ¬ Along (wrapperStep 1) (fun _ _ calls _ => ∀ made ∈ calls, Respects made) fresh
      [.createInstance true, .initSession 'o' true, .sendData 1 "hi".toList] := by
  intro along
  obtain ⟨_, along⟩ := along _ _ rfl
  obtain ⟨_, along⟩ := along _ _ rfl
  obtain ⟨respects, _⟩ := along _ _ rfl
  have sent := respects ⟨⟨.sendto 1 "hi".toList none, 0, some ⟨1, some 1⟩⟩, []⟩
    (.tail _ (.tail _ (.head _)))
  obtain ⟨known, rem, same, _⟩ := sent.2
  exact absurd same (by simp)

end Run

end NatClient.WrapperRuns
