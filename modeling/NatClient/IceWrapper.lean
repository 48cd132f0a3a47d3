import NatClient.XmlDecoder
import Mathlib.Logic.Function.Basic

/-!
The wrapper functions of icewrapper.c over the state of the ICE library. An
instance is known by its handle, and a destroyed one has no state any more. Each
function takes what the library answers and returns the calls it made; a call
records the instance as it was at that moment.
-/

namespace NatClient.IceWrapper

open CString IceTypes XmlDecoder

abbrev Handle := Nat

/-- `sess` holds the component count of the session, if there is one. -/
structure Instance where
  compCnt : Nat
  sess : Option Nat
  deriving DecidableEq

/-- Handles are numbered as they are created, so none is used twice. -/
structure PjNath where
  live : Handle → Option Instance
  next : Handle

inductive LibFn where
  | create (compCnt : Nat)
  | destroy
  | hasSess
  | runningCompCnt
  | initIce (controlling : Bool)
  | startIce (rem : RemInfo)
  | stopIce
  | sendto (compId : Nat) (data : CStr) (addr : Option PjSockaddr)

structure LibCall where
  fn : LibFn
  handle : Handle
  inst : Option Instance

namespace PjNath

def empty : PjNath := ⟨fun _ => none, 0⟩

def call (lib : PjNath) (handle : Handle) (fn : LibFn) : LibCall := ⟨fn, handle, lib.live handle⟩

def set (lib : PjNath) (handle : Handle) (inst : Option Instance) : PjNath :=
  { lib with live := Function.update lib.live handle inst }

def setSess (lib : PjNath) (handle : Handle) (sess : Option Nat) : PjNath :=
  lib.set handle ((lib.live handle).map fun inst => { inst with sess := sess })

def hasSess (lib : PjNath) (handle : Handle) : Bool :=
  (lib.live handle).any fun inst => inst.sess.isSome

def runningCompCnt (lib : PjNath) (handle : Handle) : Nat :=
  (lib.live handle).elim 0 fun inst => inst.sess.getD inst.compCnt

def create (lib : PjNath) (compCnt : Nat) : PjNath :=
  { lib.set lib.next (some ⟨compCnt, none⟩) with next := lib.next + 1 }

def destroy (lib : PjNath) (handle : Handle) : PjNath := lib.set handle none

def initIce (lib : PjNath) (handle : Handle) (created : Bool) : PjNath :=
  lib.setSess handle (if created then (lib.live handle).map Instance.compCnt else none)

/-- Starting may end the session or leave it with any number of its instance's components:
a second start whose candidates are all ignored counts them all again. -/
def startIce (lib : PjNath) (handle : Handle) (left : Option Nat) : PjNath :=
  lib.setSess handle (left.map (min ((lib.live handle).elim 0 Instance.compCnt)))

end PjNath

/-- What `pj_ice_strans_start_ice` answers and which session it leaves. -/
structure StartOutcome where
  success : Bool
  left : Option Nat

structure IceTrans where
  name : CharArray 256
  icest : Option Handle
  rem : RemInfo

def IceTrans.zero : IceTrans := ⟨.empty, none, resetRemInfo⟩

structure Effect where
  icetrans : IceTrans
  lib : PjNath
  calls : List LibCall

section Wrapper
variable (icetrans : IceTrans) (lib : PjNath)

def natclientCreateInstance (compCnt : Nat) (created : Bool) : Effect :=
  if icetrans.icest ≠ none then ⟨icetrans, lib, []⟩
  else if created then
    ⟨{ icetrans with icest := some lib.next }, lib.create compCnt,
      [(lib.create compCnt).call lib.next (.create compCnt)]⟩
  else ⟨icetrans, lib, []⟩

def natclientDestroyInstance : Effect :=
  match icetrans.icest with
  | none => ⟨icetrans, lib, []⟩
  | some icest =>
      ⟨{ icetrans with icest := none, rem := resetRemInfo },
        lib.destroy icest, [lib.call icest .destroy]⟩

def natclientInitSession (rolechar : Char) (created : Bool) : Effect :=
  match icetrans.icest with
  | none => ⟨icetrans, lib, []⟩
  | some icest =>
      if lib.hasSess icest then ⟨icetrans, lib, [lib.call icest .hasSess]⟩
      -- The old description goes, also when the library refuses the session.
      else ⟨{ icetrans with rem := resetRemInfo }, lib.initIce icest created,
        [lib.call icest .hasSess, lib.call icest (.initIce (rolechar.toLower = 'o'))]⟩

def natclientStopSession (stopped : Bool) : Effect :=
  match icetrans.icest with
  | none => ⟨icetrans, lib, []⟩
  | some icest =>
      if lib.hasSess icest then
        ⟨{ icetrans with rem := resetRemInfo }, if stopped then lib.setSess icest none else lib,
          [lib.call icest .hasSess, lib.call icest .stopIce]⟩
      else ⟨icetrans, lib, [lib.call icest .hasSess]⟩

def natclientStartNego (outcome : StartOutcome) : Effect :=
  match icetrans.icest with
  | none => ⟨icetrans, lib, []⟩
  | some icest =>
      if lib.hasSess icest then
        if icetrans.rem.candCnt = 0 then ⟨icetrans, lib, [lib.call icest .hasSess]⟩
        else ⟨icetrans, lib.startIce icest outcome.left,
          [lib.call icest .hasSess, lib.call icest (.startIce icetrans.rem)]⟩
      else ⟨icetrans, lib, [lib.call icest .hasSess]⟩

/-- The address is read from `def_addr` without a look at its family. -/
def natclientSendData (compId : Nat) (data : CStr) : Effect :=
  match icetrans.icest with
  | none => ⟨icetrans, lib, []⟩
  | some icest =>
      if lib.hasSess icest then
        if compId < 1 then ⟨icetrans, lib, [lib.call icest .hasSess]⟩
        else if lib.runningCompCnt icest < compId then
          ⟨icetrans, lib, [lib.call icest .hasSess, lib.call icest .runningCompCnt]⟩
        else ⟨icetrans, lib, [lib.call icest .hasSess, lib.call icest .runningCompCnt,
          lib.call icest (.sendto compId data (icetrans.rem.defAddr[compId - 1]?.join))]⟩
      else ⟨icetrans, lib, [lib.call icest .hasSess]⟩

def errExit : List LibCall :=
  match icetrans.icest with
  | none => []
  | some icest => [lib.call icest .destroy]

end Wrapper

inductive WrapperOp where
  | createInstance (created : Bool)
  | initSession (rolechar : Char) (created : Bool)
  | connectWithUser (env : PeerEnv) (usrId : CStr)
  | startNego (outcome : StartOutcome)
  | sendData (compId : Nat) (data : CStr)
  | stopSession (stopped : Bool)
  | destroyInstance

/-- One call on one structure; a decoder that leaves its defined behaviour has no effect. -/
def wrapperEffect (compCnt : Nat) (icetrans : IceTrans) (lib : PjNath) : WrapperOp → Option Effect
  | .createInstance created => some (natclientCreateInstance icetrans lib compCnt created)
  | .initSession rolechar created => some (natclientInitSession icetrans lib rolechar created)
  | .connectWithUser env usrId => (natclientConnectWithUser env icetrans.rem usrId).map fun rem =>
      ⟨{ icetrans with rem := rem }, lib, []⟩
  | .startNego outcome => some (natclientStartNego icetrans lib outcome)
  | .sendData compId data => some (natclientSendData icetrans lib compId data)
  | .stopSession stopped => some (natclientStopSession icetrans lib stopped)
  | .destroyInstance => some (natclientDestroyInstance icetrans lib)

section Library
variable {lib : PjNath} {handle other : Handle}

@[simp] theorem set_live_same (inst : Option Instance) :
    (lib.set handle inst).live handle = inst := by
  simp [PjNath.set]

@[simp] theorem set_live_other (inst : Option Instance) (different : other ≠ handle) :
    (lib.set handle inst).live other = lib.live other := by
  simp [PjNath.set, different]

/-- Only `create` and `destroy` change which handles are live. -/
theorem setSess_live_iff (sess : Option Nat) :
    (lib.setSess handle sess).live other = none ↔ lib.live other = none := by
  by_cases same : other = handle
  · subst same
    simp [PjNath.setSess]
  · simp [PjNath.setSess, same]

theorem hasSess_iff : lib.hasSess handle = true ↔
    ∃ inst, lib.live handle = some inst ∧ inst.sess ≠ none := by
  rw [PjNath.hasSess]
  cases lib.live handle with
  | none => simp
  | some inst => cases sess : inst.sess <;> simp [sess]

end Library

/-! What each function can do. Only `natclient_create_instance` and
`natclient_destroy_instance` change which handles are live. -/
section Effects
variable (icetrans : IceTrans) (lib : PjNath)

def Own (calls : List LibCall) : Prop :=
  ∀ call ∈ calls, ∃ icest fn, icetrans.icest = some icest ∧ call = lib.call icest fn

structure Local (effect : Effect) : Prop where
  own : Own icetrans lib effect.calls
  name : effect.icetrans.name = icetrans.name
  icest : effect.icetrans.icest = icetrans.icest
  rem : effect.icetrans.rem = icetrans.rem ∨ effect.icetrans.rem = resetRemInfo
  live : ∀ other, effect.lib.live other = none ↔ lib.live other = none
  next : effect.lib.next = lib.next

variable {icetrans lib} in
theorem own_calls {icest : Handle} (occupied : icetrans.icest = some icest) (fns : List LibFn) :
    Own icetrans lib (fns.map (lib.call icest)) := by
  intro call member
  obtain ⟨fn, _, rfl⟩ := List.mem_map.mp member
  exact ⟨icest, fn, occupied, rfl⟩

variable {icetrans lib} in
theorem local_unchanged {calls : List LibCall} (own : Own icetrans lib calls) :
    Local icetrans lib ⟨icetrans, lib, calls⟩ :=
  ⟨own, rfl, rfl, Or.inl rfl, fun _ => Iff.rfl, rfl⟩

theorem createInstance_cases (compCnt : Nat) (created : Bool) :
    natclientCreateInstance icetrans lib compCnt created = ⟨icetrans, lib, []⟩ ∨
      icetrans.icest = none ∧ natclientCreateInstance icetrans lib compCnt created =
        ⟨{ icetrans with icest := some lib.next }, lib.create compCnt,
          [(lib.create compCnt).call lib.next (.create compCnt)]⟩ := by
  rw [natclientCreateInstance]
  by_cases occupied : icetrans.icest ≠ none
  · rw [if_pos occupied]
    exact Or.inl rfl
  · rw [if_neg occupied]
    cases created with
    | false => exact Or.inl rfl
    | true => exact Or.inr ⟨not_not.mp occupied, rfl⟩

theorem destroyInstance_cases :
    natclientDestroyInstance icetrans lib = ⟨icetrans, lib, []⟩ ∧ icetrans.icest = none ∨
      ∃ icest, icetrans.icest = some icest ∧ natclientDestroyInstance icetrans lib =
        ⟨{ icetrans with icest := none, rem := resetRemInfo }, lib.destroy icest,
          [lib.call icest .destroy]⟩ := by
  rw [natclientDestroyInstance]
  cases handle : icetrans.icest with
  | none => exact Or.inl ⟨rfl, rfl⟩
  | some icest => exact Or.inr ⟨icest, rfl, rfl⟩

theorem initSession_local (rolechar : Char) (created : Bool) :
    Local icetrans lib (natclientInitSession icetrans lib rolechar created) := by
  rw [natclientInitSession]
  split
  · exact local_unchanged (by simp [Own])
  · next icest occupied =>
      split
      · exact local_unchanged (own_calls occupied [.hasSess])
      · exact ⟨own_calls occupied [.hasSess, .initIce _], rfl, rfl, Or.inr rfl,
          fun _ => setSess_live_iff _, rfl⟩

theorem stopSession_local (stopped : Bool) :
    Local icetrans lib (natclientStopSession icetrans lib stopped) := by
  rw [natclientStopSession]
  split
  · exact local_unchanged (by simp [Own])
  · next icest occupied =>
      split
      · have own : Own icetrans lib _ := own_calls occupied [.hasSess, .stopIce]
        cases stopped with
        | true => exact ⟨own, rfl, rfl, Or.inr rfl, fun _ => setSess_live_iff _, rfl⟩
        | false => exact ⟨own, rfl, rfl, Or.inr rfl, fun _ => Iff.rfl, rfl⟩
      · exact local_unchanged (own_calls occupied [.hasSess])

theorem startNego_local (outcome : StartOutcome) :
    Local icetrans lib (natclientStartNego icetrans lib outcome) := by
  rw [natclientStartNego]
  split
  · exact local_unchanged (by simp [Own])
  · next icest occupied =>
      split
      · split
        · exact local_unchanged (own_calls occupied [.hasSess])
        · exact ⟨own_calls occupied [.hasSess, .startIce _], rfl, rfl, Or.inl rfl,
            fun _ => setSess_live_iff _, rfl⟩
      · exact local_unchanged (own_calls occupied [.hasSess])

theorem startNego_other (outcome : StartOutcome) {other : Handle}
    (different : icetrans.icest ≠ some other) :
    (natclientStartNego icetrans lib outcome).lib.live other = lib.live other := by
  rw [natclientStartNego]
  split
  · rfl
  · next icest occupied =>
      split
      · split
        · rfl
        · have apart : other ≠ icest := fun same => different (by rw [occupied, same])
          exact set_live_other _ apart
      · rfl

theorem startNego_icetrans (outcome : StartOutcome) :
    (natclientStartNego icetrans lib outcome).icetrans = icetrans := by
  rw [natclientStartNego]
  split
  · rfl
  · split
    · split <;> rfl
    · rfl

/-- The library is asked to start exactly when all three guards pass. -/
theorem startNego_starts_iff (outcome : StartOutcome) :
    (∃ call ∈ (natclientStartNego icetrans lib outcome).calls, ∃ rem, call.fn = .startIce rem) ↔
      (∃ icest, icetrans.icest = some icest ∧ lib.hasSess icest = true) ∧
          icetrans.rem.candCnt ≠ 0 := by
  rw [natclientStartNego]
  cases icetrans.icest with
  | none => simp
  | some icest =>
      by_cases present : lib.hasSess icest = true
      · by_cases none : icetrans.rem.candCnt = 0
        · simp [present, none, PjNath.call]
        · simp [present, none, PjNath.call]
      · simp [present, PjNath.call]

theorem sendData_state (compId : Nat) (data : CStr) :
    (natclientSendData icetrans lib compId data).icetrans = icetrans ∧
      (natclientSendData icetrans lib compId data).lib = lib := by
  rw [natclientSendData]
  split
  · exact ⟨rfl, rfl⟩
  · split
    · split
      · exact ⟨rfl, rfl⟩
      · split <;> exact ⟨rfl, rfl⟩
    · exact ⟨rfl, rfl⟩

theorem sendData_own (compId : Nat) (data : CStr) :
    Own icetrans lib (natclientSendData icetrans lib compId data).calls := by
  rw [natclientSendData]
  split
  · simp [Own]
  · next icest occupied =>
      split
      · split
        · exact own_calls occupied [.hasSess]
        · split
          · exact own_calls occupied [.hasSess, .runningCompCnt]
          · exact own_calls occupied [.hasSess, .runningCompCnt, .sendto _ _ _]
      · exact own_calls occupied [.hasSess]

theorem sendData_local (compId : Nat) (data : CStr) :
    Local icetrans lib (natclientSendData icetrans lib compId data) := by
  obtain ⟨same, sameLib⟩ := sendData_state icetrans lib compId data
  exact ⟨sendData_own icetrans lib compId data, by rw [same], by rw [same], Or.inl (by rw [same]),
    fun other => by rw [sameLib], by rw [sameLib]⟩

variable {icetrans lib} in
/-- Everything that a call can do to the structure and to the library. -/
theorem wrapperEffect_cases {compCnt : Nat} {op : WrapperOp} {effect : Effect}
    (ran : wrapperEffect compCnt icetrans lib op = some effect) :
    Local icetrans lib effect ∨
      (icetrans.icest = none ∧
        effect = ⟨{ icetrans with icest := some lib.next }, lib.create compCnt,
        [(lib.create compCnt).call lib.next (.create compCnt)]⟩) ∨
      (∃ icest, icetrans.icest = some icest ∧ effect =
        ⟨{ icetrans with icest := none, rem := resetRemInfo }, lib.destroy icest,
          [lib.call icest .destroy]⟩) ∨
      ∃ env usrId rem, op = .connectWithUser env usrId ∧
        natclientConnectWithUser env icetrans.rem usrId = some rem ∧
          effect = ⟨{ icetrans with rem := rem }, lib, []⟩ := by
  have unchanged : Local icetrans lib ⟨icetrans, lib, []⟩ := local_unchanged (by simp [Own])
  cases op with
  | createInstance created =>
      cases ran
      rcases createInstance_cases icetrans lib compCnt created with same | taken
      · exact Or.inl (same ▸ unchanged)
      · exact Or.inr (Or.inl taken)
  | initSession rolechar created =>
      cases ran
      exact Or.inl (initSession_local icetrans lib rolechar created)
  | connectWithUser env usrId =>
      obtain ⟨rem, connected, rfl⟩ := Option.map_eq_some_iff.mp ran
      exact Or.inr (Or.inr (Or.inr ⟨env, usrId, rem, rfl, connected, rfl⟩))
  | startNego outcome =>
      cases ran
      exact Or.inl (startNego_local icetrans lib outcome)
  | sendData compId data =>
      cases ran
      exact Or.inl (sendData_local icetrans lib compId data)
  | stopSession stopped =>
      cases ran
      exact Or.inl (stopSession_local icetrans lib stopped)
  | destroyInstance =>
      cases ran
      rcases destroyInstance_cases icetrans lib with ⟨same, _⟩ | given
      · exact Or.inl (same ▸ unchanged)
      · exact Or.inr (Or.inr (Or.inl given))

theorem errExit_own : Own icetrans lib (errExit icetrans lib) := by
  rw [errExit]
  split
  · simp [Own]
  · next icest occupied => exact own_calls occupied [.destroy]

end Effects

end NatClient.IceWrapper
