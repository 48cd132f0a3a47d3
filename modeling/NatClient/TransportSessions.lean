import NatClient.TransportGathering

/-!
The one session of a transport has the components of the transport until the description of
the peer takes some away, and reports its completion once.
-/

namespace NatClient.IceTransport

open CString IceTypes IceSession IceLifetime

section Moving
variable {ice after : IceSess}

structure Onward (before after : IceSess) : Prop where
  acts : before.acts <+: after.acts
  comps : before.rcand ≠ [] → after.compCnt = before.compCnt ∧ after.rcand ≠ []

theorem Onward.refl (ice : IceSess) : Onward ice ice :=
  ⟨List.prefix_refl _, fun remote => ⟨rfl, remote⟩⟩

theorem Onward.trans {first second third : IceSess} (before : Onward first second)
    (later : Onward second third) :
    Onward first third where
  acts := before.acts.trans later.acts
  comps := fun remote => by
    obtain ⟨same, remote'⟩ := before.comps remote
    obtain ⟨same', remote''⟩ := later.comps remote'
    exact ⟨same'.trans same, remote''⟩

theorem allows_onward {move : Move} (arrays : Arrays ice) (allowed : Allows ice move after) :
    Onward ice after := by
  have same := Onward.refl ice
  cases allowed with
  | quiet role prefs early clistTimer nominating performed acts actions later grown silent =>
      exact ⟨grown ▸ List.prefix_append _ _, same.comps⟩
  | addRemote cand room =>
      exact ⟨same.acts, fun remote => ⟨rfl, List.append_ne_nil_of_left_ne_nil remote _⟩⟩
  -- A session that has remote candidates is not paired again.
  | pair rcand noCands noChecks =>
      obtain ⟨known, clist, compCnt, comp, shape, _⟩ := arrays.pair_shape rcand noCands noChecks
      rw [shape]
      exact ⟨same.acts, fun remote => (remote noCands).elim⟩
  | gain lcand check cand insideLocal remote origin gain =>
      obtain ⟨validList, comp, rfl⟩ := gained_shape gain
      exact ⟨same.acts, same.comps⟩
  | complete status =>
      unfold IceSession.onIceComplete
      split
      · exact same
      · exact ⟨same.acts, same.comps⟩
  | report => exact ⟨List.prefix_append _ _, same.comps⟩
  | indicate => exact ⟨List.prefix_append _ _, same.comps⟩
  | addLocal => exact ⟨same.acts, same.comps⟩
  | append => exact ⟨same.acts, same.comps⟩
  | recheck => exact ⟨same.acts, same.comps⟩
  | launch => exact ⟨same.acts, same.comps⟩
  | nominate => exact ⟨same.acts, same.comps⟩
  | arm => exact ⟨same.acts, same.comps⟩
  | disarm => exact ⟨same.acts, same.comps⟩

theorem steps_onward {used : List (Option PjSockaddr)}
    (steps : Steps ice used after) (inv : Inv ice) :
    Onward ice after := by
  obtain ⟨moves, trace, rfl⟩ := steps
  induction moves generalizing ice with
  | nil => exact (show ice = after from trace) ▸ Onward.refl ice
  | cons move rest ih =>
      obtain ⟨next, allowed, later⟩ := trace
      exact (allows_onward inv.arrays allowed).trans (ih (inv.kept allowed) later)

end Moving

section Local

def sessCand (prefs : IceCandType → BitVec 8) (compId : Nat) (cand : GatheredCand) : SessCand :=
  { type := cand.type, compId := BitVec.ofNat 8 compId,
    foundation := cand.foundation, addr := cand.addr
    transportId := cand.transportId, baseAddr := cand.baseAddr
    prio := calcCandPrio prefs cand.type (localPref.setWidth 32)
      ((BitVec.ofNat 8 compId).setWidth 32) }

def isReady (cand : GatheredCand) : Bool := cand.status = .ready

def readyOf (prefs : IceCandType → BitVec 8) (compId : Nat) (comp : TransComp) : List SessCand :=
  (comp.candList.filter isReady).map (sessCand prefs compId)

def readyCands (prefs : IceCandType → BitVec 8) : Nat → List TransComp → List SessCand
  | _, [] => []
  | compId, comp :: rest => readyOf prefs compId comp ++ readyCands prefs (compId + 1) rest

/-- The local candidates of a session before it learns of its peer. -/
def Own (comps : Nat) (lcand : List SessCand) : Prop :=
  ∃ prefs list, (prefs = candTypePrefs ∨ prefs = srflxPrefTable) ∧ list.length = comps ∧
    (∀ comp ∈ list, CompInv comp) ∧ lcand = readyCands prefs 1 list

end Local

section Stepping
variable {env : StunEnv} {ice after : IceSess} {event : IceEvent}

theorem may_other (may : sessionMay event = true) :
    event.describes = false ∧ event.gathers = false ∧ event.again ice = false := by
  cases event <;> first | exact ⟨rfl, rfl, rfl⟩ | cases may

structure SessionOf (comps : Nat) (ice : IceSess) : Prop where
  inv : Inv ice
  most : ice.compCnt ≤ comps
  all : ice.rcand = [] → ice.compCnt = comps
  own : ice.rcand = [] → Own comps ice.lcand

variable {comps : Nat}

theorem SessionOf.steps {used : List (Option PjSockaddr)} (session : SessionOf comps ice)
    (steps : Steps ice used after) (remote : ice.rcand ≠ []) : SessionOf comps after where
  inv := steps.inv session.inv
  most := by
    rw [((steps_onward steps session.inv).comps remote).1]
    exact session.most
  all := fun none' => (((steps_onward steps session.inv).comps remote).2 none').elim
  own := fun none' => (((steps_onward steps session.inv).comps remote).2 none').elim

structure Moved (comps : Nat) (before : IceSess) (sources : List (Option PjSockaddr))
    (after : IceSess) : Prop where
  session : SessionOf comps after
  compCnt : after.compCnt = before.compCnt
  steps : ∃ used, Steps before used after ∧ used.Sublist sources

theorem sessionEvent_moved (session : SessionOf comps ice) (may : sessionMay event = true) :
    (∃ after, iceStep env ice event = some after ∧ Moved comps ice event.sources after) ∨
    (iceStep env ice event = none ∧
        pjIceMaxChecks ≤ ice.validList.length ∧ event.sources ≠ []) := by
  rw [iceStep, if_neg (by rw [session.inv.live]; exact Bool.false_ne_true)]
  obtain ⟨other, gathers, fresh⟩ := @may_other ice event may
  rcases handleEvent_handles env session.inv event fresh with
    (⟨after, used, handled, steps, fewer⟩ | failed) | rfl
  · refine Or.inl ⟨after, handled, ?_⟩
    by_cases none' : ice.rcand = []
    · obtain ⟨remote, same, kept⟩ := unpaired_event session.inv none' other handled
      exact ⟨⟨steps.inv session.inv, same ▸ session.most, fun _ => same.trans (session.all none'),
        fun _ => kept gathers ▸ session.own none'⟩, same, used, steps, fewer⟩
    · exact ⟨session.steps steps none', ((steps_onward steps session.inv).comps none').1,
        used, steps, fewer⟩
  · exact Or.inr failed
  · cases may

end Stepping

section Completing
variable {before after : IceSess}

theorem reports_onward (onward : Onward before after) :
    reports after = reports before ++ completions before after := by
  obtain ⟨actions, grown⟩ := onward.acts
  rw [reports, reports, completions, ← grown, List.drop_left, List.filterMap_append]

/-- A step of a session reports nothing, or the outcome, for the first time. -/
theorem completions_cases (inv : Inv after) (onward : Onward before after) :
    completions before after = [] ∨
    (completions before after = [after.iceStatus] ∧ reports before = [] ∧
        after.isComplete = true) := by
  have grown := reports_onward onward
  cases complete : after.isComplete with
  | false =>
      rw [(inv.outcome.running complete).1] at grown
      exact Or.inl (List.append_eq_nil_iff.mp grown.symm).2
  | true =>
      rcases inv.outcome.reported complete with ⟨none', _⟩ | ⟨one, _⟩
      · rw [none'] at grown
        exact Or.inl (List.append_eq_nil_iff.mp grown.symm).2
      · rw [one] at grown
        rcases List.append_eq_singleton_iff.mp grown.symm with ⟨none', new⟩ | ⟨_, none'⟩
        · exact Or.inr ⟨new, none', rfl⟩
        · exact Or.inl none'

end Completing

end NatClient.IceTransport
