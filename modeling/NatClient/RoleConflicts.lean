import NatClient.SentChecks
import NatClient.IceRuns

/-!
Two sessions that check each other over a network that may lose, repeat and reorder what
they send. Their roles come apart in favour of the higher tie breaker, and once apart they
stay as they are.
-/

namespace NatClient.IceSession

open CString IceTypes SwapSort Runs

section Network

inductive Side where
  | lower
  | higher
  deriving DecidableEq

def Side.peer : Side → Side
  | .lower => .higher
  | .higher => .lower

def Side.goal : Side → Role
  | .lower => .controlled
  | .higher => .controlling

/-- A response to a check of the agent that it goes to. -/
structure Reply where
  receiver : Side
  number : Nat
  roleConflict : Bool
  deriving DecidableEq

/-- The checks in flight are those that the sessions ever sent; with the responses they
may arrive at any time, more than once or never. -/
structure Net where
  session : Side → IceSess
  replies : List Reply

def Net.put (net : Net) (side : Side) (after : IceSess) : Net :=
  { net with session := Function.update net.session side after }

def IceEvent.own : IceEvent → Bool
  | .response _ _ _ => false
  | .request _ _ => false
  | .changeRole _ => false
  | _ => true

/-- An error other than a role conflict may come from anywhere, as a timeout does. -/
def Net.answers (net : Net) (receiver : Side) (number : Nat) (status : Status) : Prop :=
  (status = .stunRoleConflict → ⟨receiver, number, true⟩ ∈ net.replies) ∧
    (status = .success → ⟨receiver, number, false⟩ ∈ net.replies)

instance (net : Net) (receiver : Side) (number : Nat) (status : Status) :
    Decidable (net.answers receiver number status) :=
  inferInstanceAs (Decidable (_ ∧ _))

inductive NetEvent where
  | own (side : Side) (event : IceEvent)
  /-- A check arrives; what it says besides the role is left open. -/
  | deliver (receiver : Side) (number : Nat) (controlling : Bool)
      (request : Request) (foundation : CStr)
  | answer (receiver : Side) (number : Nat) (response : Response) (foundation : CStr)

def netStep (env : Side → StunEnv) (net : Net) : NetEvent → Option Net
  | .own side event =>
      if event.own then (iceStep (env side) (net.session side) event).map (net.put side)
        else some net
  | .deliver receiver number controlling request foundation =>
      let sender := net.session receiver.peer
      let before := net.session receiver
      if (number, controlling) ∈ sentChecks sender then do
        let after ← iceStep (env receiver) before
          (.request { request with roleAttr := some ⟨controlling, sender.tieBreaker⟩ } foundation)
        let said := (responses after).drop (responses before).length
        some { net.put receiver after with
          replies := net.replies ++ said.map fun conflict => ⟨receiver.peer, number, conflict⟩ }
      else some net
  | .answer receiver number response foundation =>
      if net.answers receiver number response.status then
        (iceStep (env receiver) (net.session receiver) (.response number response foundation)).map
          (net.put receiver)
      else some net

def netRun (env : Side → StunEnv) : Net → List NetEvent → Option Net
  | net, [] => some net
  | net, event :: rest => do
      let net ← netStep env net event
      netRun env net rest

end Network

section Sides

theorem Side.peer_peer (side : Side) : side.peer.peer = side := by cases side <;> rfl

theorem Side.peer_ne (side : Side) : side.peer ≠ side := by cases side <;> decide

theorem Side.goal_peer (side : Side) : side.peer.goal ≠ side.goal := by cases side <;> decide

theorem Side.goal_known (side : Side) : side.goal ≠ .unknown := by cases side <;> decide

theorem Side.other_goal {side : Side} {role : Role} (known : role ≠ .unknown)
    (different : role ≠ side.goal) :
    role = side.peer.goal := by
  cases side <;> cases role <;> first | rfl | exact (known rfl).elim | exact (different rfl).elim

def claimed (controlling : Bool) : Role := if controlling then .controlling else .controlled

theorem claimed_of_role {role : Role} (known : role ≠ .unknown) :
    claimed (decide (role = .controlling)) = role := by
  cases role
  · exact (known rfl).elim
  · rfl
  · rfl

theorem roleAfterConflict_goal {side : Side} {controlling : Bool}
    (different : claimed controlling ≠ side.goal) :
    roleAfterConflict controlling = side.goal := by
  cases side <;> cases controlling <;> first | rfl | exact (different rfl).elim

/-- A request in conflict is refused by an agent that has its goal, and makes the other turn. -/
theorem resolveConflict_spec {side : Side} {role : Role}
    {own peers : BitVec 64} {controlling : Bool}
    (order : side = .lower → own < peers) (order' : side = .higher → peers < own) :
    (claimed controlling ≠ role ∧
      resolveConflict role own (some ⟨controlling, peers⟩) = some role) ∨
    (claimed controlling = role ∧ role = side.goal ∧
      resolveConflict role own (some ⟨controlling, peers⟩) = none) ∨
    (claimed controlling = role ∧ role ≠ side.goal ∧
      resolveConflict role own (some ⟨controlling, peers⟩) = some side.goal) := by
  rw [resolveConflict]
  cases side with
  | lower =>
      have less := order rfl
      cases role <;> cases controlling <;> simp [claimed, Side.goal, less]
  | higher =>
      have more := order' rfl
      have notLess : ¬ own < peers := BitVec.not_lt.mpr (BitVec.le_of_lt more)
      cases role <;> cases controlling <;> simp [claimed, Side.goal, notLess]

end Sides

section Speaking
variable {env : StunEnv} {ice after : IceSess}

theorem iceStep_own {event : IceEvent} (own : event.own = true)
    (stepped : iceStep env ice event = some after) :
    Speaks ice.role [] ice after := by
  rw [iceStep] at stepped
  split at stepped
  · exact Option.some.inj stepped ▸ Speaks.refl ice
  cases event with
  | addCand compId transportId type localPref foundation addr baseAddr =>
      rw [handleEvent] at stepped
      split at stepped
      case h_1 result added => exact Option.some.inj stepped ▸ addCand_speaks added
      case h_2 => exact Option.some.inj stepped ▸ Speaks.refl ice
  | createCheckList rcand => exact Option.some.inj stepped ▸ createCheckList_speaks rcand
  | startCheck foundation =>
      obtain ⟨⟨result, status⟩, started, rfl⟩ := Option.map_eq_some_iff.mp stepped
      exact pjIceSessStartCheck_speaks env started
  | checkTimer =>
      rw [handleEvent] at stepped
      split at stepped
      · exact Option.some.inj stepped ▸ startPeriodicCheck_speaks env
      · exact Option.some.inj stepped ▸ Speaks.refl ice
  | timer =>
      rw [handleEvent] at stepped
      split at stepped
      · exact Option.some.inj stepped ▸ Speaks.refl ice
      · exact onTimer_speaks stepped
  | response number answer foundation => cases own
  | request asked foundation => cases own
  | changeRole role => cases own
  | setPrefs prefs =>
      exact Option.some.inj stepped ▸
        Speaks.quiet rfl rfl (Nat.le_refl _) rfl (List.Subset.refl _)
  | destroy =>
      obtain rfl := Option.some.inj stepped
      rw [destroyIce]
      split
      · exact Speaks.refl ice
      · exact Speaks.quiet rfl rfl (Nat.le_refl _) rfl (List.nil_subset _)

/-- A response changes the role only if it reports a conflict of a check in flight, to the
other role than the check said. -/
theorem iceStep_response {number : Nat} {response : Response} {foundation : CStr}
    (stepped : iceStep env ice (.response number response foundation) = some after) :
    (Speaks ice.role [] ice after ∧ (response.status = .stunRoleConflict →
      ice.isDestroying = true ∨ ∀ tx ∈ ice.pending, tx.number ≠ number)) ∨
    ∃ tx ∈ ice.pending, tx.number = number ∧ response.status = .stunRoleConflict ∧
      Speaks (roleAfterConflict tx.controlling) [] ice after := by
  rw [iceStep] at stepped
  split at stepped
  case isTrue destroyed =>
    exact Or.inl ⟨Option.some.inj stepped ▸ Speaks.refl ice, fun _ => Or.inl destroyed⟩
  case isFalse live =>
    rw [handleEvent] at stepped
    split at stepped
    case h_1 unknown =>
      refine Or.inl
        ⟨Option.some.inj stepped ▸ Speaks.refl ice, fun _ => Or.inr fun tx member same => ?_⟩
      exact absurd (decide_eq_true same) (List.find?_eq_none.mp unknown tx member)
    case h_2 tx found =>
      have speaks := onStunRequestComplete_speaks env (Bool.eq_false_iff.mpr live) stepped
      rw [roleOnResponse] at speaks
      split at speaks
      case isTrue conflict =>
        have number' := List.find?_some found
        rw [decide_eq_true_eq] at number'
        exact Or.inr ⟨tx, List.mem_of_find?_eq_some found, number', conflict, speaks⟩
      case isFalse other => exact Or.inl ⟨speaks, fun conflict => (other conflict).elim⟩

theorem iceStep_request {request : Request} {foundation : CStr}
    (stepped : iceStep env ice (.request request foundation) = some after) :
    ((ice.isDestroying = true ∨ request.priority = none) ∧ after = ice) ∨
    (resolveConflict ice.role ice.tieBreaker request.roleAttr = none ∧
      Speaks ice.role [true] ice after) ∨
    ∃ role, resolveConflict ice.role ice.tieBreaker request.roleAttr = some role ∧
      Speaks role [false] ice after := by
  rw [iceStep] at stepped
  split at stepped
  case isTrue destroyed => exact Or.inl ⟨Or.inl destroyed, (Option.some.inj stepped).symm⟩
  case isFalse live =>
    rcases onStunRxRequest_speaks env (Bool.eq_false_iff.mpr live) stepped
      with ⟨dropped, same⟩ | answered
    · exact Or.inl ⟨Or.inr dropped, same⟩
    · exact Or.inr answered

end Speaking

section Settling

/-- What holds of two sessions and their messages in any order of events. -/
structure Settling (net : Net) : Prop where
  ties : (net.session .lower).tieBreaker < (net.session .higher).tieBreaker
  known : ∀ side, (net.session side).role ≠ .unknown
  numbers : ∀ side, ∀ claim ∈ sentChecks (net.session side), claim.1 < (net.session side).performed
  unique : ∀ side number controlling other, (number, controlling) ∈ sentChecks (net.session side) →
    (number, other) ∈ sentChecks (net.session side) → controlling = other
  pending : ∀ side, ∀ tx ∈ (net.session side).pending,
    (tx.number, tx.controlling) ∈ sentChecks (net.session side)
  /-- An agent that once said its goal has kept it. -/
  claims : ∀ side, ∀ claim ∈ sentChecks (net.session side), claimed claim.2 = side.goal →
    (net.session side).role = side.goal
  /-- Only an agent that has its goal refuses, and only a check that says the same. -/
  refusals : ∀ side number, ⟨side, number, true⟩ ∈ net.replies →
    (net.session side.peer).role = side.peer.goal ∧
      ∃ controlling, (number, controlling) ∈ sentChecks (net.session side) ∧
        claimed controlling ≠ side.goal

variable {net : Net} {side : Side} {after : IceSess} {role : Role} {replies : List Bool}

theorem Net.put_self : (net.put side after).session side = after := Function.update_self _ _ _

theorem Net.put_other {other : Side} (different : other ≠ side) :
    (net.put side after).session other = net.session other := Function.update_of_ne different _ _

theorem Settling.order (settling : Settling net) (side : Side) :
    (side = .lower → (net.session side).tieBreaker < (net.session side.peer).tieBreaker) ∧
      (side = .higher → (net.session side.peer).tieBreaker < (net.session side).tieBreaker) := by
  refine ⟨fun same => ?_, fun same => ?_⟩
  · subst same
    exact settling.ties
  · subst same
    exact settling.ties

/-- What an agent says keeps the invariant, if its role stays or becomes its goal. -/
theorem Settling.put (settling : Settling net)
    (speaks : Speaks role replies (net.session side) after)
    (stays : role = (net.session side).role ∨ role = side.goal) :
    Settling (net.put side after) := by
  obtain ⟨claims, grown, new⟩ := speaks.sent
  have known : role ≠ .unknown := by
    rcases stays with same | same
    · exact same ▸ settling.known side
    · exact same ▸ side.goal_known
  have kept : (net.session side).role = side.goal → after.role = side.goal := by
    intro before
    rw [speaks.inRole]
    rcases stays with same | same
    · exact same.trans before
    · exact same
  have tie (other : Side) :
      ((net.put side after).session other).tieBreaker = (net.session other).tieBreaker := by
    by_cases same : other = side
    · subst same
      rw [Net.put_self, speaks.tieBreaker]
    · rw [Net.put_other same]
  have heard (other : Side) {claim : Nat × Bool} (member : claim ∈ sentChecks (net.session other)) :
      claim ∈ sentChecks ((net.put side after).session other) := by
    by_cases same : other = side
    · subst same
      rw [Net.put_self, grown]
      exact List.mem_append_left _ member
    · rwa [Net.put_other same]
  have goals (other : Side) (before : (net.session other).role = other.goal) :
      ((net.put side after).session other).role = other.goal := by
    by_cases same : other = side
    · subst same
      rw [Net.put_self]
      exact kept before
    · rwa [Net.put_other same]
  refine ⟨?_, fun other => ?_, fun other claim member => ?_,
    fun other number c c' first second => ?_,
    fun other tx member => ?_, fun other claim member goal => ?_, fun other number member => ?_⟩
  · rw [tie, tie]
    exact settling.ties
  · by_cases same : other = side
    · subst same
      rw [Net.put_self, speaks.inRole]
      exact known
    · rw [Net.put_other same]
      exact settling.known other
  · by_cases same : other = side
    · subst same
      rw [Net.put_self] at member ⊢
      rw [grown] at member
      rcases List.mem_append.mp member with old | said
      · exact (settling.numbers other claim old).trans_le speaks.performed
      · exact (new claim said).2.1
    · rw [Net.put_other same] at member ⊢
      exact settling.numbers other claim member
  · by_cases same : other = side
    · subst same
      rw [Net.put_self, grown] at first second
      -- A new number is beyond all old ones, and what is new says one role.
      rcases List.mem_append.mp first with old | said
        <;> rcases List.mem_append.mp second with old' | said'
      · exact settling.unique other number c c' old old'
      · exact absurd (settling.numbers other _ old) (Nat.not_lt.mpr (new _ said').1)
      · exact absurd (settling.numbers other _ old') (Nat.not_lt.mpr (new _ said).1)
      · exact (new _ said).2.2.trans (new _ said').2.2.symm
    · rw [Net.put_other same] at first second
      exact settling.unique other number c c' first second
  · by_cases same : other = side
    · subst same
      rw [Net.put_self] at member ⊢
      rcases speaks.pending tx member with old | said
      · rw [grown]
        exact List.mem_append_left _ (settling.pending other tx old)
      · exact said
    · rw [Net.put_other same] at member ⊢
      exact settling.pending other tx member
  · by_cases same : other = side
    · subst same
      rw [Net.put_self] at member ⊢
      rw [grown] at member
      rcases List.mem_append.mp member with old | said
      · exact kept (settling.claims other claim old goal)
      · rw [(new claim said).2.2, claimed_of_role known] at goal
        exact speaks.inRole.trans goal
    · rw [Net.put_other same] at member ⊢
      exact settling.claims other claim member goal
  · obtain ⟨peer, controlling, member', different⟩ := settling.refusals other number member
    exact ⟨goals other.peer peer, controlling, heard other member', different⟩

theorem Settling.reply (settling : Settling net) {added : List Reply}
    (refusals : ∀ side number, ⟨side, number, true⟩ ∈ added →
      (net.session side.peer).role = side.peer.goal ∧
      ∃ controlling, (number, controlling) ∈ sentChecks (net.session side) ∧
        claimed controlling ≠ side.goal) :
    Settling { net with replies := net.replies ++ added } where
  ties := settling.ties
  known := settling.known
  numbers := settling.numbers
  unique := settling.unique
  pending := settling.pending
  claims := settling.claims
  refusals := fun side number member => by
    rcases List.mem_append.mp member with old | new
    · exact settling.refusals side number old
    · exact refusals side number new

/-- A role changes to the goal of its agent only, and only when the peer has its own. -/
def Turns (net after : Net) : Prop :=
  ∀ side, (after.session side).role = (net.session side).role ∨
    ((after.session side).role = side.goal ∧ (net.session side.peer).role = side.peer.goal)

theorem Turns.put (speaks : Speaks role replies (net.session side) after)
    (stays : role = (net.session side).role ∨
      (role = side.goal ∧ (net.session side.peer).role = side.peer.goal)) :
    Turns net (net.put side after) := by
  intro other
  by_cases same : other = side
  · subst same
    rw [Net.put_self, speaks.inRole]
    exact stays
  · rw [Net.put_other same]
    exact Or.inl rfl

theorem answered_of_speaks {ice : IceSess} (speaks : Speaks role replies ice after) :
    (responses after).drop (responses ice).length = replies := by
  rw [speaks.responses, List.drop_left]

end Settling

section Stepping
variable {env : Side → StunEnv} {net after : Net}

theorem deliver_settles (settling : Settling net) {receiver : Side}
    {number : Nat} {controlling : Bool} {request : Request} {foundation : CStr} {ice : IceSess}
    (sent : (number, controlling) ∈ sentChecks (net.session receiver.peer))
    (stepped : iceStep (env receiver) (net.session receiver) (.request { request with
      roleAttr :=
        some ⟨controlling, (net.session receiver.peer).tieBreaker⟩ } foundation) = some ice) :
    Turns net (net.put receiver ice) ∧ Settling { net.put receiver ice with
      replies := net.replies ++ ((responses ice).drop (responses (net.session receiver)).length).map
        fun conflict => ⟨receiver.peer, number, conflict⟩ } := by
  obtain ⟨order, order'⟩ := settling.order receiver
  have resolved :=
    @resolveConflict_spec receiver (net.session receiver).role _ _ controlling order order'
  rcases iceStep_request stepped with ⟨_, rfl⟩ | ⟨refused, speaks⟩ | ⟨role, accepted, speaks⟩
  · have speaks := Speaks.refl (net.session receiver)
    refine ⟨Turns.put speaks (Or.inl rfl), ?_⟩
    rw [answered_of_speaks speaks]
    exact (settling.put speaks (Or.inl rfl)).reply fun _ _ member => absurd member List.not_mem_nil
  · refine ⟨Turns.put speaks (Or.inl rfl), ?_⟩
    rw [answered_of_speaks speaks]
    refine (settling.put speaks (Or.inl rfl)).reply fun side number' member => ?_
    obtain ⟨rfl, rfl, _⟩ := Reply.mk.inj (List.mem_singleton.mp member)
    -- Only the agent that has its goal refuses.
    obtain ⟨same, goal⟩ : claimed controlling = (net.session receiver).role ∧
        (net.session receiver).role = receiver.goal := by
      rcases resolved with ⟨_, other⟩ | ⟨same, goal, _⟩ | ⟨_, _, other⟩
      · cases refused.symm.trans other
      · exact ⟨same, goal⟩
      · cases refused.symm.trans other
    rw [Side.peer_peer, Net.put_self, Net.put_other receiver.peer_ne]
    refine ⟨speaks.inRole.trans goal, controlling, sent, ?_⟩
    rw [same, goal]
    exact receiver.goal_peer.symm
  -- An agent turns only to its goal, and only when the check said the peer has its own.
  · have stays : role = (net.session receiver).role ∨
        (role = receiver.goal ∧ (net.session receiver.peer).role = receiver.peer.goal) := by
      rcases resolved with ⟨_, other⟩ | ⟨_, _, other⟩ | ⟨same, different, other⟩
      · exact Or.inl (Option.some.inj (accepted.symm.trans other))
      · cases accepted.symm.trans other
      · refine Or.inr ⟨Option.some.inj (accepted.symm.trans other), ?_⟩
        have said := same.trans (Side.other_goal (settling.known receiver) different)
        exact settling.claims receiver.peer _ sent said
    refine ⟨Turns.put speaks stays, ?_⟩
    rw [answered_of_speaks speaks]
    refine (settling.put speaks (stays.imp_right And.left)).reply fun side number' member => ?_
    cases (Reply.mk.inj (List.mem_singleton.mp member)).2.2

theorem netStep_settles (settling : Settling net) {event : NetEvent}
    (stepped : netStep env net event = some after) :
    Settling after ∧ Turns net after := by
  have unchanged : Settling net ∧ Turns net net := ⟨settling, fun _ => Or.inl rfl⟩
  cases event with
  | own side event =>
      rw [netStep] at stepped
      split at stepped
      case isTrue own =>
        obtain ⟨ice, stepped', rfl⟩ := Option.map_eq_some_iff.mp stepped
        have speaks := iceStep_own own stepped'
        exact ⟨settling.put speaks (Or.inl rfl), Turns.put speaks (Or.inl rfl)⟩
      case isFalse => exact Option.some.inj stepped ▸ unchanged
  | deliver receiver number controlling request foundation =>
      rw [netStep] at stepped
      dsimp only at stepped
      split at stepped
      case isTrue sent =>
        obtain ⟨ice, stepped', done⟩ := Option.bind_eq_some_iff.mp stepped
        obtain ⟨turns, settles⟩ := deliver_settles settling sent stepped'
        exact Option.some.inj done ▸ ⟨settles, turns⟩
      case isFalse => exact Option.some.inj stepped ▸ unchanged
  | answer receiver number response foundation =>
      rw [netStep] at stepped
      split at stepped
      case isTrue allowed =>
        obtain ⟨ice, stepped', rfl⟩ := Option.map_eq_some_iff.mp stepped
        rcases iceStep_response stepped' with ⟨speaks, _⟩ | ⟨tx, member, rfl, conflict, speaks⟩
        · exact ⟨settling.put speaks (Or.inl rfl), Turns.put speaks (Or.inl rfl)⟩
        -- A refusal is on record, and the refused check is the one in flight.
        · obtain ⟨peer, controlling, sent, different⟩ :=
            settling.refusals receiver tx.number (allowed.1 conflict)
          have same := settling.unique receiver _ _ _ sent (settling.pending receiver tx member)
          have goal := roleAfterConflict_goal (same ▸ different)
          exact ⟨settling.put speaks (Or.inr goal), Turns.put speaks (Or.inr ⟨goal, peer⟩)⟩
      case isFalse => exact Option.some.inj stepped ▸ unchanged

theorem Turns.apart (turns : Turns net after) (settling : Settling net)
    (apart : (net.session .lower).role ≠ (net.session .higher).role) (side : Side) :
    (after.session side).role = (net.session side).role := by
  have apart' : (net.session side).role ≠ (net.session side.peer).role := by
    cases side with
    | lower => exact apart
    | higher => exact apart.symm
  rcases turns side with same | ⟨goal, peer⟩
  · exact same
  · refine goal.trans (Eq.symm ?_)
    by_contra different
    exact apart' ((Side.other_goal (settling.known side) different).trans peer.symm)

theorem netRun_settles (settling : Settling net) {events : List NetEvent}
    (ran : netRun env net events = some after) :
    Settling after ∧
      (∀ side, (after.session side).role = (net.session side).role ∨
        (after.session side).role = side.goal) ∧
      ((net.session .lower).role ≠ (net.session .higher).role →
        ∀ side, (after.session side).role = (net.session side).role) := by
  induction events generalizing net with
  | nil => exact Option.some.inj ran ▸ ⟨settling, fun _ => Or.inl rfl, fun _ _ => rfl⟩
  | cons event rest ih =>
      obtain ⟨middle, stepped, later⟩ := Option.bind_eq_some_iff.mp ran
      obtain ⟨settling', turns⟩ := netStep_settles settling stepped
      obtain ⟨settled, roles, apart'⟩ := ih settling' later
      refine ⟨settled, fun side => ?_, fun apart side => ?_⟩
      · rcases roles side with same | goal
        · exact same ▸ (turns side).imp_right And.left
        · exact Or.inr goal
      · have stays := turns.apart settling apart
        rw [apart' (by rw [stays, stays]; exact apart), stays]

end Stepping

section Roles

structure Agent where
  role : Role
  compCnt : Nat
  tieBreaker : BitVec 64
  aggressive : Bool
  controlledAgentWantNomTimeout : Int

def Agent.session (agent : Agent) : IceSess :=
  newSession agent.role agent.compCnt agent.tieBreaker agent.aggressive
    agent.controlledAgentWantNomTimeout

def newNet (agent : Side → Agent) : Net := ⟨fun side => (agent side).session, []⟩

theorem created_settling {agent : Side → Agent} (known : ∀ side, (agent side).role ≠ .unknown)
    (ties : (agent .lower).tieBreaker < (agent .higher).tieBreaker) : Settling (newNet agent) where
  ties := ties
  known := known
  numbers := fun _ _ member => absurd member List.not_mem_nil
  unique := fun _ _ _ _ member _ => absurd member List.not_mem_nil
  pending := fun _ _ member => absurd member List.not_mem_nil
  claims := fun _ _ member => absurd member List.not_mem_nil
  refusals := fun _ _ member => absurd member List.not_mem_nil

variable (env : Side → StunEnv) {agent : Side → Agent} {events : List NetEvent} {reached : Net}

/-- However their messages are delayed, repeated or lost, each agent has its first role or
the one that its tie breaker gives it; two that began alike and are apart have the roles
of their tie breakers; and roles that are apart never change again. -/
theorem roles_settle (known : ∀ side, (agent side).role ≠ .unknown)
    (ties : (agent .lower).tieBreaker < (agent .higher).tieBreaker)
    (ran : netRun env (newNet agent) events = some reached) :
    (∀ side, (reached.session side).role = (agent side).role ∨
      (reached.session side).role = side.goal) ∧
    ((reached.session .lower).role ≠ (reached.session .higher).role →
      ((agent .lower).role = (agent .higher).role →
        ∀ side, (reached.session side).role = side.goal) ∧
      ∀ later final, netRun env reached later = some final →
        ∀ side, (final.session side).role = (reached.session side).role) := by
  obtain ⟨settling, roles, _⟩ := netRun_settles (created_settling known ties) ran
  refine ⟨roles, fun apart => ⟨fun alike side => ?_, fun later final ran' => ?_⟩⟩
  · rcases roles .lower with first | first <;> rcases roles .higher with second | second
    · exact (apart (first.trans (alike.trans second.symm))).elim
    · cases side with
      | lower =>
          by_contra different
          exact apart ((Side.other_goal (settling.known .lower) different).trans second.symm)
      | higher => exact second
    · cases side with
      | lower => exact first
      | higher =>
          by_contra different
          exact apart (first.trans (Side.other_goal (settling.known .higher) different).symm)
    · cases side with
      | lower => exact first
      | higher => exact second
  · exact (netRun_settles settling ran').2.2 apart

section Hosts

def bothControlling (side : Side) : Agent :=
  ⟨.controlling, 1, if side = .lower then 1 else 2, true, 10000⟩

def beginning (side : Side) (own peer : PjSockaddr) : List NetEvent :=
  [.own side (.addCand 1 0 .host 65535 [] (some own) (some own)),
   .own side (.createCheckList [{ peerCand with addr := some peer }]),
   .own side (.startCheck fun _ => []), .own side .checkTimer]

def bothBegin : List NetEvent :=
  beginning .lower hostAddr peerAddr ++ beginning .higher peerAddr hostAddr

def hostRequest : Request := ⟨1, 0, some hostAddr, some 1862270975, true, none⟩

def bothSent (_ : Side) : StunEnv := allSent

def begunNet : Net := (netRun bothSent (newNet bothControlling) bothBegin).get (by decide)

def refusedNet : Net :=
  (netStep bothSent begunNet (.deliver .higher 0 true hostRequest [])).get (by decide)

def turnedNet : Net :=
  (netStep bothSent refusedNet (.answer .lower 0 ⟨.stunRoleConflict, none, none⟩ [])).get
    (by decide)

theorem bothControlling_known (side : Side) : (bothControlling side).role ≠ .unknown := by
  cases side <;> decide

end Hosts

theorem roles_settle_hosts :
    (turnedNet.session .lower).role = Side.lower.goal ∧
        (turnedNet.session .higher).role = Side.higher.goal := by
  have settled :=
    @roles_settle bothSent bothControlling
      (bothBegin ++ [.deliver .higher 0 true hostRequest [],
        .answer .lower 0 ⟨.stunRoleConflict, none, none⟩ []])
      turnedNet bothControlling_known (by decide) (by rfl)
  exact ⟨(settled.2 (by decide)).1 rfl .lower, (settled.2 (by decide)).1 rfl .higher⟩

theorem apart_of_goals {net : Net} {side : Side} (own : (net.session side).role = side.goal)
    (peer : (net.session side.peer).role = side.peer.goal) :
    (net.session .lower).role ≠ (net.session .higher).role := by
  intro same
  cases side with
  | lower => exact Side.goal_peer .lower (peer.symm.trans (same.symm.trans own))
  | higher => exact Side.goal_peer .higher (peer.symm.trans (same.trans own))

theorem alike_of_conflict {net : Net}
    (conflict : (net.session .lower).role = (net.session .higher).role)
    (side : Side) : (net.session side.peer).role = (net.session side).role := by
  cases side with
  | lower => exact conflict.symm
  | higher => exact conflict

theorem answer_turns {env : Side → StunEnv} {net final : Net}
    (settling : Settling net) {side : Side} {number : Nat}
    {response : Response} {foundation : CStr} (refused : ⟨side, number, true⟩ ∈ net.replies)
    (conflict : response.status = .stunRoleConflict)
    (live : (net.session side).isDestroying = false)
    (pending : ∃ tx ∈ (net.session side).pending, tx.number = number)
    (stepped : netStep env net (.answer side number response foundation) = some final) :
    (final.session .lower).role ≠ (final.session .higher).role := by
  have allowed : net.answers side number response.status :=
    ⟨fun _ => refused, fun success => by cases conflict.symm.trans success⟩
  rw [netStep, if_pos allowed] at stepped
  obtain ⟨ice, stepped', rfl⟩ := Option.map_eq_some_iff.mp stepped
  obtain ⟨peer, controlling, sent, different⟩ := settling.refusals side number refused
  rcases iceStep_response stepped' with ⟨_, still⟩ | ⟨tx, member, rfl, _, speaks⟩
  · obtain ⟨tx, member, same⟩ := pending
    rcases still conflict with destroyed | unknown
    · rw [live] at destroyed
      cases destroyed
    · exact (unknown tx member same).elim
  · have same := settling.unique side _ _ _ sent (settling.pending side tx member)
    refine @apart_of_goals (net.put side ice) side ?_ ?_
    · rw [Net.put_self, speaks.inRole]
      exact roleAfterConflict_goal (same ▸ different)
    · rw [Net.put_other side.peer_ne]
      exact peer

/-- A conflict lasts no longer than until a check that says the present role arrives: its
receiver turns at once, or refuses it and the response makes the sender turn. -/
theorem conflict_resolves (known : ∀ side, (agent side).role ≠ .unknown)
    (ties : (agent .lower).tieBreaker < (agent .higher).tieBreaker)
    (ran : netRun env (newNet agent) events = some reached)
    (conflict : (reached.session .lower).role = (reached.session .higher).role)
    {receiver : Side} {number : Nat}
    {controlling : Bool} (sent : (number, controlling) ∈ sentChecks (reached.session receiver.peer))
    (current : claimed controlling = (reached.session receiver.peer).role)
    (live : (reached.session receiver).isDestroying = false) {request : Request} {foundation : CStr}
    (complete : request.priority ≠ none) {after : Net}
    (delivered :
      netStep env reached (.deliver receiver number controlling request foundation) = some after) :
    (after.session .lower).role ≠ (after.session .higher).role ∨
    (⟨receiver.peer, number, true⟩ ∈ after.replies ∧
      ∀ response foundation final, response.status = .stunRoleConflict →
        (after.session receiver.peer).isDestroying = false →
        (∃ tx ∈ (after.session receiver.peer).pending, tx.number = number) →
        netStep env after (.answer receiver.peer number response foundation) = some final →
        (final.session .lower).role ≠ (final.session .higher).role) := by
  obtain ⟨settling, _, _⟩ := netRun_settles (created_settling known ties) ran
  obtain ⟨settling', _⟩ := netStep_settles settling delivered
  have alike := current.trans (alike_of_conflict conflict receiver)
  obtain ⟨order, order'⟩ := settling.order receiver
  have resolved :=
    @resolveConflict_spec receiver (reached.session receiver).role _ _ controlling order order'
  rw [netStep] at delivered
  dsimp only at delivered
  rw [if_pos sent] at delivered
  obtain ⟨ice, stepped, done⟩ := Option.bind_eq_some_iff.mp delivered
  obtain rfl := Option.some.inj done
  rcases iceStep_request stepped with ⟨dropped, _⟩ | ⟨_, speaks⟩ | ⟨role, accepted, speaks⟩
  -- A live session drops only a request without PRIORITY.
  · rcases dropped with destroyed | missing
    · rw [live] at destroyed
      cases destroyed
    · exact (complete missing).elim
  · have refused : (⟨receiver.peer, number, true⟩ : Reply) ∈ reached.replies ++
        ((responses ice).drop (responses (reached.session receiver)).length).map
          fun conflict => ⟨receiver.peer, number, conflict⟩ := by
      rw [answered_of_speaks speaks]
      exact List.mem_append_right _ (List.mem_singleton_self _)
    exact Or.inr ⟨refused, fun response foundation final said live' pending answered =>
      answer_turns settling' refused said live' pending answered⟩
  -- The receiver accepts, so it was the one to turn.
  · obtain ⟨different, turned⟩ : (reached.session receiver).role ≠ receiver.goal ∧
        role = receiver.goal := by
      rcases resolved with ⟨other, _⟩ | ⟨_, _, refused⟩ | ⟨_, different, turned⟩
      · exact (other alike).elim
      · cases accepted.symm.trans refused
      · exact ⟨different, Option.some.inj (accepted.symm.trans turned)⟩
    refine Or.inl (@apart_of_goals { reached.put receiver ice with replies := _ } receiver ?_ ?_)
    · rw [Net.put_self, speaks.inRole]
      exact turned
    · rw [Net.put_other receiver.peer_ne, alike_of_conflict conflict receiver]
      exact Side.other_goal (settling.known receiver) different

theorem conflict_resolves_hosts :
    (turnedNet.session .lower).role ≠ (turnedNet.session .higher).role := by
  have resolved :=
    @conflict_resolves bothSent bothControlling bothBegin begunNet bothControlling_known (by decide)
    (Option.some_get _).symm (by decide) .higher 0 true (by decide) (by decide)
      (by decide) hostRequest [] (by decide)
    refusedNet (Option.some_get _).symm
  obtain ⟨_, turns⟩ := resolved.resolve_left (by decide)
  exact turns ⟨.stunRoleConflict, none, none⟩ [] turnedNet rfl (by decide)
    (by decide) (Option.some_get _).symm

end Roles

end NatClient.IceSession
