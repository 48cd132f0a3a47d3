import NatClient.IceTransport

/-!
What the sockets of a component may do to its candidates: the array keeps its bounds, the
default stays inside, and a TURN socket finds its candidate when it is ready.
-/

namespace NatClient.IceTransport

open CString IceTypes IceSession IceLifetime

section Candidates
variable {candList : List GatheredCand} {type : IceCandType} {index : Nat}

def types (candList : List GatheredCand) : List IceCandType := candList.map GatheredCand.type

theorem ofType_some (found : ofType type candList = some index) :
    index < candList.length ∧ type ∈ types candList ∧
        (candList[index]?).any (fun cand => cand.type = type) := by
  obtain ⟨inside, same, _⟩ := List.findIdx?_eq_some_iff_getElem.mp found
  have same := of_decide_eq_true same
  refine ⟨inside, List.mem_map.mpr ⟨_, List.getElem_mem inside, same⟩, ?_⟩
  rw [List.getElem?_eq_getElem inside]
  exact decide_eq_true same

theorem ofType_none (absent : ofType type candList = none) : type ∉ types candList := by
  intro member
  obtain ⟨cand, inside, same⟩ := List.mem_map.mp member
  have other := List.findIdx?_eq_none_iff.mp absent cand inside
  rw [decide_eq_false_iff_not] at other
  exact other same

theorem types_modify {change : GatheredCand → GatheredCand}
    (keeps : ∀ cand, (change cand).type = cand.type) :
    types (candList.modify index change) = types candList := by
  refine List.ext_getElem? fun p => ?_
  rw [types, types, List.getElem?_map, List.getElem?_map, List.getElem?_modify]
  cases candList[p]? with
  | none => rfl
  | some cand =>
      by_cases same : index = p
      · simp [same, keeps]
      · simp [same]

/-- A candidate that is ready has an address, and the foundation of its type. -/
structure Gathered (cand : GatheredCand) : Prop where
  type : cand.type ≠ .prflx
  foundation : cand.type ≠ .relayed ∨ cand.status = .ready →
    ∃ baseAddr, cand.foundation = pjIceCalcFoundation cand.type baseAddr
  addr : cand.status = .ready → cand.addr ≠ none

theorem Gathered.unready {cand : GatheredCand} (gathered : Gathered cand) {status : CandStatus}
    (waits : status ≠ .ready) : Gathered { cand with status := status } where
  type := gathered.type
  foundation := fun either => gathered.foundation (either.imp_right fun ready => (waits ready).elim)
  addr := fun ready => (waits ready).elim

theorem gathered_modify {change : GatheredCand → GatheredCand}
    (all : ∀ cand ∈ candList, Gathered cand)
    (keeps : ∀ cand, candList[index]? = some cand → Gathered cand → Gathered (change cand)) :
    ∀ cand ∈ candList.modify index change, Gathered cand := by
  intro cand member
  obtain ⟨p, here⟩ := List.getElem?_of_mem member
  rw [List.getElem?_modify] at here
  obtain ⟨before, there, rfl⟩ := Option.map_eq_some_iff.mp here
  have old := all before (List.mem_of_getElem? there)
  split
  case isTrue same => exact keeps before (same ▸ there) old
  case isFalse => exact old

theorem ofType_here (found : ofType type candList = some index) {cand : GatheredCand}
    (here : candList[index]? = some cand) : cand.type = type := by
  have same := (ofType_some found).2.2
  rw [here, Option.any_some, decide_eq_true_eq] at same
  exact same

end Candidates

section Bounds

/-- The candidates of a component fit their array, which keeps a place for the relayed one. -/
structure CompInv (comp : TransComp) : Prop where
  default : comp.defaultCand < comp.candList.length
  bound : comp.candList.length ≤ pjIceStMaxCand
  room : IceCandType.relayed ∉ types comp.candList → comp.candList.length < pjIceStMaxCand
  relayed : comp.turnSock = .allocating → IceCandType.relayed ∈ types comp.candList
  gathered : ∀ cand ∈ comp.candList, Gathered cand

variable {comp : TransComp} {index : Nat}

theorem CompInv.changed (inv : CompInv comp) {after : TransComp}
    (same : types after.candList = types comp.candList)
    (default : after.defaultCand < comp.candList.length)
    (relayed : after.turnSock = .allocating → IceCandType.relayed ∈ types comp.candList)
    (gathered : ∀ cand ∈ after.candList, Gathered cand) : CompInv after := by
  have length : after.candList.length = comp.candList.length := by
    have lengths := congrArg List.length same
    rwa [types, types, List.length_map, List.length_map] at lengths
  exact {
    default := length ▸ default
    bound := length ▸ inv.bound
    room := fun absent => length ▸ inv.room (same ▸ absent)
    relayed := fun allocating => same ▸ relayed allocating
    gathered := gathered }

theorem setStatus_inv (inv : CompInv comp) (index : Nat) : CompInv (setStatus index .failed comp) :=
  inv.changed (types_modify fun _ => rfl) inv.default inv.relayed
    (gathered_modify inv.gathered fun _ _ old => old.unready (by decide))

theorem mappedAddr_inv (inv : CompInv comp) (found : ofType .srflx comp.candList = some index)
    (mapped : PjSockaddr) : CompInv (mappedAddr index mapped comp) := by
  obtain ⟨inside, _, reflexive⟩ := ofType_some found
  rw [mappedAddr]
  split
  case isFalse =>
    refine inv.changed (types_modify fun _ => rfl) inv.default inv.relayed
      (gathered_modify inv.gathered fun cand here old =>
          ⟨old.type, fun _ => old.foundation (Or.inl ?_), fun _ =>
        Option.some_ne_none mapped⟩)
    rw [ofType_here found here]
    decide
  case isTrue dup =>
    obtain ⟨host, member, isHost⟩ := List.any_eq_true.mp dup
    rw [Bool.and_eq_true, decide_eq_true_eq] at isHost
    -- The host candidate has another place than the one that goes.
    have other : 2 ≤ comp.candList.length := by
      obtain ⟨p, here⟩ := List.getElem?_of_mem member
      have below := (List.getElem?_eq_some_iff.mp here).1
      have different : p ≠ index := by
        rintro rfl
        rw [here, Option.any_some, decide_eq_true_eq, isHost.1] at reflexive
        cases reflexive
      omega
    have length : (comp.candList.eraseIdx index).length = comp.candList.length - 1 :=
      List.length_eraseIdx_of_lt inside
    have default := inv.default
    have kept : IceCandType.relayed ∈ types comp.candList →
        IceCandType.relayed ∈ types (comp.candList.eraseIdx index) := by
      intro relayed
      obtain ⟨cand, member', isRelayed⟩ := List.mem_map.mp relayed
      obtain ⟨p, here⟩ := List.getElem?_of_mem member'
      refine List.mem_map.mpr ⟨cand, List.mem_eraseIdx_iff_getElem?.mpr ⟨p, ?_, here⟩, isRelayed⟩
      rintro rfl
      rw [here, Option.any_some, decide_eq_true_eq, isRelayed] at reflexive
      cases reflexive
    have bound := inv.bound
    exact {
      default := by
        dsimp only
        rw [length]
        split
        · omega
        · split <;> omega
      bound := by
        dsimp only
        omega
      room := fun _ => by
        dsimp only
        omega
      relayed := fun allocating => kept (inv.relayed allocating)
      gathered := fun cand member' => inv.gathered cand (List.mem_of_mem_eraseIdx member') }

theorem moved_inv (inv : CompInv comp) (several : comp.candList.length ≠ 1) :
    CompInv { setStatus index .failed comp with
      defaultCand := if comp.defaultCand = index then (if index = 0 then 1 else 0)
          else comp.defaultCand } := by
  have default := inv.default
  refine inv.changed (types_modify fun _ => rfl) ?_ inv.relayed
    (gathered_modify inv.gathered fun _ _ old => old.unready (by decide))
  dsimp only
  split
  · split <;> omega
  · exact default

theorem turnReady_inv (inv : CompInv comp) (found : ofType .relayed comp.candList = some index)
    (relay : PjSockaddr) : CompInv { comp with
      candList := comp.candList.modify index fun cand =>
        { cand with
          addr := some relay, baseAddr := some relay, foundation :=
            pjIceCalcFoundation .relayed relay
          status := .ready }
      defaultCand := index
      turnErrCnt := 0 } :=
  inv.changed (types_modify fun _ => rfl) (ofType_some found).1 inv.relayed
    (gathered_modify inv.gathered fun _ here old =>
      ⟨old.type, fun _ => ⟨relay, by rw [ofType_here found here]⟩,
        fun _ => Option.some_ne_none relay⟩)

theorem closed_inv (inv : CompInv comp) (errors : Nat) :
    CompInv { comp with turnErrCnt := errors, turnSock := .none } :=
  inv.changed rfl inv.default (fun allocating => by cases allocating) inv.gathered

theorem gathered_relayed : Gathered relayedCand :=
  ⟨by decide,
    (fun either => (either.elim (fun other => (other rfl).elim) fun ready => by cases ready)),
    (fun ready => by cases ready)⟩

theorem waitRelayed_types (comp : TransComp) :
    types (waitRelayed comp).candList = types comp.candList := by
  rw [waitRelayed]
  split
  · exact types_modify fun _ => rfl
  · rfl

theorem waitRelayed_inv (inv : CompInv comp) : CompInv (waitRelayed comp) := by
  rw [waitRelayed]
  split
  case h_1 index found =>
    have default := inv.default
    refine inv.changed (types_modify fun _ => rfl) ?_ inv.relayed
      (gathered_modify inv.gathered fun _ _ old => old.unready (by decide))
    dsimp only
    split
    · cases reflexive : ofType .srflx comp.candList with
      | none => exact Nat.zero_lt_of_lt default
      | some other => exact (ofType_some reflexive).1
    · exact default
  case h_2 => exact inv

theorem append_relayed_inv (inv : CompInv comp)
    (absent : IceCandType.relayed ∉ types comp.candList) :
    CompInv { comp with candList := comp.candList ++ [relayedCand], turnSock := .allocating } := by
  have room := inv.room absent
  have default := inv.default
  have last : types (comp.candList ++ [relayedCand]) = types comp.candList ++ [.relayed] :=
    List.map_append
  have relayed : IceCandType.relayed ∈ types (comp.candList ++ [relayedCand]) := by
    rw [last]
    exact List.mem_append_right _ (List.mem_singleton_self _)
  have length : (comp.candList ++ [relayedCand]).length = comp.candList.length + 1 :=
    List.length_append
  -- The kept place is taken, so no further room is owed.
  exact {
    default := by
      dsimp only
      omega
    bound := by
      dsimp only
      omega
    room := fun absent' => (absent' relayed).elim
    relayed := fun _ => relayed
    gathered := fun cand member => by
      rcases List.mem_append.mp member with old | new
      · exact inv.gathered cand old
      · exact List.mem_singleton.mp new ▸ gathered_relayed }

theorem addUpdateTurn_inv (inv : CompInv comp) (start : TurnStart) :
    CompInv (addUpdateTurn start comp).1 := by
  have waiting := waitRelayed_inv inv
  cases start with
  | refused => exact waiting
  | failed status => exact closed_inv waiting _
  | allocating =>
      rw [addUpdateTurn]
      dsimp only
      cases found : ofType .relayed comp.candList with
      | none =>
          rw [if_pos Option.isNone_none]
          exact append_relayed_inv waiting (waitRelayed_types comp ▸ ofType_none found)
      | some index =>
          have relayed : IceCandType.relayed ∈ types (waitRelayed comp).candList :=
            waitRelayed_types comp ▸ (ofType_some found).2.1
          rw [if_neg (by rw [Option.isNone_some]; exact Bool.false_ne_true)]
          exact waiting.changed rfl waiting.default (fun _ => relayed) waiting.gathered

end Bounds

section Creating
variable {cfg : StransCfg} {env : SockEnv}

structure Hosts (candList : List GatheredCand) : Prop where
  room : candList.length < pjIceStMaxCand
  noRelay : IceCandType.relayed ∉ types candList
  gathered : ∀ cand ∈ candList, Gathered cand

theorem gathered_host (addr : PjSockaddr) : Gathered (hostCand addr) :=
  ⟨(fun other => by cases other), fun _ => ⟨addr, rfl⟩, fun _ => Option.some_ne_none addr⟩

theorem gathered_srflx (base : PjSockaddr) : Gathered (srflxCand base) :=
  ⟨(fun other => by cases other), fun _ => ⟨base, rfl⟩, (fun ready => by cases ready)⟩

theorem addHosts_hosts (addrs : List PjSockaddr)
    {candList : List GatheredCand} (hosts : Hosts candList) :
    Hosts (addHosts cfg addrs candList) := by
  induction addrs generalizing candList with
  | nil => exact hosts
  | cons addr rest ih =>
      rw [addHosts]
      split
      · exact hosts
      -- The loop stops one short of the array.
      case isFalse free =>
        split
        · exact ih hosts
        · refine ih ⟨?_, ?_, ?_⟩
          · have length : (candList ++ [hostCand addr]).length = candList.length + 1 :=
              List.length_append
            omega
          · have appended : types (candList ++ [hostCand addr]) = types candList ++ [.host] :=
              List.map_append
            rw [appended]
            intro member
            rcases List.mem_append.mp member with old | new
            · exact hosts.noRelay old
            · cases List.mem_singleton.mp new
          · intro cand member
            rcases List.mem_append.mp member with old | new
            · exact hosts.gathered cand old
            · exact List.mem_singleton.mp new ▸ gathered_host addr

theorem stunCands_hosts {candList : List GatheredCand}
    (gathered : stunCands cfg env = some candList) :
    Hosts candList := by
  have nothing : Hosts [] :=
    ⟨by decide, List.not_mem_nil, fun _ member => absurd member List.not_mem_nil⟩
  rw [stunCands] at gathered
  split at gathered
  · obtain ⟨⟨first, others⟩, _, rfl⟩ := Option.map_eq_some_iff.mp gathered
    refine addHosts_hosts _ ?_
    split
    · refine ⟨(by decide : 1 < pjIceStMaxCand), fun relayed => ?_, fun cand member => ?_⟩
      · cases List.mem_singleton.mp relayed
      · exact List.mem_singleton.mp member ▸ gathered_srflx first
    · exact nothing
  · exact Option.some.inj gathered ▸ nothing

theorem createComp_inv {created : TransComp × Option Status}
    (done : createComp cfg env = some created) :
    CompInv created.1 := by
  obtain ⟨candList, gathered, rest⟩ := Option.bind_eq_some_iff.mp done
  have hosts := stunCands_hosts gathered
  dsimp only at rest
  obtain ⟨some', same⟩ := Option.ite_none_left_eq_some.mp rest
  obtain rfl := Option.some.inj same
  by_cases empty : candList = []
  · subst empty
    by_cases turn : cfg.turnServer = true
    · rw [if_pos turn] at some' ⊢
      -- Without other candidates the allocation has begun.
      cases start : env.turn with
      | refused =>
          rw [start] at some'
          exact (some' rfl).elim
      | failed status =>
          rw [start] at some'
          exact (some' rfl).elim
      | allocating =>
          exact ⟨by decide, by decide, by decide, by decide, fun cand member =>
            List.mem_singleton.mp member ▸ gathered_relayed⟩
    · rw [if_neg turn] at some'
      exact (some' rfl).elim
  · have plain : CompInv ⟨candList, 0, .none, 0⟩ := {
      default := List.length_pos_of_ne_nil empty
      bound := Nat.le_of_lt hosts.room
      room := fun _ => hosts.room
      relayed := fun allocating => by cases allocating
      gathered := hosts.gathered }
    split
    · exact addUpdateTurn_inv plain _
    · exact plain

end Creating

end NatClient.IceTransport
