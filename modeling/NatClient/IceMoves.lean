import NatClient.ValidPairs
import NatClient.Runs

/-!
A session changes in few ways, whatever happens to it: one inductive relation says what
a move may do and when. The invariants of a session are proved once for each move.
-/

namespace NatClient.IceSession

open CString IceTypes SwapSort Runs

def reportOf : Act → Option Status
  | .completed status => some status
  | _ => none

def reports (ice : IceSess) : List Status := ice.acts.filterMap reportOf

section Rechecked

/-- A check keeps its pair, and is in flight only as before. -/
structure Calmer (before after : Check) : Prop where
  lcand : after.lcand = before.lcand
  rcand : after.rcand = before.rcand
  inFlight : after.state = .inProgress → before.state = .inProgress ∧ after.tdata = before.tdata

theorem Calmer.refl (check : Check) : Calmer check check := ⟨rfl, rfl, fun flying => ⟨flying, rfl⟩⟩

theorem Calmer.trans {first second third : Check} (before : Calmer first second)
    (after : Calmer second third) :
    Calmer first third where
  lcand := after.lcand.trans before.lcand
  rcand := after.rcand.trans before.rcand
  inFlight := fun flying => by
    obtain ⟨flying', same⟩ := after.inFlight flying
    obtain ⟨flying'', same'⟩ := before.inFlight flying'
    exact ⟨flying'', same.trans same'⟩

structure Rechecked (before after : List Check) : Prop where
  length : after.length = before.length
  each : ∀ (p : Nat) (b a : Check), before[p]? = some b → after[p]? = some a → Calmer b a

theorem Rechecked.refl (clist : List Check) : Rechecked clist clist :=
  ⟨rfl, fun _ b _ first second => Option.some.inj (first.symm.trans second) ▸ Calmer.refl b⟩

theorem Rechecked.back {before after : List Check}
    (rechecked : Rechecked before after) {p : Nat} {a : Check}
    (here : after[p]? = some a) : ∃ b, before[p]? = some b ∧ Calmer b a := by
  obtain ⟨inside, _⟩ := List.getElem?_eq_some_iff.mp here
  rw [rechecked.length] at inside
  exact ⟨before[p], List.getElem?_eq_getElem inside,
    rechecked.each p _ a (List.getElem?_eq_getElem inside) here⟩

theorem Rechecked.trans {first second third : List Check} (before : Rechecked first second)
    (after : Rechecked second third) : Rechecked first third where
  length := after.length.trans before.length
  each := fun p b a here there => by
    obtain ⟨middle, found, calmer⟩ := after.back there
    exact (before.each p b middle here found).trans calmer

theorem Rechecked.modify {clist : List Check} {ckid : Nat} {change : Check → Check}
    (calmer : ∀ check, clist[ckid]? = some check → Calmer check (change check)) :
    Rechecked clist (clist.modify ckid change) where
  length := List.length_modify change clist ckid
  each := fun p b a here there => by
    rw [List.getElem?_modify, here] at there
    obtain rfl := Option.some.inj there
    by_cases same : ckid = p
    · simp only [if_pos same]
      exact calmer b (same ▸ here)
    · simp only [if_neg same]
      exact Calmer.refl b

theorem Rechecked.map {clist : List Check} {change : Check → Check}
    (calmer : ∀ check, Calmer check (change check)) : Rechecked clist (clist.map change) where
  length := List.length_map change
  each := fun p b a here there => by
    rw [List.getElem?_map, here] at there
    obtain rfl := Option.some.inj there
    exact calmer b

end Rechecked

section Moves

inductive Move where
  | quiet
  | addLocal
  | addRemote
  | pair
  | append
  | recheck
  | launch
  | gain (source : Option PjSockaddr)
  | nominate
  | complete (status : Status)
  | arm (timer : TimerId)
  | disarm
  | report (status : Status)
  | indicate

def Move.source : Move → Option (Option PjSockaddr)
  | .gain source => some source
  | _ => none

inductive Allows : IceSess → Move → IceSess → Prop where
  /-- Roles, flags, and what is sent. -/
  | quiet {ice : IceSess} (role : Role) (prefs : IceCandType → BitVec 8)
      (earlyCheck : List RxCheck) (clistTimer isNominating : Bool)
        (performed : Nat) (acts actions : List Act)
      (later : ice.performed ≤ performed) (grown : acts = ice.acts ++ actions)
      (silent : actions.filterMap reportOf = []) :
      Allows ice .quiet { ice with
        role := role, prefs := prefs, earlyCheck := earlyCheck, clistTimer := clistTimer,
        isNominating := isNominating, performed := performed, acts := acts }
  | addLocal {ice : IceSess} (cand : SessCand) (room : ice.lcand.length < pjIceMaxCand)
      (low : 1 ≤ cand.compId.toNat) (high : cand.compId.toNat ≤ pjIceMaxComp) :
      Allows ice .addLocal { ice with lcand := ice.lcand ++ [cand] }
  | addRemote {ice : IceSess} (cand : SessCand) (room : ice.rcand.length < pjIceMaxCand) :
      Allows ice .addRemote { ice with rcand := ice.rcand ++ [cand] }
  | pair {ice : IceSess} (rcand : List IceSessCand)
      (noCands : ice.rcand = []) (noChecks : ice.clist = []) :
      Allows ice .pair (pjIceSessCreateCheckList ice rcand).1
  | append {ice : IceSess} (check : Check) (room : ice.clist.length < pjIceMaxChecks)
      (begun : ice.clist ≠ [])
      (insideLocal : check.lcand < ice.lcand.length) (insideRemote : check.rcand < ice.rcand.length)
      (waiting : check.state = .waiting) :
      Allows ice .append { ice with clist := ice.clist ++ [check] }
  /-- Only transactions of checks that are no longer in flight leave. -/
  | recheck {ice : IceSess} (clist : List Check) (pending : List Tx)
      (calmer : Rechecked ice.clist clist)
      (fewer : pending.Sublist ice.pending)
      (kept : ∀ (p : Nat) check, clist[p]? = some check →
        check.state = .inProgress → ∀ tx ∈ ice.pending,
        tx.ckid = p → check.tdata = some tx.number → tx ∈ pending) :
      Allows ice .recheck { ice with clist := clist, pending := pending }
  | launch {ice : IceSess} (ckid : Nat)
      (inside : ckid < ice.clist.length) (nominated : Check → Bool)
      (controlling : Bool) :
      Allows ice .launch { ice with
        clist := ice.clist.modify ckid fun check => { check with
          tdata := some ice.performed, nominated := nominated check,
          state := .inProgress, errCode := .success }
        pending := ice.pending ++ [⟨ice.performed, ckid, controlling⟩]
        performed := ice.performed + 1 }
  | gain {ice after : IceSess} (lcand : Nat) (check : Check) (cand : SessCand)
      (insideLocal : lcand < ice.lcand.length) (remote : ice.rcand[check.rcand]? = some cand)
      (origin : ∃ c ∈ ice.clist, c.rcand = check.rcand)
        (gained : gained ice lcand check = some after) :
      Allows ice (.gain cand.addr) after
  | nominate {ice : IceSess} (index : Nat) (valid : Check)
      (here : ice.validList[index]? = some valid) :
      Allows ice .nominate (updateCompCheck
        { ice with
          validList := ice.validList.modify index fun valid => { valid with nominated := true } }
        (compIdOf ice valid) index)
  | complete {ice : IceSess} (status : Status) (begun : ice.clist ≠ [])
      (connected : status = .success → compHas ice Comp.nominatedCheck = true) :
      Allows ice (.complete status) (onIceComplete ice status)
  | arm {ice : IceSess} (timer : TimerId) (free : ice.timer = .none) (begun : ice.clist ≠ [])
      (purpose : timer = .controlledWaitNom ∨
        timer = .startNominatedCheck ∧ compHas ice Comp.validCheck = true) :
      Allows ice (.arm timer) { ice with timer := timer }
  | disarm {ice : IceSess}
      (armed : ice.timer = .controlledWaitNom ∨ ice.timer = .startNominatedCheck) :
      Allows ice .disarm { ice with timer := .none }
  | report {ice : IceSess} (due : ice.timer = .completionCallback) :
      Allows ice (.report ice.iceStatus)
        (act { ice with timer := if ice.iceStatus = .success then .keepAlive else .none }
          (.completed ice.iceStatus))
  | indicate {ice : IceSess} (check : Nat) (due : ice.timer = .keepAlive) :
      Allows ice .indicate { act ice (.sendIndication (ice.compKa + 1) check) with
        compKa := (ice.compKa + 1) % ice.compCnt, timer := .keepAlive }

end Moves

section Invariants
variable (ice : IceSess)

structure InArrays (check : Check) : Prop where
  lcand : check.lcand < ice.lcand.length
  rcand : check.rcand < ice.rcand.length

/-- Every index is within its array, and the pointers of the components are right. -/
structure Arrays : Prop where
  pointed : Pointed ice none
  compCnt : ice.compCnt ≤ pjIceMaxComp
  lcands : ice.lcand.length ≤ pjIceMaxCand
  rcands : ice.rcand.length ≤ pjIceMaxCand
  checks : ice.clist.length ≤ pjIceMaxChecks
  valids : ice.validList.length ≤ pjIceMaxChecks
  compIds : ∀ cand ∈ ice.lcand, 1 ≤ cand.compId.toNat ∧ cand.compId.toNat ≤ pjIceMaxComp
  inside : ∀ check ∈ ice.clist, InArrays ice check
  insideValid : ∀ check ∈ ice.validList, InArrays ice check
  sorted : Descending ice.validList
  used : ice.clist ≠ [] → 1 ≤ ice.compCnt

/-- A check in progress has its transaction. -/
structure Flight : Prop where
  numbers : ∀ tx ∈ ice.pending, tx.number < ice.performed ∧ tx.ckid < ice.clist.length
  distinct : (ice.pending.map Tx.number).Nodup
  inFlight : ∀ (p : Nat) check, ice.clist[p]? = some check → check.state = .inProgress →
    ∃ tx ∈ ice.pending, tx.ckid = p ∧ check.tdata = some tx.number

/-- Completion is reported at most once, and success only with a nominated pair of every
component. -/
structure Outcome : Prop where
  running : ice.isComplete = false → reports ice = [] ∧
    ice.timer ≠ .completionCallback ∧ ice.timer ≠ .keepAlive
  reported : ice.isComplete = true →
    (reports ice = [] ∧ ice.timer = .completionCallback) ∨
      (reports ice = [ice.iceStatus] ∧ ice.timer ≠ .completionCallback)
  connected : ice.isComplete = true → ice.iceStatus = .success →
    compHas ice Comp.nominatedCheck = true
  nominating : ice.timer = .startNominatedCheck → compHas ice Comp.validCheck = true
  alive : ice.timer = .keepAlive → ice.isComplete = true ∧ ice.iceStatus = .success
  next : ice.compKa = 0 ∨ ice.compKa < ice.compCnt
  unbegun : ice.clist = [] → ice.isComplete = false ∧ ice.timer = .none ∧ ice.compKa = 0

structure Inv : Prop where
  arrays : Arrays ice
  flight : Flight ice
  outcome : Outcome ice
  live : ice.isDestroying = false

end Invariants

end NatClient.IceSession
