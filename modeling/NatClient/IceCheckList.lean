import NatClient.IceTypes
import NatClient.SwapSort

/-!
The candidates and the check list of ice_session.c. A pointer to a candidate or to a
check is its index in the array; the arrays hold 16 candidates of each side and 32
checks. `comp` has all the components an agent may have, of which the first
`comp_cnt` are in use.
-/

namespace NatClient.IceSession

open CString IceTypes SwapSort

def pjIceMaxCand : Nat := 16
def pjIceMaxChecks : Nat := 32

inductive Status where
  | success
  | einval
  | etoomany
  | enotfound
  | einvalidop
  | ecancelled
  | eicenohostcand
  | eiceincompid
  | eiceinprogress
  | eiceinsrcaddr
  | eicefailed
  | eicenomtimeout
  | estunnomappedaddr
  | stunRoleConflict
  /-- Any other failure of a STUN transaction. -/
  | stun (code : Nat)
  deriving DecidableEq

inductive Role where
  | unknown
  | controlled
  | controlling
  deriving DecidableEq

structure SessCand extends IceSessCand where
  transportId : BitVec 8
  baseAddr : Option PjSockaddr
  deriving DecidableEq

def SessCand.ofRemote (cand : IceSessCand) : SessCand :=
  { cand with transportId := 0, baseAddr := none }

def SessCand.family (cand : SessCand) : Option Family := cand.addr.map fun addr => addr.ip.family

inductive CheckState where
  | frozen
  | waiting
  | inProgress
  | succeeded
  | failed
  deriving DecidableEq

/-- The transaction of a check in flight is known by its number. -/
structure Check where
  lcand : Nat
  rcand : Nat
  prio : BitVec 64
  state : CheckState
  tdata : Option Nat
  nominated : Bool
  errCode : Status
  deriving DecidableEq

/-- Both point into the valid list. -/
structure Comp where
  validCheck : Option Nat
  nominatedCheck : Option Nat
  deriving DecidableEq

def Comp.zero : Comp := ⟨none, none⟩

section Priorities

def candTypePrefs : IceCandType → BitVec 8
  | .host => 126
  | .srflx => 100
  | .prflx => 110
  | .relayed => 0

def calcCandPrio (prefs : IceCandType → BitVec 8) (type : IceCandType)
    (localPref compId : BitVec 32) :
    BitVec 32 :=
  (((prefs type).setWidth 32 &&& 0xFF) <<< 24) + ((localPref &&& 0xFFFF) <<< 8) +
    ((256 - compId) &&& 0xFF)

def calcCheckPrio (role : Role) (lcand rcand : BitVec 32) : BitVec 64 :=
  let (O, A) := if role = .controlling then (lcand, rcand) else (rcand, lcand)
  let hi := if O < A then O else A
  let lo := ((if O > A then O else A) <<< 1) + (if O > A then 1 else 0)
  hi ++ lo

end Priorities

section Sorting

def prioKey (check : Check) : Nat := check.prio.toNat

def Comp.swap (i highest : Nat) (comp : Comp) : Comp :=
  ⟨comp.validCheck.map (swapIndex i highest), comp.nominatedCheck.map (swapIndex i highest)⟩

/-- Only the components in use have their pointers corrected. -/
def swapComps (compCnt i highest : Nat) (comp : List Comp) : List Comp :=
  (comp.take compCnt).map (Comp.swap i highest) ++ comp.drop compCnt

def sortValidList (compCnt : Nat) (checks : List Check) (comp : List Comp) :
    List Check × List Comp :=
  selectionSort prioKey (swapComps compCnt) checks comp

def sortChecklist (checks : List Check) : List Check :=
  (selectionSort prioKey (fun _ _ none => none) checks ()).1

end Sorting

section Pruning

/-- The first host candidate at the base of a reflexive one. -/
def baseOf (lcand : List SessCand) (srflx : SessCand) : Option Nat :=
  lcand.findIdx? fun host => host.type = .host && srflx.baseAddr = host.addr

def rebase (lcand : List SessCand) (check : Check) : Option Check :=
  match lcand[check.lcand]? with
  | none => none
  | some cand =>
      if cand.type = .srflx then (baseOf lcand cand).map fun host => { check with lcand := host }
      else some check

def baseAddrOf (lcand : List SessCand) (check : Check) : Option PjSockaddr :=
  (lcand[check.lcand]?).bind SessCand.baseAddr

/-- A lower pair that repeats a kept one, or its remote candidate from the same base. -/
def redundant (lcand : List SessCand) (kept later : Check) : Bool :=
  (kept.lcand = later.lcand && kept.rcand = later.rcand) ||
    (later.rcand = kept.rcand && baseAddrOf lcand later = baseAddrOf lcand kept)

def prunePairs (lcand : List SessCand) : Nat → List Check → List Check
  | 0, checks => checks
  | _ + 1, [] => []
  | fuel + 1, kept :: rest =>
      kept :: prunePairs lcand fuel (rest.filter fun later => !redundant lcand kept later)

def rebaseAll (lcand : List SessCand) : List Check → List Check × Bool
  | [] => ([], true)
  | check :: rest =>
      match rebase lcand check with
      | none => (check :: rest, false)
      | some based => (based :: (rebaseAll lcand rest).1, (rebaseAll lcand rest).2)

def pruneChecklist (lcand : List SessCand) (checks : List Check) : List Check × Status :=
  let (based, found) := rebaseAll lcand checks
  if found then (prunePairs lcand based.length based, .success) else (based, .eicenohostcand)

end Pruning

inductive TimerId where
  | none
  | completionCallback
  | controlledWaitNom
  | startNominatedCheck
  | keepAlive
  deriving DecidableEq

structure RxCheck where
  compId : Nat
  transportId : BitVec 8
  srcAddr : Option PjSockaddr
  useCandidate : Bool
  priority : BitVec 32
  deriving DecidableEq

/-- A request in flight: its check, and whether it said ICE-CONTROLLING. -/
structure Tx where
  number : Nat
  ckid : Nat
  controlling : Bool
  deriving DecidableEq

inductive Act where
  | sendCheck (number ckid : Nat) (controlling useCandidate : Bool)
  | retransmit (number : Nat)
  | cancelReq (number : Nat)
  | respond (roleConflict : Bool)
  | sendIndication (compId : Nat) (check : Nat)
  | completed (status : Status)
  deriving DecidableEq

/-- `pending` are the transactions of the STUN sessions, numbered in the order of their
requests; a timer that is not scheduled has the id `none`. -/
structure IceSess where
  role : Role
  tieBreaker : BitVec 64
  prefs : IceCandType → BitVec 8
  aggressive : Bool
  controlledAgentWantNomTimeout : Int
  compCnt : Nat
  comp : List Comp
  compKa : Nat
  lcand : List SessCand
  rcand : List SessCand
  clist : List Check
  clistTimer : Bool
  validList : List Check
  earlyCheck : List RxCheck
  isNominating : Bool
  isComplete : Bool
  isDestroying : Bool
  iceStatus : Status
  timer : TimerId
  pending : List Tx
  performed : Nat
  acts : List Act

def pjIceSessCreate (role : Role) (compCnt : Nat) (tieBreaker : BitVec 64) : IceSess :=
  { role, tieBreaker, prefs := candTypePrefs, aggressive := true,
    controlledAgentWantNomTimeout := 10000,
    compCnt, comp := List.replicate pjIceMaxComp .zero, compKa := 0, lcand := [], rcand := [],
    clist := [], clistTimer := false, validList := [], earlyCheck := [], isNominating := false,
    isComplete := false, isDestroying := false, iceStatus :=
  .success, timer := .none, pending := [],
    performed := 0, acts := [] }

def pjIceSessSetOptions (ice : IceSess) (aggressive : Bool)
    (controlledAgentWantNomTimeout : Int) : IceSess :=
  { ice with aggressive, controlledAgentWantNomTimeout }

section Candidates
variable (ice : IceSess)

def pjIceSessAddCand (compId : Nat) (transportId : BitVec 8)
    (type : IceCandType) (localPref : BitVec 16)
    (foundation : CStr) (addr baseAddr : Option PjSockaddr) : Except Status (IceSess × Nat) :=
  if compId = 0 ∨ compId > ice.compCnt then .error .einval
  else if ice.lcand.length ≥ pjIceMaxCand then .error .etoomany
  else
    let id := BitVec.ofNat 8 compId
    let lcand : SessCand :=
      { type, compId := id, foundation, addr, transportId, baseAddr
        prio := calcCandPrio ice.prefs type (localPref.setWidth 32) (id.setWidth 32) }
    .ok ({ ice with lcand := ice.lcand ++ [lcand] }, ice.lcand.length)

end Candidates

section CreateCheckList

def pairings (lcands rcands : Nat) : List (Nat × Nat) :=
  (List.range lcands).flatMap fun i => (List.range rcands).map fun j => (i, j)

def matching (lcand rcand : SessCand) : Bool :=
  lcand.compId = rcand.compId && lcand.family = rcand.family

def newCheck (role : Role) (i j : Nat) (lcand rcand : SessCand) : Check :=
  { lcand := i, rcand := j, prio := calcCheckPrio role lcand.prio rcand.prio, state := .frozen,
    tdata := none, nominated := false, errCode := .success }

/-- Stops at a full list, before a look at the pair. -/
def pairCandidates (role : Role) (lcand rcand : List SessCand) :
    List (Nat × Nat) → List Check → List Check × Status
  | [], checks => (checks, .success)
  | (i, j) :: rest, checks =>
      if checks.length ≥ pjIceMaxChecks then (checks, .etoomany)
      else match lcand[i]?, rcand[j]? with
        | some l, some r =>
            if matching l r then pairCandidates role lcand rcand rest
              (checks ++ [newCheck role i j l r])
            else pairCandidates role lcand rcand rest checks
        | _, _ => pairCandidates role lcand rcand rest checks

/-- Remote candidates without a component of ours are ignored. -/
def knownComponent (compCnt : Nat) (cand : IceSessCand) : Bool :=
  cand.compId ≠ 0 && cand.compId.toNat ≤ compCnt

def highestComp (rcand : List SessCand) : Nat :=
  rcand.foldl (fun highest cand => max highest cand.compId.toNat) 0

def pjIceSessCreateCheckList (ice : IceSess) (rcand : List IceSessCand) : IceSess × Status :=
  if rcand = [] then (ice, .einval)
  else if rcand.length + ice.rcand.length > pjIceMaxCand then (ice, .etoomany)
  else
    let known := (rcand.filter (knownComponent ice.compCnt)).map SessCand.ofRemote
    let (clist, status) := pairCandidates ice.role ice.lcand known
      (pairings ice.lcand.length known.length) ice.clist
    let ice := { ice with rcand := known, clist := clist }
    if status ≠ .success then (ice, status)
    else if clist = [] then (ice, .enotfound)
    else
      let (clist, status) := pruneChecklist ice.lcand (sortChecklist clist)
      let ice := { ice with clist := clist }
      if status ≠ .success then (ice, status)
      else
        ({ ice with
            comp := ice.comp.take (highestComp known) ++
              List.replicate (ice.comp.length - highestComp known) .zero
            compCnt := highestComp known }, .success)

end CreateCheckList

end NatClient.IceSession
