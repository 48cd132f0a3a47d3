import NatClient.IceCheckList

/-!
The connectivity checks of ice_session.c: what a session does when its timers expire,
when a STUN request of its own completes, and when one of its peer arrives. What the
STUN session makes of the n-th request is an input. A step that would follow a NULL
pointer has no result.
-/

namespace NatClient.IceSession

open CString IceTypes SwapSort

inductive SendResult where
  | noRequest
  | notSent
  | sent
  deriving DecidableEq

abbrev StunEnv := Nat → SendResult

section States
variable (ice : IceSess)

def updateCheck (ckid : Nat) (change : Check → Check) : IceSess :=
  { ice with clist := ice.clist.modify ckid change }

def Check.setState (state : CheckState) (errCode : Status) (check : Check) : Check :=
  { check with state, errCode }

def checkSetState (ckid : Nat) (state : CheckState) (errCode : Status) : IceSess :=
  updateCheck ice ckid (Check.setState state errCode)

def act (action : Act) : IceSess := { ice with acts := ice.acts ++ [action] }

def CheckState.unsettled : CheckState → Bool
  | .frozen => true
  | .waiting => true
  | .inProgress => true
  | .succeeded => false
  | .failed => false

def compIdOf (check : Check) : Nat := (ice.lcand[check.lcand]?).elim 0 fun cand => cand.compId.toNat

def transportOf (check : Check) : Option (BitVec 8) :=
  (ice.lcand[check.lcand]?).map SessCand.transportId

def foundationOf (check : Check) : Option CStr :=
  (ice.lcand[check.lcand]?).map fun cand => cand.foundation

def compHas (field : Comp → Option Nat) : Bool :=
  (ice.comp.take ice.compCnt).all fun comp => (field comp).isSome

end States

section Completion
variable (ice : IceSess)

def onIceComplete (status : Status) : IceSess :=
  if ice.isComplete then ice
  else { ice with isComplete := true, iceStatus := status, timer := .completionCallback }

def higher (current : Option Nat) (index : Nat) : Option Nat :=
  match current with
  | none => some index
  | some old =>
      match ice.validList[old]?, ice.validList[index]? with
      | some a, some b => if prioKey a < prioKey b then some index else some old
      | _, _ => some old

def updateComp (index : Nat) (comp : Comp) : Comp where
  validCheck := higher ice comp.validCheck index
  nominatedCheck :=
    if (ice.validList[index]?).any Check.nominated then higher ice comp.nominatedCheck index
    else comp.nominatedCheck

def updateCompCheck (compId index : Nat) : IceSess :=
  { ice with comp := ice.comp.modify (compId - 1) (updateComp ice index) }

end Completion

section Checks
variable (env : StunEnv)

def performCheck (ice : IceSess) (ckid : Nat) (nominate : Bool) : IceSess × Bool :=
  let number := ice.performed
  let ice := { ice with performed := number + 1 }
  match env number with
  | .noRequest => (ice, false)
  | .notSent =>
      let useCandidate := decide (ice.role = .controlling) && nominate
      (updateCheck ice ckid fun check =>
        { check with tdata := none, nominated := check.nominated || useCandidate }, false)
  | .sent =>
      let controlling := decide (ice.role = .controlling)
      let useCandidate := controlling && nominate
      let ice := updateCheck ice ckid fun check =>
        { check with tdata := some number, nominated := check.nominated || useCandidate,
                     state := .inProgress, errCode := .success }
      let ice := { ice with pending := ice.pending ++ [⟨number, ckid, controlling⟩] }
      (act ice (.sendCheck number ckid controlling useCandidate), true)

def firstIn (ice : IceSess) (state : CheckState) : Option Nat :=
  ice.clist.findIdx? fun check => check.state = state

def startPeriodicCheck (ice : IceSess) : IceSess :=
  if ice.isDestroying then ice
  else
    let ice := { ice with clistTimer := false }
    match (firstIn ice .waiting).or (firstIn ice .frozen) with
    | none => ice
    | some ckid =>
        let (ice, started) := performCheck env ice ckid ice.isNominating
        if started then { ice with clistTimer := true } else ice

/-- The check of the list from which a valid pair came, by transport and remote candidate. -/
def checkOfValid (ice : IceSess) (valid : Check) : Option Nat :=
  ice.clist.findIdx? fun check =>
    transportOf ice check = transportOf ice valid && check.rcand = valid.rcand

def reopen (ice : IceSess) (valid : Check) : IceSess :=
  match checkOfValid ice valid with
  | none => ice
  | some ckid => checkSetState ice ckid .waiting .success

/-- Has no result where a component has no valid check. -/
def reopenChecks : List Comp → IceSess → Option IceSess
  | [], ice => some ice
  | comp :: rest, ice => do
      let index ← comp.validCheck
      let valid ← ice.validList[index]?
      reopenChecks rest (reopen ice valid)

def startNominatedCheck (ice : IceSess) : Option IceSess := do
  let ice := if ice.timer = .startNominatedCheck then { ice with timer := .none } else ice
  let ice ← reopenChecks (ice.comp.take ice.compCnt) ice
  some { ice with clistTimer := true, isNominating := true }

end Checks

section CheckComplete
variable (ice : IceSess)

def unfreeze (check : Check) : IceSess :=
  { ice with clist := ice.clist.map fun c =>
      if foundationOf ice c = foundationOf ice check ∧ c.state = .frozen then
        c.setState .waiting .success
      else c }

def settle (check : Check) (c : Check) : Check :=
  if compIdOf ice c = compIdOf ice check then
    if c.state = .frozen ∨ c.state = .waiting then c.setState .failed .ecancelled
    else if c.state = .inProgress ∧ c.tdata ≠ none then
      { c.setState .failed .ecancelled with tdata := none }
    else c
  else c

def cancelled (check : Check) : List Nat :=
  ice.clist.filterMap fun c =>
    if compIdOf ice c = compIdOf ice check ∧ c.state = .inProgress then c.tdata else none

def settleComponent (check : Check) : IceSess :=
  { ice with
    clist := ice.clist.map (settle ice check)
    pending := ice.pending.filter fun tx => !(cancelled ice check).contains tx.number
    acts := ice.acts ++ (cancelled ice check).map .cancelReq }

/-- All checks are settled, but not every component has a nominated pair. -/
def onAllSettled : Option (IceSess × Bool) :=
  if ice.role = .controlled then
    if compHas ice Comp.validCheck then
      if ice.timer = .none ∧ ice.controlledAgentWantNomTimeout ≥ 0 then
        some ({ ice with timer := .controlledWaitNom }, false)
      else some (ice, false)
    else some (onIceComplete ice .eicefailed, true)
  else if ice.isNominating then some (onIceComplete ice .eicefailed, true)
  else if compHas ice Comp.validCheck then (startNominatedCheck ice).map fun ice => (ice, false)
  else some (onIceComplete ice .eicefailed, true)

/-- A controlling agent nominates some time after every component has a valid pair. -/
def scheduleNomination (check : Check) : IceSess :=
  if check.errCode = .success ∧ ice.role = .controlling ∧ ¬ ice.isNominating ∧ ice.timer = .none ∧
      compHas ice Comp.validCheck then
    { ice with timer := .startNominatedCheck }
  else ice

def onCheckComplete (ckid : Nat) : Option (IceSess × Bool) := do
  let check ← ice.clist[ckid]?
  let ice := if check.errCode = .success then unfreeze ice check else ice
  let ice := if check.errCode = .success ∧ check.nominated then settleComponent ice check else ice
  if compHas ice Comp.nominatedCheck then some (onIceComplete ice .success, true)
  else if ice.clist.any fun c => c.state.unsettled then some (scheduleNomination ice check, false)
  else onAllSettled ice

end CheckComplete

section Responses
variable (env : StunEnv)

structure Response where
  status : Status
  srcAddr : Option PjSockaddr
  mapped : Option PjSockaddr

def mappedCand (ice : IceSess) (check : Check) (mapped : PjSockaddr) (foundation : CStr) :
    Except Status (IceSess × Nat) :=
  match ice.lcand.findIdx? fun cand => cand.addr = some mapped with
  | some lcand => .ok (ice, lcand)
  | none =>
      pjIceSessAddCand ice (compIdOf ice check)
        ((transportOf ice check).getD 0) .prflx 65535 foundation
        (some mapped) (baseAddrOf ice.lcand check)

/-- The valid list with the pair, and its index before the list is sorted. There is no result
where the list has no room for it, which is only asserted. -/
def addValid (ice : IceSess) (lcand : Nat) (check : Check) : Option (IceSess × Nat) :=
  match ice.validList.findIdx? fun valid => valid.lcand = lcand && valid.rcand = check.rcand with
  | some index =>
      some ({ ice with validList := ice.validList.modify index fun valid =>
          { valid with nominated := check.nominated } }, index)
  | none =>
      if ice.validList.length ≥ pjIceMaxChecks then none else
      let prio (cands : List SessCand) (id : Nat) := (cands[id]?).elim 0 fun cand => cand.prio
      let valid : Check :=
        { lcand, rcand := check.rcand
          prio := calcCheckPrio ice.role (prio ice.lcand lcand) (prio ice.rcand check.rcand)
          state := .succeeded, tdata := none, nominated := check.nominated, errCode := .success }
      some ({ ice with validList := ice.validList ++ [valid] }, ice.validList.length)

def sortValid (ice : IceSess) : IceSess :=
  let (validList, comp) := sortValidList ice.compCnt ice.validList ice.comp
  { ice with validList, comp }

def failCheck (ice : IceSess) (ckid : Nat) (status : Status) : Option IceSess :=
  (onCheckComplete (checkSetState ice ckid .failed status) ckid).map Prod.fst

def succeedCheck (ice : IceSess) (ckid lcand : Nat) (check : Check) : Option IceSess := do
  let (ice, index) ← addValid ice lcand check
  let compId := (ice.lcand[lcand]?).elim 0 fun cand => cand.compId.toNat
  let ice := sortValid (updateCompCheck ice compId index)
  (onCheckComplete (checkSetState ice ckid .succeeded .success) ckid).map Prod.fst

def roleAfterConflict (sentControlling : Bool) : Role :=
  if sentControlling then .controlled else .controlling

def finishTx (ice : IceSess) (tx : Tx) : IceSess :=
  updateCheck
    { ice with pending := ice.pending.filter fun other => other.number ≠ tx.number } tx.ckid
    fun check => { check with tdata := none }

def onStunRequestComplete (ice : IceSess) (tx : Tx) (response : Response) (foundation : CStr) :
    Option IceSess := do
  let ice := finishTx ice tx
  if ice.isDestroying then some ice else do
  let check ← ice.clist[tx.ckid]?
  if response.status = .stunRoleConflict then
    let ice := { ice with role := roleAfterConflict tx.controlling }
    let ice := checkSetState ice tx.ckid .waiting .success
    some (performCheck env ice tx.ckid (check.nominated || ice.isNominating)).1
  else if response.status ≠ .success then failCheck ice tx.ckid response.status
  else if (ice.rcand[check.rcand]?).all fun rcand => rcand.addr ≠ response.srcAddr then
    failCheck ice tx.ckid .eiceinsrcaddr
  else match response.mapped with
    | none => failCheck ice tx.ckid .estunnomappedaddr
    | some mapped =>
        match mappedCand ice check mapped foundation with
        | .error status => failCheck ice tx.ckid status
        | .ok (ice, lcand) => succeedCheck ice tx.ckid lcand check

end Responses

section Requests
variable (env : StunEnv)

/-- The remote candidate at an address, a new one if there is none and room for it. -/
def sourceCand (ice : IceSess) (rcheck : RxCheck) (foundation : CStr) : Option (IceSess × Nat) :=
  match ice.rcand.findIdx? fun cand => rcheck.srcAddr = cand.addr with
  | some rcand => some (ice, rcand)
  | none =>
      if ice.rcand.length ≥ pjIceMaxCand then none
      else
        let rcand : SessCand :=
          { type := .prflx, compId := BitVec.ofNat 8 rcheck.compId,
            foundation, prio := rcheck.priority,
            addr := rcheck.srcAddr, transportId := 0, baseAddr := none }
        some ({ ice with rcand := ice.rcand ++ [rcand] }, ice.rcand.length)

def nominateValid (c : Check) : List Nat → IceSess → IceSess
  | [], ice => ice
  | index :: rest, ice =>
      nominateValid c rest <|
        match ice.validList[index]? with
        | none => ice
        | some valid =>
            if transportOf ice valid = transportOf ice c ∧ valid.rcand = c.rcand then
              let ice := { ice with validList := ice.validList.modify index fun valid =>
                { valid with nominated := true } }
              updateCompCheck ice (compIdOf ice valid) index
            else ice

def triggerCheck (ice : IceSess) (ckid : Nat) (useCandidate : Bool) : Option IceSess := do
  let ice :=
    updateCheck ice ckid fun check => { check with nominated := useCandidate || check.nominated }
  let c ← ice.clist[ckid]?
  match c.state with
  | .frozen => some (performCheck env ice ckid (c.nominated || ice.isNominating)).1
  | .waiting => some (performCheck env ice ckid (c.nominated || ice.isNominating)).1
  | .inProgress => do
      -- Retransmits the request in flight.
      let number ← c.tdata
      some (act ice (.retransmit number))
  | .succeeded =>
      let ice := if useCandidate then nominateValid c (List.range ice.validList.length) ice else ice
      (onCheckComplete ice ckid).map Prod.fst
  | .failed => some ice

/-- A request about a pair that is not on the check list goes to its end. -/
def appendCheck (ice : IceSess) (lcand rcand : Nat) (useCandidate : Bool) : IceSess :=
  if ice.clist.length < pjIceMaxChecks then
    let prio (cands : List SessCand) (id : Nat) := (cands[id]?).elim 0 fun cand => cand.prio
    let c : Check :=
      { lcand, rcand, prio := calcCheckPrio ice.role (prio ice.lcand lcand) (prio ice.rcand rcand)
        state := .waiting, tdata := none, nominated := useCandidate, errCode := .success }
    let ckid := ice.clist.length
    (performCheck env { ice with clist := ice.clist ++ [c] } ckid
      (useCandidate || ice.isNominating)).1
  else ice

def handleIncomingCheck (ice : IceSess) (rcheck : RxCheck) (foundation : CStr) : Option IceSess :=
  match sourceCand ice rcheck foundation with
  | none => some ice
  | some (ice, rcand) =>
      let local' := ice.clist.find? fun c =>
        compIdOf ice c = rcheck.compId && transportOf ice c = some rcheck.transportId
      match local' with
      | none => some ice
      | some c =>
          match ice.clist.findIdx? fun check => check.lcand = c.lcand && check.rcand = rcand with
          | some ckid => triggerCheck env ice ckid rcheck.useCandidate
          | none => some (appendCheck env ice c.lcand rcand rcheck.useCandidate)

structure RoleAttr where
  controlling : Bool
  tieBreaker : BitVec 64
  deriving DecidableEq

/-- The role after a request, or none if it is refused with a role conflict. -/
def resolveConflict (role : Role) (tieBreaker : BitVec 64) : Option RoleAttr → Option Role
  | none => some role
  | some attr =>
      if role = .controlling ∧ attr.controlling = true then
        if tieBreaker < attr.tieBreaker then some .controlled else none
      else if role = .controlled ∧ attr.controlling = false then
        if tieBreaker < attr.tieBreaker then none else some .controlling
      else some role

/-- A Binding request; one without PRIORITY is dropped. -/
structure Request where
  compId : Nat
  transportId : BitVec 8
  srcAddr : Option PjSockaddr
  priority : Option (BitVec 32)
  useCandidate : Bool
  roleAttr : Option RoleAttr
  deriving DecidableEq

def onStunRxRequest (ice : IceSess) (request : Request) (foundation : CStr) : Option IceSess :=
  if ice.isDestroying then some ice
  else match request.priority with
    | none => some ice
    | some priority =>
        match resolveConflict ice.role ice.tieBreaker request.roleAttr with
        | none => some (act ice (.respond true))
        | some role =>
            let ice := act { ice with role := role } (.respond false)
            let rcheck : RxCheck :=
              { compId := request.compId,
                transportId := request.transportId, srcAddr := request.srcAddr,
                useCandidate := request.useCandidate, priority }
            if ice.rcand = [] then some { ice with earlyCheck := ice.earlyCheck ++ [rcheck] }
            else handleIncomingCheck env ice rcheck foundation

end Requests

section Starting
variable (env : StunEnv)

/-- Of the pairs of component 1, the first of each foundation is set to waiting. -/
def wakeFoundations (ice : IceSess) : List Nat → List (Option CStr) → IceSess → IceSess
  | [], _, done => done
  | ckid :: rest, seen, done =>
      match ice.clist[ckid]? with
      | none => wakeFoundations ice rest seen done
      | some check =>
          if compIdOf ice check = 1 ∧ foundationOf ice check ∉ seen then
            wakeFoundations ice rest (foundationOf ice check :: seen)
              (if check.state = .frozen then checkSetState done ckid .waiting .success else done)
          else wakeFoundations ice rest seen done

/-- Each new remote candidate gets a foundation of its own. -/
def handleEarly (foundation : Nat → CStr) : List RxCheck → IceSess → Option IceSess
  | [], ice => some ice
  | rcheck :: rest, ice => do
      let ice ← handleIncomingCheck env ice rcheck (foundation rest.length)
      handleEarly foundation rest ice

def pjIceSessStartCheck (ice : IceSess) (foundation : Nat → CStr) : Option (IceSess × Status) :=
  if ice.clist = [] then some (ice, .einvalidop)
  else
    let ice := if ice.aggressive then { ice with isNominating := true } else ice
    if ice.clist.any fun check => compIdOf ice check = 1 then do
      let ice := wakeFoundations ice (List.range ice.clist.length) [] ice
      let ice ← handleEarly env foundation ice.earlyCheck ice
      let ice := { ice with earlyCheck := [] }
      if ice.clistTimer then some (ice, .einvalidop)
      else some ({ ice with clistTimer := true }, .success)
    else some (ice, .eiceincompid)

end Starting

section Timers

def sendIndication (ice : IceSess) : Option IceSess := do
  let comp ← ice.comp[ice.compKa]?
  let check ← comp.nominatedCheck
  let ice := act ice (.sendIndication (ice.compKa + 1) check)
  some { ice with compKa := (ice.compKa + 1) % ice.compCnt }

/-- Has no result where the component has no nominated pair, nor without components, by
whose number it divides. -/
def iceKeepAlive (ice : IceSess) (sendNow : Bool) : Option IceSess :=
  if ice.compCnt = 0 then none
  else do
    let ice ← if sendNow then sendIndication ice else some ice
    some (if ice.timer = .none then { ice with timer := .keepAlive } else ice)

def onTimer (ice : IceSess) : Option IceSess :=
  let type := ice.timer
  let ice := { ice with timer := .none }
  if ice.isDestroying then some ice
  else match type with
    | .none => some ice
    | .controlledWaitNom => some (onIceComplete ice .eicenomtimeout)
    | .completionCallback => do
        let ice ← if ice.iceStatus = .success then iceKeepAlive ice false else some ice
        some (act ice (.completed ice.iceStatus))
    | .startNominatedCheck => startNominatedCheck ice
    | .keepAlive => iceKeepAlive ice true

def destroyIce (ice : IceSess) : IceSess :=
  if ice.isDestroying then ice
  else { ice with isDestroying := true, timer := .none, clistTimer := false, pending := [] }

end Timers

section Sending

def pjIceSessSendData (ice : IceSess) (compId : Nat) :
    Except Status (Option (BitVec 8) × Option PjSockaddr) :=
  if compId = 0 then .error .einval
  else if compId > ice.compCnt then .error .eiceincompid
  else if ice.isDestroying then .error .einvalidop
  else
    let valid := (ice.comp[compId - 1]?).bind fun comp => comp.validCheck.bind (ice.validList[·]?)
    match valid with
    | none => .error .eiceinprogress
    | some check =>
        .ok (transportOf ice check, (ice.rcand[check.rcand]?).bind fun cand => cand.addr)

end Sending

section Steps

/-- What happens to a session, whose options are set when it is created. -/
inductive IceEvent where
  | addCand (compId : Nat) (transportId : BitVec 8) (type : IceCandType) (localPref : BitVec 16)
      (foundation : CStr) (addr baseAddr : Option PjSockaddr)
  | createCheckList (rcand : List IceSessCand)
  | startCheck (foundation : Nat → CStr)
  | checkTimer
  | timer
  | response (number : Nat) (response : Response) (foundation : CStr)
  | request (request : Request) (foundation : CStr)
  | changeRole (role : Role)
  | setPrefs (prefs : IceCandType → BitVec 8)
  | destroy

/-- A timer that is not set does not expire, and a response to no transaction of the session
is dropped. -/
def handleEvent (env : StunEnv) (ice : IceSess) : IceEvent → Option IceSess
  | .addCand compId transportId type localPref foundation addr baseAddr =>
      match pjIceSessAddCand ice compId transportId type localPref foundation addr baseAddr with
      | .ok result => some result.1
      | .error _ => some ice
  | .createCheckList rcand => some (pjIceSessCreateCheckList ice rcand).1
  | .startCheck foundation => (pjIceSessStartCheck env ice foundation).map Prod.fst
  | .checkTimer => if ice.clistTimer then some (startPeriodicCheck env ice) else some ice
  | .timer => if ice.timer = .none then some ice else onTimer ice
  | .response number response foundation =>
      match ice.pending.find? fun tx => tx.number = number with
      | none => some ice
      | some tx => onStunRequestComplete env ice tx response foundation
  | .request request foundation => onStunRxRequest env ice request foundation
  | .changeRole role => some { ice with role := role }
  | .setPrefs prefs => some { ice with prefs := prefs }
  | .destroy => some (destroyIce ice)

/-- A session that the application has destroyed is left alone, and has no timers and no
transactions. -/
def iceStep (env : StunEnv) (ice : IceSess) (event : IceEvent) : Option IceSess :=
  if ice.isDestroying then some ice else handleEvent env ice event

def IceEvent.describes : IceEvent → Bool
  | .createCheckList _ => true
  | _ => false

/-- A description for a session that has one. The source takes it and writes over the
candidates that the checks of the first one refer to. -/
def IceEvent.again (ice : IceSess) (event : IceEvent) : Bool :=
  event.describes && !ice.isDestroying && !(ice.rcand.isEmpty && ice.clist.isEmpty)

/-- A run ends without result where a second description arrives. -/
def iceRun (env : StunEnv) : IceSess → List IceEvent → Option IceSess
  | ice, [] => some ice
  | ice, event :: rest => do
      let ice ← if event.again ice then none else iceStep env ice event
      iceRun env ice rest

end Steps

end NatClient.IceSession
