import NatClient.IceRuns
import NatClient.IceLifetime

/-!
The stream transport of ice_strans.c: how it gathers the candidates of its components, and
what it does with the one session it may have. What the STUN and TURN sockets answer is an
input; a step that would follow a NULL pointer has no result.
-/

namespace NatClient.IceTransport

open CString IceTypes IceSession IceLifetime

deriving instance DecidableEq for StransOp

section Types

def tpStun : BitVec 8 := 1
def tpTurn : BitVec 8 := 2

def localPref : BitVec 16 := 65535

def srflxPrefTable : IceCandType → BitVec 8
  | .host => 100
  | .srflx => 110
  | .prflx => 126
  | .relayed => 0

def pjHashCalc (bytes : List (BitVec 8)) : BitVec 32 :=
  bytes.foldl (fun hash byte => hash * 33 + byte.setWidth 32) 0

def octets (bits : BitVec 128) : List (BitVec 8) :=
  (List.range 16).map fun i => (bits >>> (8 * (15 - i))).setWidth 8

def getTypePrefix : IceCandType → Char
  | .host => 'H'
  | .srflx => 'S'
  | .prflx => 'P'
  | .relayed => 'R'

def pjIceCalcFoundation (type : IceCandType) (baseAddr : PjSockaddr) : CStr :=
  let val := match baseAddr.ip with
    | .inet bits => bits
    | .inet6 bits => pjHashCalc (octets bits)
  getTypePrefix type :: Nat.toDigits 16 val.toNat

/-- `PJ_EPENDING`, `PJ_SUCCESS`, or an error. -/
inductive CandStatus where
  | pending
  | ready
  | failed
  deriving DecidableEq

structure GatheredCand where
  type : IceCandType
  status : CandStatus
  transportId : BitVec 8
  foundation : CStr
  addr : Option PjSockaddr
  baseAddr : Option PjSockaddr
  deriving DecidableEq

inductive TurnSock where
  | none
  | allocating
  deriving DecidableEq

/-- How an allocation starts. It fails at once when the server cannot be set. -/
inductive TurnStart where
  | refused
  | failed (status : Status)
  | allocating
  deriving DecidableEq

structure TransComp where
  candList : List GatheredCand
  defaultCand : Nat
  turnSock : TurnSock
  turnErrCnt : Nat
  deriving DecidableEq

structure StransCfg where
  stunServer : Bool
  maxHostCands : Nat
  loopAddr : Bool
  ignoreStunError : Bool
  turnServer : Bool
  aggressive : Bool
  controlledAgentWantNomTimeout : Int

inductive StransState where
  | null
  | init
  | ready
  | sessReady
  | nego
  | running
  | failed
  deriving DecidableEq

/-- The component of an index has the next id. `reports` are the calls of the application's
callback. -/
structure IceStrans where
  cfg : StransCfg
  comps : List TransComp
  state : StransState
  cbCalled : Bool
  ice : Option IceSess
  destroyReq : Bool
  reports : List (StransOp × Status)

end Types

section Components

/-- What the sockets of a component answer: the first and the other addresses of the STUN
socket, unless it cannot be set up, and the TURN socket. -/
structure SockEnv where
  aliases : Option (PjSockaddr × List PjSockaddr)
  turn : TurnStart

def loopback : PjSockaddr → Bool
  | ⟨.inet ip, _⟩ => ip >>> 24 = 127
  | ⟨.inet6 _, _⟩ => false

def ofType (type : IceCandType) (candList : List GatheredCand) : Option Nat :=
  candList.findIdx? fun cand => cand.type = type

def srflxCand (base : PjSockaddr) : GatheredCand :=
  { type := .srflx, status := .pending, transportId := tpStun,
    foundation := pjIceCalcFoundation .srflx base,
    addr := none, baseAddr := some base }

def hostCand (addr : PjSockaddr) : GatheredCand :=
  { type := .host, status := .ready, transportId := tpStun,
    foundation := pjIceCalcFoundation .host addr,
    addr := some addr, baseAddr := some addr }

def relayedCand : GatheredCand :=
  { type := .relayed, status := .pending, transportId := tpTurn, foundation := [],
    addr := none, baseAddr := none }

/-- One place is left for a relayed candidate. -/
def addHosts (cfg : StransCfg) : List PjSockaddr → List GatheredCand → List GatheredCand
  | [], candList => candList
  | addr :: rest, candList =>
      if candList.length ≥ pjIceStMaxCand - 1 then candList
      else if loopback addr && !cfg.loopAddr then addHosts cfg rest candList
      else addHosts cfg rest (candList ++ [hostCand addr])

/-- A relayed candidate that is there waits again; the default moves away from it. -/
def waitRelayed (comp : TransComp) : TransComp :=
  match ofType .relayed comp.candList with
  | some index =>
      { comp with
        candList := comp.candList.modify index fun cand => { cand with status := .pending }
        defaultCand :=
          if comp.defaultCand = index then (ofType .srflx comp.candList).getD 0
            else comp.defaultCand }
  | none => comp

/-- With the error of an allocation that fails at once, of which the socket tells the
transport before it is gone. -/
def addUpdateTurn (start : TurnStart) (comp : TransComp) : TransComp × Option Status :=
  let waiting := waitRelayed comp
  match start with
  | .refused => (waiting, none)
  | .failed status =>
      ({ waiting with turnSock := .none, turnErrCnt := comp.turnErrCnt + 1 }, some status)
  | .allocating =>
      ({ waiting with
          candList :=
            if (ofType .relayed comp.candList).isNone then waiting.candList ++ [relayedCand]
            else waiting.candList
          turnSock := .allocating }, none)

def stunCands (cfg : StransCfg) (env : SockEnv) : Option (List GatheredCand) :=
  if cfg.stunServer || cfg.maxHostCands ≠ 0 then
    env.aliases.map fun (first, others) =>
      addHosts cfg ((first :: others).take cfg.maxHostCands)
        (if cfg.stunServer then [srflxCand first] else [])
  else some []

def createComp (cfg : StransCfg) (env : SockEnv) : Option (TransComp × Option Status) :=
  (stunCands cfg env).bind fun candList =>
    let comp : TransComp := { candList, defaultCand := 0, turnSock := .none, turnErrCnt := 0 }
    let created := if cfg.turnServer then addUpdateTurn env.turn comp else (comp, none)
    if created.1.candList = [] then none else some created

end Components

section Gathering
variable (st : IceStrans)

def report (op : StransOp) (status : Status) : IceStrans :=
  { st with reports := st.reports ++ [(op, status)] }

def sessFail (op : StransOp) (status : Status) : IceStrans :=
  if op = .init ∧ st.cbCalled then st else report { st with cbCalled := true } op status

def TransComp.gathered (comp : TransComp) : Bool :=
  comp.candList.all fun cand => cand.status ≠ .pending

def sessInitUpdate : IceStrans :=
  if st.cbCalled then st
  else if st.comps.all TransComp.gathered then
    report { st with cbCalled := true, state := .ready } .init .success
  else st

def updateComp (index : Nat) (comp : TransComp) : IceStrans :=
  { st with comps := st.comps.set index comp }

def turnFailed (op : StransOp) (lastStatus : Status) : IceStrans :=
  if lastStatus = .success then st else sessFail st op lastStatus

/-- A TURN socket that fails at once is reported before the application has the transport,
the end of gathering after that. -/
def pjIceStransCreate (cfg : StransCfg) (envs : List SockEnv) : Option IceStrans := do
  if envs = [] ∨ envs.length > pjIceMaxComp then none
  let created ← envs.mapM (createComp cfg)
  let st : IceStrans :=
    { cfg, comps := created.map Prod.fst, state := .init, cbCalled := false, ice := none
      destroyReq := false, reports := [] }
  some (sessInitUpdate ((created.filterMap Prod.snd).foldl (turnFailed · .init ·) st))

inductive StunSockOp where
  | dns
  | binding
  | mappedAddrChange
  | keepAlive
  deriving DecidableEq

def setStatus (index : Nat) (status : CandStatus) (comp : TransComp) : TransComp :=
  { comp with candList := comp.candList.modify index fun cand => { cand with status := status } }

/-- A reflexive candidate with the address of a host candidate is removed. -/
def mappedAddr (index : Nat) (mapped : PjSockaddr) (comp : TransComp) : TransComp :=
  if comp.candList.any fun cand => cand.type = .host && cand.addr = some mapped then
    { comp with
      candList := comp.candList.eraseIdx index
      defaultCand :=
        if comp.defaultCand > index then comp.defaultCand - 1
        else if comp.defaultCand = index then 0 else comp.defaultCand }
  else
    { comp with candList := comp.candList.modify index fun cand =>
        { cand with addr := some mapped, status := .ready } }

def bindingFailed (compIdx index : Nat) (comp : TransComp) (status : Status) : IceStrans :=
  let failed := setStatus index .failed comp
  if !st.cfg.ignoreStunError ∨ comp.candList.length = 1 then
    sessFail (updateComp st compIdx failed) .init status
  else
    let moved :=
      if failed.defaultCand = index then (if index = 0 then 1 else 0) else failed.defaultCand
    sessInitUpdate (updateComp st compIdx { failed with defaultCand := moved })

/-- `info` is what the socket answers when it is asked for its mapped address. -/
def stunOnStatus (compIdx : Nat) (op : StunSockOp) (status : Status)
    (info : Except Status PjSockaddr) : IceStrans :=
  match st.comps[compIdx]? with
  | none => st
  | some comp =>
      match ofType .srflx comp.candList with
      | none => st
      | some index =>
          if op = .dns ∨ op = .keepAlive then
            if status = .success then st
            else
              let st := updateComp st compIdx (setStatus index .failed comp)
              if st.cfg.ignoreStunError then st else sessFail st .init status
          else if status = .success then
            match info with
            | .ok mapped => sessInitUpdate (updateComp st compIdx (mappedAddr index mapped comp))
            | .error status => if status = .success then st
                else bindingFailed st compIdx index comp status
          else bindingFailed st compIdx index comp status

/-- Has no result without a relayed candidate, which is only asserted. -/
def turnReady (compIdx : Nat) (relay : PjSockaddr) : Option IceStrans :=
  match st.comps[compIdx]? with
  | none => some st
  | some comp => do
      let index ← ofType .relayed comp.candList
      let ready : TransComp :=
        { comp with
          candList := comp.candList.modify index fun cand =>
            { cand with
              addr := some relay, baseAddr := some relay, foundation :=
                pjIceCalcFoundation .relayed relay
              status := .ready }
          defaultCand := index
          turnErrCnt := 0 }
      some (sessInitUpdate (updateComp st compIdx ready))

def StransState.early : StransState → Bool
  | .null => true
  | .init => true
  | _ => false

def turnClosed (compIdx : Nat) (lastStatus : Status) (retry : TurnStart) : IceStrans :=
  match st.comps[compIdx]? with
  | none => st
  | some comp =>
      let comp := { comp with turnErrCnt := comp.turnErrCnt + 1, turnSock := .none }
      let closed := updateComp st compIdx comp
      if lastStatus = .success then closed
      else if st.state.early then sessFail closed .init lastStatus
      else if comp.turnErrCnt > 1 then sessFail closed .keepAlive lastStatus
      else
        let (comp, failed) := addUpdateTurn retry comp
        let retried := updateComp st compIdx comp
        -- A retry that fails is the second error.
        failed.elim retried (turnFailed retried .keepAlive)

end Gathering

section Sessions
variable (env : StunEnv) (st : IceStrans)

def pjIceStransStopIce : IceStrans := { st with ice := none, state := .init }

def addCands (compId : Nat) : List GatheredCand → IceSess → Except Status IceSess
  | [], ice => .ok ice
  | cand :: rest, ice =>
      if cand.status = .ready then do
        let (ice, _) ← pjIceSessAddCand ice compId cand.transportId
          cand.type localPref cand.foundation
          cand.addr cand.baseAddr
        addCands compId rest ice
      else addCands compId rest ice

def addComps (compId : Nat) : List TransComp → IceSess → Except Status IceSess
  | [], ice => .ok ice
  | comp :: rest, ice => do
      let ice ← addCands compId comp.candList ice
      addComps (compId + 1) rest ice

/-- Reflexive candidates are preferred when the first component has one for its default. -/
def prefersSrflx : Bool :=
  (st.comps.head?.bind fun comp => comp.candList[comp.defaultCand]?).any fun cand =>
    cand.type = .srflx

def pjIceStransInitIce (role : Role) (tieBreaker : BitVec 64) (created : Option Status) :
    IceStrans × Status :=
  if st.ice.isSome then (st, .einvalidop)
  else match created with
    | some status => (st, status)
    | none =>
        let ice :=
          pjIceSessSetOptions (pjIceSessCreate role st.comps.length tieBreaker) st.cfg.aggressive
          st.cfg.controlledAgentWantNomTimeout
        let ice := if prefersSrflx st then { ice with prefs := srflxPrefTable } else ice
        match addComps 1 st.comps ice with
        | .ok ice => ({ st with ice := some ice, state := .sessReady }, .success)
        | .error status => (pjIceStransStopIce st, status)

/-- Those of the component of an index and the later ones, up to the first that is refused;
there is no result where the socket of a component is NULL. -/
def setPerms (rem : List IceSessCand) (perm : Nat → Status) : Nat → List TransComp → Option Status
  | _, [] => some .success
  | index, comp :: rest =>
      if rem.any fun cand => cand.compId.toNat = index + 1 then
        if comp.turnSock = .none then none
        else if perm index ≠ .success then some (perm index)
        else setPerms rem perm (index + 1) rest
      else setPerms rem perm (index + 1) rest

def permissions (rem : List IceSessCand) (perm : Nat → Status) : Option Status :=
  if st.comps.head?.any fun comp => comp.turnSock ≠ .none then setPerms rem perm 0 st.comps
  else some .success

def pjIceStransStartIce (rem : List IceSessCand) (perm : Nat → Status) (foundation : Nat → CStr) :
    Option (IceStrans × Status) :=
  match st.ice with
  | none => some (st, .einval)
  | some ice =>
      let (ice, status) := pjIceSessCreateCheckList ice rem
      let st := { st with ice := some ice }
      if status ≠ .success then some (st, status)
      else do
        let status ← permissions st rem perm
        if status ≠ .success then some (pjIceStransStopIce st, status)
        else do
          let (ice, status) ← pjIceSessStartCheck env ice foundation
          if status ≠ .success then some (pjIceStransStopIce st, status)
          else some ({ st with ice := some ice, state := .nego }, .success)

def pjIceStransGetValidPair (compId : Nat) : Option Check :=
  st.ice.bind fun ice => (ice.comp[compId - 1]?).bind fun comp =>
    comp.validCheck.bind (ice.validList[·]?)

/-- A relayed pair gets a channel, whose status takes the place of the session's. -/
def bindChannels (bind : Nat → Status) (status : Status) : Status :=
  if status = .success then
    (List.range st.comps.length).foldl (fun status i =>
      if ((pjIceStransGetValidPair st (i + 1)).bind fun check =>
        st.ice.bind (transportOf · check)) = some tpTurn
      then bind i else status) .success
  else status

def onIceComplete (bind : Nat → Status) (status : Status) : IceStrans :=
  let status := bindChannels st bind status
  report { st with state := if status = .success then .running else .failed } .negotiation status

def completions (before after : IceSess) : List Status :=
  (after.acts.drop before.acts.length).filterMap reportOf

def sessionEvent (event : IceEvent) (bind : Nat → Status) : Option IceStrans :=
  match st.ice with
  | none => some st
  | some before => do
      let after ← iceStep env before event
      some ((completions before after).foldl (fun st status => onIceComplete st bind status)
        { st with ice := some after })

end Sessions

section Queries
variable (st : IceStrans)

def pjIceStransHasSess : Bool := st.ice.isSome

/-- A session that has remote candidates may have fewer components than its transport. -/
def pjIceStransGetRunningCompCnt : Nat :=
  match st.ice with
  | some ice => if ice.rcand ≠ [] then ice.compCnt else st.comps.length
  | none => st.comps.length

def pjIceStransEnumCands (compId room : Nat) : Except Status (List SessCand) :=
  match st.ice with
  | none => .error .einval
  | some ice =>
      if compId = 0 ∨ compId > st.comps.length then .error .einval
      else .ok ((ice.lcand.filter fun cand => cand.compId.toNat = compId).take room)

def GatheredCand.toIceSessCand (compId : Nat) (cand : GatheredCand) : IceSessCand :=
  { type := cand.type, compId := BitVec.ofNat 8 compId, foundation := cand.foundation,
    prio := 0, addr := cand.addr }

/-- The local candidate of the valid pair, or the default one, which is only
asserted to be there. -/
def pjIceStransGetDefCand (compId : Nat) : Except Status (Option IceSessCand) :=
  if compId = 0 ∨ compId > st.comps.length then .error .einval
  else
    let valid := (pjIceStransGetValidPair st compId).bind fun check =>
      st.ice.bind fun ice => ice.lcand[check.lcand]?
    let default := (st.comps[compId - 1]?).bind fun comp => comp.candList[comp.defaultCand]?
    .ok ((valid.map SessCand.toIceSessCand).or (default.map (GatheredCand.toIceSessCand compId)))

end Queries

section Steps

inductive StransEvent where
  | stunStatus (compIdx : Nat) (op : StunSockOp) (status : Status) (info : Except Status PjSockaddr)
  | turnReady (compIdx : Nat) (relay : PjSockaddr)
  | turnClosed (compIdx : Nat) (lastStatus : Status) (retry : TurnStart)
  | initIce (role : Role) (tieBreaker : BitVec 64) (created : Option Status)
  | startIce (rem : List IceSessCand) (perm : Nat → Status) (foundation : Nat → CStr)
  | session (event : IceEvent) (bind : Nat → Status)
  | stopIce
  | destroy

/-- The transport itself gathers, pairs, starts and destroys. -/
def sessionMay : IceEvent → Bool
  | .checkTimer => true
  | .timer => true
  | .response _ _ _ => true
  | .request _ _ => true
  | .changeRole _ => true
  | _ => false

def unpaired (ice : IceSess) : Bool := ice.rcand = [] && ice.clist = []

def handleEvent (env : StunEnv) (st : IceStrans) : StransEvent → Option IceStrans
  | .stunStatus compIdx op status info => some (stunOnStatus st compIdx op status info)
  | .turnReady compIdx relay =>
      if st.comps[compIdx]?.any fun comp => comp.turnSock = .allocating then
        turnReady st compIdx relay else some st
  | .turnClosed compIdx lastStatus retry =>
      if st.comps[compIdx]?.any fun comp => comp.turnSock ≠ .none then some
        (turnClosed st compIdx lastStatus retry)
      else some st
  | .initIce role tieBreaker created => some (pjIceStransInitIce st role tieBreaker created).1
  | .startIce rem perm foundation => (pjIceStransStartIce env st rem perm foundation).map Prod.fst
  | .session event bind => if sessionMay event then sessionEvent env st event bind else some st
  | .stopIce => some (pjIceStransStopIce st)
  | .destroy =>
      let comps := st.comps.map fun comp => { comp with turnSock := .none }
      some { st with destroyReq := true, ice := none, comps := comps }

def stransStep (env : StunEnv) (st : IceStrans) (event : StransEvent) : Option IceStrans :=
  if st.destroyReq then some st else handleEvent env st event

def StransEvent.again (st : IceStrans) : StransEvent → Bool
  | .startIce _ _ _ => !st.destroyReq && !st.ice.all unpaired
  | _ => false

/-- A run ends without result where a session is started again. -/
def stransRun (env : StunEnv) : IceStrans → List StransEvent → Option IceStrans
  | st, [] => some st
  | st, event :: rest => do
      let st ← if event.again st then none else stransStep env st event
      stransRun env st rest

end Steps

end NatClient.IceTransport
