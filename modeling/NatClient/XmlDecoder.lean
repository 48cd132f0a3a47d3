import NatClient.Xml2Wrapper
import NatClient.IceTypes

/-!
`natclient_connect_with_user` of icewrapper.c: fetch the peer's XML description,
look every field up and fill `rem_info`. A copy that overflows, a missing element
and a candidate index past the array have no defined result (`abort`); the
`on_error` exits reset `rem_info`. Of the log lines only the one that takes the URL for
its format is represented, since nothing else can go wrong in them.
-/

namespace NatClient.XmlDecoder

open CString XmlForest Xml2Wrapper IceTypes

/-- What the decoder is given by its surroundings: the server's address, the level of
the log, the text that a download copies to `buff`, the XML reader and the address library. -/
structure PeerEnv where
  gUrl : CStr
  logLevel : Int
  fetch : CStr → CStr
  xmlReadMemory : CStr → Option XmlNode
  sockaddr : SockaddrLib

inductive Stop where
  | abort
  | onError
  deriving DecidableEq

/-- `rem_info` and the two locals that outlive an iteration. -/
structure DecodeState where
  rem : RemInfo
  comp0Addr : CharArray 80
  comp0Port : Nat

def orAbort {Result : Type} : Option Result → Except Stop Result
  | none => .error .abort
  | some result => .ok result

def copyField (capacity : Nat) (node : XmlNode) (name : CStr) : Except Stop (CharArray capacity) :=
  orAbort (strcpy capacity (xmlXmlnodeGetContentByName node name))

def numberField (node : XmlNode) (name : CStr) : Except Stop Int :=
  orAbort ((xmlXmlnodeGetContentByName node name).map atoi)

def toUnsigned (value : Int) : Nat := (value % 2 ^ 32).toNat

def readCandType (type : CStr) : Option IceCandType :=
  if type = "host".toList then some .host
  else if type = "srflx".toList then some .srflx
  else if type = "relay".toList then some .relayed
  else none

def peerUrl (env : PeerEnv) (usrId : CStr) : CStr := env.gUrl ++ "/peer/getPeer/".toList ++ usrId

def getPeerUrl (env : PeerEnv) (usrId : CStr) : Option (CharArray 1024) :=
  strcpy 1024 (some (peerUrl env usrId))

/-- A format that prints without arguments: two percent signs in a row print one of them,
and after a single one there is an argument to fetch, or no conversion at all. -/
def plainFormat : CStr → Bool
  | [] => true
  | '%' :: '%' :: rest => plainFormat rest
  | '%' :: _ => false
  | _ :: rest => plainFormat rest

def pjLog (maxLevel level : Int) (format : CStr) : Option Unit :=
  if level ≤ maxLevel ∧ plainFormat format = false then none else some ()

def buffSize : Nat := 5 * 1024

def readComp1 (cur : XmlNode) (st : DecodeState) : Except Stop DecodeState := do
  let comp0Addr ← copyField 80 cur "ip".toList
  let port ← numberField cur "port".toList
  .ok { st with comp0Addr := comp0Addr, comp0Port := toUnsigned port }

/-- The next cell is filled and `comp_cnt` grows to the largest component. -/
def addCand (rem : RemInfo) (cand : IceSessCand) (slot : rem.candCnt < pjIceStMaxCand) : RemInfo :=
  { rem with
    cand := rem.cand.set rem.candCnt cand slot
    candCnt := rem.candCnt + 1
    compCnt := if rem.compCnt < cand.compId.toNat then cand.compId.toNat else rem.compCnt }

/-- `first` is the test `cur_node == a_node->children`. -/
def readCandidate (lib : SockaddrLib) (first : Bool) (cur : XmlNode) (st : DecodeState) :
    Except Stop DecodeState := do
  let foundation ← copyField 32 cur "foundation".toList
  let compId ← numberField cur "comp_id".toList
  let _transport ← copyField 12 cur "transport".toList
  let prio ← numberField cur "prio".toList
  let ipaddr ← copyField 80 cur "ip".toList
  let port ← numberField cur "port".toList
  -- A candidate in front of all siblings sets the default port, but no default address.
  let comp0Port := if first then toUnsigned port else st.comp0Port
  let type ← copyField 32 cur "type".toList
  if slot : st.rem.candCnt < pjIceStMaxCand then
    match readCandType type.text with
    | none => .error .onError
    | some candType =>
        match readAddr lib ipaddr.text with
        | none => .error .onError
        | some ip =>
            let cand : IceSessCand :=
              { type := candType
                compId := BitVec.ofInt 8 compId
                foundation := foundation.text
                prio := BitVec.ofInt 32 prio
                addr := some ⟨ip, BitVec.ofInt 16 port⟩ }
            .ok { st with comp0Port := comp0Port, rem := addCand st.rem cand slot }
  else .error .abort

def candidateLoop (lib : SockaddrLib) (first : Bool) : XmlNode → DecodeState →
    Except Stop DecodeState
  | .null, st => .ok st
  | .element name children next, st => do
      let cur := XmlNode.element name children next
      -- Whatever is not a comp_1 is read as a candidate, also under another name.
      let st ← if name = "comp_1".toList then readComp1 cur st else readCandidate lib first cur st
      candidateLoop lib false next st
  | .text _ next, st => candidateLoop lib false next st
  | .other next, st => candidateLoop lib false next st
  | .entity _ _ next, st => candidateLoop lib false next st
  | .endless _ next, st => candidateLoop lib false next st

def finish (lib : SockaddrLib) (st : DecodeState) : Except Stop RemInfo :=
  if st.rem.candCnt = 0 ∨ st.rem.ufrag.text = [] ∨ st.rem.pwd.text = [] ∨ st.rem.compCnt = 0 then
    .error .onError
  else if st.comp0Port = 0 ∨ st.comp0Addr.text = [] then .error .onError
  else match readAddr lib st.comp0Addr.text with
    | none => .error .onError
    | some ip => .ok { st.rem with
        defAddr := st.rem.defAddr.set 0 (some ⟨ip, BitVec.ofNat 16 st.comp0Port⟩) }

structure EnoughInfo (lib : SockaddrLib) (st : DecodeState) (ip : IpAddr) : Prop where
  candCnt : st.rem.candCnt ≠ 0
  ufrag : st.rem.ufrag.text ≠ []
  pwd : st.rem.pwd.text ≠ []
  compCnt : st.rem.compCnt ≠ 0
  port : st.comp0Port ≠ 0
  addr : st.comp0Addr.text ≠ []
  resolved : readAddr lib st.comp0Addr.text = some ip

theorem finish_enough {lib : SockaddrLib} {st : DecodeState} {ip : IpAddr}
    (enough : EnoughInfo lib st ip) :
    finish lib st = .ok { st.rem with
      defAddr := st.rem.defAddr.set 0 (some ⟨ip, BitVec.ofNat 16 st.comp0Port⟩) } := by
  simp only [finish, enough.candCnt, enough.ufrag, enough.pwd, enough.compCnt, enough.port,
    enough.addr, enough.resolved, or_self, ↓reduceIte]

theorem finish_notEnough {lib : SockaddrLib} {st : DecodeState}
    (lacking : ∀ ip, ¬ EnoughInfo lib st ip) : finish lib st = .error .onError := by
  rw [finish]
  split
  · rfl
  · next present =>
      push Not at present
      obtain ⟨candCnt, ufrag, pwd, compCnt⟩ := present
      split
      · rfl
      · next given =>
          push Not at given
          cases resolved : readAddr lib st.comp0Addr.text with
          | none => rfl
          | some ip =>
              have enough : EnoughInfo lib st ip :=
                ⟨candCnt, ufrag, pwd, compCnt, given.1, given.2, resolved⟩
              exact absurd enough (lacking ip)

def readDescription (env : PeerEnv) (buff : CStr) : Except Stop RemInfo := do
  let peer ← orAbort (xmlGetNodeByName env.xmlReadMemory buff "registerPeer".toList)
  let ufrag ← copyField 80 peer.children "ufrag".toList
  let pwd ← copyField 80 peer.children "pwd".toList
  let list ← orAbort (xmlGetNodeByName env.xmlReadMemory buff "candidateList".toList)
  let st ← candidateLoop env.sockaddr true list.children
    { rem := { resetRemInfo with ufrag := ufrag, pwd := pwd }, comp0Addr := .empty, comp0Port := 0 }
  finish env.sockaddr st

/-- What each way out leaves in `rem`. -/
def leave : Except Stop RemInfo → Option RemInfo
  | .ok rem => some rem
  | .error .onError => some resetRemInfo
  | .error .abort => none

/-- The previous `rem` is zeroed before anything else is read. No result means
that the program left its defined behaviour or stopped at the assertion. -/
def natclientConnectWithUser (env : PeerEnv) (_rem : RemInfo) (usrId : CStr) : Option RemInfo := do
  let fullUrl ← getPeerUrl env usrId
  -- The text in front of the URL stands where `PJ_LOG` expects the sender.
  pjLog env.logLevel 4 fullUrl.text
  let buff ← strcpy buffSize (some (env.fetch fullUrl.text))
  leave (readDescription env buff.text)

end NatClient.XmlDecoder
