import NatClient.IceWrapper
import NatClient.LineInput
import NatClient.Runs

/-!
The console of icecontroller.c: three connection slots, found by the name that
was written into them, and the commands that a user types. The empty name marks a
free slot. A copy that overflows its array ends the run.
-/

namespace NatClient.Controller

open LineInput (Input)
open CString IceTypes XmlDecoder IceWrapper Runs

abbrev maxIceTrans : Nat := 3

structure NatClientT where
  iceReceive : IceTrans
  iceTransList : Vector IceTrans maxIceTrans
  lib : PjNath

inductive ApiCall where
  | startNego (index : Nat) (calls : List LibCall)
  | sendData (index compId : Nat) (data : CStr) (calls : List LibCall)

structure ApiResult where
  value : Int
  natclient : NatClientT
  calls : List ApiCall

def getIceTranFromName (list : Vector IceTrans maxIceTrans) (name : CStr) : Nat :=
  list.toList.findIdx fun icetrans => icetrans.name.text = name

def apiPeerConnect (env : PeerEnv) (outcome : StartOutcome) (arg : CStr) (natclient : NatClientT) :
    Option ApiResult :=
  if getIceTranFromName natclient.iceTransList arg < maxIceTrans then some ⟨0, natclient, []⟩
  else
    let index := getIceTranFromName natclient.iceTransList []
    if free : index < maxIceTrans then do
      let name ← strcpy 256 (some arg)
      -- The name stands in the table before the connection is attempted, and stays there.
      let iceTrans := { natclient.iceTransList[index] with name := name }
      let rem ← natclientConnectWithUser env iceTrans.rem arg
      let started := natclientStartNego { iceTrans with rem := rem } natclient.lib outcome
      some ⟨0, { natclient with
        iceTransList := natclient.iceTransList.set index started.icetrans
        lib := started.lib }, [.startNego index started.calls]⟩
    else some ⟨-1, natclient, []⟩

/-! Messages. `malloc` leaves arbitrary bytes, `calloc` zeroes. -/
section Messages

structure MsgT where
  username : Vector Char 256
  msg : Vector Char 1024

def MsgT.zero : MsgT := ⟨Vector.replicate 256 '\x00', Vector.replicate 1024 '\x00'⟩

/-- A user name without terminator is read on into the message behind it. -/
def MsgT.readUsername (msg : MsgT) : CStr := cString (msg.username.toList ++ msg.msg.toList)

def MsgT.readMsg (msg : MsgT) : CStr := cString msg.msg.toList

def apiPeerSend (msg : MsgT) (natclient : NatClientT) : ApiResult :=
  let index := getIceTranFromName natclient.iceTransList msg.readUsername
  if found : index < maxIceTrans then
    let sent := natclientSendData natclient.iceTransList[index] natclient.lib 1 msg.readMsg
    ⟨0, { natclient with
      iceTransList := natclient.iceTransList.set index sent.icetrans
      lib := sent.lib }, [.sendData index 1 msg.readMsg sent.calls]⟩
  else ⟨-1, natclient, []⟩

def xmlMsg (text : CStr) : Option (CharArray 1024) := strcpy 1024 (some text)

def addDeviceText (usrid : CStr) : CStr :=
  "<NAT><deviceID>".toList ++ usrid ++ "</deviceID><command>add_device</command></NAT>".toList

def apiPeerAddDevice (usrid : CStr) (heap : Option MsgT) (arg : CStr) (natclient : NatClientT) :
    Option ApiResult := do
  let xml ← xmlMsg (addDeviceText usrid)
  match heap with
  | none => some ⟨-1, natclient, []⟩
  | some msg =>
      -- No look at the length of the name, unlike the commands that connect and send.
      let username ← copyInto msg.username arg
      let text ← copyInto msg.msg xml.text
      some { apiPeerSend ⟨username, text⟩ natclient with value := 0 }

def bar (c : Char) : Bool := c = '|'

def readSwitch (username : Vector Char 256) (nodeId : CharArray 256) :
    Nat → List CStr → Option (Vector Char 256 × CharArray 256)
  | _, [] => some (username, nodeId)
  | index, token :: rest =>
      if index = 0 ∧ 2 < token.length then do
        readSwitch (← copyInto username token) nodeId (index + 1) rest
      else if index = 1 ∧ 1 ≤ token.length then do
        readSwitch username (← strcpy 256 (some token)) (index + 1) rest
      else readSwitch username nodeId (index + 1) rest

def switchText (usrid command nodeId : CStr) : CStr :=
  "<NAT><deviceID>".toList ++ usrid ++ "</deviceID><command>".toList ++ command ++
    "</command><nodeID>".toList ++ nodeId ++ "</nodeID></NAT>".toList

def switchDevice (command usrid : CStr) (heap : Option MsgT) (arg : CStr) (natclient : NatClientT) :
    Option ApiResult :=
  match heap with
  | none => some ⟨-1, natclient, []⟩
  | some msg => do
      let (username, nodeId) ← readSwitch msg.username .empty 0 (strtokAll bar arg)
      let xml ← xmlMsg (switchText usrid command nodeId.text)
      let text ← copyInto msg.msg xml.text
      some { apiPeerSend ⟨username, text⟩ natclient with value := 0 }

def apiPeerTurnonDevice := switchDevice "turnon".toList
def apiPeerTurnoffDevice := switchDevice "turnoff".toList

/-- The loop of the send command; both fields must be longer than two characters. -/
def readSend (msg : MsgT) : Nat → List CStr → Option MsgT
  | _, [] => some msg
  | index, token :: rest =>
      if index = 0 ∧ 2 < token.length then do
        readSend { msg with username := ← copyInto msg.username token } (index + 1) rest
      else if index = 1 ∧ 2 < token.length then do
        readSend { msg with msg := ← copyInto msg.msg token } (index + 1) rest
      else readSend msg (index + 1) rest

def sendLine (line : CStr) (natclient : NatClientT) : Option ApiResult := do
  let msg ← readSend .zero 0 (strtokAll bar line)
  if 1 < msg.readMsg.length ∧ 2 < msg.readUsername.length then some (apiPeerSend msg natclient)
  else some ⟨0, natclient, []⟩

end Messages

/-! The console. Every command reads its line with `fgets_wrapper`. -/
section Console

inductive Command where
  | connect (env : PeerEnv) (outcome : StartOutcome) (user : Input 256)
  | send (allocated : Bool) (line : Input 1024)
  | add (heap : Option MsgT) (username : Input 256)
  | turnon (heap : Option MsgT) (line : Input 1024)
  | turnoff (heap : Option MsgT) (line : Input 1024)

def natclientConsole (usrid : CharArray 256) (natclient : NatClientT) : Command → Option ApiResult
  | .connect env outcome user => do
      let user ← user.string
      if 2 < user.length then apiPeerConnect env outcome user natclient
      else some ⟨0, natclient, []⟩
  | .send allocated line =>
      -- Without a record the line is not even read.
      if allocated then do sendLine (← line.string) natclient
      else some ⟨0, natclient, []⟩
  | .add heap username => do apiPeerAddDevice usrid.text heap (← username.string) natclient
  | .turnon heap line => do apiPeerTurnonDevice usrid.text heap (← line.string) natclient
  | .turnoff heap line => do apiPeerTurnoffDevice usrid.text heap (← line.string) natclient

def consoleStep (usrid : CharArray 256) : StepFn NatClientT Command ApiCall :=
  fun natclient command =>
  (natclientConsole usrid natclient command).map fun result => (result.natclient, result.calls)

/-- What the library answers while an instance and its session are set up. -/
structure SetupOutcome where
  created : Bool
  session : Bool

def setupTrans (compCnt : Nat) (lib : PjNath) (outcome : SetupOutcome) : IceTrans × PjNath :=
  let created := natclientCreateInstance .zero lib compCnt outcome.created
  let session := natclientInitSession created.icetrans created.lib 'o' outcome.session
  (session.icetrans, session.lib)

def consoleStart (usrid : CharArray 256) (compCnt : Nat)
    (receive first second third : SetupOutcome) :
    NatClientT :=
  let (iceReceive, lib) := setupTrans compCnt .empty receive
  let (slot0, lib) := setupTrans compCnt lib first
  let (slot1, lib) := setupTrans compCnt lib second
  let (slot2, lib) := setupTrans compCnt lib third
  { iceReceive := { iceReceive with name := usrid }
    iceTransList := #v[slot0, slot1, slot2]
    lib := lib }

end Console

end NatClient.Controller
