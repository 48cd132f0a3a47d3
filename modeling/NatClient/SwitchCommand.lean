import NatClient.CommandRouting

/-!
The switch command across the two programs. The controller formats an XML message;
the client cuts the packet at spaces and compares every token with `turnon` and
`turnoff`, because its position counter never moves.
-/

namespace NatClient.SwitchCommand

open CString XmlDecoder IceWrapper Runs Controller CommandTokens SessionTable CommandRouting

/-! `cb_on_rx_data` of iceclient.c. -/
section Client

/-- The locals of the callback start with what the stack holds. -/
structure RxFrame where
  nodeId : Vector Char 100
  cmdOnOff : Int

def intText : Int → CStr
  | .ofNat value => decimal value
  | .negSucc value => '-' :: decimal (value + 1)

def setBinary (nodeId : CStr) (value : Int) : CStr :=
  "ubus call zwave set_binary '\x7b\"nodeid\": \"".toList ++ nodeId ++ "\", \"value\":\"".toList ++
    intText value ++ "\"\x7d'".toList

/-- The loop over the tokens; the source has no statement that moves `index`. -/
def readCommand (index : Nat) : RxFrame → List CStr → Option RxFrame
  | frame, [] => some frame
  | frame, token :: rest =>
      -- Never reached from 0, where the callback starts.
      if index = 1 then do
        readCommand index { frame with nodeId := ← copyInto frame.nodeId token } rest
      else if index = 0 then
        if token = "turnon".toList then readCommand index { frame with cmdOnOff := 1 } rest
        else if token = "turnoff".toList then readCommand index { frame with cmdOnOff := 0 } rest
        else readCommand index frame rest
      else readCommand index frame rest

def space (c : Char) : Bool := c = ' '

/-- A node id without terminator is read past its array. -/
def cbOnRxData (frame : RxFrame) (pkt : CStr) : Option CStr := do
  let read ← readCommand 0 frame (strtokAll space (cString pkt))
  if '\x00' ∈ read.nodeId.toList then
    let command ← strcpy 256 (some (setBinary (cString read.nodeId.toList) read.cmdOnOff))
    some command.text
  else none

theorem readCommand_nodeId {frame read : RxFrame} {tokens : List CStr}
    (ran : readCommand 0 frame tokens = some read) : read.nodeId = frame.nodeId := by
  induction tokens generalizing frame with
  | nil => exact Option.some_inj.mp ran ▸ rfl
  | cons token rest ih =>
      rw [readCommand, if_neg (by decide), if_pos rfl] at ran
      split at ran
      · have kept := ih ran
        exact kept
      · split at ran
        · have kept := ih ran
          exact kept
        · exact ih ran

/-- Whatever the packet, the node id of the command is the one on the stack. -/
theorem cbOnRxData_nodeId {frame : RxFrame} {pkt text : CStr}
    (built : cbOnRxData frame pkt = some text) :
    ∃ value, text = setBinary (cString frame.nodeId.toList) value := by
  simp only [cbOnRxData, Option.bind_eq_bind] at built
  obtain ⟨read, ran, built⟩ := Option.bind_eq_some_iff.mp built
  split at built
  · obtain ⟨command, copied, same⟩ := Option.bind_eq_some_iff.mp built
    have whole := Option.some_inj.mp (strcpy_eq_some.mp copied)
    refine ⟨read.cmdOnOff, ?_⟩
    rw [← Option.some_inj.mp same, ← whole, readCommand_nodeId ran]
  · exact absurd built (by simp)

theorem cut_at_space {front : CStr} (clean : ' ' ∉ front) (rest : CStr) :
    (front ++ ' ' :: rest).takeWhile (fun c => !space c) = front := by
  apply takeWhile_run
  · intro c member
    have different : c ≠ ' ' := fun same => clean (same ▸ member)
    simpa [space] using different
  · rintro c ⟨⟩
    rfl

theorem setBinary_cut (nodeId : CStr) (value : Int) :
    setBinary nodeId value = "ubus call zwave set_binary '\x7b\"nodeid\": \"".toList ++
      ((nodeId ++ ['"', ',']) ++ ' ' ::
          ("\"value\":\"".toList ++ (intText value ++ "\"\x7d'".toList))) := by
  have middle : "\", \"value\":\"".toList = ['"', ','] ++ ' ' :: "\"value\":\"".toList := by decide
  unfold setBinary
  rw [middle]
  simp only [List.append_assoc, List.cons_append]

theorem setBinary_node_ne {node : CStr} (nonempty : node ≠ [])
    (clean : ' ' ∉ node) (left right : Int) :
    setBinary [] left ≠ setBinary node right := by
  intro same
  rw [setBinary_cut, setBinary_cut] at same
  have tails := List.append_cancel_left same
  have fronts := congrArg (List.takeWhile fun c => !space c) tails
  rw [cut_at_space (by decide), cut_at_space (by simp [clean])] at fronts
  exact nonempty (List.append_cancel_right fronts).symm

/-- The loop only ever moves the switch value. -/
theorem readCommand_value (frame : RxFrame) (tokens : List CStr) :
    ∃ value, readCommand 0 frame tokens = some { frame with cmdOnOff := value } ∧
      (value = frame.cmdOnOff ∨ value = 0 ∨ value = 1) := by
  induction tokens generalizing frame with
  | nil => exact ⟨frame.cmdOnOff, rfl, Or.inl rfl⟩
  | cons token rest ih =>
      rw [readCommand, if_neg (by decide), if_pos rfl]
      split
      · obtain ⟨value, ran, cases⟩ := ih { frame with cmdOnOff := 1 }
        exact ⟨value, ran, Or.inr (cases.elim Or.inr id)⟩
      · split
        · obtain ⟨value, ran, cases⟩ := ih { frame with cmdOnOff := 0 }
          exact ⟨value, ran, Or.inr (cases.elim Or.inl id)⟩
        · exact ih frame

def zeroFrame : RxFrame := ⟨Vector.replicate 100 '\x00', 0⟩

theorem zeroFrame_node : cString zeroFrame.nodeId.toList = [] := by
  rw [zeroFrame, Vector.toList_replicate, ← List.append_nil (List.replicate 100 '\x00')]
  exact cString_zeroes 99 []

theorem cbOnRxData_zeroFrame (pkt : CStr) :
    ∃ value, cbOnRxData zeroFrame pkt = some (setBinary [] value) := by
  obtain ⟨value, ran, cases⟩ := readCommand_value zeroFrame (strtokAll space (cString pkt))
  have terminated : '\x00' ∈ zeroFrame.nodeId.toList := by
    rw [zeroFrame, Vector.toList_replicate]
    exact List.mem_replicate.mpr ⟨by decide, rfl⟩
  have bit : value = 0 ∨ value = 1 := by
    rcases cases with same | same | same
    · exact Or.inl same
    · exact Or.inl same
    · exact Or.inr same
  have fits : (setBinary [] value).length < 256 := by
    rcases bit with rfl | rfl <;> decide
  refine ⟨value, ?_⟩
  rw [cbOnRxData, ran, Option.bind_eq_bind, Option.bind_some, if_pos terminated, zeroFrame_node,
    strcpy_of_fits fits]
  rfl

end Client

/-! Packets of a client that would read its tokens by their position. -/
section Decoding

/-- The packet asks for a value at a node; more tokens may follow. -/
def Asks (pkt node : CStr) (value : Int) : Prop :=
  ∃ word rest, strtokAll space (cString pkt) = word :: node :: rest ∧ node.length ≤ 99 ∧
    (word = "turnon".toList ∧ value = 1 ∨ word = "turnoff".toList ∧ value = 0)

/-- The command of a packet, whatever the locals held before: the requested one, or none. -/
structure Decodes (pkt : CStr) : Prop where
  built : ∀ node value, Asks pkt node value →
    ∀ frame, cbOnRxData frame pkt = some (setBinary node value)
  silent : (∀ node value, ¬ Asks pkt node value) → ∀ frame text, cbOnRxData frame pkt ≠ some text

theorem asks_node {pkt node : CStr} {value : Int} (asks : Asks pkt node value) :
    node ≠ [] ∧ ' ' ∉ node := by
  obtain ⟨word, rest, tokens, _⟩ := asks
  have member : node ∈ strtokAll space (cString pkt) := by simp [tokens]
  constructor
  · rintro rfl
    exact absurd (List.mem_filter.mp member).2 (by decide)
  · intro inside
    exact absurd (strtok_all_clean space member ' ' inside) (by decide)

/-- No packet is decoded: the command never has the packet's node id, and there always is one. -/
theorem packet_never_decoded (pkt : CStr) : ¬ Decodes pkt := by
  rintro ⟨built, silent⟩
  obtain ⟨left, made⟩ := cbOnRxData_zeroFrame pkt
  by_cases requested : ∃ node value, Asks pkt node value
  · obtain ⟨node, value, asks⟩ := requested
    obtain ⟨present, clean⟩ := asks_node asks
    have same := made.symm.trans (built node value asks zeroFrame)
    exact setBinary_node_ne present clean left value (Option.some_inj.mp same)
  · have unasked : ∀ node value, ¬ Asks pkt node value := fun node value asks =>
      requested ⟨node, value, asks⟩
    exact silent unasked zeroFrame _ made

def turnonSeven : CStr := "turnon 7".toList

/-- A well-formed packet becomes a command without node id. -/
theorem turnonSeven_lost : Asks turnonSeven "7".toList 1 ∧ ¬ Decodes turnonSeven := by
  have asks : Asks turnonSeven "7".toList 1 :=
    ⟨"turnon".toList, [], by decide, by decide, Or.inl ⟨rfl, rfl⟩⟩
  refine ⟨asks, ?_⟩
  rintro ⟨built, _⟩
  obtain ⟨left, made⟩ := cbOnRxData_zeroFrame turnonSeven
  have same := made.symm.trans (built _ _ asks zeroFrame)
  exact setBinary_node_ne (by decide) (by decide) left 1 (Option.some_inj.mp same)

end Decoding

/-! What the controller hands over for `device|node`. -/
section Packet
variable {natclient : NatClientT} {device node : CStr}

theorem pair_tokens (named : device ≠ []) (plainDevice : '|' ∉ device) (present : node ≠ [])
    (plainNode : '|' ∉ node) : strtokAll bar (device ++ '|' :: node) = [device, node] := by
  have deviceBars : ∀ c ∈ device, bar c = false := by
    intro c member
    simpa [bar] using fun same : c = '|' => plainDevice (same ▸ member)
  have nodeBars : ∀ c ∈ node, bar c = false := by
    intro c member
    simpa [bar] using fun same : c = '|' => plainNode (same ▸ member)
  rw [strtok_all_cons bar device node '|' named deviceBars rfl,
    strtok_all_single bar node present nodeBars]

theorem switchText_clean {usrid command : CStr} (usridClean : '\x00' ∉ usrid)
    (commandClean : '\x00' ∉ command) (nodeClean : '\x00' ∉ node) :
    '\x00' ∉ switchText usrid command node := by
  have literals : '\x00' ∉ "<NAT><deviceID>".toList ∧ '\x00' ∉ "</deviceID><command>".toList ∧
      '\x00' ∉ "</command><nodeID>".toList ∧ '\x00' ∉ "</nodeID></NAT>".toList := by decide
  obtain ⟨opening, middle, next, closing⟩ := literals
  unfold switchText
  repeat rw [List.mem_append]
  simp only [opening, usridClean, middle, commandClean, next, nodeClean, closing, or_self,
    not_false_eq_true]

theorem switch_hands (usrid : CharArray 256) (command device node : CStr)
    (short : command.length ≤ 7) (connected : Named natclient device) (long : 2 < device.length)
    (plainDevice : '|' ∉ device) (present : node ≠ []) (fits : node.length < 256)
    (plainNode : '|' ∉ node) (deviceClean : '\x00' ∉ device) (nodeClean : '\x00' ∉ node)
    (usridClean : '\x00' ∉ usrid.text) (commandClean : '\x00' ∉ command) (msg : MsgT) :
    ∃ result slot made, switchDevice command usrid.text (some msg)
      (device ++ '|' :: node) natclient =
        some result ∧ nameOf natclient slot = device ∧
      result.calls = [.sendData (Fin.val slot) 1 (switchText usrid.text command node) made] := by
  have deviceFits : device.length < 256 := by
    by_contra tooLong
    exact named_short (Nat.not_lt.mp tooLong) connected
  have tokens := pair_tokens (List.ne_nil_of_length_pos (by omega)) plainDevice present plainNode
  have first : firstToken (device ++ '|' :: node) = device := by rw [firstToken, tokens]; rfl
  have second : secondToken (device ++ '|' :: node) = node := by rw [secondToken, tokens]; rfl
  have xmlFits := switchText_fits usrid ⟨node, fits⟩ short
  let sent : MsgT := ⟨fill msg.username ⟨device, deviceFits⟩,
    fill msg.msg ⟨switchText usrid.text command node, xmlFits⟩⟩
  have name : sent.readUsername = device := readUsername_fill _ _ _ deviceClean
  have text : sent.readMsg = switchText usrid.text command node :=
    readMsg_fill _ _ _ (switchText_clean usridClean commandClean nodeClean)
  have ran : switchDevice command usrid.text (some msg) (device ++ '|' :: node) natclient =
      some { apiPeerSend sent natclient with value := 0 } := by
    simp only [switchDevice, readSwitch_spec, first, second, overwrite, if_pos long,
      copyInto_of_fits _ deviceFits, strcpy_of_fits fits, xmlMsg, strcpy_of_fits xmlFits,
      copyInto_of_fits msg.msg xmlFits, Option.bind_eq_bind, Option.bind_some, Option.map_some]
    rfl
  rcases send_calls natclient sent with ⟨slot, made, owner, calls⟩ | ⟨unnamed, _⟩
  · exact ⟨_, slot, made, ran, owner.trans name, text ▸ calls⟩
  · exact absurd (name ▸ connected) unnamed

end Packet

section Agreement

/-- For any heap and stack contents the bytes that the command hands over make the
client build the expected call. -/
def Agrees (api : CStr → Option MsgT → CStr → NatClientT → Option ApiResult) (usrid : CharArray 256)
    (natclient : NatClientT) (device node : CStr) (value : Int) : Prop :=
  ∀ msg frame, ∃ result slot data made,
    api usrid.text (some msg) (device ++ '|' :: node) natclient = some result ∧
      result.calls = [.sendData slot 1 data made] ∧
        cbOnRxData frame data = some (setBinary node value)

theorem never_agrees {api : CStr → Option MsgT → CStr → NatClientT → Option ApiResult}
    {usrid : CharArray 256} {natclient : NatClientT} {device node : CStr} {value : Int}
    (present : node ≠ []) (clean : ' ' ∉ node) :
    ¬ Agrees api usrid natclient device node value := by
  intro agrees
  -- An empty node id on the stack is enough to tell the two commands apart.
  obtain ⟨_, _, data, _, _, _, built⟩ := agrees .zero zeroFrame
  obtain ⟨left, same⟩ := cbOnRxData_nodeId built
  rw [zeroFrame_node] at same
  exact setBinary_node_ne present clean left value same.symm

/-- Neither switch command is understood, whoever the user, the device and the node. -/
theorem switch_never_agrees (usrid : CharArray 256) (natclient : NatClientT) (device node : CStr)
    (present : 1 ≤ node.length) (clean : ' ' ∉ node) :
    ¬ Agrees apiPeerTurnonDevice usrid natclient device node 1 ∧
      ¬ Agrees apiPeerTurnoffDevice usrid natclient device node 0 :=
  ⟨never_agrees (List.ne_nil_of_length_pos present) clean,
    never_agrees (List.ne_nil_of_length_pos present) clean⟩

theorem switch_never_agrees_lamp :
    ¬ Agrees apiPeerTurnonDevice phoneName phone "lamp".toList "7".toList 1 ∧
      ¬ Agrees apiPeerTurnoffDevice phoneName phone "lamp".toList "7".toList 0 :=
  switch_never_agrees phoneName phone "lamp".toList "7".toList (by decide) (by decide)

def connectLamp : List Command := [connectTo "lamp".toList]

theorem lamp_connected : ∃ natclient, Reached phoneName natclient ∧
    Named natclient "lamp".toList := by
  have first : (run (consoleStep phoneName) phone connectLamp).map
      (fun natclient => nameOf natclient 0) = some "lamp".toList := by decide +kernel
  obtain ⟨natclient, ran, name⟩ := Option.map_eq_some_iff.mp first
  exact ⟨natclient, ⟨1, _, _, _, _, connectLamp, ran⟩, 0, name⟩

/-- The message for the connected lamp is sent, and the client does not build its call. -/
theorem lamp_not_switched : ∃ natclient, Reached phoneName natclient ∧
    (∃ result slot made,
      apiPeerTurnonDevice "phone".toList (some .zero)
        ("lamp".toList ++ '|' :: "7".toList) natclient =
        some result ∧ nameOf natclient slot = "lamp".toList ∧
      result.calls =
        [.sendData slot.val 1 (switchText "phone".toList "turnon".toList "7".toList) made]) ∧
    ¬ Agrees apiPeerTurnonDevice phoneName natclient "lamp".toList "7".toList 1 := by
  obtain ⟨natclient, reached, connected⟩ := lamp_connected
  have handed := switch_hands phoneName "turnon".toList "lamp".toList "7".toList
    (by decide) connected (by decide) (by decide) (by decide) (by decide) (by decide) (by decide)
    (by decide) (by decide) (by decide) .zero
  exact ⟨natclient, reached, handed, never_agrees (by decide) (by decide)⟩

end Agreement

end NatClient.SwitchCommand
