import NatClient.SwitchCommand

/-!
How a typed `device|payload` becomes a message. The three commands cut what arrives of the
line with `strtok`, which skips empty fields and stops at a second bar, and keep a token by its
length alone; what the record holds is passed to `api_peer_send`.
-/

namespace NatClient.MessageSplit

open LineInput (Input arrives Whole)
open CString IceWrapper Controller CommandTokens SessionTable CommandRouting SwitchCommand

/-- The three commands, with what the allocator returns: zeroed bytes for the send
command, arbitrary ones for the other two. -/
inductive LineCommand where
  | send (allocated : Bool)
  | turnon (heap : Option MsgT)
  | turnoff (heap : Option MsgT)

def LineCommand.typed : LineCommand → Input 1024 → Command
  | .send allocated, line => .send allocated line
  | .turnon heap, line => .turnon heap line
  | .turnoff heap, line => .turnoff heap line

/-- The records that reach `api_peer_send`; no result when a copy overflows its array. -/
def sendPasses (line : CStr) : Option (List MsgT) := do
  let msg ← readSend .zero 0 (strtokAll bar line)
  if 1 < msg.readMsg.length ∧ 2 < msg.readUsername.length then some [msg] else some []

def switchPasses (command usrid : CStr) (line : CStr) (msg : MsgT) : Option (List MsgT) := do
  let (username, nodeId) ← readSwitch msg.username .empty 0 (strtokAll bar line)
  let xml ← xmlMsg (switchText usrid command nodeId.text)
  let text ← copyInto msg.msg xml.text
  some [⟨username, text⟩]

def passes (usrid : CStr) (line : CStr) : LineCommand → Option (List MsgT)
  | .send allocated => if allocated then sendPasses line else some []
  | .turnon heap => heap.elim (some []) (switchPasses "turnon".toList usrid line)
  | .turnoff heap => heap.elim (some []) (switchPasses "turnoff".toList usrid line)

def handOver : NatClientT → List MsgT → NatClientT × List ApiCall
  | natclient, [] => (natclient, [])
  | natclient, msg :: rest =>
      let sent := apiPeerSend msg natclient
      let later := handOver sent.natclient rest
      (later.1, sent.calls ++ later.2)

theorem handOver_single (natclient : NatClientT) (msg : MsgT) :
    handOver natclient
        [msg] = ((apiPeerSend msg natclient).natclient, (apiPeerSend msg natclient).calls) := by
  simp [handOver]

theorem send_step (line : CStr) (natclient : NatClientT) :
    (sendLine line natclient).map (fun result => (result.natclient, result.calls)) =
      (sendPasses line).map (handOver natclient) := by
  unfold sendLine sendPasses
  cases readSend .zero 0 (strtokAll bar line) with
  | none => rfl
  | some msg =>
      simp only [Option.bind_eq_bind, Option.bind_some]
      split
      · rw [Option.map_some, Option.map_some, handOver_single]
      · rfl

theorem switch_step (command usrid line : CStr) (heap : Option MsgT) (natclient : NatClientT) :
    (switchDevice command usrid heap line natclient).map
      (fun result => (result.natclient, result.calls)) =
      (heap.elim (some []) (switchPasses command usrid line)).map (handOver natclient) := by
  cases heap with
  | none => rfl
  | some msg =>
      rw [switchDevice, Option.elim_some, switchPasses]
      rcases readSwitch msg.username .empty 0 (strtokAll bar line) with _ | ⟨username, nodeId⟩
      · rfl
      · simp only [Option.bind_eq_bind, Option.bind_some]
        cases xmlMsg (switchText usrid command nodeId.text) with
        | none => rfl
        | some xml =>
            simp only [Option.bind_some]
            cases copyInto msg.msg xml.text with
            | none => rfl
            | some text => rw [Option.bind_some, Option.bind_some, Option.map_some,
                Option.map_some, handOver_single]

/-- A turn of the console does what the messages ask for and nothing else. -/
theorem step_passes (usrid : CharArray 256) (natclient : NatClientT) (kind : LineCommand)
    {input : Input 1024} {text : CStr} (read : input.string = some text) :
    consoleStep usrid natclient (kind.typed input) =
      (passes usrid.text text kind).map (handOver natclient) := by
  cases kind with
  | send allocated =>
      cases allocated with
      | false => rfl
      | true =>
          simp only [consoleStep, LineCommand.typed, natclientConsole, read, ↓reduceIte,
            Option.bind_eq_bind, Option.bind_some]
          exact send_step text natclient
  | turnon heap =>
      simp only [consoleStep, LineCommand.typed, natclientConsole, read, Option.bind_eq_bind,
        Option.bind_some]
      exact switch_step _ _ _ heap natclient
  | turnoff heap =>
      simp only [consoleStep, LineCommand.typed, natclientConsole, read, Option.bind_eq_bind,
        Option.bind_some]
      exact switch_step _ _ _ heap natclient

/-! The line as it is meant, and as `strtok` cuts it. -/
section Fields

def payload (line : CStr) : CStr := (line.dropWhile fun c => !bar c).tail

variable {line : CStr}

theorem line_cases (line : CStr) : line = deviceField line ++ '|' :: payload line ∨
    line = deviceField line ∧ payload line = [] := by
  have whole : deviceField line ++ line.dropWhile (fun c => !bar c) = line :=
    List.takeWhile_append_dropWhile
  rw [payload]
  cases behind : line.dropWhile (fun c => !bar c) with
  | nil =>
      rw [behind, List.append_nil] at whole
      exact Or.inr ⟨whole.symm, rfl⟩
  | cons c rest =>
      have cut : bar c = true := by
        have kept := List.head?_dropWhile_not (fun c => !bar c) line
        simpa [behind] using kept
      have separator : c = '|' := of_decide_eq_true cut
      rw [behind, separator] at whole
      exact Or.inl whole.symm

theorem field_clean (line : CStr) : ∀ c ∈ deviceField line, bar c = false := by
  intro c member
  simpa using List.mem_takeWhile_imp member

theorem tokens_of_field (named : deviceField line ≠ []) :
    strtokAll bar line = deviceField line :: strtokAll bar (payload line) := by
  have clean := field_clean line
  rcases line_cases line with whole | ⟨whole, empty⟩
  · conv_lhs => rw [whole]
    exact strtok_all_cons bar _ _ '|' named clean rfl
  · rw [empty]
    conv_lhs => rw [whole]
    exact strtok_all_single bar _ named clean

theorem first_of_field (named : deviceField line ≠ []) : firstToken line = deviceField line := by
  rw [firstToken, tokens_of_field named]
  rfl

theorem second_of_field (named : deviceField line ≠ []) :
    secondToken line = firstToken (payload line) := by
  rw [secondToken, tokens_of_field named, firstToken]
  rfl

theorem second_le (named : deviceField line ≠ []) :
    (secondToken line).length ≤ (payload line).length := by
  rw [second_of_field named]
  exact (firstToken_sublist _).length_le

theorem token_clean (line : CStr) : '|' ∉ firstToken line := by
  intro member
  rw [firstToken] at member
  cases found : (strtokAll bar line)[0]? with
  | none => exact absurd member (by simp [found])
  | some token =>
      rw [found, Option.getD_some] at member
      exact absurd (strtok_all_clean bar (List.mem_of_getElem? found) '|' member) (by decide)

theorem payload_token_iff (present : payload line ≠ []) :
    firstToken (payload line) = payload line ↔ '|' ∉ payload line := by
  constructor
  · intro same
    exact same ▸ token_clean (payload line)
  · intro plain
    have clean : ∀ c ∈ payload line, bar c = false := by
      intro c member
      simpa [bar] using fun same : c = '|' => plain (same ▸ member)
    rw [firstToken, strtok_all_single bar _ present clean]
    rfl

theorem payload_of_append {front : CStr} (clean : ∀ c ∈ front, bar c = false) (rest : CStr) :
    payload (front ++ '|' :: rest) = rest := by
  have cut : (front ++ '|' :: rest).dropWhile (fun c => !bar c) = '|' :: rest := by
    apply dropWhile_run
    · exact fun c member => by simp [clean c member]
    · rintro c ⟨⟩
      rfl
  rw [payload, cut, List.tail_cons]

/-- A second token in front of a line stands behind the device of the line, and what is
missing of the line is missing of its payload. -/
theorem front_tokens {text : CStr} (arrived : text <+: line) (named : deviceField line ≠ [])
    (second : secondToken text ≠ []) : firstToken text = deviceField line ∧
      (secondToken text).length + line.length ≤ (payload line).length + text.length := by
  obtain ⟨rest, rfl⟩ := arrived
  rcases line_cases text with whole | ⟨whole, empty⟩
  -- The bar arrived, so the device is whole and only the payload may be cut.
  · have split : text ++ rest = deviceField text ++ '|' :: (payload text ++ rest) := by
      conv_lhs => rw [whole]
      rw [List.append_assoc, List.cons_append]
    have field : deviceField (text ++ rest) = deviceField text := by
      rw [split]
      exact field_of_append (field_clean text) (Or.inr rfl)
    have behind : payload (text ++ rest) = payload text ++ rest := by
      conv_lhs => rw [split]
      exact payload_of_append (field_clean text) _
    rw [field] at named
    have bound := second_le named
    rw [field, behind, List.length_append, List.length_append]
    exact ⟨first_of_field named, by omega⟩
  -- Without a bar there is one token only.
  · by_cases present : deviceField text = []
    · rw [present] at whole
      rw [whole] at second
      exact absurd rfl second
    · have bound := second_le present
      rw [empty, List.length_nil] at bound
      exact absurd (List.length_eq_zero_iff.mp (Nat.le_zero.mp bound)) second

theorem second_whole {text : CStr} (arrived : text <+: line) (named : deviceField line ≠ [])
    (present : payload line ≠ []) (same : secondToken text = payload line) : text = line := by
  obtain ⟨_, bound⟩ := front_tokens arrived named (same ▸ present)
  rw [same] at bound
  exact arrived.eq_of_length_le (by omega)

theorem head_of_field (unnamed : deviceField line = []) : line = [] ∨ line.head? = some '|' := by
  by_cases leading : line.head? = some '|'
  · exact Or.inr leading
  · cases line with
    | nil => exact Or.inl rfl
    | cons c rest =>
        have front : bar c = false := by simpa [bar] using leading
        exact absurd unnamed (by simp [deviceField, front])

end Fields

/-! What the record holds when it is passed on. -/
section Records
variable {line : CStr}

theorem sendPasses_both (clean : '\x00' ∉ line) (short : line.length < 1024)
    (first : 2 < (firstToken line).length) (fits : (firstToken line).length < 256)
    (second : 2 < (secondToken line).length) :
    ∃ msg, sendPasses line = some [msg] ∧ msg.readUsername = firstToken line ∧
      msg.readMsg = secondToken line := by
  have textFits := secondToken_fits short
  have name := readUsername_fill MsgT.zero.username ⟨firstToken line, fits⟩
    (fill MsgT.zero.msg ⟨secondToken line, textFits⟩) (firstToken_clean clean)
  have text := readMsg_fill (fill MsgT.zero.username ⟨firstToken line, fits⟩) MsgT.zero.msg
    ⟨secondToken line, textFits⟩ (secondToken_clean clean)
  refine ⟨_, ?_, name, text⟩
  rw [sendPasses, readSend_spec, overwrite_long _ first fits, overwrite_long _ second textFits]
  simp only [Option.bind_some, Option.map_some, Option.bind_eq_bind, name, text]
  rw [if_pos ⟨Nat.lt_of_succ_lt second, first⟩]

theorem sendPasses_unfilled (short : line.length < 1024) (fits : (firstToken line).length < 256)
    (unfilled : ¬ (2 < (firstToken line).length ∧ 2 < (secondToken line).length)) :
    sendPasses line = some [] := by
  rw [sendPasses, readSend_spec]
  by_cases first : 2 < (firstToken line).length
  · have second : ¬ 2 < (secondToken line).length := fun second => unfilled ⟨first, second⟩
    rw [overwrite_long _ first fits, overwrite_short _ second]
    simp only [Option.bind_some, Option.map_some, Option.bind_eq_bind, readMsg_zero]
    rw [if_neg (by simp)]
  · obtain ⟨text, second⟩ := overwrite_fits MsgT.zero.msg (secondToken_fits short)
    rw [overwrite_short _ first, second]
    simp only [Option.bind_some, Option.map_some, Option.bind_eq_bind, readUsername_zero]
    rw [if_neg (by simp)]

theorem sendPasses_long (long : 256 ≤ (firstToken line).length) : sendPasses line = none := by
  rw [sendPasses, readSend_spec, overwrite_overflows _ (by omega) long]
  rfl

variable {usrid : CharArray 256} {command : CStr}

theorem switchPasses_some (brief : command.length ≤ 7) (msg : MsgT) (clean : '\x00' ∉ line)
    (usridClean : '\x00' ∉ usrid.text) (commandClean : '\x00' ∉ command)
    (first : 2 < (firstToken line).length) (fits : (firstToken line).length < 256)
    (nodeFits : (secondToken line).length < 256) :
    ∃ passed, switchPasses command usrid.text line msg = some [passed] ∧
      passed.readUsername = firstToken line ∧
      passed.readMsg = switchText usrid.text command (secondToken line) := by
  have xmlFits := switchText_fits usrid ⟨secondToken line, nodeFits⟩ brief
  have textClean := switchText_clean usridClean commandClean (secondToken_clean clean)
  refine ⟨⟨fill msg.username ⟨firstToken line, fits⟩,
    fill msg.msg ⟨switchText usrid.text command (secondToken line), xmlFits⟩⟩, ?_, ?_, ?_⟩
  · rw [switchPasses, readSwitch_spec, overwrite_long _ first fits, strcpy_of_fits nodeFits]
    simp only [xmlMsg, strcpy_of_fits xmlFits, copyInto_of_fits msg.msg xmlFits, Option.bind_some,
      Option.map_some, Option.bind_eq_bind]
  · exact readUsername_fill _ _ _ (firstToken_clean clean)
  · exact readMsg_fill _ _ _ textClean

theorem switchPasses_msg (brief : command.length ≤ 7) {msg passed : MsgT} (clean : '\x00' ∉ line)
    (usridClean : '\x00' ∉ usrid.text) (commandClean : '\x00' ∉ command)
    (ran : switchPasses command usrid.text line msg = some [passed]) :
    passed.readMsg = switchText usrid.text command (secondToken line) := by
  rw [switchPasses, readSwitch_spec] at ran
  cases kept : overwrite msg.username (firstToken line) with
  | none => simp [kept] at ran
  | some username =>
      by_cases nodeFits : (secondToken line).length < 256
      · have xmlFits := switchText_fits usrid ⟨secondToken line, nodeFits⟩ brief
        simp only [kept, strcpy_of_fits nodeFits, xmlMsg, strcpy_of_fits xmlFits,
          copyInto_of_fits msg.msg xmlFits, Option.bind_some, Option.map_some, Option.bind_eq_bind,
          Option.some_inj, List.cons.injEq, and_true] at ran
        rw [← ran]
        exact readMsg_fill _ _ _
          (switchText_clean usridClean commandClean (secondToken_clean clean))
      · simp [kept, strcpy_of_long (Nat.not_lt.mp nodeFits)] at ran

theorem switchPasses_not_silent (command usrid : CStr) (msg : MsgT) :
    switchPasses command usrid line msg ≠ some [] := by
  intro silent
  rw [switchPasses, Option.bind_eq_bind, Option.bind_eq_some_iff] at silent
  obtain ⟨⟨username, nodeId⟩, _, silent⟩ := silent
  simp only [Option.bind_eq_bind, Option.bind_eq_some_iff] at silent
  obtain ⟨xml, _, text, _, silent⟩ := silent
  exact absurd silent (by simp)

theorem switchText_node {usrid command node other : CStr}
    (same : switchText usrid command node = switchText usrid command other) : node = other := by
  unfold switchText at same
  exact List.append_cancel_left (List.append_cancel_right same)

end Records

/-! What is asked of a command, and the lines on which it holds. -/
section Typed

def CommandTakes : LineCommand → CStr → Prop
  | .send _, content => 3 ≤ content.length
  | .turnon _, content => 1 ≤ content.length ∧ content.length ≤ 255
  | .turnoff _, content => 1 ≤ content.length ∧ content.length ≤ 255

def Valid (kind : LineCommand) (line : CStr) : Prop :=
  3 ≤ (deviceField line).length ∧ (deviceField line).length ≤ 255 ∧ CommandTakes kind (payload line)

def content (usrid payload : CStr) : LineCommand → CStr
  | .send _ => payload
  | .turnon _ => switchText usrid "turnon".toList payload
  | .turnoff _ => switchText usrid "turnoff".toList payload

/-- One message with what was typed for a valid line, none for any other. -/
structure SendsTyped (usrid line : CStr) (kind : LineCommand) : Prop where
  valid : Valid kind line → ∃ msg, passes usrid (arrives 1024 line) kind = some [msg] ∧
    msg.readUsername = deviceField line ∧ msg.readMsg = content usrid (payload line) kind
  other : ¬ Valid kind line → passes usrid (arrives 1024 line) kind = some []

/-- The first token that arrives fits the name, a valid line arrives whole and has no second
bar, and a line that starts with a bar does not go on with two tokens of three characters or
more. -/
def SendFine (line : CStr) (kind : LineCommand) : Prop :=
  (firstToken (arrives 1024 line)).length ≤ 255 ∧
    (Valid kind line → Whole 1024 line ∧ '|' ∉ payload line) ∧
    (line.head? = some '|' → ¬ (3 ≤ (firstToken (arrives 1024 line)).length ∧
      3 ≤ (secondToken (arrives 1024 line)).length))

def SwitchFine (line : CStr) (kind : LineCommand) : Prop :=
  Valid kind line ∧ Whole 1024 line ∧ '|' ∉ payload line

def SplitFine (line : CStr) : LineCommand → Prop
  | .send allocated => if allocated then SendFine line (.send allocated)
      else ¬ Valid (.send allocated) line
  | .turnon heap => if heap.isSome then SwitchFine line (.turnon heap)
      else ¬ Valid (.turnon heap) line
  | .turnoff heap => if heap.isSome then SwitchFine line (.turnoff heap)
      else ¬ Valid (.turnoff heap) line

variable {usrid : CharArray 256} {line : CStr} {kind : LineCommand}

theorem valid_named (valid : Valid kind line) : deviceField line ≠ [] :=
  List.ne_nil_of_length_pos (by have := valid.1; omega)

theorem valid_present (valid : Valid kind line) : payload line ≠ [] := by
  have fits := valid.2.2
  apply List.ne_nil_of_length_pos
  cases kind with
  | send _ => exact Nat.lt_of_lt_of_le (by decide) fits
  | turnon _ => exact fits.1
  | turnoff _ => exact fits.1

theorem refused_iff {usrid : CStr} (silent : passes usrid (arrives 1024 line) kind = some []) :
    SendsTyped usrid line kind ↔ ¬ Valid kind line := by
  constructor
  · rintro ⟨valid, _⟩ holds
    obtain ⟨msg, passed, _⟩ := valid holds
    exact absurd (silent.symm.trans passed) (by simp)
  · intro other
    exact ⟨fun holds => absurd holds other, fun _ => silent⟩

/-- The token behind the device is the payload of a valid line without a second bar. -/
theorem second_payload_iff (valid : Valid kind line) :
    secondToken line = payload line ↔ '|' ∉ payload line := by
  rw [second_of_field (valid_named valid), payload_token_iff (valid_present valid)]

theorem send_typed_iff (plain : '\n' ∉ line) :
    SendsTyped usrid.text line (.send true) ↔ SendFine line (.send true) := by
  have run :
    passes usrid.text (arrives 1024 line) (.send true) = sendPasses (arrives 1024 line) := rfl
  have arrived := LineInput.arrives_prefix 1024 line
  have clean := LineInput.arrives_clean 1024 line
  have short := arrives_line line
  by_cases fits : (firstToken (arrives 1024 line)).length < 256
  · by_cases valid : Valid (.send true) line
    · have leading : line.head? ≠ some '|' := fun bar => valid_named valid (field_of_bar bar)
      constructor
      · rintro ⟨typed, _⟩
        obtain ⟨msg, passed, _, text⟩ := typed valid
        refine ⟨Nat.le_of_lt_succ fits, fun _ => ?_, fun bar => absurd bar leading⟩
        by_cases both : 2 < (firstToken (arrives 1024 line)).length ∧
            2 < (secondToken (arrives 1024 line)).length
        · obtain ⟨other, sent, _, held⟩ := sendPasses_both clean short both.1 fits both.2
          obtain rfl : other = msg := by simpa using sent.symm.trans passed
          have second := held.symm.trans text
          -- The payload ends with the line, so all of the line has arrived.
          have whole := second_whole arrived (valid_named valid) (valid_present valid) second
          rw [whole] at second
          exact ⟨(LineInput.arrives_self_iff plain).mp whole, (second_payload_iff valid).mp second⟩
        · have silent := sendPasses_unfilled short fits both
          exact absurd (silent.symm.trans passed) (by simp)
      · rintro ⟨_, fine, _⟩
        obtain ⟨whole, single⟩ := fine valid
        have same := (LineInput.arrives_self_iff plain).mpr whole
        have device := first_of_field (valid_named valid)
        have second := (second_payload_iff valid).mpr single
        have long : 2 < (secondToken line).length := second ▸ valid.2.2
        rw [same] at clean short fits
        obtain ⟨msg, sent, name, text⟩ := sendPasses_both clean short (device ▸ valid.1) fits long
        refine ⟨fun _ => ⟨msg, ?_, name.trans device, text.trans second⟩,
          fun invalid => absurd valid invalid⟩
        rw [run, same, sent]
    · by_cases both : 2 < (firstToken (arrives 1024 line)).length ∧
          2 < (secondToken (arrives 1024 line)).length
      · obtain ⟨msg, sent, _⟩ := sendPasses_both clean short both.1 fits both.2
        refine iff_of_false (fun typed => ?_) (fun fine => ?_)
        · exact absurd (sent.symm.trans (run.symm.trans (typed.other valid))) (by simp)
        · by_cases named : deviceField line = []
          · rcases head_of_field named with rfl | bar
            · exact absurd both.1 (by decide)
            · exact fine.2.2 bar both
          · -- Behind a device the second token is no longer than the payload.
            have second : secondToken (arrives 1024 line) ≠ [] :=
              List.ne_nil_of_length_pos (by omega)
            obtain ⟨first, bound⟩ := front_tokens arrived named second
            have shorter := arrived.length_le
            exact valid ⟨first ▸ both.1, first ▸ fine.1, Nat.le_trans both.2 (by omega)⟩
      · have silent := sendPasses_unfilled short fits both
        exact iff_of_true ⟨fun holds => absurd holds valid, fun _ => run.trans silent⟩
          ⟨Nat.le_of_lt_succ fits, fun holds => absurd holds valid, fun _ => both⟩
  -- A name of more than 255 characters runs past its array.
  · have overflow := sendPasses_long (Nat.not_lt.mp fits)
    refine iff_of_false (fun typed => ?_) (fun fine => fits (Nat.lt_succ_of_le fine.1))
    by_cases valid : Valid (.send true) line
    · obtain ⟨msg, passed, _⟩ := typed.valid valid
      exact absurd (overflow.symm.trans passed) (by simp)
    · exact absurd (overflow.symm.trans (typed.other valid)) (by simp)

theorem switch_typed_iff {command : CStr} (brief : command.length ≤ 7)
    (commandClean : '\x00' ∉ command) (msg : MsgT)
    (run : passes usrid.text (arrives 1024 line) kind =
      switchPasses command usrid.text (arrives 1024 line) msg)
    (text : content usrid.text (payload line) kind = switchText usrid.text command (payload line))
    (node : CommandTakes kind (payload line) → (payload line).length ≤ 255)
    (plain : '\n' ∉ line) (usridClean : '\x00' ∉ usrid.text) :
    SendsTyped usrid.text line kind ↔ SwitchFine line kind := by
  have arrived := LineInput.arrives_prefix 1024 line
  have clean := LineInput.arrives_clean 1024 line
  by_cases valid : Valid kind line
  · rw [SwitchFine, and_iff_right valid, ← second_payload_iff valid,
      ← LineInput.arrives_self_iff plain]
    constructor
    · rintro ⟨typed, _⟩
      obtain ⟨other, handed, _, held⟩ := typed valid
      have shown := switchPasses_msg brief clean usridClean commandClean (run.symm.trans handed)
      have second := switchText_node (shown.symm.trans (held.trans text))
      have whole := second_whole arrived (valid_named valid) (valid_present valid) second
      rw [whole] at second
      exact ⟨whole, second⟩
    · rintro ⟨whole, second⟩
      have device := first_of_field (valid_named valid)
      have fits : (firstToken line).length < 256 := Nat.lt_succ_of_le (device ▸ valid.2.1)
      have nodeFits : (secondToken line).length < 256 :=
        Nat.lt_succ_of_le (second ▸ node valid.2.2)
      rw [whole] at clean
      obtain ⟨passed, sent, name, held⟩ :=
        switchPasses_some brief msg clean usridClean commandClean (device ▸ valid.1) fits nodeFits
      refine ⟨fun _ => ⟨passed, ?_, name.trans device, ?_⟩, fun invalid => absurd valid invalid⟩
      · rw [run, whole, sent]
      · rw [held, text, second]
  -- No other line comes back without a message.
  · refine iff_of_false (fun typed => ?_) (fun fine => valid fine.1)
    exact switchPasses_not_silent command usrid.text msg (run.symm.trans (typed.other valid))

end Typed

section Claim
variable {usrid : CharArray 256} {line : CStr}

theorem typed_iff_fine (kind : LineCommand) (plain : '\n' ∉ line)
    (usridClean : '\x00' ∉ usrid.text) :
    SendsTyped usrid.text line kind ↔ SplitFine line kind := by
  cases kind with
  | send allocated =>
      cases allocated with
      | false => exact refused_iff rfl
      | true => exact send_typed_iff plain
  | turnon heap =>
      cases heap with
      | none => exact refused_iff rfl
      | some msg =>
          exact switch_typed_iff (by decide) (by decide) msg rfl rfl
            (fun takes => takes.2) plain usridClean
  | turnoff heap =>
      cases heap with
      | none => exact refused_iff rfl
      | some msg =>
          exact switch_typed_iff (by decide) (by decide) msg rfl rfl
            (fun takes => takes.2) plain usridClean

/-- The console acts by the messages passed on, and these are the typed ones on exactly
the fine lines. -/
theorem line_split_iff (natclient : NatClientT) (kind : LineCommand) {input : Input 1024}
    (types : Types (kind.typed input) line) (usridClean : '\x00' ∉ usrid.text) :
    consoleStep usrid natclient (kind.typed input) =
        (passes usrid.text (arrives 1024 line) kind).map (handOver natclient) ∧
      (SendsTyped usrid.text line kind ↔ SplitFine line kind) := by
  have stream : ∃ later, input.stream = LineInput.typed line later := by
    cases kind <;> exact types.2
  exact ⟨step_passes usrid natclient kind (string_of_types (by decide) types.1 stream),
    typed_iff_fine kind types.1 usridClean⟩

theorem line_split_iff_hello :
    consoleStep phoneName phone
      ((LineCommand.send true).typed (typedInput 1024 "lamp|hello".toList)) =
        (passes phoneName.text (arrives 1024 "lamp|hello".toList) (.send true)).map
          (handOver phone) ∧
      (SendsTyped phoneName.text "lamp|hello".toList (.send true) ↔
        SplitFine "lamp|hello".toList (.send true)) :=
  line_split_iff phone (.send true) ⟨by decide, [], rfl⟩ (by decide)

/-- A second bar cuts the message short, a 0x10 at its end is lost, and a device of two
characters is replaced by whatever the heap left in the record. -/
theorem second_bar_cuts :
    ¬ SendsTyped phoneName.text "abc|hello|x".toList (.send true) ∧
      ¬ SendsTyped phoneName.text "abc|hello\x10".toList (.send true) ∧
      ¬ SendsTyped phoneName.text "ab|7".toList (.turnon (some .zero)) := by
  refine ⟨?_, ?_, ?_⟩
  · rw [send_typed_iff (by decide)]
    rintro ⟨_, fine, _⟩
    have valid : Valid (.send true) "abc|hello|x".toList := by
      refine ⟨by decide, by decide, ?_⟩
      change 3 ≤ (payload "abc|hello|x".toList).length
      decide
    exact (fine valid).2 (by decide)
  · rw [send_typed_iff (by decide)]
    rintro ⟨_, fine, _⟩
    have valid : Valid (.send true) "abc|hello\x10".toList := by
      refine ⟨by decide, by decide, ?_⟩
      change 3 ≤ (payload "abc|hello\x10".toList).length
      decide
    exact (fine valid).1.2.2 ⟨'\x10', by decide, by decide⟩
  · rintro ⟨_, other⟩
    have invalid : ¬ Valid (.turnon (some .zero)) "ab|7".toList := fun valid =>
      absurd valid.1 (by decide)
    exact switchPasses_not_silent _ _ .zero (other invalid)

end Claim

end NatClient.MessageSplit
