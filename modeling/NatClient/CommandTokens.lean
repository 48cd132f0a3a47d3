import NatClient.Controller

/-!
The two token loops of the console, and the commands that come to an end: a copy of a
token overflows only where the token is as long as its array, and the messages always fit.
-/

namespace NatClient.CommandTokens

open CString Controller

/-! What the token loops leave in the record. -/
section Tokens

def firstToken (line : CStr) : CStr := ((strtokAll bar line)[0]?).getD []

def secondToken (line : CStr) : CStr := ((strtokAll bar line)[1]?).getD []

/-- A short token leaves the array as it was. -/
def overwrite {capacity : Nat} (old : Vector Char capacity) (token : CStr) :
    Option (Vector Char capacity) :=
  if 2 < token.length then copyInto old token else some old

section Overwrite
variable {capacity : Nat} (old : Vector Char capacity) {token : CStr}

theorem overwrite_long (long : 2 < token.length) (fits : token.length < capacity) :
    overwrite old token = some (fill old ⟨token, fits⟩) := by
  rw [overwrite, if_pos long, copyInto_of_fits old fits]

theorem overwrite_short (short : ¬ 2 < token.length) : overwrite old token = some old := by
  rw [overwrite, if_neg short]

theorem overwrite_fits (fits : token.length < capacity) :
    ∃ array, overwrite old token = some array := by
  by_cases long : 2 < token.length
  · exact ⟨_, overwrite_long old long fits⟩
  · exact ⟨old, overwrite_short old long⟩

theorem overwrite_overflows (long : 2 < token.length) (large : capacity ≤ token.length) :
    overwrite old token = none := by
  rw [overwrite, if_pos long, copyInto_long old large]

end Overwrite

theorem readSwitch_rest (username : Vector Char 256) (nodeId : CharArray 256) (index : Nat)
    (tokens : List CStr) :
    readSwitch username nodeId (index + 2) tokens = some (username, nodeId) := by
  induction tokens generalizing index with
  | nil => rfl
  | cons token rest ih =>
      rw [readSwitch, if_neg (by omega), if_neg (by omega)]
      exact ih (index + 1)

theorem readSend_rest (msg : MsgT) (index : Nat) (tokens : List CStr) :
    readSend msg (index + 2) tokens = some msg := by
  induction tokens generalizing index with
  | nil => rfl
  | cons token rest ih =>
      rw [readSend, if_neg (by omega), if_neg (by omega)]
      exact ih (index + 1)

theorem strcpy_nil : strcpy 256 (some []) = some .empty := rfl

theorem readSwitch_spec (username : Vector Char 256) (line : CStr) :
    readSwitch username .empty 0 (strtokAll bar line) =
      (overwrite username (firstToken line)).bind fun user =>
        (strcpy 256 (some (secondToken line))).map fun nodeId => (user, nodeId) := by
  rw [firstToken, secondToken]
  cases strtokAll bar line with
  | nil => rfl
  | cons first rest =>
      -- Behind the second token nothing is stored.
      have second (user : Vector Char 256) : readSwitch user .empty 1 rest =
          (strcpy 256 (some ((rest[0]?).getD []))).map fun nodeId => (user, nodeId) := by
        cases rest with
        | nil => rfl
        | cons token rest =>
            rw [readSwitch, if_neg (by omega)]
            simp only [List.getElem?_cons_zero, Option.getD_some, true_and]
            by_cases present : 1 ≤ token.length
            · rw [if_pos present, Option.bind_eq_bind, Option.map_eq_bind]
              simp only [readSwitch_rest user _ 0 rest, Function.comp_def]
            · rw [if_neg present, readSwitch_rest user _ 0 rest,
                List.length_eq_zero_iff.mp (by omega : token.length = 0), strcpy_nil,
                  Option.map_some]
      simp only [readSwitch, List.getElem?_cons_zero, List.getElem?_cons_succ, Option.getD_some,
        true_and, overwrite, Nat.zero_add]
      by_cases long : 2 < first.length
      · simp only [if_pos long, second, Option.bind_eq_bind]
      · simp [long, second]

theorem readSend_spec (msg : MsgT) (line : CStr) :
    readSend msg 0 (strtokAll bar line) =
      (overwrite msg.username (firstToken line)).bind fun user =>
        (overwrite msg.msg (secondToken line)).map fun text => ⟨user, text⟩ := by
  rw [firstToken, secondToken]
  cases strtokAll bar line with
  | nil => rfl
  | cons first rest =>
      have second (user : Vector Char 256) : readSend ⟨user, msg.msg⟩ 1 rest =
          (overwrite msg.msg ((rest[0]?).getD [])).map fun text => ⟨user, text⟩ := by
        cases rest with
        | nil => rfl
        | cons token rest =>
            rw [readSend, if_neg (by omega), overwrite]
            simp only [List.getElem?_cons_zero, Option.getD_some, true_and]
            by_cases long : 2 < token.length
            · rw [if_pos long, if_pos long, Option.bind_eq_bind, Option.map_eq_bind]
              simp only [readSend_rest _ 0 rest, Function.comp_def]
            · rw [if_neg long, if_neg long, readSend_rest _ 0 rest, Option.map_some]
      simp only [readSend, List.getElem?_cons_zero, List.getElem?_cons_succ, Option.getD_some,
        true_and, overwrite, Nat.zero_add]
      by_cases long : 2 < first.length
      · simp only [if_pos long, second, Option.bind_eq_bind, overwrite]
      · simpa [long, overwrite] using second msg.username

theorem token_sublist (line : CStr) (index : Nat) :
    (((strtokAll bar line)[index]?).getD []).Sublist line := by
  cases found : (strtokAll bar line)[index]? with
  | none => exact List.nil_sublist line
  | some token => exact strtok_all_sublist bar (List.mem_of_getElem? found)

theorem firstToken_sublist (line : CStr) : (firstToken line).Sublist line := token_sublist line 0

theorem secondToken_sublist (line : CStr) : (secondToken line).Sublist line := token_sublist line 1

theorem firstToken_clean {line : CStr} (clean : '\x00' ∉ line) : '\x00' ∉ firstToken line :=
  fun inside =>
  clean ((firstToken_sublist line).mem inside)

theorem secondToken_clean {line : CStr} (clean : '\x00' ∉ line) : '\x00' ∉ secondToken line :=
  fun inside =>
  clean ((secondToken_sublist line).mem inside)

theorem secondToken_fits {line : CStr} (short : line.length < 1024) :
    (secondToken line).length < 1024 :=
  Nat.lt_of_le_of_lt (secondToken_sublist line).length_le short

end Tokens

/-! The messages always fit, whoever the user and whatever the node. -/
section Texts

theorem addDeviceText_fits (usrid : CharArray 256) : (addDeviceText usrid.text).length < 1024 := by
  have opening : "<NAT><deviceID>".toList.length = 15 := by decide
  have closing : "</deviceID><command>add_device</command></NAT>".toList.length = 46 := by decide
  have bound := usrid.fits
  unfold addDeviceText
  rw [List.length_append, List.length_append, opening, closing]
  omega

theorem switchText_fits (usrid nodeId : CharArray 256) {command : CStr}
    (short : command.length ≤ 7) :
    (switchText usrid.text command nodeId.text).length < 1024 := by
  have opening : "<NAT><deviceID>".toList.length = 15 := by decide
  have middle : "</deviceID><command>".toList.length = 20 := by decide
  have next : "</command><nodeID>".toList.length = 18 := by decide
  have closing : "</nodeID></NAT>".toList.length = 15 := by decide
  have usridBound := usrid.fits
  have nodeBound := nodeId.fits
  unfold switchText
  repeat rw [List.length_append]
  rw [opening, middle, next, closing]
  omega

end Texts

/-! Which lines the commands get through. -/
section Results
variable {usrid : CharArray 256} {natclient : NatClientT} {line : CStr}

theorem switch_result_iff {command : CStr} (short : command.length ≤ 7) (heap : Option MsgT) :
    (∃ result, switchDevice command usrid.text heap line natclient = some result) ↔
      (heap.isSome = true → (firstToken line).length < 256 ∧ (secondToken line).length < 256) := by
  cases heap with
  | none => exact iff_of_true ⟨_, rfl⟩ fun impossible => absurd impossible Bool.false_ne_true
  | some msg =>
      simp only [switchDevice, readSwitch_spec, Option.bind_eq_bind, Option.isSome_some,
        forall_const]
      by_cases nodeFits : (secondToken line).length < 256
      · have xmlFits := switchText_fits usrid ⟨secondToken line, nodeFits⟩ short
        by_cases fits : (firstToken line).length < 256
        · obtain ⟨username, kept⟩ := overwrite_fits msg.username fits
          simp [kept, strcpy_of_fits nodeFits, xmlMsg, strcpy_of_fits xmlFits,
            copyInto_of_fits msg.msg xmlFits, fits, nodeFits]
        · have overflow := overwrite_overflows msg.username (by omega) (Nat.not_lt.mp fits)
          simp [overflow, fits]
      · simp [strcpy_of_long (Nat.not_lt.mp nodeFits), nodeFits]

theorem send_result_iff (short : line.length < 1024) :
    (∃ result, sendLine line natclient = some result) ↔ (firstToken line).length < 256 := by
  obtain ⟨text, second⟩ := overwrite_fits MsgT.zero.msg (secondToken_fits short)
  by_cases fits : (firstToken line).length < 256
  · obtain ⟨username, first⟩ := overwrite_fits MsgT.zero.username fits
    refine iff_of_true ?_ fits
    simp only [sendLine, readSend_spec, first, second, Option.bind_eq_bind, Option.bind_some,
      Option.map_some]
    split
    · exact ⟨_, rfl⟩
    · exact ⟨_, rfl⟩
  · have overflow := overwrite_overflows MsgT.zero.username (by omega) (Nat.not_lt.mp fits)
    simp [sendLine, readSend_spec, overflow, fits]

theorem add_result (heap : Option MsgT) (short : line.length < 256) :
    ∃ result, apiPeerAddDevice usrid.text heap line natclient = some result := by
  have xmlFits := addDeviceText_fits usrid
  cases heap with
  | none => simp [apiPeerAddDevice, xmlMsg, strcpy_of_fits xmlFits]
  | some msg =>
      simp [apiPeerAddDevice, xmlMsg, strcpy_of_fits xmlFits, copyInto_of_fits msg.username short,
        copyInto_of_fits msg.msg xmlFits]

end Results

end NatClient.CommandTokens
