import NatClient.SessionTable

/-!
Which slot a typed command reaches. The device is the text before the first bar,
or the whole line for `add`; the code takes the first token of what arrives of the line
instead, keeps it only from three characters on, and otherwise looks up whatever the
record holds.
-/

namespace NatClient.CommandRouting

open LineInput (arrives dropped EndsIn Whole)
open CString IceTypes XmlDecoder IceWrapper Runs Controller CommandTokens SessionTable

/-! What a filled record holds. -/
section Records

theorem readUsername_fill (old : Vector Char 256) (name : CharArray 256) (msg : Vector Char 1024)
    (clean : '\x00' ∉ name.text) : (MsgT.mk (fill old name) msg).readUsername = name.text := by
  rw [MsgT.readUsername, fill_toList, List.append_assoc, List.cons_append]
  exact cString_terminated _ _ clean

theorem readMsg_fill (username : Vector Char 256) (old : Vector Char 1024) (text : CharArray 1024)
    (clean : '\x00' ∉ text.text) : (MsgT.mk username (fill old text)).readMsg = text.text := by
  rw [MsgT.readMsg, fill_toList]
  exact cString_terminated _ _ clean

theorem readUsername_zero (msg : Vector Char 1024) :
    (MsgT.mk MsgT.zero.username msg).readUsername = [] := by
  simp only [MsgT.readUsername, MsgT.zero, Vector.toList_replicate]
  exact cString_zeroes 255 _

theorem readMsg_zero (username : Vector Char 256) :
    (MsgT.mk username MsgT.zero.msg).readMsg = [] := by
  simp only [MsgT.readMsg, MsgT.zero, Vector.toList_replicate]
  rw [← List.append_nil (List.replicate 1024 '\x00')]
  exact cString_zeroes 1023 []

theorem named_short {natclient : NatClientT} {name : CStr} (long : 256 ≤ name.length) :
    ¬ Named natclient name := by
  rintro ⟨slot, rfl⟩
  exact Nat.not_lt.mpr long natclient.iceTransList[slot].name.fits

end Records

/-! The device that a line names, and a command that stays with it. -/
section Property

def deviceField (line : CStr) : CStr := line.takeWhile fun c => !bar c

end Property

/-! Looking the name of a record up. -/
section Lookup
variable {natclient : NatClientT} {device : CStr}

theorem send_calls (natclient : NatClientT) (msg : MsgT) :
    (∃ slot made, nameOf natclient slot = msg.readUsername ∧
      (apiPeerSend msg natclient).calls = [.sendData (Fin.val slot) 1 msg.readMsg made]) ∨
      ¬ Named natclient msg.readUsername ∧ (apiPeerSend msg natclient).calls = [] := by
  by_cases named : Named natclient msg.readUsername
  · have inside := lookup_lt_iff.mpr named
    have sent : ∃ made, (apiPeerSend msg natclient).calls =
        [.sendData
            (getIceTranFromName natclient.iceTransList msg.readUsername) 1 msg.readMsg made] := by
      rw [apiPeerSend, dif_pos inside]
      exact ⟨_, rfl⟩
    obtain ⟨made, sent⟩ := sent
    exact Or.inl ⟨⟨_, inside⟩, made, ((lookup_eq_iff ⟨_, inside⟩).mp rfl).1, sent⟩
  · have outside := fun inside => named (lookup_lt_iff.mp inside)
    exact Or.inr ⟨named, by rw [apiPeerSend, dif_neg outside]⟩

end Lookup

/-! The first token against the device field. -/
section Fields
variable {natclient : NatClientT} {line : CStr}

theorem field_of_bar (leading : line.head? = some '|') : deviceField line = [] := by
  cases line with
  | nil => rfl
  | cons c rest =>
      cases leading
      rfl

theorem field_of_append {front rest : CStr} (clean : ∀ c ∈ front, bar c = false)
    (cut : rest = [] ∨ rest.head? = some '|') : deviceField (front ++ rest) = front := by
  apply takeWhile_run
  · exact fun c member => by simp [clean c member]
  · intro c first
    rcases cut with rfl | leading
    · exact absurd first (by simp)
    · rw [leading] at first
      cases first
      rfl

end Fields

/-! The four commands. -/
section Commands
variable {usrid : CharArray 256} {natclient : NatClientT}

end Commands

section Claim

end Claim

end NatClient.CommandRouting
