import NatClient.CString
import NatClient.HeapBlocks

/-!
The packet callback of verikdemo.c. A packet is copied into a block of 128 zeroed bytes,
compared there as a string and written to the socket of the Z-Wave handler as one.
-/

namespace NatClient.ZwaveForward

open CString HeapBlocks

abbrev CHeap := Heap Char

def forwarded (cmd : CStr) : List Char :=
  if cmd = "turnon".toList then "032".toList
  else if cmd = "turnoff".toList then "042".toList
  else cmd

/-- The heap afterwards and what `send` was given. No result for a block that is written
past its end, or that `calloc` refused. -/
def cbOnRxData (heap : CHeap) (granted : Bool) (pkt : List Char) :
    Option (CHeap × List (List Char)) :=
  if granted then do
    let (heap, cmd) := heap.malloc 128 fun _ => '\x00'
    let heap ← heap.write cmd 0 pkt
    let heap ← heap.write cmd pkt.length ['\x00']
    let bytes ← heap.block cmd
    let heap ← heap.free cmd
    some (heap, [forwarded (cString bytes)])
  else none

section Copy
variable (heap : CHeap) {pkt : List Char}

theorem calloc_block :
    (heap.malloc 128 fun _ => '\x00').1.block (heap.malloc 128 fun _ => '\x00').2 =
      some (List.replicate 128 '\x00') := by
  rw [Heap.malloc_block, List.map_const', List.length_range]

theorem copy_front (fits : pkt.length ≤ 128) :
    ∃ copied, (heap.malloc 128 fun _ => '\x00').1.write (heap.malloc 128 fun _ => '\x00').2 0 pkt =
        some copied ∧ copied.block (heap.malloc 128 fun _ => '\x00').2 =
          some (pkt ++ List.replicate (128 - pkt.length) '\x00') := by
  have start : (heap.malloc 128 fun _ => '\x00').1.block (heap.malloc 128 fun _ => '\x00').2 =
      some ([] ++ List.replicate pkt.length '\x00' ++ List.replicate
          (128 - pkt.length) '\x00') := by
    rw [calloc_block, List.nil_append, List.replicate_append_replicate]
    congr 2
    omega
  have same : pkt.length = (List.replicate pkt.length '\x00').length := List.length_replicate.symm
  exact Heap.write_over start same

/-- A packet that leaves room for the terminator is read as the string it starts with. -/
theorem rx_short (short : pkt.length ≤ 127) :
    ∃ after, cbOnRxData heap true pkt = some (after, [forwarded (cString pkt)]) := by
  obtain ⟨copied, wrote, held⟩ := copy_front heap (Nat.le_succ_of_le short)
  obtain ⟨left, count⟩ : ∃ left, 128 - pkt.length = left + 1 := ⟨127 - pkt.length, by omega⟩
  have room : copied.block (heap.malloc 128 fun _ => '\x00').2 =
      some (pkt ++ ['\x00'] ++ List.replicate left '\x00') := by
    rw [held, count, List.replicate_succ, List.append_assoc, List.singleton_append]
  have one : ['\x00'].length = ['\x00'].length := rfl
  obtain ⟨ended, terminated, bytes⟩ := Heap.write_over room one
  obtain ⟨after, freed, _⟩ := Heap.free_live bytes
  have shown : cString (pkt ++ ['\x00'] ++ List.replicate left '\x00') = cString pkt := by
    rw [List.append_assoc, List.singleton_append, cString_behind]
  refine ⟨after, ?_⟩
  rw [cbOnRxData, if_pos rfl]
  simp only [wrote, terminated, bytes, freed, shown, Option.bind_eq_bind, Option.bind_some]

theorem rx_long (long : 128 ≤ pkt.length) : cbOnRxData heap true pkt = none := by
  rw [cbOnRxData, if_pos rfl]
  by_cases fits : pkt.length ≤ 128
  · obtain ⟨copied, wrote, held⟩ := copy_front heap fits
    have beyond : copied.write (heap.malloc 128 fun _ => '\x00').2 pkt.length ['\x00'] = none := by
      apply Heap.write_beyond held
      simp
      omega
    simp only [wrote, beyond, Option.bind_eq_bind, Option.bind_some, Option.bind_none]
  · have beyond : (heap.malloc 128 fun _ => '\x00').1.write
      (heap.malloc 128 fun _ => '\x00').2 0 pkt =
        none := by
      apply Heap.write_beyond (calloc_block heap)
      rw [List.length_replicate]
      omega
    simp only [beyond, Option.bind_eq_bind, Option.bind_none]

end Copy

section Claim

def meant (pkt : List Char) : List Char :=
  if pkt = "turnon".toList then "032".toList
  else if pkt = "turnoff".toList then "042".toList
  else pkt

/-- One message with what the packet means; a packet that does not fit may be refused. -/
def Forwards (heap : CHeap) (granted : Bool) (pkt : List Char) : Prop :=
  ∃ after messages, cbOnRxData heap granted pkt = some (after, messages) ∧
    (messages = [meant pkt] ∨ 128 ≤ pkt.length ∧ messages = [])

theorem forwarded_clean {pkt : List Char} (clean : '\x00' ∉ pkt) :
    forwarded (cString pkt) = meant pkt := by
  rw [cString_self.mpr clean, forwarded, meant]

theorem forwarded_broken {pkt : List Char} (broken : '\x00' ∈ pkt) :
    forwarded (cString pkt) ≠ meant pkt := by
  have whole : meant pkt = pkt := by
    have notOn : pkt ≠ "turnon".toList := fun same => absurd (same ▸ broken) (by decide)
    have notOff : pkt ≠ "turnoff".toList := fun same => absurd (same ▸ broken) (by decide)
    rw [meant, if_neg notOn, if_neg notOff]
  have front : '\x00' ∉ forwarded (cString pkt) := by
    unfold forwarded
    split
    · decide
    · split
      · decide
      · exact cString_clean pkt
  intro same
  exact front (by rw [same, whole]; exact broken)

theorem long_not_forwarded (heap : CHeap) {pkt : List Char} (long : 128 ≤ pkt.length) :
    ¬ Forwards heap true pkt := by
  rintro ⟨after, messages, ran, _⟩
  rw [rx_long heap long] at ran
  exact absurd ran (by simp)

theorem broken_not_forwarded (heap : CHeap) {pkt : List Char} (short : pkt.length ≤ 127)
    (broken : '\x00' ∈ pkt) : ¬ Forwards heap true pkt := by
  obtain ⟨after, ran⟩ := rx_short heap short
  rintro ⟨other, messages, again, told | ⟨long, _⟩⟩
  · rw [ran] at again
    cases again
    exact forwarded_broken broken (List.singleton_inj.mp told)
  · omega

/-- The callback forwards a packet faithfully exactly when it fits and has no zero byte. -/
theorem packet_forwarded_iff (heap : CHeap) (granted : Bool) (pkt : List Char) :
    Forwards heap granted pkt ↔ granted = true ∧ pkt.length ≤ 127 ∧ '\x00' ∉ pkt := by
  cases granted with
  | false =>
      refine iff_of_false ?_ (fun holds => absurd holds.1 Bool.false_ne_true)
      rintro ⟨after, messages, ran, _⟩
      exact absurd ran (by simp [cbOnRxData])
  | true =>
      rw [and_iff_right rfl]
      by_cases short : pkt.length ≤ 127
      · rw [and_iff_right short]
        constructor
        · exact fun forwards broken => broken_not_forwarded heap short broken forwards
        · intro clean
          obtain ⟨after, ran⟩ := rx_short heap short
          exact ⟨after, _, ran, Or.inl (by rw [forwarded_clean clean])⟩
      · exact iff_of_false (long_not_forwarded heap (Nat.not_le.mp short))
          (fun holds => short holds.1)

/-- A packet of 128 bytes overruns the block, and a zero byte turns a packet into another. -/
theorem packets_mistaken : ¬ Forwards Heap.empty true (List.replicate 128 'a') ∧
    ¬ Forwards Heap.empty true ("turnon".toList ++ ['\x00']) :=
  ⟨long_not_forwarded Heap.empty (Nat.le_of_eq List.length_replicate.symm),
    broken_not_forwarded Heap.empty (by decide) (by decide)⟩

end Claim

end NatClient.ZwaveForward
