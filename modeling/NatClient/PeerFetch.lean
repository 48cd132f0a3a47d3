import NatClient.SdpRoundTrip

/-!
`peer_get_dsp` of verikdemo.c, which asks the signalling server for a description
and saves it for `icedemo_input_remote2`. The reply is taken with one `read` into a
zeroed buffer and saved up to its terminator. No result stands for a text that does
not fit its array and for a buffer without terminator. The connection is up and the
peer file can be opened.
-/

namespace NatClient.PeerFetch

open CString CStdio IceTypes SdpReader SdpRoundTrip DescriptionRoundTrip

section Fetch

/-- A reply and how the connection cuts it; no piece is empty. -/
structure Arrival where
  segments : List (List Char)
  nonempty : [] ∉ segments

def Arrival.reply (arrival : Arrival) : List Char := arrival.segments.flatten

/-- One `read` takes what the first piece has, at the end of the stream nothing. -/
def Arrival.read (arrival : Arrival) (count : Nat) : List Char :=
  (arrival.segments.head?.getD []).take count

def requestText (usrId : CStr) : CStr :=
  "GET_".toList ++ decimal (usrId.length + "None".toList.length + 2) ++ "_".toList ++ usrId ++
    "_".toList ++ "None".toList ++ "\n".toList

def filePath (usrId : CStr) : CStr := "peer.".toList ++ usrId

/-- The loop that leaves the last line of the file in the global `sdp`. -/
def keepLine : CharArray 1024 → List CStr → Option (CharArray 1024)
  | sdp, [] => some sdp
  | sdp, usr :: rest =>
      -- `strncmp` sees five bytes, so the terminator has to follow the word.
      if usr = "ACK=".toList then keepLine sdp rest
      else do keepLine (← strcpy 1024 (some usr)) rest

structure Fetched where
  request : CharArray 1024
  path : CharArray 256
  peerFile : List Char
  sdp : CharArray 1024

def bufferText (buffer : Vector Char 1024) : Option CStr :=
  if '\x00' ∈ buffer.toList then some (cString buffer.toList) else none

def peerGetDsp (usrId : CStr) (sdp : CharArray 1024) (arrival : Arrival) : Option Fetched := do
  let request ← strcpy 1024 (some (requestText usrId))
  let buffer := overlay (Vector.replicate 1024 '\x00') (arrival.read 1024)
  let path ← strcpy 256 (some (filePath usrId))
  let peerFile ← bufferText buffer
  let sdp ← keepLine sdp (fgetsAll 255 255 peerFile)
  some ⟨request, path, peerFile, sdp⟩

end Fetch

section Whole
variable {usrId : CStr} {sdp : CharArray 1024} {arrival : Arrival}

/-- The file holds the whole reply, and the reader obtains what it says. -/
def SavesWhole (usrId : CStr) (sdp : CharArray 1024) (arrival : Arrival) : Prop :=
  ∃ fetched, peerGetDsp usrId sdp arrival = some fetched ∧ fetched.peerFile = arrival.reply ∧
    ∀ lib stack rem, icedemoInputRemote2 lib stack fetched.peerFile rem =
      icedemoInputRemote2 lib stack arrival.reply rem

theorem request_length (usrId : CStr) (short : usrId.length ≤ 255) :
    (requestText usrId).length < 1024 := by
  have get : "GET_".toList.length = 4 := by decide
  have bar : "_".toList.length = 1 := by decide
  have none : "None".toList.length = 4 := by decide
  have line : "\n".toList.length = 1 := by decide
  have bound : usrId.length + "None".toList.length + 2 < 10 ^ 3 := by omega
  have numeral := decimal_length_lt _ 3 (by decide) bound
  unfold requestText
  generalize decimal (usrId.length + "None".toList.length + 2) = length at numeral ⊢
  simp only [List.length_append, get, bar, none, line]
  omega

theorem filePath_fits : (filePath usrId).length < 256 ↔ usrId.length ≤ 250 := by
  have peer : "peer.".toList.length = 5 := by decide
  have whole : (filePath usrId).length = "peer.".toList.length + usrId.length := List.length_append
  omega

theorem keepLine_total {chunks : List CStr} (short : ∀ chunk ∈ chunks, chunk.length < 1024)
    (sdp : CharArray 1024) : ∃ kept, keepLine sdp chunks = some kept := by
  induction chunks generalizing sdp with
  | nil => exact ⟨sdp, rfl⟩
  | cons usr rest ih =>
      have later := ih fun chunk member => short chunk (List.mem_cons_of_mem usr member)
      rw [keepLine]
      split
      · exact later sdp
      · rw [strcpy_of_fits (short usr List.mem_cons_self)]
        exact later _

theorem buffer_read (arrival : Arrival) :
    (overlay (Vector.replicate 1024 '\x00') (arrival.read 1024)).toList =
      arrival.read 1024 ++ List.replicate (1024 - (arrival.read 1024).length) '\x00' := by
  have short : (arrival.read 1024).length ≤ 1024 := List.length_take_le _ _
  rw [overlay_toList _ short, Vector.toList_replicate, List.drop_replicate]

theorem bufferText_read (arrival : Arrival) :
    bufferText (overlay (Vector.replicate 1024 '\x00') (arrival.read 1024)) =
      if (arrival.read 1024).length < 1024 ∨ '\x00' ∈ arrival.read 1024
        then some (cString (arrival.read 1024)) else none := by
  rw [bufferText, buffer_read]
  by_cases room : (arrival.read 1024).length < 1024
  · have count :
        1024 - (arrival.read 1024).length = (1023 - (arrival.read 1024).length) + 1 := by omega
    have text :
        cString (arrival.read 1024 ++ List.replicate (1024 - (arrival.read 1024).length) '\x00') =
        cString (arrival.read 1024) := by
      rw [count, cString, cString, List.takeWhile_append]
      split
      · next all =>
          rw [List.replicate_succ, List.takeWhile_cons, if_neg (by decide), List.append_nil]
          exact ((List.takeWhile_prefix (· ≠ '\x00')).eq_of_length all).symm
      · rfl
    rw [text, if_pos (Or.inl room), if_pos (by simp [count])]
  · -- A full buffer: only a zero among the bytes ends the text.
    have full : 1024 - (arrival.read 1024).length = 0 := by omega
    rw [full, List.replicate_zero, List.append_nil]
    simp [room]

theorem read_whole (short : arrival.reply.length < 1024) :
    arrival.read 1024 = arrival.reply ↔ arrival.segments.length ≤ 1 := by
  obtain ⟨segments, nonempty⟩ := arrival
  cases segments with
  | nil => simp [Arrival.read, Arrival.reply]
  | cons first rest =>
      have whole : (Arrival.mk (first :: rest) nonempty).reply = first ++ rest.flatten := rfl
      rw [whole, List.length_append] at short
      have taken : (Arrival.mk (first :: rest) nonempty).read 1024 = first :=
        List.take_of_length_le (by simp; omega)
      rw [whole, taken, List.self_eq_append_right, List.flatten_eq_nil_iff]
      cases rest with
      | nil => simp
      | cons second others =>
          simp only [List.length_cons, List.forall_mem_cons]
          constructor
          · rintro ⟨rfl, _⟩
            exact absurd nonempty (by simp)
          · omega

theorem read_front (arrival : Arrival) : arrival.read 1024 <+: arrival.reply := by
  obtain ⟨segments, nonempty⟩ := arrival
  cases segments with
  | nil => exact List.nil_prefix
  | cons first rest =>
      exact (List.take_prefix 1024 first).trans (List.prefix_append first rest.flatten)

theorem peerGetDsp_fields {fetched : Fetched}
    (fetch : peerGetDsp usrId sdp arrival = some fetched) :
    (filePath usrId).length < 256 ∧
      bufferText (overlay (Vector.replicate 1024 '\x00') (arrival.read 1024)) =
          some fetched.peerFile := by
  simp only [peerGetDsp, Option.bind_eq_bind, Option.bind_eq_some_iff] at fetch
  obtain ⟨request, _, path, stored, peerFile, saved, kept, _, same⟩ := fetch
  cases same
  refine ⟨?_, saved⟩
  have same : filePath usrId = path.text := Option.some_inj.mp (strcpy_eq_some.mp stored)
  rw [same]
  exact path.fits

/-- With room for its terminator, the text of the first piece is saved. -/
theorem peerGetDsp_saves (sdp : CharArray 1024) (short : usrId.length ≤ 250)
    (room : (arrival.read 1024).length < 1024) :
    ∃ fetched, peerGetDsp usrId sdp arrival = some fetched ∧
      fetched.peerFile = cString (arrival.read 1024) := by
  have saved : bufferText (overlay (Vector.replicate 1024 '\x00') (arrival.read 1024)) =
      some (cString (arrival.read 1024)) := by
    rw [bufferText_read, if_pos (Or.inl room)]
  have chunks : ∀ chunk ∈ fgetsAll 255 255 (cString (arrival.read 1024)), chunk.length < 1024 := by
    intro chunk member
    have bound := fgetsAll_length (by decide) _ chunk member
    omega
  obtain ⟨kept, loop⟩ := keepLine_total chunks sdp
  have request := request_length usrId (Nat.le_trans short (by decide))
  refine ⟨⟨⟨_, request⟩, ⟨_, filePath_fits.mpr short⟩, cString (arrival.read 1024), kept⟩, ?_, rfl⟩
  simp only [peerGetDsp, strcpy_of_fits request,
    strcpy_of_fits (filePath_fits.mpr short), saved, loop, Option.bind_eq_bind, Option.bind_some]

/-- The description is saved as the server sent it exactly when the reply comes in one
piece that is a text with room for its terminator. -/
theorem saves_whole_iff (usrId : CStr) (sdp : CharArray 1024) (arrival : Arrival) :
    SavesWhole usrId sdp arrival ↔
      usrId.length ≤ 250 ∧ arrival.segments.length ≤ 1 ∧ arrival.reply.length < 1024 ∧
        '\x00' ∉ arrival.reply := by
  constructor
  · rintro ⟨fetched, fetch, same, _⟩
    obtain ⟨path, saved⟩ := peerGetDsp_fields fetch
    rw [bufferText_read, same] at saved
    split at saved
    · next room =>
        have text : cString (arrival.read 1024) = arrival.reply := Option.some_inj.mp saved
        have clean : '\x00' ∉ arrival.reply := by
          rw [← text]
          intro member
          exact absurd (List.mem_takeWhile_imp member) (by decide)
        -- What was read lies between what was saved and the reply.
        have whole : arrival.read 1024 = arrival.reply := by
          have least := (List.takeWhile_prefix (· ≠ '\x00') (l := arrival.read 1024)).length_le
          rw [← cString, text] at least
          exact (read_front arrival).eq_of_length_le least
        rw [whole] at room
        have short : arrival.reply.length < 1024 := room.resolve_right clean
        exact ⟨filePath_fits.mp path, (read_whole short).mp whole, short, clean⟩
    · exact absurd saved (by simp)
  · rintro ⟨short, single, room, text⟩
    have whole : arrival.read 1024 = arrival.reply := (read_whole room).mpr single
    have space : (arrival.read 1024).length < 1024 := whole ▸ room
    obtain ⟨fetched, fetch, saved⟩ := peerGetDsp_saves sdp short space
    rw [whole, cString_self.mpr text] at saved
    exact ⟨fetched, fetch, saved, fun lib stack rem => by rw [saved]⟩

def cutLamp : Arrival := ⟨[lampSdp.take 233, lampSdp.drop 233], by decide +kernel⟩

theorem cutLamp_reply : cutLamp.reply = lampSdp := by simp [Arrival.reply, cutLamp]

/-- What comes first is saved and accepted as a description with one candidate of two. -/
theorem cutLamp_loses_candidate :
    ¬ SavesWhole "lamp".toList .empty cutLamp ∧
      ((peerGetDsp "lamp".toList .empty cutLamp).bind fun fetched =>
        (icedemoInputRemote2 dottedLib
          (Vector.replicate 80 '\x00') fetched.peerFile resetRemInfo).map
          (·.candCnt)) = some 1 ∧
      (icedemoInputRemote2 dottedLib (Vector.replicate 80 '\x00') cutLamp.reply resetRemInfo).map
        (·.candCnt) = some 2 := by
  have first : ((peerGetDsp "lamp".toList .empty cutLamp).bind fun fetched =>
      (icedemoInputRemote2 dottedLib (Vector.replicate 80 '\x00') fetched.peerFile resetRemInfo).map
        (·.candCnt)) = some 1 := by
    obtain ⟨fetched, fetch, saved⟩ :=
      peerGetDsp_saves .empty (by decide : "lamp".toList.length ≤ 250)
      (by decide +kernel : (cutLamp.read 1024).length < 1024)
    rw [fetch, Option.bind_some, saved]
    decide +kernel
  have second : (icedemoInputRemote2 dottedLib (Vector.replicate 80 '\x00') cutLamp.reply
      resetRemInfo).map (·.candCnt) = some 2 := by
    rw [cutLamp_reply]
    decide +kernel
  refine ⟨?_, first, second⟩
  rintro ⟨fetched, fetch, _, same⟩
  rw [fetch, Option.bind_some, same, second] at first
  exact absurd first (by decide)

end Whole

end NatClient.PeerFetch
