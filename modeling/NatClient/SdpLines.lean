import NatClient.SdpReader
import NatClient.SdpText
import NatClient.DescriptionRoundTrip

/-!
How `icedemo_input_remote2` reads one line of the text of `encode_session`. A line
that fits the buffer replaces what an earlier one left, so it is read by itself,
and what it does to the state does not depend on the buffer.
-/

namespace NatClient.SdpLines

open CString CStdio IceTypes BoundedPrint SessionPrinting XmlDecoder DescriptionReading
  DescriptionRoundTrip SdpText SdpReader

/-! The buffer after a line has been loaded. -/
section Buffer

def Holds (buf : LineBuf) (text : CStr) : Prop := ∃ stale, buf.toList = text ++ '\x00' :: stale

def lineChar (c : Char) : Bool := c ≠ '\x00' && c ≠ '\n' && c ≠ '\r'

/-- A line that is looked at and is not skipped. -/
structure PlainLine (text : CStr) : Prop where
  chars : ∀ c ∈ text, lineChar c = true
  short : text.length ≤ 78
  first : ∃ c, text.head? = some c ∧ isSpace c = false ∧ c ≠ 'A'

variable {buf : LineBuf} {text : CStr}

theorem lineChar_iff {c : Char} : lineChar c = true ↔ c ≠ '\x00' ∧ c ≠ '\n' ∧ c ≠ '\r' := by
  simp [lineChar, and_assoc]

theorem no_terminator (chars : ∀ c ∈ text, lineChar c = true) : '\x00' ∉ text := fun member =>
  (lineChar_iff.mp (chars _ member)).1 rfl

theorem textAt_holds (holds : Holds buf text) (clean : '\x00' ∉ text) {offset : Nat}
    (inside : offset ≤ text.length) : textAt buf offset = .ok (text.drop offset) := by
  obtain ⟨stale, whole⟩ := holds
  have rest : buf.toList.drop offset = text.drop offset ++ '\x00' :: stale := by
    rw [whole, List.drop_append_of_le_length inside]
  have restClean : '\x00' ∉ text.drop offset := fun member => clean (List.mem_of_mem_drop member)
  rw [textAt, rest, if_pos (by simp), cString_terminated _ _ restClean]

theorem holds_getElem (holds : Holds buf text) {index : Nat} (inside : index < text.length) :
    buf[index]? = text[index]? := by
  obtain ⟨stale, whole⟩ := holds
  rw [← Vector.getElem?_toList, whole, List.getElem?_append_left inside]

theorem textAt_behind {front value : CStr} {delim : Char}
    (holds : Holds buf (front ++ delim :: value)) (clean : '\x00' ∉ value) :
    textAt (buf.setIfInBounds front.length '\x00') (front.length + 1) = .ok value := by
  obtain ⟨stale, whole⟩ := holds
  have after : (buf.setIfInBounds front.length '\x00').toList =
      front ++ '\x00' :: (value ++ '\x00' :: stale) := by
    rw [Vector.toList_setIfInBounds, whole, List.append_assoc,
      List.set_append_right _ _ (Nat.le_refl _),
      Nat.sub_self]
    rfl
  have rest : (buf.setIfInBounds front.length '\x00').toList.drop (front.length + 1) =
      value ++ '\x00' :: stale := by
    rw [after, ← List.drop_drop, List.drop_left]
    rfl
  rw [textAt, rest, if_pos (by simp), cString_terminated _ _ clean]

theorem trimEnd_line {stale : CStr} (whole : buf.toList = text ++ '\n' :: stale)
    (chars : ∀ c ∈ text, lineChar c = true) (nonempty : text ≠ []) :
    ∃ buf', trimEnd buf (text.length + 1) = (buf', text.length) ∧
      buf'.toList = text ++ '\x00' :: stale := by
  have here : buf[text.length]? = some '\n' := by
    rw [← Vector.getElem?_toList, whole, List.getElem?_append_right (Nat.le_refl _), Nat.sub_self]
    rfl
  have after : (buf.setIfInBounds text.length '\x00').toList = text ++ '\x00' :: stale := by
    rw [Vector.toList_setIfInBounds, whole, List.set_append_right _ _ (Nat.le_refl _), Nat.sub_self]
    rfl
  refine ⟨_, ?_, after⟩
  rw [trimEnd, if_pos (Or.inr here)]
  have holds : Holds (buf.setIfInBounds text.length '\x00') text := ⟨stale, after⟩
  cases length : text.length with
  | zero => exact absurd (List.length_eq_zero_iff.mp length) nonempty
  | succ len =>
      have inside : len < text.length := by omega
      have last := holds_getElem holds inside
      rw [List.getElem?_eq_getElem inside, length] at last
      obtain ⟨_, notLine, notReturn⟩ := lineChar_iff.mp (chars _ (List.getElem_mem inside))
      rw [trimEnd, last, if_neg (by simp [notLine, notReturn])]

theorem skipLead_visible (holds : Holds buf text) {c : Char} (first : text.head? = some c)
    (visible : isSpace c = false) : skipLead buf 0 text.length = (0, text.length) := by
  cases text with
  | nil => exact absurd first (by simp)
  | cons front rest =>
      have here := holds_getElem holds (Nat.zero_lt_succ rest.length)
      have same : front = c := Option.some_inj.mp first
      rw [List.length_cons, skipLead, here, List.getElem?_cons_zero, same, Option.any_some, visible]
      rfl

theorem readLine_plain (lib : SockaddrLib) (plain : PlainLine text) (buf : LineBuf) {r : Reader}
    (media : r.mediaCnt ≤ 1) :
    ∃ buf', Holds buf' text ∧ readLine lib buf (terminated text) r =
      (readCase lib buf' 0 r).map fun read => (true, read) := by
  obtain ⟨c, first, visible, notAck⟩ := plain.first
  have nonempty : text ≠ [] := by
    rintro rfl
    exact absurd first (by simp)
  have short := plain.short
  have loaded : (overlay buf (terminated text ++ ['\x00'])).toList =
      text ++ '\n' :: '\x00' :: buf.toList.drop (text.length + 2) := by
    rw [overlay_toList buf (by simp [terminated]; omega)]
    simp [terminated]
  have clean : '\x00' ∉ terminated text := by
    simp [terminated, no_terminator plain.chars]
  have length :
      (cString (overlay buf (terminated text ++ ['\x00'])).toList).length = text.length + 1 := by
    have shape : text ++ '\n' :: '\x00' :: buf.toList.drop (text.length + 2) =
        terminated text ++ '\x00' :: buf.toList.drop (text.length + 2) := by simp [terminated]
    rw [loaded, shape, cString_terminated _ _ clean]
    simp [terminated]
  -- Behind an acknowledgement the turn would end here.
  have other : (overlay buf (terminated text ++ ['\x00'])).toList.take 4 ≠ "ACK:".toList := by
    intro same
    have fronts := congrArg List.head? same
    rw [loaded, List.head?_take, if_neg (by decide), List.head?_append, first] at fronts
    exact notAck (Option.some_inj.mp fronts)
  obtain ⟨buf', trimmed, whole⟩ := trimEnd_line loaded plain.chars nonempty
  have holds : Holds buf' text := ⟨_, whole⟩
  refine ⟨buf', holds, ?_⟩
  rw [readLine, if_neg other, length, trimmed]
  simp only [skipLead_visible holds first visible, List.length_eq_zero_iff, nonempty, ↓reduceIte,
    Nat.not_lt.mpr media]
  rfl

end Buffer

/-! What reading some lines does to the state, whatever the buffer held before. -/
section Rules
variable {lib : SockaddrLib} {r r' : Reader}

def Reads (lib : SockaddrLib) (lines : List CStr) (r r' : Reader) : Prop :=
  ∀ buf rest, ∃ buf',
    readLines lib (lines.map terminated ++ rest) buf r = readLines lib rest buf' r'

theorem reads_nil (r : Reader) : Reads lib [] r r := fun buf _ => ⟨buf, rfl⟩

theorem reads_append {first second : List CStr} {middle : Reader} (head : Reads lib first r middle)
    (tail : Reads lib second middle r') : Reads lib (first ++ second) r r' := by
  intro buf rest
  obtain ⟨buf1, front⟩ := head buf (second.map terminated ++ rest)
  obtain ⟨buf2, back⟩ := tail buf1 rest
  exact ⟨buf2, by rw [List.map_append, List.append_assoc, front, back]⟩

theorem reads_cons {line : CStr} {lines : List CStr} {middle : Reader}
    (head : Reads lib [line] r middle)
    (tail : Reads lib lines middle r') : Reads lib (line :: lines) r r' := by
  have whole := reads_append head tail
  rwa [List.singleton_append] at whole

theorem reads_all {lines : List CStr} (each : ∀ line ∈ lines, Reads lib [line] r r) :
    Reads lib lines r r := by
  induction lines with
  | nil => exact reads_nil r
  | cons line lines ih =>
      exact reads_cons (each line List.mem_cons_self)
        (ih fun other member => each other (List.mem_cons_of_mem line member))

theorem reads_turn {line : CStr}
    (turn : ∀ buf, ∃ buf', readLine lib buf (terminated line) r = .ok (true, buf', r')) :
    Reads lib [line] r r' := by
  intro buf rest
  obtain ⟨buf', read⟩ := turn buf
  refine ⟨buf', ?_⟩
  rw [List.map_singleton, List.singleton_append, readLines, read]
  rfl

theorem reads_plain {text : CStr} (plain : PlainLine text) (media : r.mediaCnt ≤ 1)
    (read : ∀ buf, Holds buf text → ∃ buf', readCase lib buf 0 r = .ok (buf', r')) :
    Reads lib [text] r r' := by
  apply reads_turn
  intro buf
  obtain ⟨loaded, holds, turned⟩ := readLine_plain lib plain buf media
  obtain ⟨buf', done⟩ := read loaded holds
  exact ⟨buf', by rw [turned, done]; rfl⟩

theorem reads_ack {line : CStr} (ack : line.take 4 = "ACK:".toList) (short : line.length ≤ 78) :
    Reads lib [line] r r := by
  apply reads_turn
  intro buf
  have long : 4 ≤ line.length := by
    have length := congrArg List.length ack
    have four : "ACK:".toList.length = 4 := by decide
    rw [List.length_take, four] at length
    omega
  have loaded : (overlay buf (terminated line ++ ['\x00'])).toList =
      line ++ '\n' :: '\x00' :: buf.toList.drop (line.length + 2) := by
    rw [overlay_toList buf (by simp [terminated]; omega)]
    simp [terminated]
  have skipped : (overlay buf (terminated line ++ ['\x00'])).toList.take 4 = "ACK:".toList := by
    rw [loaded, List.take_append_of_le_length long, ack]
  exact ⟨overlay buf (terminated line ++ ['\x00']), by rw [readLine, if_pos skipped]⟩

theorem reads_other {text : CStr} (plain : PlainLine text) (media : r.mediaCnt ≤ 1) {c : Char}
    (first : text.head? = some c) (notM : c ≠ 'm') (notC : c ≠ 'c') (notA : c ≠ 'a') :
    Reads lib [text] r r := by
  apply reads_plain plain media
  intro buf holds
  have nonempty : 0 < text.length := by
    cases text with
    | nil => exact absurd first (by simp)
    | cons front rest => exact Nat.zero_lt_succ _
  have here :
    buf[0]? = some c := by rw [holds_getElem holds nonempty, ← List.head?_eq_getElem?, first]
  refine ⟨buf, ?_⟩
  rw [readCase, here]
  split
  · next same => exact absurd (Option.some_inj.mp same) notM
  · next same => exact absurd (Option.some_inj.mp same) notC
  · next same => exact absurd (Option.some_inj.mp same) notA
  · rfl

def inert (line : CStr) : Bool :=
  line.all lineChar && decide (line.length ≤ 78) &&
    line.head?.any fun c => !isSpace c && decide (c ∉ ['A', 'm', 'c', 'a'])

theorem reads_inert {line : CStr} (passed : inert line = true) (media : r.mediaCnt ≤ 1) :
    Reads lib [line] r r := by
  simp only [inert, Bool.and_eq_true, decide_eq_true_eq, Option.any_eq_true] at passed
  obtain ⟨⟨chars, short⟩, c, first, visible, letter⟩ := passed
  have visible : isSpace c = false := by simpa using visible
  have letters : c ≠ 'A' ∧ c ≠ 'm' ∧ c ≠ 'c' ∧ c ≠ 'a' := by simpa using letter
  obtain ⟨notAck, notM, notC, notA⟩ := letters
  exact reads_other
    ⟨List.all_eq_true.mp chars, short, c, first, visible, notAck⟩ media first notM notC notA

theorem reads_attribute {name value : CStr}
    (plain : PlainLine ('a' :: '=' :: (name ++ ':' :: value)))
    (media : r.mediaCnt ≤ 1) (named : name ≠ []) (token : ∀ c ∈ name, isDelim c = false)
    {rem : RemInfo} (applied : applyAttribute lib name (.ok value) r.st.rem = .ok rem) :
    Reads lib ['a' :: '=' :: (name ++ ':' :: value)] r
        { r with st := { r.st with rem := rem } } := by
  apply reads_plain plain media
  intro buf holds
  have clean := no_terminator plain.chars
  have here : buf[0]? = some 'a' := holds_getElem holds (Nat.zero_lt_succ _)
  have text : textAt buf (0 + 2) = .ok (name ++ ':' :: value) :=
    textAt_holds holds clean (by simp)
  have nameAll : ∀ c ∈ name, (!isDelim c) = true := fun c member => by rw [token c member]; rfl
  have lead : (name ++ ':' :: value).takeWhile isDelim = [] := by
    cases name with
    | nil => exact absurd rfl named
    | cons c rest => simp [token c List.mem_cons_self]
  have attr : (name ++ ':' :: value).takeWhile (fun c => !isDelim c) = name := by
    apply takeWhile_run _ _ _ nameAll
    rintro c ⟨⟩
    rfl
  -- The colon becomes a terminator, and the value starts right behind it.
  have behind : textAt (buf.setIfInBounds (2 + name.length) '\x00')
      (2 + name.length + 1) = .ok value := by
    have position : 2 + name.length = ('a' :: '=' :: name).length := by
      simp only [List.length_cons]
      omega
    have split : Holds buf (('a' :: '=' :: name) ++ ':' :: value) := holds
    rw [position]
    exact textAt_behind split fun member => clean (by simp [member])
  refine ⟨buf.setIfInBounds (2 + name.length) '\x00', ?_⟩
  rw [readCase, here]
  simp only [readAttribute, text, bind, Except.bind, lead, List.length_nil, List.drop_zero, attr,
    Nat.zero_add, Nat.add_zero, named, ↓reduceIte, behind, applied]

theorem reads_media {value media portstr : CStr} (plain : PlainLine ('m' :: '=' :: value))
    (first : r.mediaCnt = 0)
    (scanned : sscanf mediaFormat value = some [.text media, .text portstr]) :
    Reads lib ['m' :: '=' :: value] r
        ⟨1, { r.st with comp0Port := toUnsigned (atoi portstr) }⟩ := by
  apply reads_plain plain (by omega)
  intro buf holds
  have here : buf[0]? = some 'm' := holds_getElem holds (Nat.zero_lt_succ _)
  have text : textAt buf (0 + 2) = .ok value :=
    textAt_holds holds (no_terminator plain.chars) (by simp)
  refine ⟨buf, ?_⟩
  rw [readCase, here]
  simp only [readMedia, first, text, bind, Except.bind, scanned, orAbort]
  rfl

theorem reads_connection {value net ip : CStr} {c : CStr} (plain : PlainLine ('c' :: '=' :: value))
    (media : r.mediaCnt ≤ 1)
    (scanned : sscanf connectionFormat value = some [.text c, .text net, .text ip])
    (fits : ip.length < 80) :
    Reads lib ['c' :: '=' :: value] r { r with st := { r.st with comp0Addr := ⟨ip, fits⟩ } } := by
  apply reads_plain plain media
  intro buf holds
  have here : buf[0]? = some 'c' := holds_getElem holds (Nat.zero_lt_succ _)
  have text : textAt buf (0 + 2) = .ok value :=
    textAt_holds holds (no_terminator plain.chars) (by simp)
  refine ⟨buf, ?_⟩
  rw [readCase, here]
  simp only [readConnection, text, bind, Except.bind, scanned, orAbort, strcpy_of_fits fits]

end Rules

/-! Scanning what the encoder prints. -/
section Scans
variable {lib : SockaddrLib}

theorem addrChar_visible {c : Char} (numeric : addrChar c = true) : isSpace c = false := by
  by_contra space
  simp only [isSpace, Bool.or_eq_true, decide_eq_true_eq, Bool.not_eq_false] at space
  rcases space with ((((rfl | rfl) | rfl) | rfl) | rfl) | rfl <;> revert numeric <;> decide

theorem print_visible (numeric : lib.Numeric) (ip : IpAddr) :
    ∀ c ∈ lib.print ip, isSpace c = false :=
  fun c member => addrChar_visible (numeric.chars ip c member)

theorem port_length (addr : PjSockaddr) : (decimal addr.port.toNat).length ≤ 5 :=
  decimal_length_lt _ 5 (by decide) (Nat.lt_of_lt_of_le addr.port.isLt (by decide))

theorem word_visible {word : CStr} (all : word.all (fun c => !isSpace c) = true) :
    ∀ c ∈ word, isSpace c = false := fun c member => by simpa using List.all_eq_true.mp all c member

theorem word_front {word : CStr} (all : word.all (fun c => !isSpace c) = true) (present : word ≠ [])
    (tail : CStr) : ∀ c, (word ++ tail).head? = some c → isSpace c = false :=
  visible_front present (word_visible all) tail

theorem print_front (numeric : lib.Numeric) (ip : IpAddr) (tail : CStr) :
    ∀ c, (lib.print ip ++ tail).head? = some c → isSpace c = false :=
  visible_front (numeric.nonempty ip) (print_visible numeric ip) tail

theorem decimal_front (value : Nat) (tail : CStr) :
    ∀ c, (decimal value ++ tail).head? = some c → isSpace c = false :=
  visible_front (decimal_ne_nil value) (decimal_visible value) tail

def mediaValue (addr : PjSockaddr) : CStr :=
  "audio".toList ++ ' ' :: (decimal addr.port.toNat ++ ' ' :: "RTP/AVP 0".toList)

def connectionValue (lib : SockaddrLib) (addr : PjSockaddr) : CStr :=
  "IN".toList ++ ' ' :: ("IP4".toList ++ ' ' :: lib.print addr.ip)

def portValue (lib : SockaddrLib) (addr : Option PjSockaddr) : CStr :=
  decimal (pjSockaddrGetPort addr) ++ ' ' :: ("IN".toList ++ ' ' ::
    ("IP4".toList ++ ' ' :: pjSockaddrPrint lib addr))

def candValue (lib : SockaddrLib) (cand : IceSessCand) (addr : PjSockaddr) : CStr :=
  cand.foundation ++ ' ' :: (decimal cand.compId.toNat ++ ' ' :: ("UDP".toList ++ ' ' ::
    (decimal cand.prio.toNat ++ ' ' ::
      (lib.print addr.ip ++ ' ' :: (decimal addr.port.toNat ++ ' ' ::
      ("typ".toList ++ ' ' :: pjIceGetCandTypeName cand.type))))))

theorem scan_media (addr : PjSockaddr) :
    sscanf mediaFormat (mediaValue addr) = some
        [.text "audio".toList, .text (decimal addr.port.toNat)] := by
  have protocol : "RTP/AVP 0".toList = 'R' :: 'T' :: 'P' :: '/' :: "AVP 0".toList := by decide
  have front : ∀ c, "RTP/AVP 0".toList.head? = some c → isSpace c = false := by
    rw [protocol]
    rintro c ⟨⟩
    rfl
  have short := port_length addr
  rw [mediaFormat, mediaValue, sscanf_word _ (by decide) (word_visible (by decide))
    (by decide) (decimal_front _ _),
    sscanf_word _ (decimal_ne_nil _) (decimal_visible _) (by omega) front, protocol,
    sscanf_literal, sscanf_literal, sscanf_literal, sscanf_literal, sscanf]
  rfl

theorem scan_connection (numeric : lib.Numeric) (addr : PjSockaddr) :
    sscanf connectionFormat (connectionValue lib addr) =
      some [.text "IN".toList, .text "IP4".toList, .text (lib.print addr.ip)] := by
  have short : (lib.print addr.ip).length < 80 := Nat.lt_trans (numeric.short addr.ip) (by decide)
  rw [connectionFormat, connectionValue,
    sscanf_word _ (by decide) (word_visible (by decide)) (by decide)
      (word_front (by decide) (by decide) _),
    sscanf_word _ (by decide) (word_visible (by decide)) (by decide)
      (visible_last (print_visible numeric addr.ip)),
    sscanf_last (numeric.nonempty addr.ip) (print_visible numeric addr.ip) short]
  rfl

theorem scan_rtcp (numeric : lib.Numeric) (addr : PjSockaddr) :
    sscanf rtcpFormat (portValue lib (some addr)) =
      some [.number addr.port.toNat, .text "IP4".toList, .text (lib.print addr.ip)] := by
  have short : (lib.print addr.ip).length < 64 := Nat.lt_trans (numeric.short addr.ip) (by decide)
  have bound : addr.port.toNat < 2 ^ 31 := Nat.lt_trans addr.port.isLt (by decide)
  have format : rtcpFormat = .number :: .blank :: ("IN".toList.map .literal ++
      .blank :: [.text 32, .blank, .text 64]) := rfl
  rw [format, portValue, pjSockaddrGetPort, pjSockaddrPrint,
    sscanf_count _ bound (word_front (by decide) (by decide) _),
    sscanf_literals _ _ _ (word_front (by decide) (by decide) _),
    sscanf_word _ (by decide) (word_visible (by decide)) (by decide)
      (visible_last (print_visible numeric addr.ip)),
    sscanf_last (numeric.nonempty addr.ip) (print_visible numeric addr.ip) short]
  rfl

theorem scan_cand (numeric : lib.Numeric) {cand : IceSessCand} (addr : PjSockaddr)
    (present : cand.foundation ≠ []) (visible : ∀ c ∈ cand.foundation, isSpace c = false)
    (fits : cand.foundation.length < 32) (prio : cand.prio.toNat < 2 ^ 31) :
    sscanf candFormat (candValue lib cand addr) =
      some [.text cand.foundation, .number cand.compId.toNat, .text "UDP".toList,
        .number cand.prio.toNat, .text (lib.print addr.ip), .number addr.port.toNat,
        .text (pjIceGetCandTypeName cand.type)] := by
  have short : (lib.print addr.ip).length < 80 := Nat.lt_trans (numeric.short addr.ip) (by decide)
  have comp : cand.compId.toNat < 2 ^ 31 := Nat.lt_trans cand.compId.isLt (by decide)
  have port : addr.port.toNat < 2 ^ 31 := Nat.lt_trans addr.port.isLt (by decide)
  have type : pjIceGetCandTypeName cand.type ≠ [] ∧ (pjIceGetCandTypeName cand.type).length < 32 ∧
      (pjIceGetCandTypeName cand.type).all (fun c => !isSpace c) = true := by
    cases cand.type <;> decide
  have format : candFormat = .text 32 :: .blank :: .number :: .blank :: .text 12 :: .blank ::
      .number :: .blank :: .text 80 :: .blank :: .number :: .blank :: ("typ".toList.map .literal ++
        .blank :: [.text 32]) := rfl
  rw [format, candValue, sscanf_word _ present visible fits (decimal_front _ _),
    sscanf_count _ comp (word_front (by decide) (by decide) _),
    sscanf_word _ (by decide) (word_visible (by decide)) (by decide) (decimal_front _ _),
    sscanf_count _ prio (print_front numeric _ _),
    sscanf_word _ (numeric.nonempty _) (print_visible numeric _) short (decimal_front _ _),
    sscanf_count _ port (word_front (by decide) (by decide) _),
    sscanf_literals _ _ _ (visible_last (word_visible type.2.2)),
    sscanf_last type.1 (word_visible type.2.2) type.2.1]
  rfl

end Scans

/-! The lines of the encoder, as the reader takes them apart. -/
section Shapes
variable {lib : SockaddrLib}

theorem attribute_shape {opening name : CStr} (literal : opening = 'a' :: '=' :: (name ++ [':']))
    (value : CStr) : opening ++ value = 'a' :: '=' :: (name ++ ':' :: value) := by
  rw [literal]
  simp only [List.cons_append, List.append_assoc, List.nil_append]

theorem ufragLine_shape (session : LocalSession) :
    ufragLine session = 'a' :: '=' :: ("ice-ufrag".toList ++ ':' :: session.ufrag) :=
  attribute_shape (by decide) session.ufrag

theorem pwdLine_shape (session : LocalSession) :
    pwdLine session = 'a' :: '=' :: ("ice-pwd".toList ++ ':' :: session.pwd) :=
  attribute_shape (by decide) session.pwd

theorem mediaLine_shape {cand : IceSessCand} {addr : PjSockaddr} (known : cand.addr = some addr) :
    mediaLine cand = 'm' :: '=' :: mediaValue addr := by
  have opening : "m=audio ".toList = 'm' :: '=' :: ("audio".toList ++ [' ']) := by decide
  have closing : " RTP/AVP 0".toList = ' ' :: "RTP/AVP 0".toList := by decide
  unfold mediaLine mediaValue
  rw [opening, closing, known, pjSockaddrGetPort]
  simp only [List.cons_append, List.append_assoc, List.nil_append]

theorem connectionLine_shape {cand : IceSessCand} {addr : PjSockaddr}
    (known : cand.addr = some addr) :
    SdpText.connectionLine lib cand = 'c' :: '=' :: connectionValue lib addr := by
  have opening :
      "c=IN IP4 ".toList = 'c' :: '=' :: ("IN".toList ++ ' ' :: ("IP4".toList ++ [' '])) := by
    decide
  unfold SdpText.connectionLine connectionValue
  rw [opening, known, pjSockaddrPrint]
  simp only [List.cons_append, List.append_assoc, List.nil_append]

theorem portLine_shape {opening name : CStr} (literal : opening = 'a' :: '=' :: (name ++ [':']))
    (cand : IceSessCand) :
    portLine lib opening cand = 'a' :: '=' :: (name ++ ':' :: portValue lib cand.addr) := by
  have middle :
    " IN IP4 ".toList = ' ' :: ("IN".toList ++ ' ' :: ("IP4".toList ++ [' '])) := by decide
  rw [← attribute_shape literal]
  unfold portLine portValue
  rw [middle]
  simp only [List.cons_append, List.append_assoc, List.nil_append]

theorem firstDefault_shape {cand : IceSessCand} {addr : PjSockaddr}
    (known : cand.addr = some addr) :
    defaultLines lib 0 cand =
        ['m' :: '=' :: mediaValue addr, 'c' :: '=' :: connectionValue lib addr] := by
  rw [defaultLines, if_pos rfl, mediaLine_shape known, connectionLine_shape known]

theorem secondDefault_shape (cand : IceSessCand) :
    defaultLines lib 1 cand =
        ['a' :: '=' :: ("rtcp".toList ++ ':' :: portValue lib cand.addr)] := by
  have literal : "a=rtcp:".toList = 'a' :: '=' :: ("rtcp".toList ++ [':']) := by decide
  rw [defaultLines, if_neg (by decide), if_pos rfl, portLine_shape literal]

theorem laterDefault_shape {comp : Nat} (later : 2 ≤ comp) (cand : IceSessCand) :
    defaultLines lib comp cand =
      ['a' :: '=' :: ("Xice-defcand".toList ++ ':' :: portValue lib cand.addr)] := by
  have literal :
    "a=Xice-defcand:".toList = 'a' :: '=' :: ("Xice-defcand".toList ++ [':']) := by decide
  rw [defaultLines, if_neg (by omega), if_neg (by omega), portLine_shape literal]

theorem candLine_shape {cand : IceSessCand} {addr : PjSockaddr} (known : cand.addr = some addr) :
    candLine lib cand = 'a' :: '=' :: ("candidate".toList ++ ':' :: candValue lib cand addr) := by
  have opening : "a=candidate:".toList = 'a' :: '=' :: ("candidate".toList ++ [':']) := by decide
  have udp : " UDP ".toList = ' ' :: ("UDP".toList ++ [' ']) := by decide
  have typ : " typ ".toList = ' ' :: ("typ".toList ++ [' ']) := by decide
  have blank : " ".toList = [' '] := by decide
  unfold candLine SdpText.candHead candValue
  rw [opening, udp, typ, blank, known, pjSockaddrPrint, pjSockaddrGetPort]
  simp only [List.cons_append, List.append_assoc, List.nil_append]

end Shapes

end NatClient.SdpLines
