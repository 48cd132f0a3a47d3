import Mathlib.Data.List.DropRight
import NatClient.SdpReader

/-!
One turn of `icedemo_input_remote2` for any piece that `fgets` delivers. What the
turn does is a function of the current line and of what stands behind its
terminator, and a text is taken from the latter in one place only: one byte
behind the terminator.
-/

namespace NatClient.SdpTurns

open CString CStdio IceTypes XmlDecoder SdpReader

/-! The line of a piece. -/
section Lines

def isLineEnd (c : Char) : Bool := c = '\r' || c = '\n'

def trimmed (piece : CStr) : CStr := (cString piece).rdropWhile isLineEnd

def lineText (piece : CStr) : CStr := skipSpace (trimmed piece)

def isAck (piece : CStr) : Bool := piece.take 4 = "ACK:".toList

/-- The bytes behind the terminator of the line once the piece is loaded and trimmed. -/
def behindLine (buf : LineBuf) (piece : CStr) : List Char :=
  List.replicate ((cString piece).length - (trimmed piece).length) '\x00' ++
    ((piece ++ ['\x00']).drop ((cString piece).length + 1) ++ buf.toList.drop (piece.length + 1))

def behindText (after : List Char) : Except Stop CStr :=
  if '\x00' ∈ after then .ok (cString after) else .error .abort

theorem trimmed_length (piece : CStr) : (trimmed piece).length ≤ (cString piece).length :=
  (List.rdropWhile_prefix isLineEnd _).length_le

theorem trimmed_clean (piece : CStr) : '\x00' ∉ trimmed piece := fun member =>
  cString_clean piece ((List.rdropWhile_prefix isLineEnd _).subset member)

theorem lineText_length (piece : CStr) : (lineText piece).length ≤ (trimmed piece).length :=
  (List.dropWhile_suffix isSpace).length_le

end Lines

/-! Loading, trimming and stepping over leading space. -/
section Loading
variable {buf : LineBuf}

theorem trimEnd_spec (line : CStr) {rest : List Char} (whole : buf.toList = line ++ rest) :
    ∃ buf', trimEnd buf line.length = (buf', (line.rdropWhile isLineEnd).length) ∧
      buf'.toList = line.rdropWhile isLineEnd ++
        (List.replicate (line.length - (line.rdropWhile isLineEnd).length) '\x00' ++ rest) := by
  -- From the end of the line, which is where the loop starts.
  induction line using List.reverseRecOn generalizing buf rest with
  | nil => exact ⟨buf, rfl, whole⟩
  | append_singleton line last ih =>
      have here : buf[line.length]? = some last := by
        rw [← Vector.getElem?_toList, whole, List.append_assoc,
          List.getElem?_append_right (Nat.le_refl _), Nat.sub_self]
        rfl
      rw [List.length_append, List.length_singleton, trimEnd, here]
      by_cases lineEnd : isLineEnd last = true
      · have cut : (buf.setIfInBounds line.length '\x00').toList = line ++ '\x00' :: rest := by
          rw [Vector.toList_setIfInBounds, whole, List.append_assoc,
            List.set_append_right _ _ (Nat.le_refl _), Nat.sub_self]
          rfl
        obtain ⟨buf', trimmed, after⟩ := ih cut
        have shorter : (line.rdropWhile isLineEnd).length ≤ line.length :=
          (List.rdropWhile_prefix isLineEnd _).length_le
        have count : line.length + 1 - (line.rdropWhile isLineEnd).length =
            (line.length - (line.rdropWhile isLineEnd).length) + 1 := by omega
        rw [if_pos (by simpa [isLineEnd] using lineEnd),
          List.rdropWhile_concat_pos _ _ _ lineEnd, count,
          List.replicate_succ', List.append_assoc, List.singleton_append]
        exact ⟨buf', trimmed, after⟩
      · rw [if_neg (by simpa [isLineEnd] using lineEnd), List.rdropWhile_concat_neg _ _ _ lineEnd,
          List.length_append, List.length_singleton, Nat.sub_self]
        exact ⟨buf, rfl, whole⟩

theorem skipLead_spec (front line rest : List Char) (whole : buf.toList = front ++ (line ++ rest)) :
    skipLead buf front.length line.length =
      (front.length + (line.length - (skipSpace line).length), (skipSpace line).length) := by
  induction line generalizing front with
  | nil => rfl
  | cons c line ih =>
      have here : buf[front.length]? = some c := by
        rw [← Vector.getElem?_toList, whole, List.getElem?_append_right
          (Nat.le_refl _), Nat.sub_self]
        rfl
      rw [List.length_cons, skipLead, here, Option.any_some]
      by_cases space : isSpace c = true
      · have moved : buf.toList = (front ++ [c]) ++ (line ++ rest) := by simp [whole]
        have later := ih (front ++ [c]) moved
        have shorter : (skipSpace line).length ≤ line.length :=
          (List.dropWhile_suffix isSpace).length_le
        have skipped : skipSpace (c :: line) = skipSpace line := List.dropWhile_cons_of_pos space
        rw [List.length_append, List.length_singleton] at later
        rw [if_pos space, later, skipped]
        congr 1
        omega
      · have kept : skipSpace (c :: line) = c :: line := List.dropWhile_cons_of_neg space
        rw [if_neg space, kept, List.length_cons, Nat.sub_self]
        rfl

def atSwitch (buf : LineBuf) (piece : CStr) : LineBuf × Nat × Nat :=
  let buf := overlay buf (piece ++ ['\x00'])
  let (buf, len) := trimEnd buf (cString buf.toList).length
  let (line, len) := skipLead buf 0 len
  (buf, line, len)

theorem readLine_switch (lib : SockaddrLib) (buf : LineBuf) (piece : CStr) (r : Reader) :
    readLine lib buf piece r =
      if (overlay buf (piece ++ ['\x00'])).toList.take 4 = "ACK:".toList
        then .ok (true, overlay buf (piece ++ ['\x00']), r)
      else if (atSwitch buf piece).2.2 = 0 then .ok (false, (atSwitch buf piece).1, r)
      else if 1 < r.mediaCnt then .ok (true, (atSwitch buf piece).1, r)
      else (readCase lib (atSwitch buf piece).1 (atSwitch buf piece).2.1 r).bind
        fun read => .ok (true, read) := by
  unfold readLine atSwitch
  generalize overlay buf (piece ++ ['\x00']) = buf
  simp only []
  rfl

theorem loaded_toList (buf : LineBuf) {piece : CStr} (fits : piece.length ≤ 79) :
    (overlay buf (piece ++ ['\x00'])).toList = cString piece ++ '\x00' ::
      ((piece ++ ['\x00']).drop ((cString piece).length + 1) ++ buf.toList.drop
          (piece.length + 1)) := by
  have room : (piece ++ ['\x00']).length ≤ 80 := by
    rw [List.length_append, List.length_singleton]
    omega
  have whole := cString_split piece
  rw [overlay_toList buf room, List.length_append, List.length_singleton]
  conv_lhs => rw [whole]
  rw [List.append_assoc, List.cons_append]

theorem atSwitch_spec (buf : LineBuf) {piece : CStr} (fits : piece.length ≤ 79) :
    (atSwitch buf piece).1.toList = trimmed piece ++ '\x00' :: behindLine buf piece ∧
      (atSwitch buf piece).2 =
        ((trimmed piece).length - (lineText piece).length, (lineText piece).length) := by
  have whole := loaded_toList buf fits
  have length :
      (cString (overlay buf (piece ++ ['\x00'])).toList).length = (cString piece).length := by
    rw [whole, cString_terminated _ _ (cString_clean piece)]
  obtain ⟨buf', trim, after⟩ := trimEnd_spec (cString piece) whole
  have shift : ∀ (count : Nat) (rest : List Char),
      List.replicate count '\x00' ++ '\x00' :: rest =
          '\x00' :: (List.replicate count '\x00' ++ rest) := by
    intro count rest
    rw [← List.singleton_append, ← List.append_assoc, ← List.replicate_succ', List.replicate_succ]
    rfl
  rw [shift] at after
  have skip := skipLead_spec [] (trimmed piece) _ after
  rw [List.length_nil, Nat.zero_add] at skip
  -- Trimming starts from the length before the first zero, skipping from the trimmed one.
  have switch : atSwitch buf piece = (buf', skipLead buf' 0 (trimmed piece).length) := by
    simp only [atSwitch, length, trim]
    rfl
  rw [switch, skip]
  exact ⟨after, rfl⟩

theorem loaded_ack (buf : LineBuf) {piece : CStr} (fits : piece.length ≤ 79) :
    (overlay buf (piece ++ ['\x00'])).toList.take 4 = "ACK:".toList ↔ isAck piece = true := by
  have room : (piece ++ ['\x00']).length ≤ 80 := by
    rw [List.length_append, List.length_singleton]
    omega
  have four : "ACK:".toList.length = 4 := by decide
  rw [overlay_toList buf room, isAck, decide_eq_true_iff, List.append_assoc]
  by_cases long : 4 ≤ piece.length
  · rw [List.take_append_of_le_length long]
  · have short : (piece.take 4).length ≠ 4 := by
      rw [List.length_take]
      omega
    -- The terminator stands among the four bytes.
    have terminator :
        '\x00' ∈ (piece ++ (['\x00'] ++ buf.toList.drop (piece ++ ['\x00']).length)).take 4 := by
      rw [List.take_append]
      apply List.mem_append_right
      obtain ⟨left, count⟩ : ∃ left, 4 - piece.length = left + 1 := ⟨3 - piece.length, by omega⟩
      rw [count]
      simp
    constructor
    · intro same
      rw [same] at terminator
      exact absurd terminator (by decide)
    · intro same
      rw [same] at short
      exact absurd four short

theorem readLine_turn (lib : SockaddrLib) (buf : LineBuf) {piece : CStr} (fits : piece.length ≤ 79)
    (r : Reader) :
    ∃ buf', (isAck piece = false →
        buf'.toList = trimmed piece ++ '\x00' :: behindLine buf piece) ∧
      readLine lib buf piece r =
        if isAck piece = true then .ok (true, buf', r)
        else if lineText piece = [] then .ok (false, buf', r)
        else if 1 < r.mediaCnt then .ok (true, buf', r)
        else
          (readCase lib buf' ((trimmed piece).length - (lineText piece).length) r).map
            (true, ·) := by
  obtain ⟨after, place⟩ := atSwitch_spec buf fits
  rw [readLine_switch, place]
  simp only [loaded_ack buf fits, List.length_eq_zero_iff]
  by_cases ack : isAck piece = true
  · refine ⟨overlay buf (piece ++ ['\x00']), ?_, by rw [if_pos ack, if_pos ack]⟩
    intro other
    exact absurd (ack.symm.trans other) (by decide)
  · refine ⟨(atSwitch buf piece).1, fun _ => after, ?_⟩
    rw [if_neg ack, if_neg ack]
    split
    · rfl
    · split
      · rfl
      · cases readCase lib (atSwitch buf piece).1
          ((trimmed piece).length - (lineText piece).length) r <;> rfl

end Loading

/-! The cases of the switch, with the texts they take from the line. -/
section Cases
variable (lib : SockaddrLib) (behind : Except Stop CStr)

/-- The text of a line from an offset on; `behind` starts behind the terminator. -/
def textFrom (text : CStr) (offset : Nat) : Except Stop CStr :=
  if offset ≤ text.length then .ok (text.drop offset) else behind

def mediaOf (value : CStr) (r : Reader) : Except Stop Reader := do
  let fields ← orAbort (sscanf mediaFormat value)
  match fields with
  | [.text _media, .text portstr] =>
      .ok ⟨r.mediaCnt + 1, { r.st with comp0Port := toUnsigned (atoi portstr) }⟩
  | _ => .error .onError

def connectionOf (value : CStr) (r : Reader) : Except Stop Reader := do
  let fields ← orAbort (sscanf connectionFormat value)
  match fields with
  | [.text _c, .text _net, .text ip] => do
      let comp0Addr ← orAbort (strcpy 80 (some ip))
      .ok { r with st := { r.st with comp0Addr := comp0Addr } }
  | _ => .error .onError

def attrLead (value : CStr) : Nat := (value.takeWhile isDelim).length

def attrName (value : CStr) : CStr := (value.drop (attrLead value)).takeWhile fun c => !isDelim c

def attrStop (value : CStr) : Nat := attrLead value + (attrName value).length

def attributeOf (text : CStr) (r : Reader) : Except Stop Reader :=
  if attrName (text.drop 2) = [] then .error .abort
  else do
    let rem ← applyAttribute lib (attrName (text.drop 2))
      (textFrom behind text (2 + attrStop (text.drop 2) + 1)) r.st.rem
    .ok { r with st := { r.st with rem := rem } }

def lineCase (text : CStr) (r : Reader) : Except Stop Reader :=
  match text.head? with
  | some 'm' =>
      if 1 < r.mediaCnt + 1 then .ok { r with mediaCnt := r.mediaCnt + 1 }
      else do mediaOf (← textFrom behind text 2) r
  | some 'c' => do connectionOf (← textFrom behind text 2) r
  | some 'a' => attributeOf lib behind text r
  | _ => .ok r

end Cases

section Switch
variable {lib : SockaddrLib} {buf : LineBuf} {line after : List Char}

theorem attrStop_le (value : CStr) : attrStop value ≤ value.length := by
  have lead : attrLead value ≤ value.length := (List.takeWhile_prefix isDelim).length_le
  have name : (attrName value).length ≤ (value.drop (attrLead value)).length :=
    (List.takeWhile_prefix _).length_le
  rw [List.length_drop] at name
  unfold attrStop
  omega

theorem textAt_line (whole : buf.toList = line ++ '\x00' :: after) (clean : '\x00' ∉ line)
    {offset : Nat} (inside : offset ≤ line.length + 1) :
    textAt buf offset = textFrom (behindText after) line offset := by
  unfold textFrom
  split
  · next within =>
      have rest : buf.toList.drop offset = line.drop offset ++ '\x00' :: after := by
        rw [whole, List.drop_append_of_le_length within]
      have restClean : '\x00' ∉ line.drop offset :=
        fun member => clean (List.mem_of_mem_drop member)
      rw [textAt, rest, if_pos (by simp), cString_terminated _ _ restClean]
  · next beyond =>
      have same : offset = line.length + 1 := by omega
      have rest : buf.toList.drop offset = after := by
        rw [whole, same, ← List.drop_drop, List.drop_left]
        rfl
      rw [textAt, rest, behindText]

theorem textFrom_shift (behind : Except Stop CStr) (line : CStr)
    {lead : Nat} (inside : lead ≤ line.length)
    (offset : Nat) :
    textFrom behind line (lead + offset) = textFrom behind (line.drop lead) offset := by
  unfold textFrom
  rw [List.length_drop, List.drop_drop]
  by_cases within : offset ≤ line.length - lead
  · rw [if_pos (by omega), if_pos within]
  · rw [if_neg (by omega), if_neg within]

theorem textAt_cut (buf : LineBuf) (stop : Nat) :
    textAt (buf.setIfInBounds stop '\x00') (stop + 1) = textAt buf (stop + 1) := by
  unfold textAt
  rw [Vector.toList_setIfInBounds, List.drop_set_of_lt (Nat.lt_succ_self stop)]

theorem readAttribute_text (buf : LineBuf) (line : Nat) (r : Reader) :
    readAttribute lib buf line r = (textAt buf (line + 2)).bind fun text =>
      if attrName text = [] then .error .abort
      else (applyAttribute lib (attrName text)
        (textAt (buf.setIfInBounds (line + 2 + attrLead text + (attrName text).length) '\x00')
          (line + 2 + attrLead text + (attrName text).length + 1)) r.st.rem).bind fun rem =>
        .ok (buf.setIfInBounds (line + 2 + attrLead text + (attrName text).length) '\x00',
          { r with st := { r.st with rem := rem } }) := rfl

theorem lineCase_other {behind : Except Stop CStr} {text : CStr} {r : Reader}
    (notM : text.head? = some 'm' → False) (notC : text.head? = some 'c' → False)
    (notA : text.head? = some 'a' → False) : lineCase lib behind text r = .ok r := by
  unfold lineCase
  split
  · next letter => exact (notM letter).elim
  · next letter => exact (notC letter).elim
  · next letter => exact (notA letter).elim
  · rfl

theorem readMedia_text (buf : LineBuf) (line : Nat) (r : Reader) :
    readMedia buf line r =
      if 1 < r.mediaCnt + 1 then .ok { r with mediaCnt := r.mediaCnt + 1 }
      else (textAt buf (line + 2)).bind fun value => mediaOf value r := rfl

theorem readConnection_text (buf : LineBuf) (line : Nat) (r : Reader) :
    readConnection buf line r = (textAt buf (line + 2)).bind fun value =>
      connectionOf value r := rfl

theorem ok_bind {α β : Type} (value : α) (next : α → Except Stop β) :
    (Except.ok value).bind next = next value := rfl

theorem ok_ne_abort {α : Type} (value : α) : (.ok value : Except Stop α) ≠ .error .abort := by
  intro same
  cases same

theorem onError_ne_abort {α : Type} : (.error .onError : Except Stop α) ≠ .error .abort := by
  intro same
  cases same

theorem bind_ok {α β : Type} (result : Except Stop α) (f : α → β) :
    (result.bind fun value => .ok (f value)) = result.map f := by
  cases result <;> rfl

theorem attribute_line (whole : buf.toList = line ++ '\x00' :: after)
    (clean : '\x00' ∉ line) {lead : Nat} (present : lead < line.length)
    (named : lead + 2 ≤ line.length ∨ behindText after = .ok [] ∨ behindText after = .error .abort)
    (r : Reader) :
    ∃ buf', ((textFrom (behindText after) (line.drop lead) 2).bind fun text =>
      if attrName text = [] then .error .abort
      else (applyAttribute lib (attrName text)
        (textAt (buf.setIfInBounds (lead + 2 + attrLead text + (attrName text).length) '\x00')
          (lead + 2 + attrLead text + (attrName text).length + 1)) r.st.rem).bind fun rem =>
        .ok (buf.setIfInBounds (lead + 2 + attrLead text + (attrName text).length) '\x00',
          { r with st := { r.st with rem := rem } })) =
      (attributeOf lib (behindText after) (line.drop lead) r).map fun r => (buf', r) := by
  by_cases inside : lead + 2 ≤ line.length
  · have text : textFrom (behindText after) (line.drop lead) 2 = .ok ((line.drop lead).drop 2) := by
      rw [textFrom, if_pos (by rw [List.length_drop]; omega)]
    have stop := attrStop_le ((line.drop lead).drop 2)
    have offset : lead + 2 + attrLead ((line.drop lead).drop 2) +
        (attrName ((line.drop lead).drop 2)).length + 1 =
          lead + (2 + attrStop ((line.drop lead).drop 2) + 1) := by
      unfold attrStop
      omega
    rw [List.length_drop, List.length_drop] at stop
    rw [text, ok_bind, attributeOf]
    split
    · exact ⟨buf, rfl⟩
    · -- The cut behind the name is in front of the value, so the value is still that of the line.
      rw [textAt_cut, offset, textAt_line whole clean (by omega),
        textFrom_shift _ _ (Nat.le_of_lt present)]
      generalize buf.setIfInBounds _ '\x00' = cut
      generalize applyAttribute lib _ _ r.st.rem = applied
      refine ⟨cut, ?_⟩
      cases applied <;> rfl
  · -- The letter alone: the token is looked for behind the line, where there is none.
    have text : textFrom (behindText after) (line.drop lead) 2 = behindText after := by
      rw [textFrom, if_neg (by rw [List.length_drop]; omega)]
    have short :
      (line.drop lead).drop 2 = [] := List.drop_eq_nil_of_le (by rw [List.length_drop]; omega)
    rw [text, attributeOf, short]
    rcases named.resolve_left inside with empty | stale
    · rw [empty]
      exact ⟨buf, rfl⟩
    · rw [stale]
      exact ⟨buf, rfl⟩

/-- The switch sees the line and what is behind it. An attribute line of one letter is
left out where a text starts behind it: the token would be taken from there too. -/
theorem readCase_line (lib : SockaddrLib) (whole : buf.toList = line ++ '\x00' :: after)
    (clean : '\x00' ∉ line) {lead : Nat} (present : lead < line.length)
    (named : (line.drop lead).head? = some 'a' →
      lead + 2 ≤ line.length ∨ behindText after = .ok [] ∨ behindText after = .error .abort)
    (r : Reader) :
    ∃ buf', readCase lib buf lead r =
      (lineCase lib (behindText after) (line.drop lead) r).map fun r => (buf', r) := by
  have here : buf[lead]? = (line.drop lead).head? := by
    rw [← Vector.getElem?_toList, whole, List.getElem?_append_left present, List.head?_drop]
  have second : textAt buf (lead + 2) = textFrom (behindText after) (line.drop lead) 2 := by
    rw [textAt_line whole clean (by omega), textFrom_shift _ _ (Nat.le_of_lt present)]
  rw [readCase, here]
  split
  · next letter =>
      refine ⟨buf, ?_⟩
      rw [readMedia_text, second, lineCase, letter]
      exact bind_ok _ _
  · next letter =>
      refine ⟨buf, ?_⟩
      rw [readConnection_text, second, lineCase, letter]
      exact bind_ok _ _
  · next letter =>
      rw [readAttribute_text, second, lineCase, letter]
      exact attribute_line whole clean present (named letter) r
  · next notM notC notA =>
      rw [lineCase_other notM notC notA]
      exact ⟨buf, rfl⟩

theorem lineText_drop (piece : CStr) :
    (trimmed piece).drop ((trimmed piece).length - (lineText piece).length) = lineText piece := by
  obtain ⟨lead, whole⟩ := List.dropWhile_suffix isSpace (l := trimmed piece)
  have length : (trimmed piece).length - (lineText piece).length = lead.length := by
    rw [← whole, List.length_append, lineText, skipSpace]
    omega
  rw [length]
  conv_lhs => rw [← whole]
  rw [List.drop_left]
  rfl

theorem readLine_looks (lib : SockaddrLib) (buf : LineBuf) {piece : CStr} (fits : piece.length ≤ 79)
    (other : isAck piece = false) (present : lineText piece ≠ [])
    {r : Reader} (media : r.mediaCnt ≤ 1)
    (named : (lineText piece).head? = some 'a' → 2 ≤ (lineText piece).length ∨
      behindText (behindLine buf piece) = .ok [] ∨
        behindText (behindLine buf piece) = .error .abort) :
    ∃ buf', readLine lib buf piece r =
      (lineCase lib (behindText (behindLine buf piece)) (lineText piece) r).map fun r =>
          (true, buf', r) := by
  obtain ⟨buf', whole, turn⟩ := readLine_turn lib buf fits r
  have length := lineText_length piece
  have positive := List.length_pos_of_ne_nil present
  have place := lineText_drop piece
  have letter :
    ((trimmed piece).drop ((trimmed piece).length - (lineText piece).length)).head? = some 'a' →
      (trimmed piece).length - (lineText piece).length + 2 ≤ (trimmed piece).length ∨
        behindText (behindLine buf piece) = .ok [] ∨
            behindText (behindLine buf piece) = .error .abort := by
    rw [place]
    intro first
    exact (named first).imp_left fun long => by omega
  obtain ⟨buf2, read⟩ := readCase_line lib (whole other) (trimmed_clean piece) (by omega) letter r
  refine ⟨buf2, ?_⟩
  rw [turn, if_neg (by simp [other]), if_neg present, if_neg (Nat.not_lt.mpr media), read, place]
  cases lineCase lib (behindText (behindLine buf piece)) (lineText piece) r <;> rfl

end Switch

/-! Runs over pieces, with the case of the switch as a parameter. -/
section Runs
variable (step : CStr → Reader → Except Stop Reader) (good : CStr → Reader → Prop)

def endsReading (piece : CStr) (r : Reader) : Prop :=
  lineText piece = [] ∨ (r.mediaCnt = 1 ∧ (lineText piece).head? = some 'm')

instance (piece : CStr) (r : Reader) : Decidable (endsReading piece r) :=
  inferInstanceAs (Decidable (_ ∨ _))

def readPieces : List CStr → Reader → Except Stop Reader
  | [], r => .ok r
  | piece :: rest, r =>
      if isAck piece = true then readPieces rest r
      else if endsReading piece r then .ok r
      else (step (lineText piece) r).bind (readPieces rest)

def Along : List CStr → Reader → Prop
  | [], _ => True
  | piece :: rest, r =>
      if isAck piece = true then good piece r ∧ Along rest r
      else if endsReading piece r then True
      else good piece r ∧ ∀ r', step (lineText piece) r = .ok r' → Along rest r'

end Runs

section Ends
variable {lib : SockaddrLib} {r : Reader}

theorem readLine_ack (lib : SockaddrLib) (buf : LineBuf) {piece : CStr} (fits : piece.length ≤ 79)
    (ack : isAck piece = true) (r : Reader) :
    ∃ buf', readLine lib buf piece r = .ok (true, buf', r) := by
  obtain ⟨buf', _, turn⟩ := readLine_turn lib buf fits r
  exact ⟨buf', by rw [turn, if_pos ack]⟩

theorem readLines_ignored {pieces : List CStr} (fits : ∀ piece ∈ pieces, piece.length ≤ 79)
    (done : 1 < r.mediaCnt) (buf : LineBuf) : readLines lib pieces buf r = .ok r := by
  induction pieces generalizing buf with
  | nil => rfl
  | cons piece rest ih =>
      obtain ⟨buf', _, turn⟩ := readLine_turn lib buf (fits piece List.mem_cons_self) r
      have later := ih (fun other member => fits other (List.mem_cons_of_mem piece member)) buf'
      rw [readLines, turn]
      split
      · exact later
      · split
        · rfl
        · exact later

theorem readLine_second (lib : SockaddrLib) (buf : LineBuf)
    {piece : CStr} (fits : piece.length ≤ 79)
    (other : isAck piece = false) (letter : (lineText piece).head? = some 'm')
    (one : r.mediaCnt = 1) :
    ∃ buf', readLine lib buf piece r = .ok (true, buf', { r with mediaCnt := r.mediaCnt + 1 }) := by
  have present : lineText piece ≠ [] := by
    intro blank
    rw [blank] at letter
    exact absurd letter (by decide)
  have notA : (lineText piece).head? ≠ some 'a' := by
    rw [letter]
    decide
  obtain ⟨buf', turn⟩ := readLine_looks lib buf fits other present (Nat.le_of_eq one)
    fun first => absurd first notA
  refine ⟨buf', ?_⟩
  rw [turn, lineCase, letter]
  simp only [one, Nat.lt_add_one, ↓reduceIte]
  rfl

theorem readLine_blank (lib : SockaddrLib) (buf : LineBuf) {piece : CStr} (fits : piece.length ≤ 79)
    (other : isAck piece = false) (blank : lineText piece = []) (r : Reader) :
    ∃ buf', readLine lib buf piece r = .ok (false, buf', r) := by
  obtain ⟨buf', _, turn⟩ := readLine_turn lib buf fits r
  exact ⟨buf', by rw [turn, if_neg (by simp [other]), if_pos blank]⟩

theorem readLines_ends (lib : SockaddrLib) {piece : CStr} {rest : List CStr}
    (fits : ∀ other ∈ piece :: rest, other.length ≤ 79)
    (other : isAck piece = false) (ends : endsReading piece r) (buf : LineBuf) :
    ∃ r', readLines lib (piece :: rest) buf r = .ok r' ∧ r'.st = r.st := by
  obtain ⟨short, later⟩ := List.forall_mem_cons.mp fits
  rcases ends with blank | ⟨one, letter⟩
  · obtain ⟨buf', turn⟩ := readLine_blank lib buf short other blank r
    refine ⟨r, ?_, rfl⟩
    rw [readLines, turn]
    rfl
  · obtain ⟨buf', turn⟩ := readLine_second lib buf short other letter one
    refine ⟨{ r with mediaCnt := r.mediaCnt + 1 }, ?_, rfl⟩
    rw [readLines, turn]
    exact readLines_ignored later (Nat.lt_succ_of_le (Nat.le_of_eq one.symm)) buf'

end Ends

end NatClient.SdpTurns
