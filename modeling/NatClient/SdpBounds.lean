import NatClient.SdpReference

/-!
Which peer files keep `icedemo_input_remote2` inside its buffers: no text too long for
its array, no missing token, no candidate past the last cell, and every text that the
switch takes starts on the current line.
-/

namespace NatClient.SdpBounds

open CString CStdio IceTypes XmlDecoder SdpReader SdpTurns SdpRoundTrip
    SdpReference DescriptionRoundTrip

/-! Staying on the line. -/
section OnLine

def takenAt (buf : LineBuf) (line : Nat) (r : Reader) : List Nat :=
  match buf[line]? with
  | some 'm' => if 1 < r.mediaCnt + 1 then [] else [line + 2]
  | some 'c' => [line + 2]
  | some 'a' => match textAt buf (line + 2) with
      | .ok text =>
          if attrName text ∈ knownNames then [line + 2, line + 2 + attrStop text + 1]
            else [line + 2]
      | .error _ => [line + 2]
  | _ => []

def terminatorAt (buf : LineBuf) (line : Nat) : Nat :=
  line + (cString (buf.toList.drop line)).length

/-- A turn that comes to the switch takes no text from behind the terminator. -/
def OnLine (buf : LineBuf) (chunk : CStr) (r : Reader) : Prop :=
  isAck chunk = false → (atSwitch buf chunk).2.2 ≠ 0 → r.mediaCnt ≤ 1 →
    ∀ offset ∈ takenAt (atSwitch buf chunk).1 (atSwitch buf chunk).2.1 r,
      offset ≤ terminatorAt (atSwitch buf chunk).1 (atSwitch buf chunk).2.1

def StaysOnLine (lib : SockaddrLib) : List CStr → LineBuf → Reader → Prop
  | [], _, _ => True
  | chunk :: rest, buf, r =>
      OnLine buf chunk r ∧
        ∀ buf' r', readLine lib buf chunk r = .ok (true, buf', r') → StaysOnLine lib rest buf' r'

structure InBounds (lib : SockaddrLib) (stack : LineBuf) (file : List Char) : Prop where
  defined : ∀ rem, icedemoInputRemote2 lib stack file rem ≠ none
  onLine : StaysOnLine lib (fgetsAll 79 79 file) stack .start

end OnLine

/-! What a file has to keep to. -/
section Fits

/-- Each word that a `%s` of the format comes to is shorter than its array. -/
def WordsFit : List Directive → CStr → Prop
  | [], _ => True
  | .text capacity :: rest, input =>
      (skipSpace input).takeWhile notSpace = [] ∨
        ((skipSpace input).takeWhile notSpace).length < capacity ∧
          WordsFit rest ((skipSpace input).dropWhile notSpace)
  | .number :: rest, input => ∀ value tail, scanNumber input = some (value, tail) →
      WordsFit rest tail
  | .blank :: rest, input => WordsFit rest (skipSpace input)
  | .literal c :: rest, input => input.head? = some c → WordsFit rest input.tail

def CompleteCandidate (value : CStr) : Prop :=
  ∃ foundation compId transport prio ipaddr port type, sscanf candFormat value =
    some [.text foundation, .number compId, .text transport, .number prio,
      .text ipaddr, .number port, .text type]

structure AttributeFits (attr value : CStr) (rem : RemInfo) : Prop where
  rtcp : attr = "rtcp".toList → WordsFit rtcpFormat value
  words : attr = "candidate".toList → WordsFit candFormat value
  room : attr = "candidate".toList → CompleteCandidate value → rem.candCnt < pjIceStMaxCand

structure ValuesFit (text : CStr) (r : Reader) : Prop where
  media : text.head? = some 'm' → WordsFit mediaFormat (text.drop 2)
  connection : text.head? = some 'c' → WordsFit connectionFormat (text.drop 2)
  value : text.head? = some 'a' → AttributeFits (attrName (text.drop 2))
    ((text.drop 2).drop (attrStop (text.drop 2) + 1)) r.st.rem

def FitsLine (chunk : CStr) (r : Reader) : Prop :=
  isAck chunk = false →
    Named (lineText chunk) ∧ OwnValue (lineText chunk) ∧ ValuesFit (lineText chunk) r

theorem sscanf_defined (format : List Directive) (input : CStr) :
    sscanf format input ≠ none ↔ WordsFit format input := by
  induction format generalizing input with
  | nil => simp [sscanf, WordsFit]
  | cons directive rest ih =>
      cases directive with
      | text capacity =>
          rw [sscanf, WordsFit]
          by_cases empty : (skipSpace input).takeWhile notSpace = []
          · simp [empty]
          · by_cases short : ((skipSpace input).takeWhile notSpace).length < capacity
            · simp [empty, short, ← ih]
            · simp [empty, short]
      | number =>
          rw [sscanf, WordsFit]
          cases scanNumber input with
          | none => simp
          | some read =>
              simp only [ne_eq, Option.map_eq_none_iff, ih, Option.some_inj]
              exact ⟨fun fits value tail same => by rw [same] at fits; exact fits,
                fun fits => fits read.1 read.2 rfl⟩
      | blank =>
          rw [sscanf, WordsFit]
          exact ih _
      | literal c =>
          rw [sscanf, WordsFit]
          by_cases here : input.head? = some c
          · simp [here, ← ih]
          · simp [here]

theorem scanNumber_length {text tail : CStr} {value : Int}
    (number : scanNumber text = some (value, tail)) :
    tail.length ≤ text.length := by
  rw [scanNumber] at number
  split at number
  · exact absurd number (by simp)
  · have sign : ∀ text : CStr, (skipSign text).length ≤ text.length := by
      intro text
      unfold skipSign
      split
      · exact Nat.le_succ _
      · exact Nat.le_succ _
      · exact Nat.le_refl _
    have digits : tail = (skipSign (skipSpace text)).dropWhile Char.isDigit :=
      (Prod.mk.inj (Option.some_inj.mp number)).2.symm
    calc tail.length
        ≤ (skipSign (skipSpace text)).length :=
          digits ▸ (List.dropWhile_suffix Char.isDigit).length_le
      _ ≤ (skipSpace text).length := sign _
      _ ≤ text.length := (List.dropWhile_suffix isSpace).length_le

theorem sscanf_length {format : List Directive} {input : CStr} {fields : List Field}
    (scanned : sscanf format input = some fields) :
    ∀ word, Field.text word ∈ fields → word.length ≤ input.length := by
  have skipped : ∀ text : CStr, (skipSpace text).length ≤ text.length := fun text =>
    (List.dropWhile_suffix isSpace).length_le
  induction format generalizing input fields with
  | nil =>
      rw [sscanf, Option.some_inj] at scanned
      simp [← scanned]
  | cons directive rest ih =>
      intro word member
      cases directive with
      | text capacity =>
          rw [sscanf] at scanned
          split at scanned
          · simp [← Option.some_inj.mp scanned] at member
          · split at scanned
            · obtain ⟨later, scan, rfl⟩ := Option.map_eq_some_iff.mp scanned
              have front :
                  ((skipSpace input).takeWhile notSpace).length ≤ (skipSpace input).length :=
                (List.takeWhile_prefix notSpace).length_le
              have back :
                  ((skipSpace input).dropWhile notSpace).length ≤ (skipSpace input).length :=
                (List.dropWhile_suffix notSpace).length_le
              have whole := skipped input
              rcases List.mem_cons.mp member with same | member
              · cases same
                omega
              · have bound := ih scan word member
                omega
            · exact absurd scanned (by simp)
      -- A number stores no text.
      | number =>
          rw [sscanf] at scanned
          split at scanned
          · simp [← Option.some_inj.mp scanned] at member
          · next value tail number =>
              obtain ⟨later, scan, rfl⟩ := Option.map_eq_some_iff.mp scanned
              have member : Field.text word ∈ later := by simpa using member
              have bound := ih scan word member
              have shorter := scanNumber_length number
              omega
      | blank =>
          have bound := ih scanned word member
          have whole := skipped input
          omega
      | literal c =>
          rw [sscanf] at scanned
          split at scanned
          · have bound := ih scanned word member
            rw [List.length_tail] at bound
            omega
          · simp [← Option.some_inj.mp scanned] at member

end Fits

/-! A value is read without leaving an array exactly when it fits. -/
section Values
variable {lib : SockaddrLib} {r : Reader} {rem : RemInfo} {value : CStr}

theorem bind_defined {α β : Type} {result : Option α} {next : α → Except Stop β}
    (later : ∀ found, result = some found → next found ≠ .error .abort) :
    (orAbort result).bind next ≠ .error .abort ↔ result ≠ none := by
  cases result with
  | none => simp [orAbort, Except.bind]
  | some found => simpa [orAbort, Except.bind] using later found rfl

theorem ok_defined {α β : Type} (result : Except Stop α) (f : α → β) :
    (result.bind fun value => .ok (f value)) ≠ .error .abort ↔ result ≠ .error .abort := by
  cases result with
  | error stop => simp [Except.bind]
  | ok value => simp [Except.bind]

theorem mediaOf_defined : mediaOf value r ≠ .error .abort ↔ WordsFit mediaFormat value := by
  rw [← sscanf_defined]
  apply bind_defined
  intro fields _
  split
  · exact ok_ne_abort _
  · exact onError_ne_abort

theorem connectionOf_defined (short : value.length < 80) :
    connectionOf value r ≠ .error .abort ↔ WordsFit connectionFormat value := by
  rw [← sscanf_defined]
  apply bind_defined
  intro fields scanned
  split
  · next c net ip =>
      have fits : ip.length < 80 := Nat.lt_of_le_of_lt (sscanf_length scanned ip (by simp)) short
      rw [strcpy_of_fits fits]
      exact ok_ne_abort _
  · exact onError_ne_abort

theorem readRtcp_defined : readRtcp lib value rem ≠ .error .abort ↔ WordsFit rtcpFormat value := by
  rw [← sscanf_defined]
  apply bind_defined
  intro fields _
  split
  · split
    · exact onError_ne_abort
    · exact ok_ne_abort _
  · exact onError_ne_abort

theorem readCandidate_defined : SdpReader.readCandidate lib value rem ≠ .error .abort ↔
    WordsFit candFormat value ∧ (CompleteCandidate value → rem.candCnt < pjIceStMaxCand) := by
  rw [← sscanf_defined, SdpReader.readCandidate]
  cases scanned : sscanf candFormat value with
  | none => simp [orAbort, bind, Except.bind]
  | some fields =>
      simp only [orAbort, bind, Except.bind, ne_eq, reduceCtorEq, not_false_eq_true, true_and]
      split
      · next foundation compId transport prio ipaddr port type =>
          have complete : CompleteCandidate value := ⟨_, _, _, _, _, _, _, scanned⟩
          -- All seven fields were there, so the next cell is written to.
          by_cases slot : rem.candCnt < pjIceStMaxCand
          · simp only [slot, ↓reduceDIte, imp_true_iff, iff_true]
            split
            · exact onError_ne_abort
            · split
              · exact onError_ne_abort
              · exact ok_ne_abort _
          · simp [slot, complete]
      · next other =>
          refine iff_of_true onError_ne_abort ?_
          rintro ⟨foundation, compId, transport, prio, ipaddr, port, type, seven⟩
          cases scanned.symm.trans seven
          exact (other _ _ _ _ _ _ _ rfl).elim

theorem fits_other {attr : CStr} (notRtcp : attr ≠ "rtcp".toList)
    (notCandidate : attr ≠ "candidate".toList) :
    AttributeFits attr value rem :=
  ⟨fun same => absurd same notRtcp, fun same => absurd same notCandidate,
    fun same => absurd same notCandidate⟩

theorem applyAttribute_defined {attr : CStr} (short : value.length < 80) :
    applyAttribute lib attr (.ok value) rem ≠ .error .abort ↔ AttributeFits attr value rem := by
  by_cases known : attr ∈ knownNames
  -- The four names of the source; anything else is passed over.
  · rcases known_cases known with rfl | rfl | rfl | rfl
    · refine iff_of_true ?_ (fits_other (by decide) (by decide))
      rw [applyAttribute, if_pos rfl]
      exact (bind_defined fun _ _ => ok_ne_abort _).mpr (by simp [strcpy_of_fits short])
    · refine iff_of_true ?_ (fits_other (by decide) (by decide))
      rw [applyAttribute, if_neg (by decide), if_pos rfl]
      exact (bind_defined fun _ _ => ok_ne_abort _).mpr (by simp [strcpy_of_fits short])
    · rw [applyAttribute, if_neg (by decide), if_neg (by decide), if_pos rfl]
      refine Iff.trans readRtcp_defined
        ⟨fun fits => ⟨fun _ => fits, ?_, ?_⟩, fun fits => fits.rtcp rfl⟩
      · exact fun same => absurd same (by decide)
      · exact fun same => absurd same (by decide)
    · rw [applyAttribute, if_neg (by decide), if_neg (by decide), if_neg (by decide), if_pos rfl]
      refine Iff.trans readCandidate_defined ⟨fun fits => ⟨?_, fun _ => fits.1, fun _ => fits.2⟩,
        fun fits => ⟨fits.words rfl, fits.room rfl⟩⟩
      exact fun same => absurd same (by decide)
  · rw [apply_unknown known]
    refine iff_of_true (ok_ne_abort _) (fits_other ?_ ?_)
    · rintro rfl
      exact known (by decide)
    · rintro rfl
      exact known (by decide)

theorem readText_defined {text : CStr} (named : Named text) (short : text.length < 80) :
    readText lib text r ≠ .error .abort ↔ ValuesFit text r := by
  have shorter : (text.drop 2).length < 80 := by
    rw [List.length_drop]
    omega
  -- A text has one first letter.
  have other : ∀ {c d : Char}, text.head? = some c → text.head? = some d → c = d :=
      fun first second =>
    Option.some_inj.mp (first.symm.trans second)
  rw [readText]
  split
  · next letter =>
      refine Iff.trans mediaOf_defined
        ⟨fun fits => ⟨fun _ => fits, ?_, ?_⟩, fun fits => fits.media letter⟩
      · exact fun same => absurd (other letter same) (by decide)
      · exact fun same => absurd (other letter same) (by decide)
  · next letter =>
      refine Iff.trans (connectionOf_defined shorter) ⟨fun fits => ⟨?_, fun _ => fits, ?_⟩,
        fun fits => fits.connection letter⟩
      · exact fun same => absurd (other letter same) (by decide)
      · exact fun same => absurd (other letter same) (by decide)
  · next letter =>
      have behind : ((text.drop 2).drop (attrStop (text.drop 2) + 1)).length < 80 := by
        rw [List.length_drop]
        omega
      rw [readNamed, if_neg (named letter)]
      refine Iff.trans (ok_defined _ _) (Iff.trans (applyAttribute_defined behind)
        ⟨fun fits => ⟨?_, ?_, fun _ => fits⟩, fun fits => fits.value letter⟩)
      · exact fun same => absurd (other letter same) (by decide)
      · exact fun same => absurd (other letter same) (by decide)
  · next notM notC notA =>
      exact iff_of_true (ok_ne_abort _)
        ⟨fun letter => (notM letter).elim, fun letter => (notC letter).elim,
          fun letter => (notA letter).elim⟩

end Values

theorem letter_cases (text : CStr) : text.head? = some 'm' ∨
    text.head? = some 'c' ∨ text.head? = some 'a' ∨
    (text.head? ≠ some 'm' ∧ text.head? ≠ some 'c' ∧ text.head? ≠ some 'a') := by
  by_cases media : text.head? = some 'm'
  · exact Or.inl media
  · by_cases connection : text.head? = some 'c'
    · exact Or.inr (Or.inl connection)
    · by_cases attr : text.head? = some 'a'
      · exact Or.inr (Or.inr (Or.inl attr))
      · exact Or.inr (Or.inr (Or.inr ⟨media, connection, attr⟩))

theorem taken_second {buf : LineBuf} {line : Nat} {r : Reader} (letter : buf[line]? = some 'a') :
    line + 2 ∈ takenAt buf line r := by
  rw [takenAt, letter]
  split
  · next impossible => exact absurd impossible (by decide)
  · next impossible => exact absurd impossible (by decide)
  · split
    · split <;> exact List.mem_cons_self
    · exact List.mem_cons_self
  · next notA => exact (notA rfl).elim

/-! One turn. -/
section Turn
variable {lib : SockaddrLib} {buf : LineBuf} {chunk : CStr} {r : Reader}

structure Placed (buf : LineBuf) (chunk : CStr) (lead : Nat) : Prop where
  offset : (atSwitch buf chunk).2.1 = lead
  line : (trimmed chunk).length = lead + (lineText chunk).length
  first : (atSwitch buf chunk).1[lead]? = (lineText chunk).head?
  terminator : terminatorAt (atSwitch buf chunk).1 lead = (trimmed chunk).length
  text : ∀ offset, offset ≤ (lineText chunk).length →
    textAt (atSwitch buf chunk).1 (lead + offset) = .ok ((lineText chunk).drop offset)

theorem placed (buf : LineBuf) (fits : chunk.length ≤ 79) (present : lineText chunk ≠ []) :
    Placed buf chunk ((trimmed chunk).length - (lineText chunk).length) := by
  obtain ⟨whole, place⟩ := atSwitch_spec buf fits
  have clean := trimmed_clean chunk
  have length := lineText_length chunk
  have positive := List.length_pos_of_ne_nil present
  have drop := lineText_drop chunk
  refine ⟨by rw [place], by omega, ?_, ?_, ?_⟩
  · rw [← Vector.getElem?_toList, whole, List.getElem?_append_left (by omega),
      ← List.head?_drop, drop]
  · have rest :
        (atSwitch buf chunk).1.toList.drop ((trimmed chunk).length - (lineText chunk).length) =
        lineText chunk ++ '\x00' :: behindLine buf chunk := by
      rw [whole, List.drop_append_of_le_length (by omega), drop]
    have lineClean : '\x00' ∉ lineText chunk := by
      rw [← drop]
      exact fun member => clean (List.mem_of_mem_drop member)
    rw [terminatorAt, rest, cString_terminated _ _ lineClean]
    omega
  · intro offset inside
    rw [textAt_line whole clean (by omega), textFrom_shift _ _ (by omega),
      drop, textFrom, if_pos inside]

theorem onLine_letters (fits : chunk.length ≤ 79) (reached : Reached chunk r) {lead : Nat}
    (place : Placed buf chunk lead) :
    OnLine buf chunk r ↔ ∀ offset ∈ takenAt (atSwitch buf chunk).1 lead r,
      offset ≤ lead + (lineText chunk).length := by
  have length : (atSwitch buf chunk).2.2 ≠ 0 := by
    rw [(atSwitch_spec buf fits).2]
    exact Nat.ne_of_gt (List.length_pos_of_ne_nil reached.present)
  rw [OnLine, place.offset, place.terminator, place.line]
  exact ⟨fun within => within reached.other length reached.media, fun within _ _ _ => within⟩

theorem onLine_iff (fits : chunk.length ≤ 79) (reached : Reached chunk r) :
    OnLine buf chunk r ↔ OwnValue (lineText chunk) ∧
      ((lineText chunk).head? = some 'a' → 2 ≤ (lineText chunk).length) := by
  have place := placed buf fits reached.present
  rw [onLine_letters fits reached place]
  have first := place.first
  generalize (trimmed chunk).length - (lineText chunk).length = lead at place first ⊢
  rcases letter_cases (lineText chunk) with media | connection | attr | other
  · rw [media] at first
    simp [takenAt, first, reached.first media, OwnValue, media]
  · rw [connection] at first
    simp [takenAt, first, OwnValue, connection]
  · rw [attr] at first
    by_cases long : 2 ≤ (lineText chunk).length
    · have text := place.text 2 long
      by_cases known : attrName ((lineText chunk).drop 2) ∈ knownNames
      · simp only [takenAt, first, text, known, ↓reduceIte, List.forall_mem_cons, OwnValue, attr,
          List.not_mem_nil, IsEmpty.forall_iff, implies_true,
            and_true, forall_const, long, true_and]
        constructor
        · rintro ⟨_, value⟩
          omega
        · intro value
          exact ⟨by omega, by omega⟩
      · simp [takenAt, first, text, known, OwnValue, attr, long]
    · -- The text behind the letter is taken in any case.
      refine iff_of_false (fun within => long ?_) fun own => long (own.2 attr)
      have second := within _ (taken_second first)
      omega
  -- No other letter has the switch take a text.
  · obtain ⟨notM, notC, notA⟩ := other
    refine iff_of_true (fun offset member => ?_) ⟨⟨?_, fun letter => absurd letter notA⟩,
      fun letter => absurd letter notA⟩
    · rw [takenAt, first] at member
      split at member
      · next letter => exact (notM letter).elim
      · next letter => exact (notC letter).elim
      · next letter => exact (notA letter).elim
      · exact absurd member List.not_mem_nil
    · exact fun letter => (letter.elim notM notC).elim

theorem map_defined {α β : Type} (result : Except Stop α) (f : α → β) :
    result.map f ≠ .error .abort ↔ result ≠ .error .abort := by
  cases result with
  | error stop => simp [Except.map]
  | ok value => simp [Except.map]

theorem lineText_short (fits : chunk.length ≤ 79) : (lineText chunk).length < 80 := by
  have line := lineText_length chunk
  have text := trimmed_length chunk
  have bytes := cString_length chunk
  omega

theorem fits_turn (lib : SockaddrLib) (buf : LineBuf)
    (fits : chunk.length ≤ 79) (reached : Reached chunk r)
    (named : Named (lineText chunk)) (own : OwnValue (lineText chunk)) :
    ∃ buf', readLine lib buf chunk r = (readText lib (lineText chunk) r).map fun r =>
        (true, buf', r) := by
  obtain ⟨buf', turn⟩ := readLine_looks lib buf fits reached.other reached.present reached.media
    fun letter => Or.inl (named.long letter)
  exact ⟨buf', by rw [turn, lineCase_own named own reached.first]⟩

/-- A turn that comes to the switch keeps to the line and the arrays exactly when the line fits. -/
theorem turn_iff (fits : chunk.length ≤ 79) (reached : Reached chunk r) :
    OnLine buf chunk r ∧ readLine lib buf chunk r ≠ .error .abort ↔ FitsLine chunk r := by
  constructor
  · rintro ⟨within, defined⟩ _
    obtain ⟨own, long⟩ := (onLine_iff fits reached).mp within
    obtain ⟨buf', turn⟩ := readLine_looks lib buf fits reached.other reached.present reached.media
      fun letter => Or.inl (long letter)
    -- A missing name is a NULL token, which the comparison would read.
    have named : Named (lineText chunk) := by
      by_contra nameless
      rw [turn, lineCase_nameless nameless] at defined
      exact defined rfl
    rw [turn, lineCase_own named own reached.first, map_defined] at defined
    exact ⟨named, own, (readText_defined named (lineText_short fits)).mp defined⟩
  · intro line
    obtain ⟨named, own, values⟩ := line reached.other
    obtain ⟨buf', turn⟩ := fits_turn lib buf fits reached named own
    refine ⟨(onLine_iff fits reached).mpr ⟨own, named.long⟩, ?_⟩
    rw [turn, map_defined]
    exact (readText_defined named (lineText_short fits)).mpr values

theorem onLine_ends (fits : chunk.length ≤ 79) (ends : endsReading chunk r) :
    OnLine buf chunk r := by
  intro _ length _
  by_cases blank : lineText chunk = []
  · rw [(atSwitch_spec buf fits).2, blank] at length
    exact absurd rfl length
  · obtain ⟨one, letter⟩ := ends.resolve_left blank
    have place := placed buf fits blank
    have first := place.first
    rw [letter] at first
    rw [place.offset, takenAt, first]
    simp [one]

end Turn

/-! A whole run. -/
section Run
variable {lib : SockaddrLib} {r : Reader} {chunks : List CStr}

theorem stays_ignored (fits : ∀ chunk ∈ chunks, chunk.length ≤ 79)
    (done : 1 < r.mediaCnt) (buf : LineBuf) :
    StaysOnLine lib chunks buf r := by
  induction chunks generalizing buf with
  | nil => trivial
  | cons chunk rest ih =>
      obtain ⟨short, fits⟩ := List.forall_mem_cons.mp fits
      refine ⟨fun _ _ media => absurd done (Nat.not_lt.mpr media), fun buf' r' turn => ?_⟩
      obtain ⟨buf1, _, same⟩ := readLine_turn lib buf short r
      have kept : r' = r := by
        rw [same, if_pos done] at turn
        split at turn
        · cases turn
          rfl
        · split at turn
          · cases turn
          · cases turn
            rfl
      rw [kept]
      exact ih fits buf'

theorem stays_ends {chunk : CStr} {rest : List CStr}
    (fits : ∀ other ∈ chunk :: rest, other.length ≤ 79)
    (other : isAck chunk = false) (ends : endsReading chunk r) (buf : LineBuf) :
    StaysOnLine lib (chunk :: rest) buf r := by
  obtain ⟨short, later⟩ := List.forall_mem_cons.mp fits
  refine ⟨onLine_ends short ends, fun buf' r' turn => ?_⟩
  rcases ends with blank | ⟨one, letter⟩
  · obtain ⟨buf1, same⟩ := readLine_blank lib buf short other blank r
    rw [same] at turn
    cases turn
  · obtain ⟨buf1, same⟩ := readLine_second lib buf short other letter one
    rw [same] at turn
    cases turn
    exact stays_ignored later (Nat.lt_succ_of_le (Nat.le_of_eq one.symm)) buf'

/-- The lines that are read without leaving the bounds. -/
def KeepsBounds (lib : SockaddrLib) (chunks : List CStr) (buf : LineBuf) (r : Reader) : Prop :=
  readLines lib chunks buf r ≠ .error .abort ∧ StaysOnLine lib chunks buf r

theorem keeps_ack {chunk : CStr} {rest : List CStr}
    (short : chunk.length ≤ 79) (ack : isAck chunk = true)
    (buf : LineBuf) :
    ∃ buf', KeepsBounds lib (chunk :: rest) buf r ↔ KeepsBounds lib rest buf' r := by
  obtain ⟨buf', turn⟩ := readLine_ack lib buf short ack r
  have skips : OnLine buf chunk r := fun other => absurd ack (by simp [other])
  refine ⟨buf', ?_⟩
  rw [KeepsBounds, KeepsBounds, readLines, StaysOnLine, turn]
  constructor
  · rintro ⟨defined, _, stays⟩
    exact ⟨defined, stays buf' r rfl⟩
  · rintro ⟨defined, stays⟩
    refine ⟨defined, skips, fun buf1 r1 same => ?_⟩
    cases same
    exact stays

theorem keeps_turn {chunk : CStr} {rest : List CStr}
    (short : chunk.length ≤ 79) (reached : Reached chunk r)
    (buf : LineBuf) : KeepsBounds lib (chunk :: rest) buf r ↔ FitsLine chunk r ∧ ∃ buf',
      readLine lib buf chunk r = (readText lib (lineText chunk) r).map (fun r => (true, buf', r)) ∧
        ∀ r', readText lib (lineText chunk) r = .ok r' → KeepsBounds lib rest buf' r' := by
  have step : OnLine buf chunk r ∧ readLine lib buf chunk r ≠ .error .abort ↔ FitsLine chunk r :=
    turn_iff short reached
  constructor
  · rintro ⟨defined, within, stays⟩
    have turnDefined : readLine lib buf chunk r ≠ .error .abort := by
      intro abort
      rw [readLines, abort] at defined
      exact defined rfl
    have line := step.mp ⟨within, turnDefined⟩
    obtain ⟨named, own, _⟩ := line reached.other
    obtain ⟨buf', turn⟩ := fits_turn lib buf short reached named own
    refine ⟨line, buf', turn, fun r' read => ?_⟩
    rw [read] at turn
    rw [readLines, turn] at defined
    exact ⟨defined, stays buf' r' turn⟩
  · rintro ⟨line, buf', turn, following⟩
    obtain ⟨within, turnDefined⟩ := step.mpr line
    rw [KeepsBounds, readLines, StaysOnLine]
    -- The turn does what the text of the line says, for the buffer holds the line.
    cases read : readText lib (lineText chunk) r with
    | error stop =>
        rw [read] at turn
        rw [turn] at turnDefined ⊢
        exact ⟨fun abort => turnDefined (by cases abort; rfl), within,
          fun _ _ same => by cases same⟩
    | ok r' =>
        rw [read] at turn
        obtain ⟨defined, stays⟩ := following r' read
        rw [turn]
        refine ⟨defined, within, fun buf1 r1 same => ?_⟩
        cases same
        exact stays

/-- The run keeps to its bounds exactly when each line that is read fits. -/
theorem run_iff (fits : ∀ chunk ∈ chunks, chunk.length ≤ 79)
    (media : r.mediaCnt ≤ 1) (buf : LineBuf) :
    KeepsBounds lib chunks buf r ↔ Along (readText lib) FitsLine chunks r := by
  -- By induction on the pieces, from any buffer and any state of at most one media line.
  induction chunks generalizing r buf with
  | nil => simp [KeepsBounds, readLines, StaysOnLine, Along]
  | cons chunk rest ih =>
      obtain ⟨short, later⟩ := List.forall_mem_cons.mp fits
      rw [Along]
      by_cases ack : isAck chunk = true
      · obtain ⟨buf', skips⟩ := keeps_ack short ack buf
        have trivially : FitsLine chunk r := fun other => absurd ack (by simp [other])
        rw [if_pos ack, skips, ih later media buf']
        exact (and_iff_right trivially).symm
      rw [if_neg ack]
      by_cases ends : endsReading chunk r
      · have other : isAck chunk = false := by simpa using ack
        obtain ⟨r', read, _⟩ := readLines_ends lib fits other ends buf
        rw [if_pos ends, KeepsBounds, read]
        exact iff_of_true ⟨ok_ne_abort r', stays_ends fits other ends buf⟩ trivial
      rw [if_neg ends]
      have reached := reached_of media ack ends
      have counted : ∀ r', readText lib (lineText chunk) r = .ok r' →
          r'.mediaCnt ≤ 1 := fun r' read =>
        readText_media media (fun second => ends (Or.inr second)) read
      rw [keeps_turn short reached]
      refine and_congr_right fun line => ⟨?_, fun following => ?_⟩
      · rintro ⟨buf', _, stays⟩ r' read
        exact (ih later (counted r' read) buf').mp (stays r' read)
      · obtain ⟨named, own, _⟩ := line reached.other
        obtain ⟨buf', turn⟩ := fits_turn lib buf short reached named own
        exact ⟨buf', turn, fun r' read => (ih later (counted r' read) buf').mpr (following r' read)⟩

theorem outcome_defined (read : Except Stop Reader) : outcome lib read ≠ none ↔
    read ≠ .error .abort := by
  cases read with
  | error stop => cases stop <;> simp [outcome, Except.bind]
  | ok r =>
      have closing : finish lib r.st ≠ .error .abort := by
        rw [finish]
        split
        · exact onError_ne_abort
        · split
          · exact onError_ne_abort
          · split
            · exact onError_ne_abort
            · exact ok_ne_abort _
      simp only [outcome, Except.bind, ne_eq, reduceCtorEq, not_false_eq_true, iff_true]
      split
      · simp
      · simp
      · next abort => exact (closing abort).elim

/-- The parser stays in its bounds exactly on the files whose lines fit. -/
theorem in_bounds_iff (lib : SockaddrLib) (stack : LineBuf) (file : List Char) :
    InBounds lib stack file ↔ Along (readText lib) FitsLine (fgetsAll 79 79 file) .start := by
  have fits : ∀ chunk ∈ fgetsAll 79 79 file, chunk.length ≤ 79 := fun chunk member =>
    (fgetsAll_length (by decide) file chunk member).2
  have run : KeepsBounds lib (fgetsAll 79 79 file) stack .start ↔
    _ := run_iff fits (Nat.zero_le 1) stack
  have defined : (∀ rem, icedemoInputRemote2 lib stack file rem ≠ none) ↔
      readLines lib (fgetsAll 79 79 file) stack .start ≠ .error .abort :=
    ⟨fun each => (outcome_defined _).mp (each resetRemInfo),
      fun read _ => (outcome_defined _).mpr read⟩
  rw [← run, KeepsBounds, ← defined]
  exact ⟨fun bounds => ⟨bounds.defined, bounds.onLine⟩, fun both => ⟨both.1, both.2⟩⟩

def crowded : List Char :=
  unlines (List.replicate 9 "a=candidate:F 1 UDP 1 192.168.0.1 4000 typ host".toList)

/-- The ninth candidate, and an attribute line without a name. -/
theorem crowded_overflows :
    ¬ InBounds dottedLib (Vector.replicate 80 '\x00') crowded ∧
      ¬ InBounds dottedLib (Vector.replicate 80 '\x00') "a=\n".toList := by
  have overflow :
    (icedemoInputRemote2 dottedLib (Vector.replicate 80 '\x00') crowded resetRemInfo).map
      (·.candCnt) = none := by decide +kernel
  have nameless : (icedemoInputRemote2 dottedLib (Vector.replicate 80 '\x00') "a=\n".toList
      resetRemInfo).map (·.candCnt) = none := by decide +kernel
  exact ⟨fun bounds => bounds.defined _ (Option.map_eq_none_iff.mp overflow),
    fun bounds => bounds.defined _ (Option.map_eq_none_iff.mp nameless)⟩

end Run

end NatClient.SdpBounds
