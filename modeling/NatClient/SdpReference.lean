import NatClient.SdpTurns
import NatClient.SdpRoundTrip

/-!
The reference reading of a peer file, line by line, and the files that
`icedemo_input_remote2` reads like that. The buffer machine departs from it where a
line does not fit the buffer, where an attribute has no name and where a text is
taken from behind the last line.
-/

namespace NatClient.SdpReference

open CString CStdio IceTypes XmlDecoder SdpReader SdpTurns SdpRoundTrip DescriptionRoundTrip

/-! The lines of a text, each with its line end; the last one may have none. -/
section Lines

def cutLines : List Char → List CStr
  | [] => []
  | c :: rest =>
      if c = '\n' then [c] :: cutLines rest
      else match cutLines rest with
        | [] => [[c]]
        | line :: later => (c :: line) :: later

inductive Cut : List CStr → Prop
  | nil : Cut []
  | last {line : CStr} (present : line ≠ []) (plain : '\n' ∉ line) : Cut [line]
  | cons {front : CStr} {rest : List CStr} (plain : '\n' ∉ front) (later : Cut rest) :
      Cut (terminated front :: rest)

theorem cutLines_cut (file : List Char) : Cut (cutLines file) := by
  induction file with
  | nil => exact .nil
  | cons c rest ih =>
      rw [cutLines]
      split
      · next lineEnd =>
          subst lineEnd
          exact .cons List.not_mem_nil ih
      · next ordinary =>
          have extended : ∀ {line : CStr}, '\n' ∉ line → '\n' ∉ c :: line := by
            intro line plain member
            exact (List.mem_cons.mp member).elim (fun same => ordinary same.symm) plain
          cases cut : cutLines rest with
          | nil => exact .last (List.cons_ne_nil c []) (extended List.not_mem_nil)
          | cons line later =>
              rw [cut] at ih
              cases ih with
              | last present plain => exact .last (List.cons_ne_nil c line) (extended plain)
              | cons plain later => exact .cons (extended plain) later

theorem cutLines_flatten (file : List Char) : (cutLines file).flatten = file := by
  induction file with
  | nil => rfl
  | cons c rest ih =>
      rw [cutLines]
      split
      · rw [List.flatten_cons, ih]
        rfl
      · cases cut : cutLines rest with
        | nil =>
            rw [cut] at ih
            rw [← ih]
            rfl
        | cons line later =>
            rw [cut] at ih
            rw [← ih]
            rfl

theorem cut_clean {file : List Char} (text : '\x00' ∉ file) :
    ∀ line ∈ cutLines file, '\x00' ∉ line := by
  intro line member terminator
  rw [← cutLines_flatten file] at text
  exact text (List.mem_flatten.mpr ⟨line, member, terminator⟩)

end Lines

/-! The reference reading. -/
section Reference
variable (lib : SockaddrLib)

def readNamed (body : CStr) (r : Reader) : Except Stop Reader :=
  if attrName body = [] then .ok r
  else do
    let rem ← applyAttribute lib (attrName body) (.ok (body.drop (attrStop body + 1))) r.st.rem
    .ok { r with st := { r.st with rem := rem } }

/-- The first letter tells the kind of a line, its value starts two characters on. -/
def readText (text : CStr) (r : Reader) : Except Stop Reader :=
  match text.head? with
  | some 'm' => mediaOf (text.drop 2) r
  | some 'c' => connectionOf (text.drop 2) r
  | some 'a' => readNamed lib (text.drop 2) r
  | _ => .ok r

def isMedia (line : CStr) : Bool := (lineText line).head? = some 'm'

def beforeMedia : Nat → List CStr → List CStr
  | _, [] => []
  | left, line :: rest =>
      if isMedia line = true then
        match left with
        | 0 => []
        | left + 1 => line :: beforeMedia left rest
      else line :: beforeMedia left rest

/-- Acknowledgements are dropped, a blank line and a second media line end the input. -/
def relevantLines (file : List Char) : List CStr :=
  beforeMedia 1
    (((cutLines file).filter fun line => !isAck line).takeWhile fun line => lineText line ≠ [])

/-- No result stands for a field that does not fit its array. -/
def outcome (read : Except Stop Reader) : Option RemInfo :=
  match read.bind fun r => finish lib r.st with
  | .ok rem => some rem
  | .error .onError => some resetRemInfo
  | .error .abort => none

def reference (file : List Char) : Option RemInfo :=
  outcome lib ((relevantLines file).foldlM (fun r line => readText lib (lineText line) r) .start)

end Reference

/-! When the reader does the same. -/
section Faithful
variable (lib : SockaddrLib)

/-- The line comes in one piece, and the turn takes from it what it says, whatever
the buffer held before. -/
def OwnLine (line : CStr) (r : Reader) : Prop :=
  fgetsAll 79 79 line = [line] ∧
    ∀ buf, (readLine lib buf line r).map (fun turn => turn.2.2) =
      if isAck line = true then .ok r else readText lib (lineText line) r

structure LineFaithful (file : List Char) : Prop where
  outcome : ∀ stack rem, icedemoInputRemote2 lib stack file rem = reference lib file
  lines : Along (readText lib) (OwnLine lib) (cutLines file) .start

def knownNames : List CStr :=
  ["ice-ufrag".toList, "ice-pwd".toList, "rtcp".toList, "candidate".toList]

def Named (text : CStr) : Prop := text.head? = some 'a' → attrName (text.drop 2) ≠ []

/-- The value is on the line: behind the letter and one more character, or behind the
name of a known attribute and its delimiter. -/
def OwnValue (text : CStr) : Prop :=
  (text.head? = some 'm' ∨ text.head? = some 'c' → 2 ≤ text.length) ∧
    (text.head? = some 'a' → attrName (text.drop 2) ∈ knownNames →
      2 + attrStop (text.drop 2) < text.length)

def ended (line : CStr) : Bool := line.getLast?.any isLineEnd

/-- Lines that the buffer machine reads like the reference. -/
def SoundLine (line : CStr) (_r : Reader) : Prop :=
  line.length ≤ 79 ∧ (isAck line = false →
    Named (lineText line) ∧ (ended line = false → OwnValue (lineText line)))

instance (text : CStr) : Decidable (Named text) := inferInstanceAs (Decidable (_ → _))

instance (text : CStr) : Decidable (OwnValue text) := inferInstanceAs (Decidable (_ ∧ _))

instance (line : CStr) (r : Reader) : Decidable (SoundLine line r) :=
  inferInstanceAs (Decidable (_ ∧ _))

end Faithful

/-! The reference takes the lines one after the other. -/
section Turns
variable {lib : SockaddrLib} {r r' : Reader}

theorem mediaOf_count {value : CStr} (read : mediaOf value r = .ok r') :
    r'.mediaCnt = r.mediaCnt + 1 := by
  unfold mediaOf at read
  cases scanned : sscanf mediaFormat value with
  | none => simp [scanned, orAbort, bind, Except.bind] at read
  | some fields =>
      simp only [scanned, orAbort, bind, Except.bind] at read
      split at read
      · cases read
        rfl
      · exact absurd read (by simp)

theorem connectionOf_count {value : CStr} (read : connectionOf value r = .ok r') :
    r'.mediaCnt = r.mediaCnt := by
  unfold connectionOf at read
  cases scanned : sscanf connectionFormat value with
  | none => simp [scanned, orAbort, bind, Except.bind] at read
  | some fields =>
      simp only [scanned, orAbort, bind, Except.bind] at read
      split at read
      · split at read
        · exact absurd read (by simp)
        · cases read
          rfl
      · exact absurd read (by simp)

theorem readNamed_count {body : CStr} (read : readNamed lib body r = .ok r') :
    r'.mediaCnt = r.mediaCnt := by
  unfold readNamed at read
  split at read
  · cases read
    rfl
  · cases applied :
      applyAttribute lib (attrName body) (.ok (body.drop (attrStop body + 1))) r.st.rem with
    | error stop => simp [applied, bind, Except.bind] at read
    | ok rem =>
        simp only [applied, bind, Except.bind] at read
        cases read
        rfl

theorem readText_count {text : CStr} (read : readText lib text r = .ok r') :
    r'.mediaCnt = if text.head? = some 'm' then r.mediaCnt + 1 else r.mediaCnt := by
  unfold readText at read
  split at read
  · next letter => rw [if_pos letter, mediaOf_count read]
  · next letter => rw [if_neg (by simp [letter]), connectionOf_count read]
  · next letter => rw [if_neg (by simp [letter]), readNamed_count read]
  · next notM _ _ =>
      cases read
      rw [if_neg notM]

theorem readText_media {text : CStr} (media : r.mediaCnt ≤ 1)
    (kept : ¬ (r.mediaCnt = 1 ∧ text.head? = some 'm')) (read : readText lib text r = .ok r') :
    r'.mediaCnt ≤ 1 := by
  rw [readText_count read]
  split
  · next letter =>
      have other : r.mediaCnt ≠ 1 := fun one => kept ⟨one, letter⟩
      omega
  · exact media

theorem bind_congr_ok {α β : Type} {result : Except Stop α} {first second : α → Except Stop β}
    (same : ∀ value, result = .ok value → first value = second value) :
    result.bind first = result.bind second := by
  cases result with
  | error stop => rfl
  | ok value => exact same value rfl

theorem beforeMedia_other {line : CStr} (other : isMedia line = false)
    (left : Nat) (rest : List CStr) :
    beforeMedia left (line :: rest) = line :: beforeMedia left rest := by
  cases left <;> simp [beforeMedia, other]

theorem beforeMedia_first {line : CStr} (letter : isMedia line = true)
    (left : Nat) (rest : List CStr) :
    beforeMedia (left + 1) (line :: rest) = line :: beforeMedia left rest := by
  simp [beforeMedia, letter]

theorem beforeMedia_second {line : CStr} (letter : isMedia line = true) (rest : List CStr) :
    beforeMedia 0 (line :: rest) = [] := by
  simp [beforeMedia, letter]

/-- The lines that count, one after the other, until one ends the reading. -/
theorem relevant_run (lines : List CStr) (media : r.mediaCnt ≤ 1) :
    (beforeMedia (1 - r.mediaCnt) ((lines.filter fun line => !isAck line).takeWhile
      fun line => lineText line ≠ [])).foldlM (fun r line => readText lib (lineText line) r) r =
      readPieces (readText lib) lines r := by
  induction lines generalizing r with
  | nil => rfl
  | cons line rest ih =>
      rw [readPieces]
      by_cases ack : isAck line = true
      · rw [List.filter_cons_of_neg (by simp [ack]), if_pos ack]
        exact ih media
      rw [List.filter_cons_of_pos (by simpa using ack), if_neg ack]
      -- A blank line ends both, whatever was counted before.
      by_cases blank : lineText line = []
      · have ends : endsReading line r := Or.inl blank
        rw [List.takeWhile_cons_of_neg (by simpa using blank), if_pos ends]
        cases r.mediaCnt <;> rfl
      rw [List.takeWhile_cons_of_pos (by simpa using blank)]
      by_cases letter : isMedia line = true
      · have head : (lineText line).head? = some 'm' := by simpa [isMedia] using letter
        cases count : r.mediaCnt with
        | zero =>
            have continues : ¬ endsReading line r := by simp [endsReading, blank, count]
            rw [beforeMedia_first letter 0, if_neg continues]
            apply bind_congr_ok
            intro r' read
            have counted := readText_count read
            rw [if_pos head, count] at counted
            rw [← ih (by omega), counted]
        | succ before =>
            -- The second media line: the reference drops it with all that follows.
            have one : before = 0 := by omega
            have ends : endsReading line r := Or.inr ⟨by omega, head⟩
            rw [one, if_pos ends]
            exact congrArg _ (beforeMedia_second letter _)
      · have other : ¬ (lineText line).head? = some 'm' := by simpa [isMedia] using letter
        have continues : ¬ endsReading line r := by simp [endsReading, blank, other]
        rw [beforeMedia_other (by simpa using letter), if_neg continues]
        apply bind_congr_ok
        intro r' read
        have counted := readText_count read
        rw [if_neg other] at counted
        rw [← ih (by omega), counted]

theorem reference_run (file : List Char) :
    reference lib file = outcome lib (readPieces (readText lib) (cutLines file) .start) := by
  rw [reference, relevantLines, ← relevant_run (cutLines file) (Nat.zero_le 1)]
  rfl

end Turns

/-! A line, read by the buffer machine and by the reference. -/
section Single
variable {lib : SockaddrLib} {r : Reader}

theorem readText_other {text : CStr} (notM : text.head? = some 'm' → False)
    (notC : text.head? = some 'c' → False) (notA : text.head? = some 'a' → False) :
    readText lib text r = .ok r := by
  unfold readText
  split
  · next letter => exact (notM letter).elim
  · next letter => exact (notC letter).elim
  · next letter => exact (notA letter).elim
  · rfl

/-! The value of an attribute counts when the name is known. -/

theorem apply_unknown {attr : CStr} (unknown : attr ∉ knownNames) (value : Except Stop CStr)
    (rem : RemInfo) : applyAttribute lib attr value rem = .ok rem := by
  simp only [knownNames, List.mem_cons, List.not_mem_nil, or_false, not_or] at unknown
  obtain ⟨ufrag, pwd, rtcp, candidate⟩ := unknown
  rw [applyAttribute, if_neg ufrag, if_neg pwd, if_neg rtcp, if_neg candidate]

theorem known_cases {attr : CStr} (known : attr ∈ knownNames) : attr = "ice-ufrag".toList ∨
    attr = "ice-pwd".toList ∨ attr = "rtcp".toList ∨ attr = "candidate".toList := by
  simpa [knownNames] using known

theorem apply_stale {attr : CStr} (known : attr ∈ knownNames) (rem : RemInfo) :
    applyAttribute lib attr (.error .abort) rem = .error .abort := by
  rcases known_cases known with rfl | rfl | rfl | rfl <;> rfl

theorem apply_empty (lib : SockaddrLib) {attr : CStr} (known : attr ∈ knownNames) (rem : RemInfo) :
    applyAttribute lib attr (.ok []) rem ≠ .error .abort := by
  rcases known_cases known with rfl | rfl | rfl | rfl
  all_goals
    intro abort
    cases abort

theorem lineCase_own {text : CStr} (named : Named text) (own : OwnValue text)
    (first : text.head? = some 'm' → r.mediaCnt = 0) (behind : Except Stop CStr) :
    lineCase lib behind text r = readText lib text r := by
  obtain ⟨long, value⟩ := own
  unfold lineCase
  split
  · next letter =>
      rw [first letter, if_neg (by decide), textFrom,
        if_pos (long (Or.inl letter)), readText, letter]
      rfl
  · next letter =>
      rw [textFrom, if_pos (long (Or.inr letter)), readText, letter]
      rfl
  · next letter =>
      rw [attributeOf, if_neg (named letter), readText, letter]
      simp only [readNamed, if_neg (named letter)]
      by_cases known : attrName (text.drop 2) ∈ knownNames
      · have inside := value letter known
        rw [textFrom, if_pos (by omega), List.drop_drop]
        rfl
      · rw [apply_unknown known, apply_unknown known]
  · next notM notC notA => rw [readText_other notM notC notA]

theorem textFrom_empty (text : CStr) (offset : Nat) :
    textFrom (.ok []) text offset = .ok (text.drop offset) := by
  unfold textFrom
  split
  · rfl
  · next beyond => rw [List.drop_eq_nil_of_le (by omega)]

theorem lineCase_empty {text : CStr} (named : Named text)
    (first : text.head? = some 'm' → r.mediaCnt = 0) :
    lineCase lib (.ok []) text r = readText lib text r := by
  unfold lineCase
  split
  · next letter =>
      rw [first letter, if_neg (by decide), textFrom_empty, readText, letter]
      rfl
  · next letter =>
      rw [textFrom_empty, readText, letter]
      rfl
  · next letter =>
      rw [attributeOf, if_neg (named letter), textFrom_empty, readText, letter]
      simp only [readNamed, if_neg (named letter), List.drop_drop]
      rfl
  · next notM notC notA => rw [readText_other notM notC notA]

theorem lineCase_nameless {text : CStr} (nameless : ¬ Named text) (behind : Except Stop CStr) :
    lineCase lib behind text r = .error .abort := by
  simp only [Named, Classical.not_imp, not_not] at nameless
  obtain ⟨letter, empty⟩ := nameless
  rw [lineCase, letter]
  simp only [attributeOf, empty, ↓reduceIte]

theorem lineCase_stale {text : CStr} (named : Named text) (foreign : ¬ OwnValue text)
    (first : text.head? = some 'm' → r.mediaCnt = 0) :
    lineCase lib (.error .abort) text r = .error .abort := by
  simp only [OwnValue, not_and_or, Classical.not_imp, Nat.not_le, Nat.not_lt] at foreign
  rcases foreign with ⟨letter, short⟩ | ⟨letter, known, beyond⟩
  · have value : textFrom (.error .abort) text 2 = .error .abort := by
      rw [textFrom, if_neg (by omega)]
    rcases letter with letter | letter
    · rw [lineCase, letter, first letter, if_neg (by decide), value]
      rfl
    · rw [lineCase, letter, value]
      rfl
  · rw [lineCase, letter]
    simp only [attributeOf, if_neg (named letter)]
    rw [textFrom, if_neg (by omega), apply_stale known]
    rfl

theorem readNamed_empty {body : CStr} (empty : body.drop (attrStop body + 1) = []) :
    readNamed lib body r ≠ .error .abort := by
  unfold readNamed
  rw [empty]
  split
  · exact ok_ne_abort r
  · by_cases known : attrName body ∈ knownNames
    · have fine := apply_empty lib known r.st.rem
      intro abort
      cases applied : applyAttribute lib (attrName body) (.ok []) r.st.rem with
      | error stop =>
          rw [applied] at fine abort
          cases abort
          exact fine rfl
      | ok rem =>
          rw [applied] at abort
          cases abort
    · rw [apply_unknown known]
      exact ok_ne_abort _

theorem readText_fine {text : CStr} (flawed : ¬ Named text ∨ ¬ OwnValue text) :
    readText lib text r ≠ .error .abort := by
  simp only [Named, OwnValue, not_and_or, Classical.not_imp, not_not, Nat.not_le, Nat.not_lt]
    at flawed
  rcases flawed with ⟨letter, empty⟩ | ⟨letter, short⟩ | ⟨letter, _, beyond⟩
  · rw [readText, letter]
    simp only [readNamed, empty, ↓reduceIte]
    exact ok_ne_abort r
  · have nothing : text.drop 2 = [] := List.drop_eq_nil_of_le (by omega)
    rcases letter with letter | letter
    · rw [readText, letter]
      simp only [nothing]
      exact onError_ne_abort
    · rw [readText, letter]
      simp only [nothing]
      exact onError_ne_abort
  · rw [readText, letter]
    apply readNamed_empty
    rw [List.drop_drop]
    exact List.drop_eq_nil_of_le (by omega)

end Single

/-! One line in the buffer. -/
section Buffered
variable {lib : SockaddrLib} {r : Reader} {line : CStr}

theorem trimmed_ended (clean : '\x00' ∉ line) :
    (trimmed line).length < line.length ↔ ended line = true := by
  have text : trimmed line = line.rdropWhile isLineEnd := by rw [trimmed, cString_self.mpr clean]
  have front := List.rdropWhile_prefix isLineEnd (l := line)
  -- The trimmed line is a front of the line, so it is shorter exactly when it differs.
  have kept : (trimmed line).length = line.length ↔ trimmed line = line := by
    rw [text]
    exact ⟨front.eq_of_length, fun same => congrArg _ same⟩
  have short := front.length_le
  rw [← text] at short
  rw [Nat.lt_iff_le_and_ne, and_iff_right short, Ne, kept, text, List.rdropWhile_eq_self_iff, ended]
  cases line with
  | nil => simp
  | cons c rest => simp [List.getLast?_eq_some_getLast (List.cons_ne_nil c rest)]

theorem behind_ended (clean : '\x00' ∉ line) (lineEnd : ended line = true) (buf : LineBuf) :
    behindText (behindLine buf line) = .ok [] := by
  have shorter := (trimmed_ended clean).mpr lineEnd
  obtain ⟨count, positive⟩ : ∃ count, (cString line).length - (trimmed line).length = count + 1 :=
    ⟨line.length - (trimmed line).length - 1, by rw [cString_self.mpr clean]; omega⟩
  rw [behindLine, positive, behindText, if_pos (by simp), cString_zeroes]

theorem behind_last (clean : '\x00' ∉ line) (open_ : ended line = false) (buf : LineBuf) :
    behindLine buf line = buf.toList.drop (line.length + 1) := by
  have short := trimmed_length line
  have whole : (trimmed line).length = line.length := by
    have other := (not_congr (trimmed_ended clean)).mpr (by simp [open_])
    rw [cString_self.mpr clean] at short
    omega
  have length : (line ++ ['\x00']).length ≤ line.length + 1 := by simp
  rw [behindLine, cString_self.mpr clean, whole, Nat.sub_self, List.drop_eq_nil_of_le length]
  rfl

def filled : LineBuf := Vector.replicate 80 '?'

theorem behind_filled (clean : '\x00' ∉ line) (open_ : ended line = false) :
    behindText (behindLine filled line) = .error .abort := by
  rw [behind_last clean open_, behindText, if_neg]
  intro member
  have stale := List.mem_of_mem_drop member
  rw [filled, Vector.toList_replicate] at stale
  exact absurd (List.eq_of_mem_replicate stale) (by decide)

/-- A line that is not an acknowledgement and does not end the reading. -/
structure Reached (line : CStr) (r : Reader) : Prop where
  other : isAck line = false
  present : lineText line ≠ []
  media : r.mediaCnt ≤ 1
  first : (lineText line).head? = some 'm' → r.mediaCnt = 0

theorem reached_of (media : r.mediaCnt ≤ 1) (other : ¬ isAck line = true)
    (continues : ¬ endsReading line r) :
    Reached line r := by
  rw [endsReading, not_or] at continues
  refine ⟨by simpa using other, continues.1, media, fun letter => ?_⟩
  have notSecond : r.mediaCnt ≠ 1 := fun one => continues.2 ⟨one, letter⟩
  omega

theorem Named.long {text : CStr} (named : Named text) (letter : text.head? = some 'a') :
    2 ≤ text.length := by
  by_contra short
  apply named letter
  rw [List.drop_eq_nil_of_le (by omega)]
  rfl

theorem sound_turn (lib : SockaddrLib) (clean : '\x00' ∉ line) (reached : Reached line r)
    (sound : SoundLine line r) (buf : LineBuf) :
    ∃ buf', readLine lib buf line r = (readText lib (lineText line) r).map fun r =>
        (true, buf', r) := by
  obtain ⟨fits, values⟩ := sound
  obtain ⟨named, own⟩ := values reached.other
  obtain ⟨buf', turn⟩ := readLine_looks lib buf fits reached.other reached.present reached.media
    fun letter => Or.inl (named.long letter)
  refine ⟨buf', ?_⟩
  rw [turn]
  -- The zero that replaces a line end stands behind the line, so nothing stale is reached.
  by_cases lineEnd : ended line = true
  · rw [behind_ended clean lineEnd, lineCase_empty named reached.first]
  · rw [lineCase_own named (own (by simpa using lineEnd)) reached.first]

/-- Over a buffer without terminator, a line that is not sound has no defined reading. -/
theorem unsound_turn (clean : '\x00' ∉ line) (reached : Reached line r) (fits : line.length ≤ 79)
    (flawed : ¬ (Named (lineText line) ∧ (ended line = false → OwnValue (lineText line)))) :
    readLine lib filled line r = .error .abort := by
  have behind : behindText (behindLine filled line) = .ok [] ∨
      behindText (behindLine filled line) = .error .abort := by
    by_cases lineEnd : ended line = true
    · exact Or.inl (behind_ended clean lineEnd filled)
    · exact Or.inr (behind_filled clean (by simpa using lineEnd))
  obtain ⟨buf', turn⟩ := readLine_looks lib filled fits reached.other reached.present reached.media
    fun _ => Or.inr behind
  rw [turn]
  by_cases named : Named (lineText line)
  · have own : ¬ (ended line = false → OwnValue (lineText line)) := fun own => flawed ⟨named, own⟩
    rw [Classical.not_imp] at own
    rw [behind_filled clean own.1, lineCase_stale named own.2 reached.first]
    rfl
  · rw [lineCase_nameless named]
    rfl

end Buffered

/-! How `fgets` cuts a line. -/
section Pieces

def OneLine (line : CStr) : Prop :=
  ∃ front, '\n' ∉ front ∧ (line = terminated front ∨ (line = front ∧ front ≠ []))

theorem whole_iff {line : CStr} (one : OneLine line) : fgetsAll 79 79 line = [line] ↔
    line.length ≤ 79 := by
  constructor
  · intro whole
    exact (fgetsAll_length (by decide) line line
      (by rw [whole]; exact List.mem_singleton_self line)).2
  · intro fits
    obtain ⟨front, plain, rfl | ⟨rfl, present⟩⟩ := one
    · have short : front.length < 79 := by simpa [terminated] using fits
      exact fgetsAll_line plain short []
    · exact fgetsAll_last plain present fits 79

variable {line : CStr} {rest : List CStr}

theorem Cut.tail (cut : Cut (line :: rest)) : Cut rest := by
  cases cut with
  | last present plain => exact .nil
  | cons plain later => exact later

theorem Cut.one (cut : Cut (line :: rest)) : OneLine line := by
  cases cut with
  | last present plain => exact ⟨line, plain, Or.inr ⟨rfl, present⟩⟩
  | cons plain later => exact ⟨_, plain, Or.inl rfl⟩

theorem cut_each {lines : List CStr} (cut : Cut lines) : ∀ line ∈ lines, OneLine line := by
  induction lines with
  | nil => simp
  | cons line rest ih => exact List.forall_mem_cons.mpr ⟨cut.one, ih cut.tail⟩

theorem pieces_whole (cut : Cut (line :: rest)) (fits : line.length ≤ 79) :
    fgetsAll 79 79 (line :: rest).flatten = line :: fgetsAll 79 79 rest.flatten := by
  cases cut with
  | last present plain =>
      rw [List.flatten_cons, List.flatten_nil, List.append_nil, fgetsAll_last plain present fits]
      rfl
  | @cons front _ plain later =>
      have short : front.length < 79 := by simpa [terminated] using fits
      rw [List.flatten_cons, terminated, List.append_assoc]
      exact fgetsAll_line plain short rest.flatten

theorem pieces_first (cut : Cut (line :: rest)) :
    ∃ first later, fgetsAll 79 79 (line :: rest).flatten = first :: later ∧ first <+: line ∧
      first.take 4 = line.take 4 := by
  by_cases fits : line.length ≤ 79
  · exact ⟨line, _, pieces_whole cut fits, List.prefix_rfl, rfl⟩
  · cases cut with
    | last present plain =>
        refine ⟨line.take 79, _, fgetsAll_long plain (by decide) (by omega) 79
          [], List.take_prefix 79 line, ?_⟩
        rw [List.take_take]
        rfl
    | @cons front _ plain later =>
        rw [terminated, List.length_append, List.length_singleton] at fits
        rw [List.flatten_cons, terminated, List.append_assoc,
          fgetsAll_long plain (by decide) (by omega)]
        refine ⟨front.take 79, _, rfl, (List.take_prefix 79 front).trans
          (List.prefix_append front _), ?_⟩
        rw [List.take_take, List.take_append_of_le_length (by omega)]
        rfl

theorem lineText_first (clean : '\x00' ∉ line) :
    (lineText line).head? = line.find? fun c => !isSpace c := by
  have split : line.rdropWhile isLineEnd ++ line.rtakeWhile isLineEnd = line :=
    List.rdropWhile_append_rtakeWhile
  have spaces : (line.rtakeWhile isLineEnd).find? (fun c => !isSpace c) = none := by
    rw [List.find?_eq_none]
    intro c member
    have lineEnd := List.mem_rtakeWhile_imp member
    simp only [isLineEnd, Bool.or_eq_true, decide_eq_true_eq] at lineEnd
    rcases lineEnd with rfl | rfl <;> decide
  have whole := congrArg (List.find? fun c => !isSpace c) split
  rw [List.find?_append, spaces, Option.or_none] at whole
  rw [lineText, trimmed, cString_self.mpr clean, ← whole, skipSpace,
    List.find?_not_eq_head?_dropWhile]

theorem ends_first {first : CStr} {r : Reader} (clean : '\x00' ∉ line) (front : first <+: line)
    (ends : endsReading line r) : endsReading first r := by
  have firstClean : '\x00' ∉ first := fun member => clean (front.subset member)
  rw [endsReading, ← List.head?_eq_none_iff, lineText_first clean] at ends
  rw [endsReading, ← List.head?_eq_none_iff, lineText_first firstClean]
  cases found : first.find? fun c => !isSpace c with
  | none => exact Or.inl rfl
  | some c =>
      have same := front.find?_eq_some found
      rw [same] at ends
      exact ends

end Pieces

/-! Runs over the lines of a file. -/
section Whole
variable {lib : SockaddrLib} {r : Reader} {lines : List CStr}

theorem ownLine_iff {line : CStr} (one : OneLine line) (clean : '\x00' ∉ line)
    (looked : isAck line = true ∨ Reached line r) : OwnLine lib line r ↔ SoundLine line r := by
  constructor
  · rintro ⟨whole, same⟩
    have fits := (whole_iff one).mp whole
    refine ⟨fits, fun other => ?_⟩
    have reached := looked.resolve_left (by simp [other])
    by_contra flawed
    -- A buffer without a zero byte shows what the turn takes from behind the line.
    have turn := same filled
    rw [unsound_turn clean reached fits flawed, if_neg (by simp [other])] at turn
    rw [not_and_or, Classical.not_imp] at flawed
    exact readText_fine (flawed.imp_right And.right) turn.symm
  · intro sound
    refine ⟨(whole_iff one).mpr sound.1, fun buf => ?_⟩
    rcases looked with ack | reached
    · obtain ⟨buf', turn⟩ := readLine_ack lib buf sound.1 ack r
      rw [turn, if_pos ack]
      rfl
    · obtain ⟨buf', turn⟩ := sound_turn lib clean reached sound buf
      rw [turn, if_neg (by simp [reached.other])]
      cases readText lib (lineText line) r <;> rfl

theorem along_iff (shape : ∀ line ∈ lines, OneLine line) (clean : ∀ line ∈ lines, '\x00' ∉ line)
    (media : r.mediaCnt ≤ 1) :
    Along (readText lib) (OwnLine lib) lines r ↔ Along (readText lib) SoundLine lines r := by
  induction lines generalizing r with
  | nil => exact Iff.rfl
  | cons line rest ih =>
      obtain ⟨one, shape⟩ := List.forall_mem_cons.mp shape
      obtain ⟨front, clean⟩ := List.forall_mem_cons.mp clean
      rw [Along, Along]
      by_cases ack : isAck line = true
      · rw [if_pos ack, if_pos ack, ownLine_iff one front (Or.inl ack), ih shape clean media]
      · rw [if_neg ack, if_neg ack]
        by_cases ends : endsReading line r
        · rw [if_pos ends, if_pos ends]
        · rw [if_neg ends, if_neg ends]
          have reached := reached_of media ack ends
          refine and_congr (ownLine_iff one front (Or.inr reached)) (forall_congr' fun r' => ?_)
          refine imp_congr_right fun read => ih shape clean (readText_media media ?_ read)
          exact fun second => ends (Or.inr second)

def left (read : Except Stop Reader) : Except Stop DecodeState := read.map (·.st)

theorem left_ends {line : CStr} {rest : List CStr}
    (cut : Cut (line :: rest)) (clean : '\x00' ∉ line)
    (other : isAck line = false) (ends : endsReading line r) (buf : LineBuf) :
    left (readLines lib (fgetsAll 79 79 (line :: rest).flatten) buf r) = .ok r.st := by
  obtain ⟨first, later, pieces, front, same⟩ := pieces_first cut
  have fits : ∀ piece ∈ fgetsAll 79 79 (line :: rest).flatten, piece.length ≤ 79 :=
      fun piece member =>
    (fgetsAll_length (by decide) _ piece member).2
  rw [pieces] at fits
  have otherFirst : isAck first = false := by rw [isAck, same]; exact other
  obtain ⟨r', read, kept⟩ := readLines_ends lib fits otherFirst (ends_first clean front ends) buf
  rw [pieces, read, left, Except.map, kept]

/-- Over sound lines the buffer machine and the reference leave the same; the induction
is on the lines, from any content of the buffer. -/
theorem sound_run (cut : Cut lines) (clean : ∀ line ∈ lines, '\x00' ∉ line) (media : r.mediaCnt ≤ 1)
    (sound : Along (readText lib) SoundLine lines r) (buf : LineBuf) :
    left (readLines lib (fgetsAll 79 79 lines.flatten) buf r) = left
        (readPieces (readText lib) lines r) := by
  induction lines generalizing r buf with
  | nil => rfl
  | cons line rest ih =>
      obtain ⟨front, clean⟩ := List.forall_mem_cons.mp clean
      rw [Along] at sound
      rw [readPieces]
      by_cases ack : isAck line = true
      · rw [if_pos ack] at sound
        obtain ⟨here, later⟩ := sound
        obtain ⟨buf', turn⟩ := readLine_ack lib buf here.1 ack r
        rw [if_pos ack, pieces_whole cut here.1, readLines, turn]
        exact ih cut.tail clean media later buf'
      rw [if_neg ack] at sound ⊢
      by_cases ends : endsReading line r
      · rw [if_pos ends, left_ends cut front (by simpa using ack) ends]
        rfl
      rw [if_neg ends] at sound ⊢
      obtain ⟨here, later⟩ := sound
      have reached := reached_of media ack ends
      -- The line comes as one piece, and what the turn leaves in the buffer does not matter.
      obtain ⟨buf', turn⟩ := sound_turn lib front reached here buf
      rw [pieces_whole cut here.1, readLines, turn]
      cases read : readText lib (lineText line) r with
      | error stop => rfl
      | ok r' =>
          have media' := readText_media media (fun second => ends (Or.inr second)) read
          exact ih cut.tail clean media' (later r' read) buf'

theorem outcome_left {first second : Except Stop Reader} (same : left first = left second) :
    outcome lib first = outcome lib second := by
  have through : ∀ read : Except Stop Reader,
      (read.bind fun r => finish lib r.st) = (left read).bind (finish lib) := by
    intro read
    cases read <;> rfl
  rw [outcome, outcome, through, through, same]

/-- A text file is read line by line exactly when its lines are sound. -/
theorem line_faithful_iff (lib : SockaddrLib) (file : List Char) (text : '\x00' ∉ file) :
    LineFaithful lib file ↔ Along (readText lib) SoundLine (cutLines file) .start := by
  have cut := cutLines_cut file
  have clean := cut_clean text
  have lines : Along (readText lib) (OwnLine lib) (cutLines file) .start ↔ _ :=
    along_iff (cut_each cut) clean (Nat.zero_le 1)
  constructor
  · intro faithful
    exact lines.mp faithful.lines
  · intro sound
    refine ⟨fun stack rem => ?_, lines.mpr sound⟩
    have run := sound_run cut clean (Nat.zero_le 1) sound stack
    rw [cutLines_flatten] at run
    rw [reference_run]
    exact outcome_left run

theorem line_faithful_iff_twoLines : LineFaithful dottedLib "a=ice-ufrag:4f2a\r\ns=ice".toList := by
  apply (line_faithful_iff dottedLib _ (by decide)).mpr
  have cut : cutLines "a=ice-ufrag:4f2a\r\ns=ice".toList =
      ["a=ice-ufrag:4f2a\r\n".toList, "s=ice".toList] := by
    decide
  have continues : ∀ r : Reader, ¬ endsReading "s=ice".toList r := fun r ends =>
    ends.elim (by decide) fun second => absurd second.2 (by decide)
  rw [cut, Along, if_neg (by decide), if_neg (by decide)]
  refine ⟨by decide, fun r' _ => ?_⟩
  rw [Along, if_neg (by decide), if_neg (continues r')]
  have sound : SoundLine "s=ice".toList .start := by decide
  exact ⟨sound, fun _ _ => trivial⟩

def unfinished : List Char :=
  unlines ["m=audio 4000 RTP/AVP 0".toList,
    "c=IN IP4 192.168.0.1".toList, "a=ice-pwd:7c1d9e".toList,
    "a=candidate:F 1 UDP 1 192.168.0.1 4000 typ host".toList] ++ "a=ice-ufrag".toList

/-- The candidate line is still in the buffer, so its text becomes the user fragment. -/
theorem unfinished_takes_stale :
    '\x00' ∉ unfinished ∧ ¬ LineFaithful dottedLib unfinished ∧
      (reference dottedLib unfinished).map (·.ufrag.text) = some [] ∧
      (icedemoInputRemote2 dottedLib (Vector.replicate 80 '\x00') unfinished resetRemInfo).map
        (·.ufrag.text) = some "F 1 UDP 1 192.168.0.1 4000 typ host".toList := by
  have said : (reference dottedLib unfinished).map (·.ufrag.text) = some [] := by decide +kernel
  have taken :
    (icedemoInputRemote2 dottedLib (Vector.replicate 80 '\x00') unfinished resetRemInfo).map
      (·.ufrag.text) = some "F 1 UDP 1 192.168.0.1 4000 typ host".toList := by decide +kernel
  refine ⟨by decide +kernel, fun faithful => ?_, said, taken⟩
  rw [faithful.outcome, said] at taken
  exact absurd taken (by decide)

end Whole

end NatClient.SdpReference
