import NatClient.CString

/-!
Reading text files with `fgets` and cutting lines with `sscanf`. A conversion
that would overflow its array has no result.
-/

namespace NatClient.CStdio

open CString

section Lines

/-- What successive calls of `fgets` with room for `room` characters deliver until
the end of the file; the current call may still take `left`. -/
def fgetsAll (room : Nat) : Nat → List Char → List CStr
  | _, [] => []
  | left, c :: rest =>
      -- A full buffer ends the chunk as a line end does.
      if c = '\n' ∨ left ≤ 1 then [c] :: fgetsAll room room rest
      else match fgetsAll room (left - 1) rest with
        | [] => [[c]]
        | chunk :: later => (c :: chunk) :: later

def terminated (line : CStr) : CStr := line ++ ['\n']

def unlines (lines : List CStr) : CStr := lines.flatMap terminated

variable {room : Nat}

theorem fgetsAll_line {line : CStr} (plain : '\n' ∉ line) {left : Nat} (short : line.length < left)
    (rest : List Char) :
    fgetsAll room left (line ++ '\n' :: rest) = terminated line :: fgetsAll room room rest := by
  induction line generalizing left with
  | nil => simp [fgetsAll, terminated]
  | cons c line ih =>
      have later := ih (fun member => plain (List.mem_cons_of_mem c member))
        (Nat.lt_sub_of_add_lt short)
      have ordinary : c ≠ '\n' := fun same => plain (same ▸ List.mem_cons_self)
      have inside : ¬ left ≤ 1 := by
        rw [List.length_cons] at short
        omega
      rw [List.cons_append, fgetsAll, if_neg (by simp [ordinary, inside]), later]
      rfl

theorem fgetsAll_last {line : CStr} (plain : '\n' ∉ line) (present : line ≠ []) {left : Nat}
    (fits : line.length ≤ left) (room : Nat) : fgetsAll room left line = [line] := by
  induction line generalizing left with
  | nil => exact absurd rfl present
  | cons c rest ih =>
      obtain ⟨other, plain⟩ := List.ne_and_not_mem_of_not_mem_cons plain
      rw [List.length_cons] at fits
      rw [fgetsAll]
      cases rest with
      | nil =>
          split
          · rfl
          · rfl
      | cons next rest =>
          have more : ¬ (c = '\n' ∨ left ≤ 1) := by
            rw [List.length_cons] at fits
            simp only [not_or]
            exact ⟨fun same => other same.symm, by omega⟩
          rw [if_neg more, ih plain (List.cons_ne_nil next rest) (by omega)]

theorem fgetsAll_long {front : CStr} (plain : '\n' ∉ front) {left : Nat} (positive : 0 < left)
    (long : left ≤ front.length) (room : Nat) (rest : List Char) :
    fgetsAll room left (front ++ rest) =
      front.take left :: fgetsAll room room (front.drop left ++ rest) := by
  induction front generalizing left with
  | nil => exact absurd (Nat.le_zero.mp long) (Nat.ne_of_gt positive)
  | cons c front ih =>
      obtain ⟨other, plain⟩ := List.ne_and_not_mem_of_not_mem_cons plain
      rw [List.length_cons] at long
      rw [List.cons_append, fgetsAll]
      by_cases last : left ≤ 1
      · have one : left = 1 := by omega
        rw [if_pos (Or.inr last), one]
        rfl
      · have more : ¬ (c = '\n' ∨ left ≤ 1) :=
          fun ends => ends.elim (fun same => other same.symm) last
        obtain ⟨before, same⟩ : ∃ before, left = before + 1 := ⟨left - 1, by omega⟩
        rw [if_neg more, ih plain (by omega) (by omega), same]
        rfl

theorem fgetsAll_unlines {lines : List CStr}
    (each : ∀ line ∈ lines, '\n' ∉ line ∧ line.length < room) (rest : List Char) :
    fgetsAll room room (unlines lines ++ rest) =
        lines.map terminated ++ fgetsAll room room rest := by
  induction lines with
  | nil => rfl
  | cons line lines ih =>
      obtain ⟨plain, short⟩ := each line List.mem_cons_self
      have later := ih fun other member => each other (List.mem_cons_of_mem line member)
      have first : fgetsAll room room (line ++ '\n' :: (unlines lines ++ rest)) = _ :=
        fgetsAll_line plain short _
      rw [later] at first
      simpa [unlines, terminated] using first

/-- The chunk at hand fits what is left, a later one the whole buffer; none is empty. -/
theorem fgetsAll_cons (room_pos : 0 < room) {left : Nat} (left_pos : 0 < left) {text : List Char}
    {first : CStr} {later : List CStr} (chunks : fgetsAll room left text = first :: later) :
    (0 < first.length ∧ first.length ≤ left) ∧
      ∀ chunk ∈ later, 0 < chunk.length ∧ chunk.length ≤ room := by
  induction text generalizing left first later with
  | nil => exact absurd chunks (by simp [fgetsAll])
  | cons c rest ih =>
      rw [fgetsAll] at chunks
      split at chunks
      · cases chunks
        refine ⟨⟨Nat.zero_lt_one, left_pos⟩, ?_⟩
        cases tail : fgetsAll room room rest with
        | nil => simp
        | cons next others => exact List.forall_mem_cons.mpr (ih room_pos tail)
      · next inside =>
          split at chunks
          · cases chunks
            exact ⟨⟨Nat.zero_lt_one, left_pos⟩, by simp⟩
          · next chunk others tail =>
              cases chunks
              obtain ⟨⟨_, fits⟩, others⟩ := ih (by omega) tail
              refine ⟨⟨Nat.succ_pos _, ?_⟩, others⟩
              rw [List.length_cons]
              omega

theorem fgetsAll_length (room_pos : 0 < room) (text : List Char) :
    ∀ chunk ∈ fgetsAll room room text, 0 < chunk.length ∧ chunk.length ≤ room := by
  cases chunks : fgetsAll room room text with
  | nil => simp
  | cons first later => exact List.forall_mem_cons.mpr (fgetsAll_cons room_pos room_pos chunks)

theorem fgetsAll_shape {left : Nat} {text : List Char} :
    ∀ chunk ∈ fgetsAll room left text, ∃ body, '\n' ∉ body ∧
        (chunk = body ∨ chunk = terminated body) := by
  induction text generalizing left with
  | nil => simp [fgetsAll]
  | cons c rest ih =>
      have single : ∃ body, '\n' ∉ body ∧ ([c] = body ∨ [c] = terminated body) := by
        by_cases feed : c = '\n'
        · exact ⟨[], by simp, Or.inr (by rw [feed]; rfl)⟩
        · exact ⟨[c], by simpa using Ne.symm feed, Or.inl rfl⟩
      rw [fgetsAll]
      -- A line end or a full buffer ends the chunk; otherwise the character goes in front of the
      -- next.
      split
      · exact List.forall_mem_cons.mpr ⟨single, ih⟩
      · next inside =>
          have ordinary : c ≠ '\n' := fun same => inside (Or.inl same)
          split
          · exact List.forall_mem_cons.mpr ⟨single, by simp⟩
          · next chunk later tail =>
              have others := @ih (left - 1)
              rw [tail] at others
              obtain ⟨body, plain, shape⟩ := others chunk List.mem_cons_self
              have front : '\n' ∉ c :: body := by simp [Ne.symm ordinary, plain]
              refine List.forall_mem_cons.mpr ⟨⟨c :: body, front, ?_⟩, fun other member =>
                others other (List.mem_cons_of_mem chunk member)⟩
              rcases shape with rfl | rfl
              · exact Or.inl rfl
              · exact Or.inr rfl

theorem unlines_append (first second : List CStr) :
    unlines (first ++ second) = unlines first ++ unlines second := List.flatMap_append

theorem splitOnP_unlines {lines : List CStr} (each : ∀ line ∈ lines, '\n' ∉ line) :
    (unlines lines).splitOnP (· = '\n') = lines ++ [[]] := by
  induction lines with
  | nil => simp [unlines]
  | cons line lines ih =>
      have later := ih fun other member => each other (List.mem_cons_of_mem line member)
      have plain : ∀ c ∈ line, decide (c = '\n') = false := by
        intro c member
        simpa using fun same : c = '\n' => each line List.mem_cons_self (same ▸ member)
      have whole : unlines (line :: lines) = line ++ '\n' :: unlines lines := by
        simp [unlines, terminated]
      rw [whole, List.splitOnP_append_cons_of_forall_mem plain '\n'
        (by decide), later, List.cons_append]

end Lines

section Scanning

inductive Directive where
  | text (capacity : Nat)
  | number
  | blank
  | literal (c : Char)

inductive Field where
  | text (value : CStr)
  | number (value : Int)
  deriving DecidableEq

def skipSign : CStr → CStr
  | '-' :: digits => digits
  | '+' :: digits => digits
  | digits => digits

def scanNumber (text : CStr) : Option (Int × CStr) :=
  let digits := skipSign (skipSpace text)
  if digits.takeWhile Char.isDigit = [] then none
  else some (atoi text, digits.dropWhile Char.isDigit)

def notSpace (c : Char) : Bool := !isSpace c

def sscanf : List Directive → CStr → Option (List Field)
  | [], _ => some []
  | .text capacity :: rest, input =>
      let token := (skipSpace input).takeWhile notSpace
      if token = [] then some []
      else if token.length < capacity then
        (sscanf rest ((skipSpace input).dropWhile notSpace)).map (.text token :: ·)
      else none
  | .number :: rest, input => match scanNumber input with
      | none => some []
      | some (value, input) => (sscanf rest input).map (.number value :: ·)
  | .blank :: rest, input => sscanf rest (skipSpace input)
  | .literal c :: rest, input =>
      if input.head? = some c then sscanf rest input.tail else some []

def EndsToken (rest : CStr) : Prop := ∀ c, rest.head? = some c → isSpace c = true

theorem skipSpace_of_head {text : CStr} (visible : ∀ c, text.head? = some c → isSpace c = false) :
    skipSpace text = text := by
  cases text with
  | nil => rfl
  | cons c rest => simp [skipSpace, visible c rfl]

theorem visible_front {token : CStr} (present : token ≠ [])
    (visible : ∀ c ∈ token, isSpace c = false)
    (tail : CStr) : ∀ c, (token ++ tail).head? = some c → isSpace c = false := by
  intro c first
  cases token with
  | nil => exact absurd rfl present
  | cons front rest =>
      cases first
      exact visible c List.mem_cons_self

theorem visible_last {token : CStr} (visible : ∀ c ∈ token, isSpace c = false) :
    ∀ c, token.head? = some c → isSpace c = false := fun c first =>
  visible c (List.mem_of_mem_head? first)

theorem sscanf_text {capacity : Nat} (rest : List Directive)
    {token tail : CStr} (present : token ≠ [])
    (visible : ∀ c ∈ token, isSpace c = false) (fits : token.length < capacity)
    (ends : EndsToken tail) :
    sscanf (.text capacity :: rest) (token ++ tail) = (sscanf rest tail).map
        (.text token :: ·) := by
  have all : ∀ c ∈ token, notSpace c = true := fun c member => by simp [notSpace, visible c member]
  have stops : ∀ c, tail.head? = some c → notSpace c = false := fun c first => by
    simp [notSpace, ends c first]
  have kept : skipSpace (token ++ tail) = token ++ tail :=
    skipSpace_of_head (visible_front present visible tail)
  rw [sscanf, kept, takeWhile_run notSpace token tail all stops,
    dropWhile_run notSpace token tail all stops,
    if_neg present, if_pos fits]

theorem skipSign_of_digit (first : Char) (tail : CStr) (digit : first.isDigit = true) :
    skipSign (first :: tail) = first :: tail := by
  rw [skipSign]
  · rintro rest ⟨⟩
    exact absurd digit (by decide)
  · rintro rest ⟨⟩
    exact absurd digit (by decide)

theorem scanNumber_decimal (value : Nat) (tail : CStr)
    (ends : EndsNumeral tail) (bound : value < 2 ^ 31) :
    scanNumber (decimal value ++ tail) = some ((value : Int), tail) := by
  have read := atoi_decimal value tail ends bound
  have digits := decimal_digit value
  cases front : decimal value with
  | nil => exact absurd front (decimal_ne_nil value)
  | cons first rest =>
      rw [front] at read digits
      have digit : first.isDigit = true := digits first List.mem_cons_self
      have kept : skipSpace (first :: rest ++ tail) = first :: rest ++ tail := by
        apply skipSpace_of_head
        rintro c ⟨⟩
        exact digit_not_space digit
      have signless : skipSign (first :: rest ++ tail) = first :: rest ++ tail :=
        skipSign_of_digit first (rest ++ tail) digit
      rw [scanNumber, kept, signless, read, takeWhile_run Char.isDigit
        (first :: rest) tail digits ends,
        dropWhile_run Char.isDigit (first :: rest) tail digits ends]
      rfl

theorem sscanf_number (rest : List Directive) {value : Nat} {tail : CStr} (ends : EndsNumeral tail)
    (bound : value < 2 ^ 31) :
    sscanf (.number :: rest) (decimal value ++ tail) =
      (sscanf rest tail).map (.number value :: ·) := by
  rw [sscanf, scanNumber_decimal value tail ends bound]

theorem sscanf_blank (rest : List Directive) {tail : CStr}
    (visible : ∀ c, tail.head? = some c → isSpace c = false) :
    sscanf (.blank :: rest) (' ' :: tail) = sscanf rest tail := by
  have skipped : skipSpace (' ' :: tail) = tail := skipSpace_of_head visible
  rw [sscanf, skipped]

theorem sscanf_literal (rest : List Directive) (c : Char) (tail : CStr) :
    sscanf (.literal c :: rest) (c :: tail) = sscanf rest tail := by
  rw [sscanf, List.head?_cons, if_pos rfl, List.tail_cons]

theorem endsToken_blank (tail : CStr) : EndsToken (' ' :: tail) := by
  rintro c ⟨⟩
  rfl

theorem endsNumeral_blank (tail : CStr) : EndsNumeral (' ' :: tail) := by
  rintro c ⟨⟩
  rfl

theorem sscanf_word {capacity : Nat} (rest : List Directive)
    {token tail : CStr} (present : token ≠ [])
    (visible : ∀ c ∈ token, isSpace c = false) (fits : token.length < capacity)
    (front : ∀ c, tail.head? = some c → isSpace c = false) :
    sscanf (.text capacity :: .blank :: rest) (token ++ ' ' :: tail) =
      (sscanf rest tail).map (.text token :: ·) := by
  rw [sscanf_text _ present visible fits (endsToken_blank tail), sscanf_blank rest front]

theorem sscanf_count (rest : List Directive) {value : Nat} {tail : CStr} (bound : value < 2 ^ 31)
    (front : ∀ c, tail.head? = some c → isSpace c = false) :
    sscanf (.number :: .blank :: rest) (decimal value ++ ' ' :: tail) =
      (sscanf rest tail).map (.number value :: ·) := by
  rw [sscanf_number _ (endsNumeral_blank tail) bound, sscanf_blank rest front]

theorem sscanf_literals (rest : List Directive) (word tail : CStr)
    (front : ∀ c, tail.head? = some c → isSpace c = false) :
    sscanf (word.map .literal ++ .blank :: rest) (word ++ ' ' :: tail) = sscanf rest tail := by
  induction word with
  | nil => exact sscanf_blank rest front
  | cons c word ih =>
      rw [List.map_cons, List.cons_append, List.cons_append, sscanf_literal]
      exact ih

theorem sscanf_last {capacity : Nat} {token : CStr} (present : token ≠ [])
    (visible : ∀ c ∈ token, isSpace c = false) (fits : token.length < capacity) :
    sscanf [.text capacity] token = some [.text token] := by
  have ends : EndsToken [] := fun _ impossible => absurd impossible (by simp)
  have whole := sscanf_text [] present visible fits ends
  rw [List.append_nil] at whole
  exact whole

theorem decimal_visible (value : Nat) : ∀ c ∈ decimal value, isSpace c = false := fun c member =>
  digit_not_space (decimal_digit value c member)

end Scanning

end NatClient.CStdio
