import Mathlib.Data.List.TakeWhile
import Mathlib.Data.Nat.Digits.Lemmas

/-!
C strings as lists of characters, one `Char` for one byte and the terminator
left out. A bounded array carries the proof that its text fits with the
terminator, so a copy that would overflow has no result instead of a wrong one.
`none` also stands for the NULL pointer where a function takes an optional text.
-/

namespace NatClient.CString

abbrev CStr := List Char

/-- A `char` array of `capacity` bytes that holds a terminated text. -/
structure CharArray (capacity : Nat) where
  text : CStr
  fits : text.length < capacity
  deriving DecidableEq

@[ext] theorem CharArray.ext {capacity : Nat} (left right : CharArray capacity)
    (same : left.text = right.text) : left = right := by
  cases left; cases right; cases same; rfl

def CharArray.empty {room : Nat} : CharArray (room + 1) := ⟨[], Nat.succ_pos room⟩

/-- `strcpy` into an array of `capacity` bytes. A NULL source and a source
whose terminator would fall outside the array have no result. -/
def strcpy (capacity : Nat) : Option CStr → Option (CharArray capacity)
  | none => none
  | some text => if fits : text.length < capacity then some ⟨text, fits⟩ else none

@[simp] theorem strcpy_null (capacity : Nat) : strcpy capacity none = none := rfl

theorem strcpy_of_fits {capacity : Nat} {text : CStr} (fits : text.length < capacity) :
    strcpy capacity (some text) = some ⟨text, fits⟩ := by
  simp [strcpy, fits]

theorem strcpy_eq_some {capacity : Nat} {source : Option CStr} {array : CharArray capacity} :
    strcpy capacity source = some array ↔ source = some array.text := by
  cases source with
  | none => simp
  | some text =>
      by_cases fits : text.length < capacity
      · rw [strcpy_of_fits fits, Option.some_inj, Option.some_inj]
        exact ⟨fun same => by rw [← same], fun same => CharArray.ext _ _ same⟩
      · simp only [strcpy, fits, ↓reduceDIte, reduceCtorEq, Option.some_inj, false_iff]
        rintro rfl
        exact fits array.fits

theorem strcpy_of_long {capacity : Nat} {text : CStr} (long : capacity ≤ text.length) :
    strcpy capacity (some text) = none := by
  simp [strcpy, Nat.not_lt.mpr long]

/-! Scanning stops exactly at the end of a run of accepted characters when the
text after it is empty or starts with a refused one. -/
section Runs
variable (accept : Char → Bool) (run rest : CStr)

theorem takeWhile_run (all : ∀ c ∈ run, accept c = true)
    (ends : ∀ c, rest.head? = some c → accept c = false) :
    (run ++ rest).takeWhile accept = run := by
  rw [List.takeWhile_append_of_pos all]
  cases rest with
  | nil => simp
  | cons c rest => simp [ends c rfl]

theorem dropWhile_run (all : ∀ c ∈ run, accept c = true)
    (ends : ∀ c, rest.head? = some c → accept c = false) :
    (run ++ rest).dropWhile accept = rest := by
  rw [List.dropWhile_append_of_pos all]
  cases rest with
  | nil => simp
  | cons c rest => simp [ends c rfl]

end Runs

/-! Arrays that a program writes texts into. -/
section Arrays
variable {capacity : Nat}

def overlay (old : Vector Char capacity) (bytes : List Char) : Vector Char capacity :=
  Vector.ofFn fun i => (bytes[i]?).getD (old.get i)

def fill (old : Vector Char capacity) (text : CharArray capacity) : Vector Char capacity :=
  overlay old (text.text ++ ['\x00'])

def copyInto (old : Vector Char capacity) (text : CStr) : Option (Vector Char capacity) :=
  (strcpy capacity (some text)).map (fill old)

def cString (bytes : List Char) : CStr := bytes.takeWhile (· ≠ '\x00')

theorem overlay_toList (old : Vector Char capacity) {bytes : List Char}
    (fits : bytes.length ≤ capacity) :
    (overlay old bytes).toList = bytes ++ old.toList.drop bytes.length := by
  apply List.ext_getElem
  · simp
    omega
  · intro index left right
    have within : index < capacity := by simpa using left
    have here : (overlay old bytes).toList[index] = (bytes[index]?).getD old[index] := by
      simp [overlay]
      rfl
    rw [here]
    by_cases inside : index < bytes.length
    · rw [List.getElem_append_left inside, List.getElem?_eq_getElem inside, Option.getD_some]
    · rw [List.getElem_append_right (Nat.not_lt.mp inside),
        List.getElem?_eq_none (Nat.not_lt.mp inside)]
      simp [Nat.not_lt.mp inside]

theorem fill_toList (old : Vector Char capacity) (text : CharArray capacity) :
    (fill old text).toList = text.text ++ '\x00' :: old.toList.drop (text.text.length + 1) := by
  have whole : (overlay old (text.text ++ ['\x00'])).toList = _ :=
    overlay_toList old (by simpa using text.fits)
  rw [fill, whole, List.append_assoc, List.length_append]
  rfl

theorem cString_terminated (text rest : List Char) (clean : '\x00' ∉ text) :
    cString (text ++ '\x00' :: rest) = text := by
  apply takeWhile_run
  · intro c member
    have different : c ≠ '\x00' := fun same => clean (same ▸ member)
    simpa using different
  · rintro c ⟨⟩
    rfl

theorem cString_self {bytes : List Char} : cString bytes = bytes ↔ '\x00' ∉ bytes := by
  rw [cString, List.takeWhile_eq_self_iff]
  constructor
  · intro all member
    exact absurd (all _ member) (by decide)
  · intro clean c member
    simpa using fun same : c = '\x00' => clean (same ▸ member)

theorem cString_zeroes (count : Nat) (rest : List Char) :
    cString (List.replicate (count + 1) '\x00' ++ rest) = [] := by
  rw [List.replicate_succ]
  rfl

theorem cString_length (piece : CStr) : (cString piece).length ≤ piece.length :=
  (List.takeWhile_prefix _).length_le

theorem cString_clean (piece : CStr) : '\x00' ∉ cString piece := fun member =>
  absurd (List.mem_takeWhile_imp member) (by decide)

theorem cString_split (piece : CStr) :
    piece ++ ['\x00'] = cString piece ++ '\x00' :: (piece ++ ['\x00']).drop
        ((cString piece).length + 1) := by
  induction piece with
  | nil => rfl
  | cons c rest ih =>
      by_cases terminator : c = '\x00'
      · subst terminator
        rfl
      · have kept : cString (c :: rest) = c :: cString rest := by simp [cString, terminator]
        rw [kept, List.cons_append, List.cons_append, List.length_cons, List.drop_succ_cons, ← ih]

/-- Bytes that are terminated at some point start with their string and its terminator. -/
theorem cString_front (piece rest : List Char) :
    ∃ after, piece ++ '\x00' :: rest = cString piece ++ '\x00' :: after := by
  refine ⟨(piece ++ ['\x00']).drop ((cString piece).length + 1) ++ rest, ?_⟩
  rw [← List.cons_append, ← List.append_assoc, ← cString_split,
    List.append_assoc, List.singleton_append]

theorem cString_behind (piece rest : List Char) :
    cString (piece ++ '\x00' :: rest) = cString piece := by
  obtain ⟨after, split⟩ := cString_front piece rest
  rw [split, cString_terminated _ _ (cString_clean piece)]

theorem copyInto_of_fits {capacity : Nat} (old : Vector Char capacity) {text : CStr}
    (fits : text.length < capacity) : copyInto old text = some (fill old ⟨text, fits⟩) := by
  rw [copyInto, strcpy_of_fits fits, Option.map_some]

theorem copyInto_long {capacity : Nat} (old : Vector Char capacity) {text : CStr}
    (long : capacity ≤ text.length) : copyInto old text = none := by
  rw [copyInto, strcpy_of_long long, Option.map_none]

end Arrays

/-! Decimal numerals: the text of `%u` and the C library's conversions back. -/
section Numerals

def decimal (value : Nat) : CStr := Nat.toDigits 10 value

def isSpace (c : Char) : Bool :=
  c = ' ' || c = '\t' || c = '\n' || c = '\x0b' || c = '\x0c' || c = '\r'

def skipSpace (text : CStr) : CStr := text.dropWhile isSpace

def magnitude (text : CStr) : Nat := Nat.ofDigitChars 10 (text.takeWhile Char.isDigit) 0

def clampLong (value : Int) : Int := max (-2 ^ 63) (min value (2 ^ 63 - 1))

def strtol (text : CStr) : Int :=
  match skipSpace text with
  | '-' :: digits => clampLong (-magnitude digits)
  | '+' :: digits => clampLong (magnitude digits)
  | digits => clampLong (magnitude digits)

/-- `atoi` narrows the `long` of `strtol` to a 32-bit `int`. -/
def atoi (text : CStr) : Int := (strtol text).bmod (2 ^ 32)

theorem decimal_digit (value : Nat) : ∀ c ∈ decimal value, c.isDigit = true :=
  fun _ member => Nat.isDigit_of_mem_toDigits (by decide) (by decide) member

theorem decimal_ne_nil (value : Nat) : decimal value ≠ [] := by
  have positive : 0 < (Nat.toDigits 10 value).length := Nat.length_toDigits_pos
  exact List.ne_nil_of_length_pos positive

theorem decimal_value (value : Nat) : Nat.ofDigitChars 10 (decimal value) 0 = value :=
  Nat.ofDigitChars_ten_toDigits

theorem digit_not_space {c : Char} (digit : c.isDigit = true) : isSpace c = false := by
  by_contra space
  simp only [isSpace, Bool.or_eq_true, decide_eq_true_eq, Bool.not_eq_false] at space
  rcases space with ((((rfl | rfl) | rfl) | rfl) | rfl) | rfl <;> revert digit <;> decide

def EndsNumeral (rest : CStr) : Prop := ∀ c, rest.head? = some c → c.isDigit = false

theorem strtol_of_digit (first : Char) (tail : CStr) (digit : first.isDigit = true) :
    strtol (first :: tail) = clampLong (magnitude (first :: tail)) := by
  have kept : skipSpace (first :: tail) = first :: tail := by
    simp [skipSpace, digit_not_space digit]
  rw [strtol, kept]
  split
  · next same => cases same; exact absurd digit (by decide)
  · next same => cases same; exact absurd digit (by decide)
  · rfl

theorem strtol_decimal (value : Nat) (rest : CStr) (ends : EndsNumeral rest) :
    strtol (decimal value ++ rest) = clampLong value := by
  have read : magnitude (decimal value ++ rest) = value := by
    rw [magnitude, takeWhile_run _ _ _ (decimal_digit value) ends, decimal_value]
  cases front : decimal value with
  | nil => exact absurd front (decimal_ne_nil value)
  | cons first tail =>
      have digit : first.isDigit = true := decimal_digit value first (by simp [front])
      rw [front] at read
      rw [List.cons_append, strtol_of_digit first _ digit, ← List.cons_append, read]

theorem atoi_decimal (value : Nat) (rest : CStr) (ends : EndsNumeral rest)
    (bound : value < 2 ^ 31) : atoi (decimal value ++ rest) = value := by
  have clamped : clampLong value = value := by simp only [clampLong]; omega
  rw [atoi, strtol_decimal value rest ends, clamped]
  exact Int.bmod_eq_of_le (by omega) (by omega)

def Numeral (text : CStr) : Prop := text ≠ [] ∧ ∀ c ∈ text, c.isDigit = true

instance : DecidablePred Numeral := fun text =>
  decidable_of_iff (text ≠ [] ∧ text.all Char.isDigit = true) (by rw [Numeral, List.all_eq_true])

def numeralValue (text : CStr) : Nat := Nat.ofDigitChars 10 text 0

theorem strtol_numeral {text : CStr} (numeral : Numeral text) :
    strtol text = clampLong (numeralValue text) := by
  obtain ⟨nonempty, digits⟩ := numeral
  cases text with
  | nil => exact absurd rfl nonempty
  | cons first rest =>
      have all : (first :: rest).takeWhile Char.isDigit = first :: rest :=
        List.takeWhile_eq_self_iff.mpr digits
      rw [strtol_of_digit first rest (digits first List.mem_cons_self), magnitude, all,
        numeralValue]

theorem atoi_numeral {text : CStr} (numeral : Numeral text) (bound : numeralValue text < 2 ^ 63) :
    atoi text = (numeralValue text : Int).bmod (2 ^ 32) := by
  have clamped :
    clampLong (numeralValue text) = numeralValue text := by simp only [clampLong]; omega
  rw [atoi, strtol_numeral numeral, clamped]

end Numerals

/-! `strtok(line, delims)` followed by `strtok(NULL, delims)` until NULL: the
maximal runs of other characters, in order. Empty fields are merged away. -/
section Tokens

def strtokAll (delim : Char → Bool) (line : CStr) : List CStr :=
  (line.splitOnP delim).filter fun token => !token.isEmpty

theorem strtok_all_single (delim : Char → Bool) (token : CStr) (nonempty : token ≠ [])
    (clean : ∀ c ∈ token, delim c = false) : strtokAll delim token = [token] := by
  have whole : token.splitOnP delim = [token] :=
    List.splitOnP_eq_singleton clean
  simp [strtokAll, whole, nonempty]

theorem strtok_all_cons (delim : Char → Bool) (token rest : CStr) (sep : Char)
    (nonempty : token ≠ []) (clean : ∀ c ∈ token, delim c = false) (cut : delim sep = true) :
    strtokAll delim (token ++ sep :: rest) = token :: strtokAll delim rest := by
  have first := List.splitOnP_append_cons_of_forall_mem clean sep cut rest
  simp [strtokAll, first, nonempty]

theorem splitOnP_sublist (delim : Char → Bool) {line field : CStr}
    (member : field ∈ line.splitOnP delim) : field.Sublist line := by
  induction line generalizing field with
  | nil =>
      rw [List.splitOnP_nil, List.mem_singleton] at member
      exact member ▸ List.Sublist.refl []
  | cons first rest ih =>
      rw [List.splitOnP_cons_eq_if_modifyHead] at member
      split at member
      · rcases List.mem_cons.mp member with rfl | later
        · exact List.nil_sublist _
        · exact (ih later).cons first
      · cases fields : rest.splitOnP delim with
        | nil => exact absurd fields (List.splitOnP_ne_nil delim rest)
        | cons head tail =>
            rw [fields, List.modifyHead_cons] at member
            rcases List.mem_cons.mp member with rfl | later
            · exact (ih (by simp [fields])).cons_cons first
            · exact (ih (by simp [fields, later])).cons first

theorem splitOnP_clean (delim : Char → Bool) {line field : CStr}
    (member : field ∈ line.splitOnP delim) :
    ∀ c ∈ field, delim c = false := by
  induction line generalizing field with
  | nil =>
      rw [List.splitOnP_nil, List.mem_singleton] at member
      simp [member]
  | cons first rest ih =>
      rw [List.splitOnP_cons_eq_if_modifyHead] at member
      split at member
      · rcases List.mem_cons.mp member with rfl | later
        · simp
        · exact ih later
      · next kept =>
          cases fields : rest.splitOnP delim with
          | nil => exact absurd fields (List.splitOnP_ne_nil delim rest)
          | cons head tail =>
              rw [fields, List.modifyHead_cons] at member
              rcases List.mem_cons.mp member with rfl | later
              · exact List.forall_mem_cons.mpr ⟨by simpa using kept, ih (by simp [fields])⟩
              · exact ih (by simp [fields, later])

theorem strtok_all_clean (delim : Char → Bool) {line token : CStr}
    (member : token ∈ strtokAll delim line) :
    ∀ c ∈ token, delim c = false := splitOnP_clean delim (List.mem_filter.mp member).1

theorem strtok_all_sublist (delim : Char → Bool) {line token : CStr}
    (member : token ∈ strtokAll delim line) : token.Sublist line :=
  splitOnP_sublist delim (List.mem_filter.mp member).1

end Tokens

end NatClient.CString
