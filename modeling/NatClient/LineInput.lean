import Mathlib.Data.List.DropRight
import Mathlib.Data.List.Induction
import NatClient.CStdio

/-!
The line input of utilities.c: `fgets` and a loop that shortens the string while it ends
in 0x0a or 0x10. At the end of the input `fgets` leaves the array alone, and the loop
then works on what it held before.
-/

namespace NatClient.LineInput

open CString CStdio

variable {size : Nat}

def piece (size : Nat) (stream : List Char) : Option CStr :=
  (fgetsAll (size - 1) (size - 1) stream).head?

/-- The returned pointer is NULL or the array; the array afterwards. -/
def fgets (s : Vector Char size) (stream : List Char) : Bool × List Char :=
  match piece size stream with
  | none => (false, s.toList)
  | some text => (true, (overlay s (text ++ ['\x00'])).toList)

def strlen (bytes : List Char) : Option Nat :=
  if '\x00' ∈ bytes then some (cString bytes).length else none

/-- Each jump back to the label uses up fuel. -/
def trim : Nat → List Char → Option (List Char)
  | 0, _ => none
  | fuel + 1, s => do
      let len ← strlen s
      if 0 < len ∧ (s[len - 1]? = some '\n' ∨ s[len - 1]? = some '\x10') then
        trim fuel (s.set (len - 1) '\x00')
      else some s

def fgetsWrapper (fuel : Nat) (s : Vector Char size) (stream : List Char) :
    Option (Bool × List Char) :=
  let (buff, bytes) := fgets s stream
  (trim fuel bytes).map fun bytes => (buff, bytes)

def dropped (c : Char) : Bool := c = '\n' || c = '\x10'

theorem strlen_text {text rest : List Char} (clean : '\x00' ∉ text) :
    strlen (text ++ '\x00' :: rest) = some text.length := by
  rw [strlen, if_pos (by simp), cString_terminated text rest clean]

theorem dropped_iff {c : Char} : dropped c = true ↔ c = '\n' ∨ c = '\x10' := by
  simp [dropped]

section Loop
variable {text rest : List Char} {c : Char}

theorem trim_drop (clean : '\x00' ∉ text ++ [c]) (drop : dropped c = true) (fuel : Nat) :
    trim (fuel + 1) ((text ++ [c]) ++ '\x00' :: rest) = trim fuel
        (text ++ '\x00' :: '\x00' :: rest) := by
  have length : (text ++ [c]).length = text.length + 1 := by simp
  have last : ((text ++ [c]) ++ '\x00' :: rest)[text.length]? = some c := by simp
  have overwritten : ((text ++ [c]) ++ '\x00' :: rest).set text.length '\x00' =
      text ++ '\x00' :: '\x00' :: rest := by simp
  have removed : some c = some '\n' ∨ some c = some '\x10' := by simpa using dropped_iff.mp drop
  rw [trim, strlen_text clean, Option.bind_eq_bind, Option.bind_some,
    length, Nat.add_sub_cancel, last,
    if_pos ⟨Nat.succ_pos _, removed⟩, overwritten]

theorem trim_keep (clean : '\x00' ∉ text ++ [c]) (keep : ¬ dropped c = true) (fuel : Nat) :
    trim (fuel + 1) ((text ++ [c]) ++ '\x00' :: rest) = some ((text ++ [c]) ++ '\x00' :: rest) := by
  have length : (text ++ [c]).length = text.length + 1 := by simp
  have last : ((text ++ [c]) ++ '\x00' :: rest)[text.length]? = some c := by simp
  have kept : ¬ (some c = some '\n' ∨ some c = some '\x10') := by simpa [dropped] using keep
  rw [trim, strlen_text clean, Option.bind_eq_bind, Option.bind_some,
    length, Nat.add_sub_cancel, last,
    if_neg fun both => kept both.2]

end Loop

/-- The loop stops with the text that is left, its terminator, and one more terminator
for every byte it removed. -/
theorem trim_text {text rest : List Char} (clean : '\x00' ∉ text) {fuel : Nat}
    (enough : text.length < fuel) :
    trim fuel (text ++ '\x00' :: rest) = some (text.rdropWhile dropped ++
      '\x00' ::
          (List.replicate (text.length - (text.rdropWhile dropped).length) '\x00' ++ rest)) := by
  induction text using List.reverseRecOn generalizing rest fuel with
  | nil =>
      cases fuel with
      | zero => exact absurd enough (by decide)
      | succ fuel => rfl
  | append_singleton text c ih =>
      have shorter : '\x00' ∉ text := fun member => clean (List.mem_append_left _ member)
      have length : (text ++ [c]).length = text.length + 1 := by simp
      cases fuel with
      | zero => exact absurd enough (by simp)
      | succ fuel =>
          by_cases drop : dropped c = true
          · have kept : (text.rdropWhile dropped).length ≤ text.length :=
              (List.rdropWhile_prefix dropped text).length_le
            rw [trim_drop clean drop, @ih ('\x00' :: rest) shorter fuel (by omega),
              List.rdropWhile_concat_pos _ _ _ drop, length,
                Nat.succ_sub kept, List.replicate_succ',
              List.append_assoc, List.singleton_append]
          · rw [trim_keep clean drop, List.rdropWhile_concat_neg _ _ _ drop, Nat.sub_self]
            rfl

theorem trim_unterminated {s : List Char} (open_end : '\x00' ∉ s) (fuel : Nat) :
    trim fuel s = none := by
  cases fuel with
  | zero => rfl
  | succ fuel => rw [trim, strlen, if_neg open_end]; rfl

theorem piece_length {stream : List Char} {text : CStr} (roomy : 2 ≤ size)
    (read : piece size stream = some text) : text.length + 1 ≤ size := by
  have bound := (fgetsAll_length (by omega) stream text (List.mem_of_mem_head? read)).2
  omega

theorem overlay_line (s : Vector Char size) {text : CStr} (fits : text.length + 1 ≤ size) :
    (overlay s (text ++ ['\x00'])).toList = text ++ '\x00' :: s.toList.drop (text.length + 1) := by
  have whole := fill_toList s ⟨text, fits⟩
  exact whole

theorem dropped_clean {text : CStr} (ends : Char → Bool) (clean : '\x00' ∉ text) :
    '\x00' ∉ text.rdropWhile ends := fun member =>
  clean ((List.rdropWhile_prefix ends text).subset member)

theorem wrapper_string {s : Vector Char size} {stream : List Char} {text : CStr} (roomy : 2 ≤ size)
    (read : piece size stream = some text) {fuel : Nat} (enough : size ≤ fuel) :
    ∃ bytes, fgetsWrapper fuel s stream = some (true, bytes) ∧
      cString bytes = (cString text).rdropWhile dropped := by
  have fits := piece_length roomy read
  obtain ⟨after, split⟩ := cString_front text (s.toList.drop (text.length + 1))
  have short : (cString text).length < fuel := by
    have front := cString_length text
    omega
  obtain ⟨bytes, ran, shown⟩ : ∃ bytes,
      trim fuel (text ++ '\x00' :: s.toList.drop (text.length + 1)) = some bytes ∧
        cString bytes = (cString text).rdropWhile dropped := by
    rw [split]
    exact ⟨_, trim_text (cString_clean text) short,
      cString_terminated _ _ (dropped_clean dropped (cString_clean text))⟩
  refine ⟨bytes, ?_, shown⟩
  rw [fgetsWrapper, fgets, read]
  simp only [overlay_line s fits, ran, Option.map_some]

/-! What is asked of the line input. -/
section Exact

def lineEnd (c : Char) : Bool := c = '\n' || c = '\r'

def Holds (bytes : List Char) (text : CStr) : Prop := text ++ ['\x00'] <+: bytes

/-- NULL and the empty string at the end of the input, else the array with the piece
that was read, without the line ends behind it. -/
def TrimsExactly (s : Vector Char size) (stream : List Char) : Prop :=
  ∃ buff bytes bound, (∀ fuel, bound ≤ fuel → fgetsWrapper fuel s stream = some (buff, bytes)) ∧
    match piece size stream with
    | none => buff = false ∧ Holds bytes []
    | some text => buff = true ∧ Holds bytes (text.rdropWhile lineEnd)

def EndsIn (ends : Char → Bool) (text : CStr) : Prop := ∃ c, text.getLast? = some c ∧ ends c = true

/-- A piece without zero bytes has no 0x0d and no 0x10 before its line feed or its end. One
with zero bytes does not end in a line end, nor in 0x10 before the first of them. -/
def FinePiece (text : CStr) : Prop :=
  if '\x00' ∈ text then ¬ EndsIn lineEnd text ∧ ¬ EndsIn (· = '\x10') (cString text)
  else ¬ EndsIn (fun c => c = '\r' || c = '\x10') (text.takeWhile (· ≠ '\n'))

/-- At the end of the input the array must hold a string of nothing but 0x0a and 0x10. -/
def Fine (s : Vector Char size) (stream : List Char) : Prop :=
  match piece size stream with
  | none => '\x00' ∈ s.toList ∧ ∀ c ∈ cString s.toList, dropped c = true
  | some text => FinePiece text

theorem endsIn_concat {ends : Char → Bool} {text : CStr} {c : Char} :
    EndsIn ends (text ++ [c]) ↔ ends c = true := by
  simp [EndsIn]

theorem not_endsIn_nil (ends : Char → Bool) : ¬ EndsIn ends [] := by
  rintro ⟨c, last, _⟩
  exact absurd last (by simp)

theorem rdropWhile_self {ends : Char → Bool} {text : CStr} :
    text.rdropWhile ends = text ↔ ¬ EndsIn ends text := by
  induction text using List.reverseRecOn with
  | nil => simp [not_endsIn_nil]
  | append_singleton text c _ =>
      rw [endsIn_concat]
      by_cases last : ends c = true
      · have shorter : (text.rdropWhile ends).length ≤ text.length :=
          (List.rdropWhile_prefix ends text).length_le
        rw [List.rdropWhile_concat_pos _ _ _ last]
        refine iff_of_false (fun same => ?_) (not_not_intro last)
        have lengths := congrArg List.length same
        rw [List.length_append, List.length_singleton] at lengths
        omega
      · rw [List.rdropWhile_concat_neg _ _ _ last]
        exact iff_of_true rfl last

theorem rdropWhile_behind {ends : Char → Bool} {c : Char}
    (stays : ¬ ends c = true) (front tail : CStr) :
    (front ++ c :: tail).rdropWhile ends = front ++ c :: tail.rdropWhile ends := by
  induction tail using List.reverseRecOn with
  | nil => exact List.rdropWhile_concat_neg _ _ _ stays
  | append_singleton tail last ih =>
      rw [← List.cons_append, ← List.append_assoc]
      by_cases drop : ends last = true
      · rw [List.rdropWhile_concat_pos _ _ _ drop, List.rdropWhile_concat_pos _ _ _ drop, ih]
      · rw [List.rdropWhile_concat_neg _ _ _ drop, List.rdropWhile_concat_neg _ _ _ drop,
          List.append_assoc, List.cons_append]

/-- The two ways of trimming agree unless a byte at the end belongs to one of them only. -/
theorem trims_agree {text : CStr} (plain : '\n' ∉ text) :
    text.rdropWhile dropped = text.rdropWhile lineEnd ↔
      ¬ EndsIn (fun c => c = '\r' || c = '\x10') text := by
  induction text using List.reverseRecOn with
  | nil => simp [not_endsIn_nil]
  | append_singleton text c _ =>
      have ordinary : c ≠ '\n' :=
        fun same => plain (same ▸ List.mem_append_right _ List.mem_cons_self)
      have ours : (text ++ [c]).rdropWhile dropped = text ++ [c] ↔ c ≠ '\x10' := by
        rw [rdropWhile_self, endsIn_concat]
        simp [dropped, ordinary]
      have theirs : (text ++ [c]).rdropWhile lineEnd = text ++ [c] ↔ c ≠ '\r' := by
        rw [rdropWhile_self, endsIn_concat]
        simp [lineEnd, ordinary]
      rw [endsIn_concat]
      by_cases dle : c = '\x10'
      · have kept := theirs.mpr (by rw [dle]; decide)
        rw [kept, ours]
        simp [dle]
      · have kept := ours.mpr dle
        rw [kept, eq_comm, theirs]
        simp [dle]

theorem holds_text {kept wanted rest : List Char} (clean : '\x00' ∉ kept)
    (wantedClean : '\x00' ∉ wanted) :
    Holds (kept ++ '\x00' :: rest) wanted ↔ kept = wanted := by
  constructor
  · rintro ⟨more, same⟩
    rw [List.append_assoc, List.singleton_append] at same
    have texts := congrArg cString same
    rw [cString_terminated wanted more wantedClean, cString_terminated kept rest clean] at texts
    exact texts.symm
  · rintro rfl
    exact ⟨rest, by rw [List.append_assoc, List.singleton_append]⟩

theorem before_feed {body : CStr} (plain : '\n' ∉ body) (rest : CStr)
    (ends : ∀ c, rest.head? = some c → c = '\n') : (body ++ rest).takeWhile (· ≠ '\n') = body := by
  apply takeWhile_run
  · intro c member
    simpa using fun same : c = '\n' => plain (same ▸ member)
  · intro c first
    simpa using ends c first

theorem trim_clean {text rest : List Char} (clean : '\x00' ∉ text)
    (shape : ∃ body, '\n' ∉ body ∧ (text = body ∨ text = terminated body)) :
    ∃ bytes, (∀ fuel, text.length < fuel → trim fuel (text ++ '\x00' :: rest) = some bytes) ∧
      (Holds bytes (text.rdropWhile lineEnd) ↔ FinePiece text) := by
  refine ⟨_, fun fuel enough => trim_text clean enough, ?_⟩
  rw [holds_text (dropped_clean dropped clean) (dropped_clean lineEnd clean), FinePiece,
    if_neg clean]
  obtain ⟨body, plain, rfl | rfl⟩ := shape
  · have whole := before_feed plain [] (by simp)
    rw [List.append_nil] at whole
    rw [whole]
    exact trims_agree plain
  · have front : (terminated body).takeWhile (· ≠ '\n') = body :=
      before_feed plain ['\n'] (by simp)
    have ours : (terminated body).rdropWhile dropped = body.rdropWhile dropped :=
      List.rdropWhile_concat_pos _ _ _ (by decide)
    have theirs : (terminated body).rdropWhile lineEnd = body.rdropWhile lineEnd :=
      List.rdropWhile_concat_pos _ _ _ (by decide)
    rw [front, ours, theirs]
    exact trims_agree plain

theorem nothing_cut {tail more rest : List Char}
    (same : tail.rdropWhile lineEnd ++ ('\x00' :: more) = tail ++ '\x00' :: rest) :
    tail.rdropWhile lineEnd = tail := by
  have parts : tail.rdropWhile lineEnd ++ tail.rtakeWhile lineEnd = tail :=
    List.rdropWhile_append_rtakeWhile
  cases cut : tail.rtakeWhile lineEnd with
  | nil => rwa [cut, List.append_nil] at parts
  | cons c others =>
      have ending : lineEnd c = true := by
        have inside : c ∈ tail.rtakeWhile lineEnd := by
          rw [cut]
          exact List.mem_cons_self
        exact List.mem_rtakeWhile_imp inside
      have longer : tail.rdropWhile lineEnd ++ '\x00' :: more =
          tail.rdropWhile lineEnd ++ (c :: others ++ '\x00' :: rest) := by
        rw [same, ← List.append_assoc, ← cut, parts]
      have front := List.append_cancel_left longer
      rw [List.cons_append, List.cons.injEq] at front
      exact absurd ending (by rw [← front.1]; decide)

theorem trim_broken {front tail rest : List Char} (clean : '\x00' ∉ front) (plain : '\n' ∉ front) :
    ∃ bytes, (∀ fuel, front.length < fuel →
        trim fuel ((front ++ '\x00' :: tail) ++ '\x00' :: rest) = some bytes) ∧
      (Holds bytes ((front ++ '\x00' :: tail).rdropWhile lineEnd) ↔
          FinePiece (front ++ '\x00' :: tail)) := by
  have shown : cString (front ++ '\x00' :: tail) = front := cString_terminated front tail clean
  have zero : ¬ lineEnd '\x00' = true := by decide
  have split : (front ++ '\x00' :: tail) ++ '\x00' :: rest =
      front ++ '\x00' :: (tail ++ '\x00' :: rest) := by
    rw [List.append_assoc, List.cons_append]
  have last : EndsIn dropped front ↔ EndsIn (· = '\x10') front := by
    refine exists_congr fun c => and_congr_right fun ending => ?_
    have ordinary : c ≠ '\n' := fun same => plain (same ▸ List.mem_of_getLast? ending)
    simp [dropped, ordinary]
  have behind : EndsIn lineEnd (front ++ '\x00' :: tail) ↔ tail.rdropWhile lineEnd ≠ tail := by
    rw [← not_not (a := EndsIn lineEnd (front ++ '\x00' :: tail)), ← rdropWhile_self,
      rdropWhile_behind zero, List.append_cancel_left_eq, List.cons.injEq, and_iff_right rfl]
  rw [split, rdropWhile_behind zero, FinePiece, if_pos (by simp), shown, behind, not_not, ← last]
  refine ⟨_, fun fuel enough => trim_text clean enough, ?_⟩
  constructor
  -- The caller finds the front, trimmed, and the piece itself keeps what is behind the zero.
  · rintro ⟨more, same⟩
    rw [List.append_assoc, List.append_assoc, List.cons_append] at same
    have texts := congrArg cString same
    rw [cString_terminated _ _ clean, cString_terminated _ _ (dropped_clean dropped clean)] at texts
    have stays := rdropWhile_self.mp texts.symm
    rw [← texts, Nat.sub_self, List.replicate_zero, List.nil_append, List.append_cancel_left_eq,
      List.cons.injEq, and_iff_right rfl] at same
    exact ⟨nothing_cut same, stays⟩
  · rintro ⟨whole, kept⟩
    have stays := rdropWhile_self.mpr kept
    rw [whole, stays, Nat.sub_self]
    exact ⟨rest, by simp⟩

theorem trim_stale {bytes : List Char} (terminated : '\x00' ∈ bytes) :
    ∃ result, (∀ fuel, bytes.length < fuel → trim fuel bytes = some result) ∧
      (Holds result [] ↔ ∀ c ∈ cString bytes, dropped c = true) := by
  obtain ⟨front, rest, rfl, clean⟩ := List.eq_append_cons_of_mem terminated
  have inside : front.length < (front ++ '\x00' :: rest).length := by simp
  refine ⟨_, fun fuel enough => trim_text clean (inside.trans enough), ?_⟩
  rw [holds_text (dropped_clean dropped clean) (by simp), List.rdropWhile_eq_nil_iff,
    cString_terminated front rest clean]

theorem trim_piece {stream : List Char} {text : CStr} (read : piece size stream = some text)
    (rest : List Char) :
    ∃ bytes, (∀ fuel, text.length < fuel → trim fuel (text ++ '\x00' :: rest) = some bytes) ∧
      (Holds bytes (text.rdropWhile lineEnd) ↔ FinePiece text) := by
  have shape := fgetsAll_shape text (List.mem_of_mem_head? read)
  by_cases broken : '\x00' ∈ text
  · obtain ⟨front, tail, rfl, clean⟩ := List.eq_append_cons_of_mem broken
    have plain : '\n' ∉ front := by
      obtain ⟨body, plain, same | same⟩ := shape
      · exact fun member => plain (same ▸ List.mem_append_left _ member)
      · have lengths := congrArg List.length same
        rw [terminated, List.length_append, List.length_append, List.length_cons,
          List.length_singleton] at lengths
        have here : front <+: terminated body := ⟨'\x00' :: tail, same⟩
        have inside : front <+: body :=
          List.prefix_of_prefix_length_le here ⟨['\n'], rfl⟩ (by omega)
        exact fun member => plain (inside.subset member)
    obtain ⟨bytes, runs, held⟩ := @trim_broken front tail rest clean plain
    refine ⟨bytes, fun fuel enough => runs fuel (lt_trans ?_ enough), held⟩
    simp
  · exact trim_clean broken shape

theorem wrapper_iff {s : Vector Char size} {stream bytes result : List Char} {buff : Bool}
    {bound : Nat} (read : fgets s stream = (buff, bytes))
    (runs : ∀ fuel, bound < fuel → trim fuel bytes = some result)
    (demand : Bool → List Char → Prop) :
    (∃ buff bytes bound, (∀ fuel, bound ≤ fuel → fgetsWrapper fuel s stream = some (buff, bytes)) ∧
      demand buff bytes) ↔ demand buff result := by
  have ran : ∀ fuel, bound < fuel → fgetsWrapper fuel s stream = some (buff, result) := by
    intro fuel enough
    rw [fgetsWrapper, read]
    simp only [runs fuel enough, Option.map_some]
  constructor
  · rintro ⟨other, bytes, limit, agrees, holds⟩
    have one := agrees (max limit (bound + 1)) (Nat.le_max_left _ _)
    rw [ran _ (Nat.lt_of_succ_le (Nat.le_max_right _ _))] at one
    cases one
    exact holds
  · exact fun holds => ⟨buff, result, bound + 1, fun fuel enough => ran fuel enough, holds⟩

theorem trims_piece_iff (roomy : 2 ≤ size) (s : Vector Char size) {stream : List Char} {text : CStr}
    (read : piece size stream = some text) : TrimsExactly s stream ↔ FinePiece text := by
  have fits := piece_length roomy read
  obtain ⟨bytes, runs, held⟩ := trim_piece read (s.toList.drop (text.length + 1))
  have taken : fgets s stream = (true, text ++ '\x00' :: s.toList.drop (text.length + 1)) := by
    rw [fgets, read]
    simp only [overlay_line s fits]
  rw [TrimsExactly, read,
    wrapper_iff taken runs fun buff bytes => buff = true ∧
      Holds bytes (text.rdropWhile lineEnd), held,
    and_iff_right rfl]

theorem trims_stale_iff (s : Vector Char size) {stream : List Char}
    (ended : piece size stream = none) :
    TrimsExactly s stream ↔ '\x00' ∈ s.toList ∧ ∀ c ∈ cString s.toList, dropped c = true := by
  have unread : fgets s stream = (false, s.toList) := by rw [fgets, ended]
  rw [TrimsExactly, ended]
  by_cases terminated : '\x00' ∈ s.toList
  · obtain ⟨result, runs, held⟩ := trim_stale terminated
    rw [wrapper_iff unread runs fun buff bytes => buff = false ∧ Holds bytes [], held,
      and_iff_right rfl, and_iff_right terminated]
  · refine iff_of_false ?_ fun both => terminated both.1
    rintro ⟨buff, bytes, bound, runs, _⟩
    have one := runs bound (le_refl _)
    rw [fgetsWrapper, unread] at one
    simp [trim_unterminated terminated] at one

/-- The line input does what it is meant for on exactly these inputs. -/
theorem line_trimmed_iff (roomy : 2 ≤ size) (s : Vector Char size) (stream : List Char) :
    TrimsExactly s stream ↔ Fine s stream := by
  unfold Fine
  cases read : piece size stream with
  | none => exact trims_stale_iff s read
  | some text => exact trims_piece_iff roomy s read

def zeroes : Vector Char 16 := Vector.replicate 16 '\x00'

theorem line_trimmed_iff_plainLine :
    piece 16 "send\n".toList = some "send\n".toList ∧
      (TrimsExactly zeroes "send\n".toList ↔ Fine zeroes "send\n".toList) :=
  ⟨by decide, line_trimmed_iff (by decide) zeroes "send\n".toList⟩

/-- The 0x0d of a CRLF line stays. -/
theorem crlf_not_trimmed : ¬ TrimsExactly zeroes "send\r\n".toList := by
  have read : piece 16 "send\r\n".toList = some "send\r\n".toList := by decide
  have clean : '\x00' ∉ "send\r\n".toList := by decide
  rw [trims_piece_iff (by decide) zeroes read, FinePiece, if_neg clean, not_not]
  exact ⟨'\r', by decide, by decide⟩

end Exact

/-! What is left to a caller of the line input. -/
section Callers

structure Input (size : Nat) where
  stale : Vector Char size
  stream : List Char

/-- The string in the array after the call. Fewer than `size` bytes can be trimmed. -/
def Input.string (input : Input size) : Option CStr :=
  (fgetsWrapper size input.stale input.stream).map fun (_, bytes) => cString bytes

def typed (line : CStr) (later : List Char) : List Char := line ++ '\n' :: later

def arrives (size : Nat) (line : CStr) : CStr :=
  (cString (line.take (size - 1))).rdropWhile dropped

/-- A line that fits, has no zero byte and does not end in 0x10. -/
def Whole (size : Nat) (line : CStr) : Prop :=
  line.length ≤ size - 1 ∧ '\x00' ∉ line ∧ ¬ EndsIn (· = '\x10') line

theorem rdropWhile_stops (ends : Char → Bool) (text : CStr) :
    ¬ EndsIn ends (text.rdropWhile ends) :=
  rdropWhile_self.mp (List.rdropWhile_idempotent ends text)

theorem fgets_length (s : Vector Char size) (stream : List Char) :
    (fgets s stream).2.length = size := by
  rw [fgets]
  split <;> simp

theorem trim_enough {bytes : List Char} (length : bytes.length = size) (ended : '\x00' ∈ bytes) :
    ∃ trimmed, trim size bytes = some trimmed ∧
      cString trimmed = (cString bytes).rdropWhile dropped := by
  obtain ⟨front, rest, rfl, clean⟩ := List.eq_append_cons_of_mem ended
  have short : front.length < size := by
    rw [List.length_append, List.length_cons] at length
    omega
  refine ⟨_, trim_text clean short, ?_⟩
  rw [cString_terminated _ _ (dropped_clean dropped clean), cString_terminated _ _ clean]

theorem string_spec {input : Input size} {text : CStr} (read : input.string = some text) :
    ∃ bytes : List Char, bytes.length = size ∧ '\x00' ∈ bytes ∧
      text = (cString bytes).rdropWhile dropped := by
  have length := fgets_length input.stale input.stream
  rw [Input.string, fgetsWrapper, Option.map_map, Option.map_eq_some_iff] at read
  obtain ⟨trimmed, ran, rfl⟩ := read
  refine ⟨_, length, ?_⟩
  by_cases ended : '\x00' ∈ (fgets input.stale input.stream).2
  · obtain ⟨other, same, shown⟩ := trim_enough length ended
    obtain rfl := Option.some_inj.mp (ran.symm.trans same)
    exact ⟨ended, shown⟩
  · exact absurd (ran.symm.trans (trim_unterminated ended size)) (by simp)

theorem string_length {input : Input size} {text : CStr} (read : input.string = some text) :
    text.length < size := by
  obtain ⟨bytes, length, ended, rfl⟩ := string_spec read
  obtain ⟨front, rest, rfl, clean⟩ := List.eq_append_cons_of_mem ended
  have shorter := (List.rdropWhile_prefix dropped front).length_le
  rw [List.length_append, List.length_cons] at length
  rw [cString_terminated _ _ clean]
  omega

theorem string_clean {input : Input size} {text : CStr} (read : input.string = some text) :
    '\x00' ∉ text := by
  obtain ⟨bytes, _, _, rfl⟩ := string_spec read
  exact dropped_clean dropped (cString_clean bytes)

theorem string_kept {input : Input size} {text : CStr} (read : input.string = some text) :
    ¬ EndsIn dropped text := by
  obtain ⟨bytes, _, _, rfl⟩ := string_spec read
  exact rdropWhile_stops dropped _

variable {line : CStr}

/-- As much of a typed line as fits is read, with its end if that fits too. -/
theorem typed_piece (roomy : 2 ≤ size) (plain : '\n' ∉ line) (later : List Char) :
    ∃ text, piece size (typed line later) = some text ∧
      (text = line.take (size - 1) ∨ text = terminated (line.take (size - 1))) := by
  by_cases short : line.length < size - 1
  · have chunks : fgetsAll (size - 1) (size - 1) (typed line later) = _ :=
      fgetsAll_line plain short later
    refine ⟨terminated line, by rw [piece, chunks, List.head?_cons], Or.inr ?_⟩
    rw [List.take_of_length_le (Nat.le_of_lt short)]
  · have chunks : fgetsAll (size - 1) (size - 1) (typed line later) = _ :=
      fgetsAll_long plain (by omega) (Nat.not_lt.mp short) (size - 1) ('\n' :: later)
    exact ⟨line.take (size - 1), by rw [piece, chunks, List.head?_cons], Or.inl rfl⟩

def unread (size : Nat) (stream : List Char) : List Char :=
  stream.drop ((piece size stream).getD []).length

theorem unread_typed (roomy : 2 ≤ size) (plain : '\n' ∉ line) (later : List Char) :
    unread size (typed line later) =
      if line.length < size - 1 then later else typed (line.drop (size - 1)) later := by
  rw [unread, piece]
  by_cases short : line.length < size - 1
  · have chunks : fgetsAll (size - 1) (size - 1) (typed line later) = _ :=
      fgetsAll_line plain short later
    have split : typed line later = terminated line ++ later := List.append_cons line '\n' later
    rw [if_pos short, chunks, List.head?_cons, Option.getD_some, split]
    exact List.drop_left
  · have chunks : fgetsAll (size - 1) (size - 1) (typed line later) = _ :=
      fgetsAll_long plain (by omega) (Nat.not_lt.mp short) (size - 1) ('\n' :: later)
    have taken : (line.take (size - 1)).length = size - 1 := by
      rw [List.length_take]
      omega
    rw [if_neg short, chunks, List.head?_cons, Option.getD_some, taken, typed, typed,
      List.drop_append_of_le_length (Nat.not_lt.mp short)]

theorem terminated_string (text : CStr) :
    (cString (terminated text)).rdropWhile dropped = (cString text).rdropWhile dropped := by
  by_cases clean : '\x00' ∉ text
  · have ends : '\x00' ∉ terminated text := by simp [terminated, clean]
    rw [cString_self.mpr ends, cString_self.mpr clean]
    exact List.rdropWhile_concat_pos _ _ _ (by decide)
  · obtain ⟨front, rest, rfl, before⟩ := List.eq_append_cons_of_mem (not_not.mp clean)
    rw [terminated, List.append_assoc, List.cons_append, cString_terminated _ _ before,
      cString_terminated _ _ before]

theorem string_typed (roomy : 2 ≤ size) (plain : '\n' ∉ line) {input : Input size}
    {later : List Char} (stream : input.stream = typed line later) :
    input.string = some (arrives size line) := by
  obtain ⟨text, read, shape⟩ := typed_piece roomy plain later
  obtain ⟨bytes, ran, shown⟩ := @wrapper_string size input.stale _ _ roomy read size le_rfl
  have found : input.string = some (cString bytes) := by
    rw [Input.string, stream, ran, Option.map_some]
  rw [found, shown, arrives]
  rcases shape with rfl | rfl
  · rfl
  · rw [terminated_string]

theorem arrives_prefix (size : Nat) (line : CStr) : arrives size line <+: line :=
  (List.rdropWhile_prefix _ _).trans ((List.takeWhile_prefix _).trans (List.take_prefix _ line))

theorem arrives_length (size : Nat) (line : CStr) : (arrives size line).length ≤ size - 1 := by
  have shorter := ((List.rdropWhile_prefix dropped (cString (line.take (size - 1)))).trans
    (List.takeWhile_prefix _)).length_le
  exact shorter.trans (List.length_take_le _ _)

theorem arrives_clean (size : Nat) (line : CStr) : '\x00' ∉ arrives size line :=
  dropped_clean dropped (cString_clean _)

theorem arrives_kept (size : Nat) (line : CStr) : ¬ EndsIn dropped (arrives size line) :=
  rdropWhile_stops dropped _

theorem arrives_self_iff (plain : '\n' ∉ line) : arrives size line = line ↔ Whole size line := by
  have last : EndsIn dropped line ↔ EndsIn (· = '\x10') line := by
    refine exists_congr fun c => and_congr_right fun ending => ?_
    have ordinary : c ≠ '\n' := fun same => plain (same ▸ List.mem_of_getLast? ending)
    simp [dropped, ordinary]
  constructor
  · intro same
    refine ⟨same ▸ arrives_length size line, same ▸ arrives_clean size line, fun ends => ?_⟩
    exact arrives_kept size line (same.symm ▸ last.mpr ends)
  · rintro ⟨fits, clean, kept⟩
    rw [arrives, List.take_of_length_le fits, cString_self.mpr clean, rdropWhile_self, last]
    exact kept

end Callers

end NatClient.LineInput
