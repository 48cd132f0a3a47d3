import NatClient.CString

/-!
Chains of bounded prints into one buffer. A print receives the room that is
left, a piece that does not fit with its terminator ends the chain with an error
code, and the next piece starts at the terminator of the previous one. `Prints`
describes a step by the text it appends; the rules compose steps and loops, so
that a whole encoder succeeds exactly when its full text is shorter than the
buffer. `none` in place of a text is a step that fails for another reason.
-/

namespace NatClient.BoundedPrint

open CString

abbrev Memory := Nat → Char

def store (mem : Memory) (start : Nat) (bytes : List Char) : Memory :=
  fun i => if start ≤ i then (bytes[i - start]?).getD (mem i) else mem i

def intMax : Nat := 2 ^ 31 - 1

def snprintf (mem : Memory) (start size : Nat) (text : CStr) : Memory :=
  if size = 0 then mem else store mem start (text.take (size - 1) ++ ['\x00'])

def snprintfResult (text : CStr) : Int :=
  if text.length ≤ intMax then text.length else -1

structure Cursor where
  mem : Memory
  p : Nat

structure Failure where
  code : Int
  mem : Memory

abbrev Step := Cursor → Except Failure Cursor

def returned : Except Failure Cursor → Int × Memory
  | .ok c => (c.p, c.mem)
  | .error failure => (failure.code, failure.mem)

/-- One bounded print at `c.p` of a buffer that starts at `base`. The room is
computed in `ptrdiff_t`, handed over as `size_t` and compared as `int`. -/
def print (tooSmall : Int) (base maxlen : Nat) (text : CStr) : Step := fun c =>
  let room : Int := maxlen - ((c.p : Int) - base)
  let mem := snprintf c.mem c.p (room % 2 ^ 64).toNat text
  let printed := snprintfResult text
  -- The test is for a positive count, so an empty piece fails as well.
  if printed ≤ 0 ∨ room.bmod (2 ^ 32) ≤ printed then .error ⟨-tooSmall, mem⟩
  else .ok ⟨mem, c.p + printed.toNat⟩

def terminate (tooSmall : Int) (base maxlen : Nat) : Step := fun c =>
  if c.p = base + maxlen then .error ⟨-tooSmall, c.mem⟩
  else .ok ⟨store c.mem c.p ['\x00'], c.p⟩

def forEach {Item : Type} (body : Item → Step) : List Item → Step
  | [] => .ok
  | item :: rest => fun c => body item c >>= forEach body rest

def atCursor (printer : Nat → Step) : Step := fun c => printer c.p c

/-- What appending `text` at `p` does to a region that ends at `limit`. -/
structure Wrote (limit p : Nat) (text : CStr) (before after : Memory) : Prop where
  kept : ∀ i, i < p → after i = before i
  beyond : ∀ i, limit ≤ i → after i = before i
  written : ∀ i, (inside : i < text.length) → after (p + i) = text[i]

def cat (first second : Option CStr) : Option CStr :=
  first.bind fun head => second.map (head ++ ·)

def catAll : List (Option CStr) → Option CStr
  | [] => some []
  | text :: rest => cat text (catAll rest)

def Outcome (limit : Nat) (text : Option CStr) (c : Cursor) : Except Failure Cursor → Prop
  | .ok after => ∃ whole, text = some whole ∧ c.p + whole.length < limit ∧
      after.p = c.p + whole.length ∧ Wrote limit c.p whole c.mem after.mem
  | .error failure => (∀ whole, text = some whole → limit ≤ c.p + whole.length) ∧
      failure.code < 0 ∧ ∀ i, limit ≤ i → failure.mem i = c.mem i

/-- From every cursor in the region the step appends `text`, or it fails and
`text` would not have fit. -/
structure Prints (base limit : Nat) (step : Step) (text : Option CStr) : Prop where
  run : ∀ c, base ≤ c.p → c.p < limit → Outcome limit text c (step c)

def readText (mem : Memory) (length : Int) : CStr := (List.range length.toNat).map mem

section Whole
variable {limit : Nat} {step : Step} {buffer : Memory}

theorem Prints.returned_text {text : Option CStr} (prints : Prints 0 limit step text)
    (positive : 0 < limit) (success : 0 ≤ (returned (step ⟨buffer, 0⟩)).1) :
    ∃ whole, text = some whole ∧ whole.length < limit ∧
      readText (returned (step ⟨buffer, 0⟩)).2 (returned (step ⟨buffer, 0⟩)).1 = whole := by
  have outcome := prints.run ⟨buffer, 0⟩ (Nat.le_refl 0) positive
  cases result : step ⟨buffer, 0⟩ with
  | error failure =>
      rw [result] at outcome success
      exact absurd success (Int.not_le.mpr outcome.2.1)
  | ok after =>
      rw [result] at outcome
      obtain ⟨whole, known, fits, position, wrote⟩ := outcome
      refine ⟨whole, known, by simpa using fits, ?_⟩
      apply List.ext_getElem
      · simp [readText, returned, position]
      · intro i left right
        simpa [readText, returned] using wrote.written i right

theorem Prints.returned_total {whole : CStr} (prints : Prints 0 limit step (some whole))
    (fits : whole.length < limit) : 0 ≤ (returned (step ⟨buffer, 0⟩)).1 := by
  have outcome := prints.run ⟨buffer, 0⟩ (Nat.le_refl 0) (Nat.zero_lt_of_lt fits)
  cases result : step ⟨buffer, 0⟩ with
  | error failure =>
      rw [result] at outcome
      have tooLong := outcome.1 whole rfl
      simp only [Nat.zero_add] at tooLong
      exact absurd fits (Nat.not_lt.mpr tooLong)
  | ok after => exact Int.natCast_nonneg after.p

end Whole

theorem wrote_nothing (limit p : Nat) (mem : Memory) : Wrote limit p [] mem mem :=
  ⟨fun _ _ => rfl, fun _ _ => rfl, fun i inside => absurd inside (Nat.not_lt_zero i)⟩

theorem wrote_append {limit p : Nat} {first second : CStr} {before middle after : Memory}
    (head : Wrote limit p first before middle)
    (tail : Wrote limit (p + first.length) second middle after) :
    Wrote limit p (first ++ second) before after := by
  constructor
  · intro i below
    rw [tail.kept i (by omega), head.kept i below]
  · intro i above
    rw [tail.beyond i above, head.beyond i above]
  · intro i inside
    rw [List.length_append] at inside
    by_cases early : i < first.length
    · rw [tail.kept (p + i) (by omega), head.written i early, List.getElem_append_left early]
    · have shifted := tail.written (i - first.length) (by omega)
      rw [show p + first.length + (i - first.length) = p + i by omega] at shifted
      rw [shifted, List.getElem_append_right (by omega)]

theorem store_below {mem : Memory} {start i : Nat} {bytes : List Char} (below : i < start) :
    store mem start bytes i = mem i := by
  simp [store, Nat.not_le.mpr below]

theorem store_beyond {mem : Memory} {start i : Nat} {bytes : List Char}
    (above : start + bytes.length ≤ i) : store mem start bytes i = mem i := by
  have past : bytes.length ≤ i - start := by omega
  simp [store, show start ≤ i by omega, List.getElem?_eq_none past]

theorem store_inside {mem : Memory} {start i : Nat}
    {bytes : List Char} (inside : i < bytes.length) :
    store mem start bytes (start + i) = bytes[i] := by
  simp [store, inside]

theorem snprintf_wrote {mem : Memory} {p limit : Nat} {text : CStr}
    (fits : p + text.length < limit) :
    Wrote limit p text mem (snprintf mem p (limit - p) text) := by
  have whole : text.take (limit - p - 1) = text := List.take_of_length_le (by omega)
  rw [snprintf, if_neg (by omega), whole]
  constructor
  · intro i below
    exact store_below below
  · intro i above
    exact store_beyond (by simp only [List.length_append, List.length_singleton]; omega)
  · intro i inside
    rw [store_inside (by simp only [List.length_append, List.length_singleton]; omega),
      List.getElem_append_left inside]

theorem snprintf_beyond {mem : Memory} {p limit i : Nat} {text : CStr} (start : p < limit)
    (above : limit ≤ i) : snprintf mem p (limit - p) text i = mem i := by
  rw [snprintf, if_neg (by omega)]
  apply store_beyond
  simp only [List.length_append, List.length_singleton, List.length_take]
  omega

theorem prints_piece {tooSmall : Int} {base maxlen : Nat} {text : CStr} (positive : 0 < tooSmall)
    (nonempty : text ≠ []) (bound : maxlen ≤ intMax) :
    Prints base (base + maxlen) (print tooSmall base maxlen text) (some text) := by
  constructor
  intro c above below
  -- The room is a difference of pointers; it is the same number as a `size_t` and as an `int`.
  have size : (((maxlen : Int) - ((c.p : Int) - base)) % 2 ^ 64).toNat = base + maxlen - c.p := by
    simp only [intMax] at bound
    omega
  have room : ((maxlen : Int) - ((c.p : Int) - base)).bmod
      (2 ^ 32) = (base + maxlen : Int) - c.p := by
    simp only [intMax] at bound
    rw [Int.bmod_eq_of_le (by omega) (by omega)]
    omega
  have filled : 0 < text.length := List.length_pos_iff.mpr nonempty
  simp only [print, size, room]
  by_cases fits : c.p + text.length < base + maxlen
  · have printed : snprintfResult text = text.length :=
      if_pos (by simp only [intMax] at bound ⊢; omega)
    rw [printed, if_neg (by omega)]
    exact ⟨text, rfl, fits, by simp, snprintf_wrote fits⟩
  · have overflow : snprintfResult text ≤ 0 ∨
        (base + maxlen : Int) - c.p ≤ snprintfResult text := by
      rw [snprintfResult]
      split <;> omega
    rw [if_pos overflow]
    refine ⟨?_, by simpa using positive, fun i past => snprintf_beyond below past⟩
    intro whole same
    cases same
    omega

theorem prints_terminate {tooSmall : Int} {base maxlen : Nat} :
    Prints base (base + maxlen) (terminate tooSmall base maxlen) (some []) := by
  constructor
  intro c above below
  rw [terminate, if_neg (by omega)]
  refine ⟨[], rfl, by simpa using below, rfl, ?_⟩
  constructor
  · intro i under
    exact store_below under
  · intro i past
    exact store_beyond (by simp only [List.length_singleton]; omega)
  · intro i inside
    exact absurd inside (Nat.not_lt_zero i)

theorem prints_skip (base limit : Nat) : Prints base limit .ok (some []) :=
  ⟨fun c _ below => ⟨[], rfl, by simpa using below, rfl, wrote_nothing _ _ _⟩⟩

theorem prints_fail (base limit : Nat) (code : Int) (negative : code < 0) :
    Prints base limit (fun c => .error ⟨code, c.mem⟩) none :=
  ⟨fun _ _ _ => ⟨fun _ impossible => absurd impossible (by simp), negative, fun _ _ => rfl⟩⟩

theorem cat_known {head tail : Option CStr} {whole : CStr} (joined : cat head tail = some whole) :
    ∃ front back, head = some front ∧ tail = some back ∧ whole = front ++ back := by
  obtain ⟨front, known, rest⟩ := Option.bind_eq_some_iff.mp joined
  obtain ⟨back, knownBack, same⟩ := Option.map_eq_some_iff.mp rest
  exact ⟨front, back, known, knownBack, same.symm⟩

theorem outcome_stopped {limit : Nat} {head tail : Option CStr} {c : Cursor} {failure : Failure}
    (stopped : Outcome limit head c (.error failure)) :
    Outcome limit (cat head tail) c (.error failure) := by
  obtain ⟨tooLong, negative, frame⟩ := stopped
  refine ⟨?_, negative, frame⟩
  intro whole joined
  obtain ⟨front, back, known, _, rfl⟩ := cat_known joined
  have already := tooLong front known
  simp only [List.length_append]
  omega

theorem outcome_continued {limit : Nat} {head tail : Option CStr} {c middle : Cursor}
    {result : Except Failure Cursor} (first : Outcome limit head c (.ok middle))
    (second : Outcome limit tail middle result) : Outcome limit (cat head tail) c result := by
  obtain ⟨front, known, inside, position, wrote⟩ := first
  cases result with
  | error failure =>
      obtain ⟨tooLong, negative, frame⟩ := second
      refine ⟨?_, negative, fun i past => by rw [frame i past, wrote.beyond i past]⟩
      intro whole joined
      obtain ⟨front', back, known', knownBack, rfl⟩ := cat_known joined
      cases known.symm.trans known'
      have behind := tooLong back knownBack
      simp only [List.length_append]
      omega
  | ok after =>
      obtain ⟨back, knownBack, insideBack, positionBack, wroteBack⟩ := second
      rw [position] at insideBack positionBack wroteBack
      refine ⟨front ++ back, by simp [cat, known, knownBack], ?_, ?_, wrote_append wrote wroteBack⟩
      · simp only [List.length_append]
        omega
      · simp only [List.length_append]
        omega

theorem prints_seq {base limit : Nat} {first second : Step} {head tail : Option CStr}
    (printsHead : Prints base limit first head) (printsTail : Prints base limit second tail) :
    Prints base limit (fun c => first c >>= second) (cat head tail) := by
  constructor
  intro c above below
  have ran := printsHead.run c above below
  cases result : first c with
  | error failure =>
      rw [result] at ran
      exact outcome_stopped ran
  | ok middle =>
      rw [result] at ran
      -- The second step starts inside the region, since the first piece fit with its terminator.
      have ⟨front, _, inside, position, _⟩ := ran
      exact outcome_continued ran (printsTail.run middle (by omega) (by omega))

theorem prints_forEach {Item : Type} {base limit : Nat} {body : Item → Step}
    {text : Item → Option CStr} (items : List Item)
    (each : ∀ item ∈ items, Prints base limit (body item) (text item)) :
    Prints base limit (forEach body items) (catAll (items.map text)) := by
  induction items with
  | nil => exact prints_skip base limit
  | cons item rest ih =>
      exact prints_seq (each item (by simp)) (ih fun later member => each later (by simp [member]))

theorem prints_atCursor {base limit : Nat} {printer : Nat → Step} {text : Option CStr}
    (prints : ∀ p, base ≤ p → p < limit → Prints p limit (printer p) text) :
    Prints base limit (atCursor printer) text :=
  ⟨fun c above below => (prints c.p above below).run c (Nat.le_refl _) below⟩

/-! A chain that ends with the terminator, as a whole. -/
section Closing
variable {limit : Nat} {first second step : Step} {buffer : Memory}

def Closes (step : Step) : Prop := ∀ c after, step c = .ok after → after.mem after.p = '\x00'

theorem closes_terminate (tooSmall : Int) (base maxlen : Nat) :
    Closes (terminate tooSmall base maxlen) := by
  intro c after done
  rw [terminate] at done
  split at done
  · exact absurd done (by simp)
  · cases done
    have here : store c.mem c.p ['\x00'] (c.p + 0) = '\x00' := store_inside Nat.one_pos
    exact here

theorem closes_seq (last : Closes second) : Closes (fun c => first c >>= second) := by
  intro c after done
  change (first c >>= second) = .ok after at done
  cases result : first c with
  | error failure =>
      rw [result] at done
      exact absurd done (by simp [bind, Except.bind])
  | ok middle =>
      rw [result] at done
      exact last middle after done

/-- What an encoder of `text` hands back: the text with its length, or a failure,
and nothing behind the buffer is touched. -/
structure ExactResult (limit : Nat) (buffer : Memory) (text : Option CStr) (result : Int × Memory) :
    Prop where
  succeeds : 0 ≤ result.1 ↔ ∃ whole, text = some whole ∧ whole.length < limit
  content : ∀ whole, text = some whole → whole.length < limit →
    result.1 = whole.length ∧ readText result.2 result.1 = whole ∧ result.2 whole.length = '\x00'
  frame : ∀ i, limit ≤ i → result.2 i = buffer i

theorem Prints.returned_exact {text : Option CStr}
    (prints : Prints 0 limit step text) (closes : Closes step)
    (positive : 0 < limit) : ExactResult limit buffer text (returned (step ⟨buffer, 0⟩)) := by
  have outcome := prints.run ⟨buffer, 0⟩ (Nat.le_refl 0) positive
  constructor
  · constructor
    · intro success
      obtain ⟨whole, known, fits, _⟩ := prints.returned_text positive success
      exact ⟨whole, known, fits⟩
    · rintro ⟨whole, rfl, fits⟩
      exact prints.returned_total fits
  · rintro whole rfl fits
    have success : 0 ≤ (returned (step ⟨buffer, 0⟩)).1 := prints.returned_total fits
    obtain ⟨_, known, _, read⟩ := prints.returned_text positive success
    cases known
    cases result : step ⟨buffer, 0⟩ with
    | error failure =>
        rw [result] at outcome success
        exact absurd success (Int.not_le.mpr outcome.2.1)
    | ok after =>
        rw [result] at outcome read
        obtain ⟨_, known, _, position, _⟩ := outcome
        cases known
        -- The encoder started at the front, so where it stopped is the length.
        have stop : after.p = whole.length := position.trans (Nat.zero_add _)
        refine ⟨congrArg Nat.cast stop, read, ?_⟩
        rw [← stop]
        exact closes _ after result
  · intro i past
    cases result : step ⟨buffer, 0⟩ with
    | error failure =>
        rw [result] at outcome
        exact outcome.2.2 i past
    | ok after =>
        rw [result] at outcome
        obtain ⟨_, _, _, _, wrote⟩ := outcome
        exact wrote.beyond i past

end Closing

@[simp] theorem cat_some (first second : CStr) :
    cat (some first) (some second) = some (first ++ second) :=
  rfl

theorem catAll_some {Item : Type} {text : Item → Option CStr} {known : Item → CStr}
    {items : List Item} (each : ∀ item ∈ items, text item = some (known item)) :
    catAll (items.map text) = some (items.flatMap known) := by
  induction items with
  | nil => rfl
  | cons item rest ih =>
      rw [List.map_cons, catAll, each item (by simp), ih fun later member =>
        each later (by simp [member]),
        cat_some, List.flatMap_cons]

theorem catAll_known {Item : Type} {text : Item → Option CStr} {known : Item → CStr}
    {items : List Item}
    (each : ∀ item ∈ items, ∀ piece, text item = some piece → piece = known item)
    {whole : CStr} (joined : catAll (items.map text) = some whole) :
    whole = items.flatMap known := by
  induction items generalizing whole with
  | nil => exact (Option.some_inj.mp joined).symm
  | cons item rest ih =>
      obtain ⟨piece, found, later⟩ := Option.bind_eq_some_iff.mp joined
      obtain ⟨tail, tailFound, rfl⟩ := Option.map_eq_some_iff.mp later
      rw [List.flatMap_cons, each item (by simp) piece found,
        ih (fun other member => each other (by simp [member])) tailFound]

theorem catAll_each {Item : Type} {text : Item → Option CStr} {items : List Item} {whole : CStr}
    (joined : catAll (items.map text) = some whole) :
    ∀ item ∈ items, ∃ piece, text item = some piece := by
  induction items generalizing whole with
  | nil => exact fun _ impossible => absurd impossible List.not_mem_nil
  | cons item rest ih =>
      obtain ⟨piece, found, later⟩ := Option.bind_eq_some_iff.mp joined
      obtain ⟨tail, tailFound, _⟩ := Option.map_eq_some_iff.mp later
      intro other member
      rcases List.mem_cons.mp member with rfl | inside
      · exact ⟨piece, found⟩
      · exact ih tailFound other inside

theorem catAll_total {Item : Type} {text : Item → Option CStr} {items : List Item}
    (each : ∀ item ∈ items, ∃ piece, text item = some piece) :
    ∃ whole, catAll (items.map text) = some whole := by
  induction items with
  | nil => exact ⟨[], rfl⟩
  | cons item rest ih =>
      obtain ⟨piece, found⟩ := each item List.mem_cons_self
      obtain ⟨tail, tailFound⟩ :=
        ih fun other member => each other (List.mem_cons_of_mem item member)
      exact ⟨piece ++ tail, by rw [List.map_cons, catAll, found, tailFound, cat_some]⟩

end NatClient.BoundedPrint
