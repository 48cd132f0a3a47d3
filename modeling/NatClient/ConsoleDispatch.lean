import Mathlib.Tactic.IntervalCases
import NatClient.LineInput

/-!
The command loops of icecontroller.c and iceclient.c. The controller looks at the first
character of what `fgets_wrapper` leaves of a line, the client at every character of what
`gets` stores; both hand the text to `atoi` and switch on the result. What the handlers
do, and how much of the input they read for themselves, is left open. A line that does not
fit the controller's array takes several turns of its loop.
-/

namespace NatClient.ConsoleDispatch

open CString CStdio LineInput

inductive Event (Command : Type) where
  | ran (command : Command)
  | help
  deriving DecidableEq

structure Switch (Command : Type) where
  select : Int → Option Command
  index : Command → Nat
  count : Nat
  select_iff : ∀ value command, select value = some command ↔ value = index command
  index_lt : ∀ command, index command < count
  covers : ∀ number < count, ∃ command, index command = number

section Commands

inductive ControllerCommand where
  | clientConnect | deviceAdd | clientSend | clientTurnon | clientTurnoff | logSet | exit
  deriving DecidableEq

def ControllerCommand.index : ControllerCommand → Nat
  | .clientConnect => 0
  | .deviceAdd => 1
  | .clientSend => 2
  | .clientTurnon => 3
  | .clientTurnoff => 4
  | .logSet => 5
  | .exit => 6

def controllerSelect : Int → Option ControllerCommand
  | 0 => some .clientConnect
  | 2 => some .clientSend
  | 3 => some .clientTurnon
  | 4 => some .clientTurnoff
  | 5 => some .logSet
  | 1 => some .deviceAdd
  | 6 => some .exit
  | _ => none

inductive ClientCommand where
  | clientConnect | clientSend | exit

def ClientCommand.index : ClientCommand → Nat
  | .clientConnect => 0
  | .clientSend => 1
  | .exit => 2

def clientSelect : Int → Option ClientCommand
  | 0 => some .clientConnect
  | 1 => some .clientSend
  | 2 => some .exit
  | _ => none

theorem controllerSelect_iff (value : Int) (command : ControllerCommand) :
    controllerSelect value = some command ↔ value = command.index := by
  constructor
  · intro selected
    unfold controllerSelect at selected
    split at selected <;> cases selected <;> rfl
  · rintro rfl
    cases command <;> rfl

theorem clientSelect_iff (value : Int) (command : ClientCommand) :
    clientSelect value = some command ↔ value = command.index := by
  constructor
  · intro selected
    unfold clientSelect at selected
    split at selected <;> cases selected <;> rfl
  · rintro rfl
    cases command <;> rfl

def controllerCommands : Switch ControllerCommand where
  select := controllerSelect
  index := ControllerCommand.index
  count := 7
  select_iff := controllerSelect_iff
  index_lt := by rintro (_ | _) <;> decide
  covers := by
    intro number small
    interval_cases number
    exacts [⟨.clientConnect, rfl⟩, ⟨.deviceAdd, rfl⟩, ⟨.clientSend, rfl⟩, ⟨.clientTurnon, rfl⟩,
      ⟨.clientTurnoff, rfl⟩, ⟨.logSet, rfl⟩, ⟨.exit, rfl⟩]

def clientCommands : Switch ClientCommand where
  select := clientSelect
  index := ClientCommand.index
  count := 3
  select_iff := clientSelect_iff
  index_lt := by rintro (_ | _) <;> decide
  covers := by
    intro number small
    interval_cases number
    exacts [⟨.clientConnect, rfl⟩, ⟨.clientSend, rfl⟩, ⟨.exit, rfl⟩]

end Commands

section Turns
variable {Command State : Type}

def dispatch (commands : Switch Command) (handlers : Command → State → State) (state : State)
    (idx : Int) : State × Event Command :=
  match commands.select idx with
  | some command => (handlers command state, .ran command)
  | none => (state, .help)

/-- A handler is given what there is to be read and answers how many characters it takes. -/
abbrev Handlers (Command State : Type) : Type := Command → State → List Char → State × Nat

def serve (handlers : Handlers Command State) (command : Command) (input : State × List Char) :
    State × List Char :=
  let (state, taken) := handlers command input.1 input.2
  (state, input.2.drop taken)

/-- One turn of the controller's loop; no result at the end of the input, where the loop
ends. `cmd` was zeroed, and 256 rounds are enough for the trimming of its text. -/
def controllerTurn (handlers : Handlers ControllerCommand State) (state : State)
    (stream : List Char) : Option ((State × List Char) × Event ControllerCommand) := do
  let (read, bytes) ← fgetsWrapper 256 (Vector.replicate 256 '\x00') stream
  let input := (state, unread 256 stream)
  let cmd := cString bytes
  if read then
    if 0 < cmd.length then
      if cmd.head?.any Char.isDigit then
        some (dispatch controllerCommands (serve handlers) input (atoi cmd))
      else some (input, .help)
    else some (input, .help)
  else none

def controllerTurns (handlers : Handlers ControllerCommand State) (left : Nat) :
    Nat → State → List Char → Option (State × List (Event ControllerCommand))
  | 0, state, stream => if stream.length ≤ left then some (state, []) else none
  | fuel + 1, state, stream =>
      if stream.length ≤ left then some (state, [])
      else do
        let ((state, rest), event) ← controllerTurn handlers state stream
        if event = .ran .exit then some (state, [event])
        else do
          let (state, events) ← controllerTurns handlers left fuel state rest
          some (state, event :: events)

def controllerLine (handlers : Handlers ControllerCommand State) (state : State) (line : CStr)
    (later : List Char) : Option (State × List (Event ControllerCommand)) :=
  controllerTurns handlers later.length (typed line later).length state (typed line later)

/-- `gets` stores a whole line, however long it is. -/
def gets (capacity : Nat) (stream : List Char) : Option (CharArray capacity) :=
  if stream = [] then none else strcpy capacity (some (stream.takeWhile (· ≠ '\n')))

def isValidInt : CStr → Bool
  | [] => false
  | str => str.all Char.isDigit

def clientTurn (handlers : ClientCommand → State → State) (state : State) (stream : List Char) :
    Option (State × Event ClientCommand) := do
  let line ← gets 256 stream
  let cmd := cString line.text
  if isValidInt cmd then some (dispatch clientCommands handlers state (atoi cmd))
  else some (state, .help)

def clientLine (handlers : ClientCommand → State → State) (state : State) (line : CStr)
    (later : List Char) : Option (State × List (Event ClientCommand)) :=
  (clientTurn handlers state (typed line later)).map fun (state, event) => (state, [event])

def Names (commands : Switch Command) (line : CStr) (command : Command) : Prop :=
  Numeral line ∧ numeralValue line = commands.index command

def Follows (effect : Command → State → State → Prop) : State → List (Event Command) → State → Prop
  | state, [], after => after = state
  | state, .help :: events, after => Follows effect state events after
  | state, .ran command :: events, after =>
      ∃ next, effect command state next ∧ Follows effect next events after

/-- A handler runs for its own number only, and everything else prints the help and
leaves the state alone. -/
def Obeys (commands : Switch Command) (effect : Command → State → State → Prop) (state : State)
    (line : CStr) (result : Option (State × List (Event Command))) : Prop :=
  ∃ after events, result = some (after, events) ∧ Follows effect state events after ∧
    (∀ command, .ran command ∈ events ↔ Names commands line command) ∧
    ((∀ command, ¬ Names commands line command) → .help ∈ events ∧ after = state)

variable {commands : Switch Command} {handlers : Command → State → State} {state : State}
    {line : CStr}

theorem index_injective {first second : Command}
    (same : commands.index first = commands.index second) : first = second := by
  have selected := (commands.select_iff _ first).mpr rfl
  rw [same, (commands.select_iff _ second).mpr rfl] at selected
  exact (Option.some_inj.mp selected).symm

theorem dispatch_index (handlers : Command → State → State) (state : State) (command : Command) :
    dispatch commands handlers state (commands.index command) =
      (handlers command state, .ran command) := by
  rw [dispatch, (commands.select_iff _ _).mpr rfl]

theorem dispatch_other {idx : Int} (other : ∀ command, idx ≠ commands.index command) :
    dispatch commands handlers state idx = (state, .help) := by
  unfold dispatch
  split
  · next selected => exact absurd ((commands.select_iff _ _).mp selected) (other _)
  · rfl

theorem help_dispatch (commands : Switch Command)
    (handlers : Command → State → State) (state : State) :
    (state, Event.help) = dispatch commands handlers state (-1) :=
  (dispatch_other fun command same => by omega).symm

end Turns

/-! The number that a switch is given. -/
section Numbers

def leading (digits : CStr) : Int :=
  if digits = [] then -1 else (clampLong (numeralValue digits)).bmod (2 ^ 32)

def TakenFor (count value : Nat) : Prop := value < 2 ^ 63 ∧ value % 2 ^ 32 < count

theorem narrowed_iff {value number : Nat} (small : number < 2 ^ 31) :
    (clampLong value).bmod (2 ^ 32) = (number : Int) ↔
        value < 2 ^ 63 ∧ value % 2 ^ 32 = number := by
  by_cases fits : value < 2 ^ 63
  · have clamped : clampLong value = value := by simp only [clampLong]; omega
    rw [clamped, Int.bmod_def]
    split <;> omega
  · have clamped : clampLong value = 2 ^ 63 - 1 := by simp only [clampLong]; omega
    have wrapped : (2 ^ 63 - 1 : Int).bmod (2 ^ 32) = -1 := by decide
    rw [clamped, wrapped]
    omega

theorem atoi_leading {text : CStr} (digit : text.head?.any Char.isDigit = true) :
    atoi text = leading (text.takeWhile Char.isDigit) := by
  cases text with
  | nil => exact absurd digit (by simp)
  | cons first rest =>
      have front : first.isDigit = true := by simpa using digit
      have present : (first :: rest).takeWhile Char.isDigit ≠ [] := by simp [front]
      rw [atoi, strtol_of_digit first rest front, leading, if_neg present]
      rfl

theorem leading_none {text : CStr} (other : ¬ text.head?.any Char.isDigit = true) :
    text.takeWhile Char.isDigit = [] := by
  cases text with
  | nil => rfl
  | cons first rest =>
      have front : ¬ first.isDigit = true := by simpa using other
      simp [front]

variable {Command State : Type} {commands : Switch Command} {handlers : Command → State → State}
  {state : State} {line digits : CStr}

theorem leading_index_iff (small : commands.count ≤ 2 ^ 31) (command : Command) :
    leading digits = commands.index command ↔
      digits ≠ [] ∧ numeralValue digits < 2 ^ 63 ∧
        numeralValue digits % 2 ^ 32 = commands.index command := by
  have bound := Nat.lt_of_lt_of_le (commands.index_lt command) small
  by_cases empty : digits = []
  · refine iff_of_false (fun same => ?_) fun both => both.1 empty
    rw [leading, if_pos empty] at same
    omega
  · rw [and_iff_right empty, leading, if_neg empty, narrowed_iff bound]

def Taken (count : Nat) (digits : CStr) : Prop := digits ≠ [] ∧ TakenFor count (numeralValue digits)

theorem dispatch_silent (small : commands.count ≤ 2 ^ 31) (silent : ¬ Taken commands.count digits) :
    dispatch commands handlers state (leading digits) = (state, .help) := by
  refine dispatch_other fun command same => silent ?_
  obtain ⟨present, fits, value⟩ := (leading_index_iff small command).mp same
  exact ⟨present, fits, value ▸ commands.index_lt command⟩

theorem dispatch_taken (small : commands.count ≤ 2 ^ 31) (taken : Taken commands.count digits) :
    ∃ command, commands.index command = numeralValue digits % 2 ^ 32 ∧
      dispatch commands handlers state
          (leading digits) = (handlers command state, .ran command) := by
  obtain ⟨command, same⟩ := commands.covers _ taken.2.2
  refine ⟨command, same, ?_⟩
  rw [(leading_index_iff small command).mpr ⟨taken.1, taken.2.1, same.symm⟩, dispatch_index]

end Numbers

section Controller
variable {State : Type} {handlers : Handlers ControllerCommand State} {state after : State}
  {line : CStr} {later stream : List Char} {events : List (Event ControllerCommand)}

def frontDigits (line : CStr) : CStr := (line.take 255).takeWhile Char.isDigit

theorem takeWhile_front {keep accept : Char → Bool}
    (narrower : ∀ c, accept c = true → keep c = true)
    (text : CStr) : (text.takeWhile keep).takeWhile accept = text.takeWhile accept := by
  rw [List.takeWhile_takeWhile]
  congr 1
  funext c
  cases accepted : accept c with
  | false => simp
  | true => simp [narrower c accepted]

theorem takeWhile_behind {accept : Char → Bool} {tail : CStr}
    (stops : ∀ c, tail.head? = some c → accept c = false) (front : CStr) :
    (front ++ tail).takeWhile accept = front.takeWhile accept := by
  induction front with
  | nil =>
      cases tail with
      | nil => rfl
      | cons c rest => simp [stops c rfl]
  | cons c front ih =>
      rw [List.cons_append, List.takeWhile_cons, List.takeWhile_cons, ih]

theorem dropped_no_digit {c : Char} (drop : dropped c = true) : c.isDigit = false := by
  rcases dropped_iff.mp drop with rfl | rfl <;> rfl

theorem takeWhile_trimmed (text : CStr) :
    (text.rdropWhile dropped).takeWhile Char.isDigit = text.takeWhile Char.isDigit := by
  have parts : text.rdropWhile dropped ++ text.rtakeWhile dropped = text :=
    List.rdropWhile_append_rtakeWhile
  have stops : ∀ c, (text.rtakeWhile dropped).head? = some c → c.isDigit = false := fun c first =>
    dropped_no_digit (List.mem_rtakeWhile_imp (List.mem_of_mem_head? first))
  have whole := takeWhile_behind stops (text.rdropWhile dropped)
  rw [parts] at whole
  exact whole.symm

theorem digit_no_terminator (c : Char) (digit : c.isDigit = true) : decide (c ≠ '\x00') = true := by
  rw [decide_eq_true_eq]
  rintro rfl
  exact absurd digit (by decide)

theorem string_digits {text : CStr}
    (shape : text = line.take 255 ∨ text = terminated (line.take 255)) :
    ((cString text).rdropWhile dropped).takeWhile Char.isDigit = frontDigits line := by
  rw [takeWhile_trimmed, cString, takeWhile_front digit_no_terminator, frontDigits]
  rcases shape with rfl | rfl
  · rfl
  · exact takeWhile_behind (by rintro c ⟨⟩; rfl) _

theorem controllerTurn_typed (plain : '\n' ∉ line) (later : List Char) :
    controllerTurn handlers state (typed line later) =
      some (dispatch controllerCommands (serve handlers) (state, unread 256 (typed line later))
        (leading (frontDigits line))) := by
  obtain ⟨text, read, shape⟩ := @typed_piece 256 line (by decide) plain later
  obtain ⟨bytes, ran, shown⟩ : ∃ bytes,
      fgetsWrapper 256 (Vector.replicate 256 '\x00') (typed line later) = some (true, bytes) ∧
        cString bytes = (cString text).rdropWhile dropped :=
    wrapper_string (by decide) read (le_refl 256)
  have digits := string_digits shape
  rw [← shown] at digits
  rw [controllerTurn, ran, Option.bind_eq_bind, Option.bind_some, ← digits]
  by_cases digit : (cString bytes).head?.any Char.isDigit = true
  · have present : 0 < (cString bytes).length := by
      cases text : cString bytes with
      | nil => exact absurd digit (by simp [text])
      | cons c rest => exact Nat.succ_pos _
    simp only [present, digit, ↓reduceIte, atoi_leading digit]
  · rw [leading_none digit, leading, if_pos rfl, ← help_dispatch]
    simp [digit]

theorem front_numeral (numeral : Numeral line) : frontDigits line = line.take 255 :=
  List.takeWhile_eq_self_iff.mpr fun c member => numeral.2 c (List.mem_of_mem_take member)

theorem value_split (front tail : CStr) :
    numeralValue (front ++ tail) = 10 ^ tail.length * numeralValue front + numeralValue tail := by
  rw [numeralValue, Nat.ofDigitChars_append, Nat.ofDigitChars_eq_ofDigitChars_zero]
  rfl

theorem value_front (line : CStr) : numeralValue line =
    10 ^ (line.drop 255).length * numeralValue (line.take 255) + numeralValue (line.drop 255) := by
  rw [← value_split, List.take_append_drop]

theorem front_le (line : CStr) : numeralValue (line.take 255) ≤ numeralValue line := by
  rw [value_front line]
  exact Nat.le_add_right_of_le (Nat.le_mul_of_pos_left _ (Nat.pow_pos (by decide)))

theorem front_zero (long : 255 < line.length) (small : numeralValue line < 10) :
    numeralValue (line.take 255) = 0 := by
  have whole := value_front line
  obtain ⟨more, same⟩ : ∃ more, (line.drop 255).length = more + 1 :=
    ⟨(line.drop 255).length - 1, by rw [List.length_drop]; omega⟩
  rw [same, Nat.pow_succ] at whole
  have positive : 0 < 10 ^ more := Nat.pow_pos (by decide)
  by_contra nonzero
  have large : 1 * 10 * 1 ≤ 10 ^ more * 10 * numeralValue (line.take 255) :=
    Nat.mul_le_mul (Nat.mul_le_mul_right 10 positive) (Nat.pos_of_ne_zero nonzero)
  omega

def Silent (line : CStr) : Prop := ¬ Taken controllerCommands.count (frontDigits line)

theorem front_seen {command : ControllerCommand} (named : Names controllerCommands line command) :
    ¬ Silent line := by
  obtain ⟨numeral, value⟩ := named
  have below : controllerCommands.index command < controllerCommands.count :=
    controllerCommands.index_lt command
  have count : controllerCommands.count = 7 := rfl
  have less := front_le line
  rw [Silent, not_not, Taken, front_numeral numeral]
  refine ⟨fun empty => ?_, by omega, by omega⟩
  rcases List.take_eq_nil_iff.mp empty with impossible | empty
  · exact absurd impossible (by decide)
  · exact numeral.1 empty

theorem silent_nil : Silent [] := fun taken => taken.1 rfl

/-! What the turns of the loop do with the pieces of a line. -/

def controllerEffect (handlers : Handlers ControllerCommand State) (command : ControllerCommand)
    (state next : State) : Prop :=
  ∃ stream, next = (handlers command state stream).1

theorem dispatch_follows {input : State × List Char} {idx : Int} {next : State × List Char}
    {event : Event ControllerCommand}
    (taken : dispatch controllerCommands (serve handlers) input idx = (next, event))
    (later : Follows (controllerEffect handlers) next.1 events after) :
    Follows (controllerEffect handlers) input.1 (event :: events) after := by
  unfold dispatch at taken
  split at taken
  · cases taken
    exact ⟨_, ⟨input.2, rfl⟩, later⟩
  · cases taken
    exact later

theorem turn_dispatches {next : State × List Char} {event : Event ControllerCommand}
    (taken : controllerTurn handlers state stream = some (next, event)) :
    ∃ idx, dispatch controllerCommands (serve handlers) (state, unread 256 stream) idx =
      (next, event) := by
  have help : ∀ result, some ((state, unread 256 stream), Event.help) = some result →
      dispatch controllerCommands (serve handlers) (state, unread 256 stream) (-1) = result :=
    fun result same => (help_dispatch _ _ _).symm.trans (Option.some_inj.mp same)
  obtain ⟨⟨read, bytes⟩, _, taken⟩ := Option.bind_eq_some_iff.mp taken
  dsimp only at taken
  split at taken
  · split at taken
    · split at taken
      · exact ⟨_, Option.some_inj.mp taken⟩
      · exact ⟨-1, help _ taken⟩
    · exact ⟨-1, help _ taken⟩
  · exact absurd taken (by simp)

theorem turns_follow {left fuel : Nat}
    (ran : controllerTurns handlers left fuel state stream = some (after, events)) :
    Follows (controllerEffect handlers) state events after := by
  induction fuel generalizing state stream events with
  | zero =>
      rw [controllerTurns] at ran
      split at ran
      · cases ran
        rfl
      · exact absurd ran (by simp)
  | succ fuel ih =>
      rw [controllerTurns] at ran
      split at ran
      · cases ran
        rfl
      · obtain ⟨⟨⟨next, rest⟩, event⟩, taken, ran⟩ := Option.bind_eq_some_iff.mp ran
        obtain ⟨idx, dispatched⟩ := turn_dispatches taken
        dsimp only at ran
        split at ran
        · cases ran
          exact dispatch_follows dispatched rfl
        · obtain ⟨⟨final, more⟩, continued, same⟩ := Option.bind_eq_some_iff.mp ran
          cases same
          exact dispatch_follows dispatched (ih continued)

theorem turns_done {left : Nat} (done : stream.length ≤ left) (fuel : Nat) :
    controllerTurns handlers left fuel state stream = some (state, []) := by
  cases fuel with
  | zero => rw [controllerTurns, if_pos done]
  | succ fuel => rw [controllerTurns, if_pos done]

theorem typed_longer (line : CStr) (later : List Char) :
    ¬ (typed line later).length ≤ later.length := by
  rw [typed, List.length_append, List.length_cons]
  omega

theorem turns_typed (plain : '\n' ∉ line) (fuel : Nat) {next : State} {rest : List Char}
    {event : Event ControllerCommand}
    (dispatched : dispatch controllerCommands (serve handlers)
      (state, unread 256 (typed line later)) (leading (frontDigits line)) = ((next, rest), event)) :
    controllerTurns handlers later.length (fuel + 1) state (typed line later) =
      if event = .ran .exit then some (next, [event])
      else (controllerTurns handlers later.length fuel next rest).map
        fun result => (result.1, event :: result.2) := by
  rw [controllerTurns, if_neg (typed_longer line later), controllerTurn_typed plain, dispatched,
    Option.bind_eq_bind, Option.bind_some]
  dsimp only
  split
  · rfl
  · rw [Option.map_eq_bind]
    rfl

theorem drop_plain (plain : '\n' ∉ line) (count : Nat) : '\n' ∉ line.drop count := fun member =>
  plain (List.mem_of_mem_drop member)

theorem turns_silent (plain : '\n' ∉ line) (silent : ∀ index, Silent (line.drop (255 * index)))
    {fuel : Nat} (enough : line.length < fuel) : ∃ events,
      controllerTurns handlers later.length fuel state (typed line later) = some (state, events) ∧
        .help ∈ events ∧ ∀ command, .ran command ∉ events := by
  induction fuel generalizing line with
  | zero => exact absurd enough (Nat.not_lt_zero _)
  | succ fuel ih =>
      have first : Silent line := silent 0
      have help := @dispatch_silent ControllerCommand (State × List Char) controllerCommands
        (serve handlers) (state, unread 256 (typed line later)) _ (by decide) first
      rw [turns_typed plain fuel help, if_neg (by simp), unread_typed (by decide) plain]
      by_cases short : line.length < 256 - 1
      · rw [if_pos short, turns_done (le_refl _), Option.map_some]
        exact ⟨_, rfl, List.mem_cons_self, fun command => by simp⟩
      · have others : ∀ index, Silent ((line.drop 255).drop (255 * index)) := by
          intro index
          rw [List.drop_drop, Nat.add_comm, ← Nat.mul_succ]
          exact silent (index + 1)
        rw [if_neg short]
        obtain ⟨events, ran, _, quiet⟩ := ih (drop_plain plain 255) others
          (by rw [List.length_drop]; omega)
        rw [ran, Option.map_some]
        exact ⟨_, rfl, List.mem_cons_self, fun command => by simp [quiet command]⟩

theorem turns_taken (plain : '\n' ∉ line) (taken : ¬ Silent line) {fuel : Nat}
    (ran : controllerTurns handlers later.length fuel state (typed line later) =
      some (after, events)) :
    ∃ command, controllerCommands.index command = numeralValue (frontDigits line) % 2 ^ 32 ∧
      .ran command ∈ events := by
  cases fuel with
  | zero =>
      rw [controllerTurns, if_neg (typed_longer line later)] at ran
      exact absurd ran (by simp)
  | succ fuel =>
      obtain ⟨command, same, dispatched⟩ := @dispatch_taken ControllerCommand (State × List Char)
        controllerCommands (serve handlers) (state, unread 256 (typed line later)) _ (by decide)
        (not_not.mp taken)
      rw [turns_typed plain fuel dispatched] at ran
      refine ⟨command, same, ?_⟩
      split at ran
      · cases ran
        exact List.mem_singleton_self _
      · obtain ⟨result, _, shape⟩ := Option.map_eq_some_iff.mp ran
        cases shape
        exact List.mem_cons_self

theorem turns_run (plain : '\n' ∉ line) (taken : ∃ index, ¬ Silent (line.drop (255 * index)))
    {fuel : Nat}
    (ran : controllerTurns handlers later.length fuel state (typed line later) =
      some (after, events)) : ∃ command, .ran command ∈ events := by
  induction fuel generalizing line events with
  | zero =>
      rw [controllerTurns, if_neg (typed_longer line later)] at ran
      exact absurd ran (by simp)
  | succ fuel ih =>
      by_cases first : Silent line
      · -- The help is printed for the first piece, and there are others.
        have help := @dispatch_silent ControllerCommand (State × List Char) controllerCommands
          (serve handlers) (state, unread 256 (typed line later)) _ (by decide) first
        obtain ⟨index, other⟩ := taken
        rw [turns_typed plain fuel help, if_neg (by simp), unread_typed (by decide) plain] at ran
        obtain ⟨before, same⟩ : ∃ before, index = before + 1 := by
          cases index with
          | zero => exact absurd first other
          | succ before => exact ⟨before, rfl⟩
        subst same
        have long : ¬ line.length < 256 - 1 := by
          intro short
          have none' : line.drop (255 * (before + 1)) = [] := List.drop_eq_nil_of_le (by omega)
          exact other (none' ▸ silent_nil)
        rw [if_neg long] at ran
        obtain ⟨⟨final, more⟩, continued, shape⟩ := Option.map_eq_some_iff.mp ran
        cases shape
        have behind : ∃ index, ¬ Silent ((line.drop 255).drop (255 * index)) := by
          refine ⟨before, ?_⟩
          rw [List.drop_drop, Nat.add_comm, ← Nat.mul_succ]
          exact other
        obtain ⟨command, member⟩ := ih (drop_plain plain 255) behind continued
        exact ⟨command, List.mem_cons_of_mem _ member⟩
      · obtain ⟨command, _, member⟩ := turns_taken plain first ran
        exact ⟨command, member⟩

/-! A numeral that is all zeros, and what a handler leaves of it. -/

def zeros (count : Nat) : CStr := List.replicate count '0'

theorem zeros_plain (count : Nat) : '\n' ∉ zeros count := fun member =>
  absurd (List.eq_of_mem_replicate member) (by decide)

theorem front_zeros (count : Nat) : frontDigits (zeros count) = zeros (min 255 count) := by
  rw [frontDigits, zeros, List.take_replicate]
  exact List.takeWhile_eq_self_iff.mpr fun c member => List.eq_of_mem_replicate member ▸ rfl

theorem zeros_value (count : Nat) : numeralValue (zeros count) = 0 := by
  induction count with
  | zero => rfl
  | succ count ih =>
      have split : zeros (count + 1) = ['0'] ++ zeros count := rfl
      rw [split, value_split, ih]
      rfl

theorem dropped_zeros (count taken : Nat) (later : List Char) :
    (∃ fewer ≤ count, (typed (zeros count) later).drop taken = typed (zeros fewer) later) ∨
      ((typed (zeros count) later).drop taken).length ≤ later.length := by
  by_cases inside : taken ≤ count
  · refine Or.inl ⟨count - taken, Nat.sub_le _ _, ?_⟩
    have bound : taken ≤ (zeros count).length := by rwa [zeros, List.length_replicate]
    rw [typed, List.drop_append_of_le_length bound, zeros, List.drop_replicate]
    rfl
  · right
    rw [List.length_drop, typed, List.length_append, List.length_cons, zeros, List.length_replicate]
    omega

theorem turns_zeros (count : Nat) {fuel : Nat} (enough : count < fuel) : ∃ after events,
    controllerTurns handlers later.length fuel state (typed (zeros count) later) =
        some (after, events) ∧
      ∀ command, .ran command ∈ events → command = .clientConnect ∧ count ≠ 0 := by
  induction fuel generalizing state count with
  | zero => exact absurd enough (Nat.not_lt_zero _)
  | succ fuel ih =>
      by_cases present : count = 0
      · have silent : ¬ Taken controllerCommands.count (frontDigits (zeros count)) := by
          rw [present]
          exact silent_nil
        have help := @dispatch_silent ControllerCommand (State × List Char) controllerCommands
          (serve handlers) (state, unread 256 (typed (zeros count) later)) _ (by decide) silent
        have short : (zeros count).length < 256 - 1 := by rw [present]; decide
        rw [turns_typed (zeros_plain count) fuel help, if_neg (by simp),
          unread_typed (by decide) (zeros_plain count), if_pos short, turns_done (le_refl _)]
        exact ⟨_, _, rfl, fun command member => by simp at member⟩
      · have taken : Taken controllerCommands.count (frontDigits (zeros count)) := by
          rw [front_zeros, Taken, zeros_value]
          refine ⟨?_, by decide, by decide⟩
          exact List.ne_nil_of_length_pos (by rw [zeros, List.length_replicate]; omega)
        obtain ⟨command, same, dispatched⟩ := @dispatch_taken ControllerCommand (State × List Char)
          controllerCommands (serve handlers) (state, unread 256 (typed (zeros count) later)) _
          (by decide) taken
        rw [front_zeros, zeros_value] at same
        obtain rfl : command = .clientConnect := by
          cases command <;> first | rfl | exact absurd same (by decide)
        rw [turns_typed (zeros_plain count) fuel dispatched, if_neg (by simp)]
        -- Zeros are left, or nothing of the line.
        have rest : (∃ fewer < count, unread 256 (typed (zeros count) later) =
            typed (zeros fewer) later) ∨ unread 256 (typed (zeros count) later) = later := by
          rw [unread_typed (by decide) (zeros_plain count)]
          by_cases short : (zeros count).length < 256 - 1
          · exact Or.inr (if_pos short)
          · rw [if_neg short]
            refine Or.inl ⟨count - 255, by omega, ?_⟩
            rw [zeros, List.drop_replicate]
            rfl
        obtain ⟨fewer, less, found⟩ | done : (∃ fewer < count,
            ((unread 256 (typed (zeros count) later)).drop
              (handlers .clientConnect state (unread 256 (typed (zeros count) later))).2) =
                typed (zeros fewer) later) ∨
            ((unread 256 (typed (zeros count) later)).drop
              (handlers .clientConnect state (unread 256 (typed (zeros count) later))).2).length ≤
                later.length := by
          rcases rest with ⟨fewer, less, same⟩ | same
          · rw [same]
            rcases dropped_zeros fewer (handlers .clientConnect state
              (typed (zeros fewer) later)).2 later with ⟨still, fewest, found⟩ | done
            · exact Or.inl ⟨still, by omega, found⟩
            · exact Or.inr done
          · rw [same, List.length_drop]
            exact Or.inr (Nat.sub_le _ _)
        · obtain ⟨final, events, ran, only⟩ := ih fewer (by omega)
          rw [found, ran, Option.map_some]
          refine ⟨_, _, rfl, fun command member => ⟨?_, present⟩⟩
          rcases List.mem_cons.mp member with own | inside
          · cases own
            rfl
          · exact (only command inside).1
        · rw [turns_done done, Option.map_some]
          refine ⟨_, _, rfl, fun command member => ⟨?_, present⟩⟩
          cases List.mem_singleton.mp member
          rfl

/-- All pieces of the line come to no command, or the line is a numeral that names a command
and stands in `cmd` as a whole, unless it is all zeros. -/
def ControllerFine (line : CStr) : Prop :=
  (∀ index, Silent (line.drop (255 * index))) ∨
    Numeral line ∧ numeralValue line < 7 ∧ (line.length ≤ 255 ∨ numeralValue line = 0)

theorem digit_zero {c : Char} (digit : c.isDigit = true) (zero : numeralValue [c] = 0) :
    c = '0' := by
  have range : 48 ≤ c.val.toNat ∧ c.val.toNat ≤ 57 := by
    simpa [Char.isDigit, UInt32.le_iff_toNat_le] using digit
  have value : numeralValue [c] = c.val.toNat - 48 := by
    rw [numeralValue, Nat.ofDigitChars_cons, Nat.ofDigitChars_nil, Nat.mul_zero, Nat.zero_add]
    rfl
  apply Char.ext
  apply UInt32.toNat_inj.mp
  change c.val.toNat = 48
  omega

theorem zero_digits (numeral : ∀ c ∈ line, c.isDigit = true) (zero : numeralValue line = 0) :
    line = zeros line.length := by
  induction line with
  | nil => rfl
  | cons c rest ih =>
      have split :
          numeralValue (c :: rest) = 10 ^ rest.length * numeralValue [c] + numeralValue rest :=
        value_split [c] rest
      have digit := numeral c List.mem_cons_self
      have positive : 0 < 10 ^ rest.length := Nat.pow_pos (by decide)
      rw [zero, eq_comm, Nat.add_eq_zero_iff, Nat.mul_eq_zero, or_iff_right (by omega)] at split
      have tail := ih (fun d member => numeral d (List.mem_cons_of_mem c member)) split.2
      have head : c = '0' := digit_zero digit split.1
      rw [head, List.length_cons, zeros, List.replicate_succ]
      exact congrArg (List.cons '0') tail

theorem turns_rest {count : Nat} {rest : List Char}
    (shape : (∃ fewer ≤ count, rest = typed (zeros fewer) later) ∨ rest.length ≤ later.length)
    {fuel : Nat} (enough : count < fuel) : ∃ after events,
      controllerTurns handlers later.length fuel state rest = some (after, events) ∧
        ∀ command, .ran command ∈ events → command = .clientConnect ∧ count ≠ 0 := by
  rcases shape with ⟨fewer, less, rfl⟩ | done
  · obtain ⟨after, events, ran, only⟩ :=
      @turns_zeros State handlers state later fewer fuel (by omega)
    refine ⟨after, events, ran, fun command member => ?_⟩
    obtain ⟨connects, some'⟩ := only command member
    exact ⟨connects, by omega⟩
  · exact ⟨state, [], turns_done done fuel, fun command member => absurd member List.not_mem_nil⟩

theorem named_obeys (plain : '\n' ∉ line) (numeral : Numeral line) (small : numeralValue line < 7)
    (whole : line.length ≤ 255 ∨ numeralValue line = 0) (later : List Char) :
    Obeys controllerCommands (controllerEffect handlers) state line
      (controllerLine handlers state line later) := by
  obtain ⟨command, same⟩ := controllerCommands.covers _ small
  have named : Names controllerCommands line command := ⟨numeral, same.symm⟩
  obtain ⟨first, front, dispatched⟩ := @dispatch_taken ControllerCommand (State × List Char)
    controllerCommands (serve handlers) (state, unread 256 (typed line later)) _ (by decide)
    (not_not.mp (front_seen named))
  obtain rfl : first = command := by
    refine @index_injective _ controllerCommands first command ?_
    rw [front, same, front_numeral numeral]
    rcases whole with short | zero
    · rw [List.take_of_length_le short]
      omega
    · have less := front_le line
      omega
  -- Behind the line, or behind the zeros that `cmd` holds, only zeros can follow.
  have shape : (∃ fewer ≤ line.length - 255, (unread 256 (typed line later)).drop
      (handlers first state (unread 256 (typed line later))).2 = typed (zeros fewer) later) ∨
      ((unread 256 (typed line later)).drop
        (handlers first state (unread 256 (typed line later))).2).length ≤ later.length := by
    rw [unread_typed (by decide) plain]
    by_cases short : line.length < 256 - 1
    · rw [if_pos short, List.length_drop]
      exact Or.inr (Nat.sub_le _ _)
    · have tail : line.drop (256 - 1) = zeros (line.length - 255) := by
        rcases whole with whole | zero
        · rw [List.drop_eq_nil_of_le (by omega), Nat.sub_eq_zero_of_le whole]
          rfl
        · conv_lhs => rw [zero_digits numeral.2 zero, zeros, List.drop_replicate]
          rfl
      rw [if_neg short, tail]
      exact dropped_zeros _ _ later
  obtain ⟨fuel, enough⟩ : ∃ fuel, (typed line later).length = fuel + 1 :=
    ⟨line.length + later.length, by rw [typed, List.length_append, List.length_cons]; omega⟩
  have length : (typed line later).length = line.length + later.length + 1 := by
    rw [typed, List.length_append, List.length_cons]
    omega
  have present : 0 < line.length := List.length_pos_of_ne_nil numeral.1
  have ran : ∃ after events, controllerLine handlers state line later = some (after, events) ∧
      .ran first ∈ events ∧
      ∀ other, .ran other ∈ events → other = first ∨
          other = .clientConnect ∧ line.length - 255 ≠ 0 := by
    rw [controllerLine, enough, turns_typed plain fuel dispatched]
    by_cases ends : Event.ran first = .ran .exit
    · rw [if_pos ends]
      refine ⟨_, _, rfl, List.mem_cons_self, fun other member => ?_⟩
      cases List.mem_singleton.mp member
      exact Or.inl rfl
    · obtain ⟨after, events, ran, only⟩ := @turns_rest State handlers
        (handlers first state (unread 256 (typed line later))).1 later _ _ shape fuel (by omega)
      rw [if_neg ends]
      refine ⟨after, .ran first :: events, ?_, List.mem_cons_self, fun other member => ?_⟩
      · rw [ran, Option.map_some]
      · rcases List.mem_cons.mp member with own | inside
        · cases own
          exact Or.inl rfl
        · exact Or.inr (only other inside)
  obtain ⟨after, events, ran, member, only⟩ := ran
  refine ⟨after, events, ran, turns_follow ran, fun other => ⟨fun inside => ?_, fun other' => ?_⟩,
    fun none' => absurd named (none' first)⟩
  · rcases only other inside with rfl | ⟨rfl, long⟩
    · exact named
    · refine ⟨numeral, ?_⟩
      rcases whole with short | zero
      · omega
      · exact zero
  · rw [@index_injective _ controllerCommands other first (other'.2.symm.trans named.2)]
    exact member

theorem controller_obeys_iff (plain : '\n' ∉ line) (later : List Char) :
    Obeys controllerCommands (controllerEffect handlers) state line
      (controllerLine handlers state line later) ↔ ControllerFine line := by
  constructor
  · rintro ⟨after, events, ran, _, runs, _⟩
    by_cases silent : ∀ index, Silent (line.drop (255 * index))
    · exact Or.inl silent
    · obtain ⟨command, member⟩ := turns_run plain (not_forall.mp silent) ran
      have named := (runs command).mp member
      obtain ⟨first, value, member⟩ := turns_taken plain (front_seen named) ran
      have also := (runs first).mp member
      have small : numeralValue line < 7 := named.2 ▸ controllerCommands.index_lt command
      refine Or.inr ⟨named.1, small, ?_⟩
      by_cases short : line.length ≤ 255
      · exact Or.inl short
      · -- The first 255 digits are zeros and run the first command.
        have zero := front_zero (Nat.not_le.mp short) (by omega)
        rw [front_numeral named.1, zero] at value
        exact Or.inr (also.2.trans value)
  · rintro (silent | ⟨numeral, small, whole⟩)
    · have enough : line.length < (typed line later).length := by
        rw [typed, List.length_append, List.length_cons]
        omega
      obtain ⟨events, ran, helps, quiet⟩ :=
        @turns_silent State handlers state line later plain silent
        _ enough
      exact ⟨state, events, ran, turns_follow ran,
        fun command => iff_of_false (quiet command) fun named => front_seen named (silent 0),
        fun _ => ⟨helps, rfl⟩⟩
    · exact named_obeys plain numeral small whole later

end Controller

/-! The client reads with `gets`, so a line must fit, and checks every character. -/
section Client
variable {State : Type} {handlers : ClientCommand → State → State} {state : State} {line : CStr}

theorem isValidInt_iff (str : CStr) : isValidInt str = true ↔ Numeral str := by
  cases str with
  | nil => simp [isValidInt, Numeral]
  | cons c rest =>
      rw [isValidInt, List.all_eq_true, Numeral, and_iff_right (List.cons_ne_nil c rest)]
      exact fun impossible => List.cons_ne_nil c rest impossible

def checkedDigits (line : CStr) : CStr := if Numeral (cString line) then cString line else []

theorem numeral_string (numeral : Numeral line) : cString line = line :=
  cString_self.mpr fun member => absurd (numeral.2 _ member) (by decide)

theorem gets_typed (plain : '\n' ∉ line) (later : List Char) :
    gets 256 (typed line later) = strcpy 256 (some line) := by
  have present : typed line later ≠ [] := by simp [typed]
  have front : (typed line later).takeWhile (· ≠ '\n') = line :=
    before_feed plain ('\n' :: later) (by rintro c ⟨⟩; rfl)
  rw [gets, if_neg present, front]

theorem clientTurn_long (plain : '\n' ∉ line) (long : 255 < line.length) (later : List Char) :
    clientTurn handlers state (typed line later) = none := by
  rw [clientTurn, gets_typed plain, strcpy_of_long long]
  rfl

theorem clientTurn_typed (plain : '\n' ∉ line) (short : line.length ≤ 255) (later : List Char) :
    clientTurn handlers state (typed line later) =
      some (dispatch clientCommands handlers state (leading (checkedDigits line))) := by
  have stored := strcpy_of_fits (Nat.lt_succ_of_le short)
  rw [clientTurn, gets_typed plain, stored, Option.bind_eq_bind, Option.bind_some, checkedDigits]
  dsimp only
  by_cases numeral : Numeral (cString line)
  · rw [if_pos ((isValidInt_iff _).mpr numeral), if_pos numeral, leading, if_neg numeral.1, atoi,
      strtol_numeral numeral]
  · rw [if_neg fun valid => numeral ((isValidInt_iff _).mp valid),
      if_neg numeral, leading, if_pos rfl,
      ← help_dispatch]

theorem checked_seen {command : ClientCommand} (named : Names clientCommands line command) :
    Taken clientCommands.count (checkedDigits line) := by
  obtain ⟨numeral, value⟩ := named
  have below : clientCommands.index command < clientCommands.count :=
    clientCommands.index_lt command
  have count : clientCommands.count = 3 := rfl
  have whole := numeral_string numeral
  rw [Taken, checkedDigits, whole, if_pos numeral]
  exact ⟨numeral.1, by omega, by omega⟩

/-- The line fits `cmd`; the string in it is no numeral or comes to no command number, or
the line is a numeral that names a command. -/
def ClientFine (line : CStr) : Prop :=
  line.length ≤ 255 ∧ (¬ Numeral (cString line) ∨ ¬ TakenFor 3 (numeralValue (cString line)) ∨
    Numeral line ∧ numeralValue line < 3)

def clientEffect (handlers : ClientCommand → State → State) (command : ClientCommand)
    (state next : State) : Prop :=
  next = handlers command state

theorem checked_agrees_iff (taken : TakenFor 3 (numeralValue (cString line))) :
    Numeral line ∧ numeralValue line = numeralValue (cString line) % 2 ^ 32 ↔
      Numeral line ∧ numeralValue line < 3 := by
  refine and_congr_right fun numeral => ?_
  rw [numeral_string numeral] at taken ⊢
  obtain ⟨fits, small⟩ := taken
  omega

theorem single_obeys_iff {command : ClientCommand} :
    Obeys clientCommands (clientEffect handlers) state line
        (some (handlers command state, [.ran command])) ↔ Names clientCommands line command := by
  constructor
  · rintro ⟨after, events, ran, _, runs, _⟩
    cases ran
    exact (runs command).mp (List.mem_singleton_self _)
  · intro named
    refine ⟨_, _, rfl, ⟨_, rfl, rfl⟩, fun other => ?_, fun none' => absurd named (none' command)⟩
    rw [List.mem_singleton]
    constructor
    · rintro ⟨⟩
      exact named
    · intro also
      rw [@index_injective _ clientCommands other command (also.2.symm.trans named.2)]

theorem help_obeys (none' : ∀ command, ¬ Names clientCommands line command) :
    Obeys clientCommands (clientEffect handlers) state line (some (state, [.help])) := by
  refine ⟨state, [.help], rfl, rfl, fun command => ?_, fun _ => ⟨List.mem_singleton_self _, rfl⟩⟩
  exact iff_of_false (by simp) (none' command)

theorem client_obeys_iff (plain : '\n' ∉ line) (later : List Char) :
    Obeys clientCommands (clientEffect handlers) state line (clientLine handlers state line later) ↔
      ClientFine line := by
  by_cases short : line.length ≤ 255
  · rw [clientLine, clientTurn_typed plain short, Option.map_some, ClientFine, and_iff_right short]
    by_cases taken : Taken clientCommands.count (checkedDigits line)
    · obtain ⟨command, same, dispatched⟩ :=
        @dispatch_taken ClientCommand State clientCommands handlers
        state _ (by decide) taken
      rw [dispatched, single_obeys_iff, Names, same]
      by_cases numeral : Numeral (cString line)
      · rw [checkedDigits, if_pos numeral] at taken ⊢
        have number : TakenFor 3 (numeralValue (cString line)) := taken.2
        rw [or_iff_right (not_not_intro numeral), or_iff_right (not_not_intro number)]
        exact checked_agrees_iff number
      · rw [checkedDigits, if_neg numeral] at taken
        exact absurd rfl taken.1
    · rw [@dispatch_silent ClientCommand State clientCommands handlers state _ (by decide) taken]
      refine iff_of_true (help_obeys fun command named => taken (checked_seen named)) ?_
      by_cases numeral : Numeral (cString line)
      · rw [Taken, checkedDigits, if_pos numeral, not_and] at taken
        exact Or.inr (Or.inl (taken numeral.1))
      · exact Or.inl numeral
  -- `gets` has written past `cmd`.
  · rw [clientLine, clientTurn_long plain (Nat.not_le.mp short), Option.map_none]
    refine iff_of_false ?_ fun fine => short fine.1
    rintro ⟨_, _, ran, _⟩
    exact absurd ran (by simp)

end Client

section Consoles
variable {State : Type} (controllerHandlers : Handlers ControllerCommand State)
  (clientHandlers : ClientCommand → State → State) (state : State)

/-- Which lines, of any length, the two loops treat as they should. -/
theorem consoles_obey_iff {line : CStr} (plain : '\n' ∉ line) (later : List Char) :
    (Obeys controllerCommands (controllerEffect controllerHandlers) state line
        (controllerLine controllerHandlers state line later) ↔ ControllerFine line) ∧
      (Obeys clientCommands (clientEffect clientHandlers) state line
        (clientLine clientHandlers state line later) ↔ ClientFine line) :=
  ⟨controller_obeys_iff plain later, client_obeys_iff plain later⟩

end Consoles

def idle {Command : Type} : Handlers Command Unit := fun _ state _ => (state, 0)

theorem consoles_obey_iff_three :
    (Obeys controllerCommands (controllerEffect idle) () "3".toList
        (controllerLine idle () "3".toList []) ↔ ControllerFine "3".toList) ∧
      (Obeys clientCommands (clientEffect fun _ => id) () "3".toList
        (clientLine (fun _ => id) () "3".toList []) ↔ ClientFine "3".toList) :=
  consoles_obey_iff idle (fun _ => id) () (by decide) []

def letters : CStr := List.replicate 255 'x' ++ ['6']

/-- The controller turns a lamp on for `3abc` and ends for a line that is too long, the client
connects for 2^32. -/
theorem other_lines_run :
    ¬ Obeys controllerCommands (controllerEffect idle) () "3abc".toList
        (controllerLine idle () "3abc".toList []) ∧
      ¬ Obeys controllerCommands (controllerEffect idle) () letters
        (controllerLine idle () letters []) ∧
      ¬ Obeys clientCommands (clientEffect fun _ => id) () "4294967296".toList
        (clientLine (fun _ => id) () "4294967296".toList []) := by
  refine ⟨?_, ?_, ?_⟩
  · rw [controller_obeys_iff (by decide)]
    have digits : frontDigits "3abc".toList = "3".toList := by decide
    rintro (silent | ⟨numeral, _⟩)
    · refine silent 0 ?_
      rw [Nat.mul_zero, List.drop_zero, digits]
      exact ⟨by decide, by decide, by decide⟩
    · exact absurd numeral (by decide)
  · rw [controller_obeys_iff (by decide)]
    have behind : letters.drop (255 * 1) = ['6'] := by decide
    have digits : frontDigits ['6'] = ['6'] := by decide
    rintro (silent | ⟨numeral, _⟩)
    · refine silent 1 ?_
      rw [behind, digits]
      exact ⟨by decide, by decide, by decide⟩
    · exact absurd (numeral.2 'x' (by decide)) (by decide)
  · rw [client_obeys_iff (by decide)]
    have whole : cString "4294967296".toList = "4294967296".toList := by decide
    rw [ClientFine, whole]
    rintro ⟨_, other | other | ⟨_, small⟩⟩
    · exact other (by decide)
    · exact other ⟨by decide, by decide⟩
    · exact absurd small (by decide)

end NatClient.ConsoleDispatch
