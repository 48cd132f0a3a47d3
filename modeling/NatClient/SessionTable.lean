import NatClient.CommandTokens
import NatClient.DescriptionFaults
import Mathlib.Tactic.FinCases

/-!
The session table over whole runs of the console. The search by name serves both
to find a user and, with the empty name, to find a free slot; the name is written
before the connection is attempted.
-/

namespace NatClient.SessionTable

open LineInput (Input typed arrives dropped EndsIn)
open CString XmlForest IceTypes XmlDecoder DescriptionReading DescriptionVerdict
  DescriptionRoundTrip DescriptionFaults IceWrapper Runs Controller CommandTokens

def nameOf (natclient : NatClientT) (slot : Fin maxIceTrans) : CStr :=
  natclient.iceTransList[slot].name.text

def Named (natclient : NatClientT) (name : CStr) : Prop := ∃ slot, nameOf natclient slot = name

def LowestFree (natclient : NatClientT) (slot : Fin maxIceTrans) : Prop :=
  nameOf natclient slot = [] ∧ ∀ lower < slot, nameOf natclient lower ≠ []

theorem lowest_unique {natclient : NatClientT} {left right : Fin maxIceTrans}
    (first : LowestFree natclient left) (second : LowestFree natclient right) : left = right := by
  rcases Nat.lt_trichotomy left right with lower | same | higher
  · exact absurd first.1 (second.2 left lower)
  · exact Fin.ext same
  · exact absurd second.1 (first.2 right higher)

/-! The linear search. -/
section Search
variable {natclient : NatClientT} {name : CStr}

theorem lookup_eq_iff (slot : Fin maxIceTrans) :
    getIceTranFromName natclient.iceTransList name = slot ↔
      nameOf natclient slot = name ∧ ∀ lower < slot, nameOf natclient lower ≠ name := by
  have inside : slot.val < natclient.iceTransList.toList.length := by simp
  rw [getIceTranFromName, List.findIdx_eq inside]
  simp only [Vector.getElem_toList, decide_eq_true_eq, decide_eq_false_iff_not]
  constructor
  · rintro ⟨same, before⟩
    exact ⟨same, fun lower below => before lower below⟩
  · rintro ⟨same, before⟩
    exact ⟨same, fun lower below => before ⟨lower, Nat.lt_trans below slot.isLt⟩ below⟩

theorem lookup_lt_iff : getIceTranFromName natclient.iceTransList name < maxIceTrans ↔
    Named natclient name := by
  constructor
  · intro inside
    exact ⟨⟨_, inside⟩, ((lookup_eq_iff ⟨_, inside⟩).mp rfl).1⟩
  · rintro ⟨slot, same⟩
    have length : natclient.iceTransList.toList.length = maxIceTrans := by simp
    have found : getIceTranFromName natclient.iceTransList name <
        natclient.iceTransList.toList.length :=
      List.findIdx_lt_length.mpr
        ⟨natclient.iceTransList[slot], by simp, by simpa [nameOf] using same⟩
    exact Nat.lt_of_lt_of_eq found length

end Search

/-! What `api_peer_connect` can do. -/
section Connect
variable {natclient : NatClientT} {arg : CStr}

theorem connect_named (env : PeerEnv) (outcome : StartOutcome) (named : Named natclient arg) :
    apiPeerConnect env outcome arg natclient = some ⟨0, natclient, []⟩ := by
  rw [apiPeerConnect, if_pos (lookup_lt_iff.mpr named)]

theorem connect_full (env : PeerEnv) (outcome : StartOutcome) (new : ¬ Named natclient arg)
    (full : ¬ Named natclient []) :
    apiPeerConnect env outcome arg natclient = some ⟨-1, natclient, []⟩ := by
  rw [apiPeerConnect, if_neg (fun inside => new (lookup_lt_iff.mp inside))]
  exact dif_neg fun inside => full (lookup_lt_iff.mp inside)

def claimed (natclient : NatClientT) (slot : Fin maxIceTrans)
    (name : CharArray 256) (rem : RemInfo) :
    IceTrans :=
  { natclient.iceTransList[slot] with name := name, rem := rem }

def claim (natclient : NatClientT) (slot : Fin maxIceTrans) (name : CharArray 256) (rem : RemInfo)
    (outcome : StartOutcome) : NatClientT :=
  { natclient with
    iceTransList := natclient.iceTransList.set slot (claimed natclient slot name rem)
    lib := (natclientStartNego (claimed natclient slot name rem) natclient.lib outcome).lib }

theorem connect_free (env : PeerEnv) (outcome : StartOutcome) (new : ¬ Named natclient arg)
    (free : Named natclient []) (short : arg.length < 256) :
    ∃ slot, LowestFree natclient slot ∧
      apiPeerConnect env outcome arg natclient =
        (natclientConnectWithUser env natclient.iceTransList[slot].rem arg).map fun rem =>
          ⟨0, claim natclient slot ⟨arg, short⟩ rem outcome, [.startNego slot
            (natclientStartNego (claimed natclient slot ⟨arg, short⟩ rem)
                natclient.lib outcome).calls]⟩ := by
  have inside := lookup_lt_iff.mpr free
  refine ⟨⟨_, inside⟩, (lookup_eq_iff ⟨_, inside⟩).mp rfl, ?_⟩
  rw [apiPeerConnect, if_neg (fun taken => new (lookup_lt_iff.mp taken))]
  simp only [inside, ↓reduceDIte, strcpy_of_fits short, Option.bind_eq_bind, Option.bind_some,
    startNego_icetrans]
  cases connected : natclientConnectWithUser env
      natclient.iceTransList[getIceTranFromName natclient.iceTransList []].rem arg with
  | none => simp
  | some rem => simp [claim, claimed]

end Connect

/-! The other commands look names up and send. -/
section Others
variable {natclient : NatClientT}

theorem apiPeerSend_natclient (msg : MsgT) : (apiPeerSend msg natclient).natclient = natclient := by
  rw [apiPeerSend]
  by_cases inside : getIceTranFromName natclient.iceTransList msg.readUsername < maxIceTrans
  · obtain ⟨same, sameLib⟩ := sendData_state
      natclient.iceTransList[getIceTranFromName natclient.iceTransList msg.readUsername]
      natclient.lib 1 msg.readMsg
    simp [inside, same, sameLib]
  · simp [inside]

theorem add_natclient {usrid arg : CStr} {heap : Option MsgT} {result : ApiResult}
    (ran : apiPeerAddDevice usrid heap arg natclient = some result) :
    result.natclient = natclient := by
  simp only [apiPeerAddDevice, Option.bind_eq_bind] at ran
  obtain ⟨xml, _, ran⟩ := Option.bind_eq_some_iff.mp ran
  cases heap with
  | none => exact Option.some_inj.mp ran ▸ rfl
  | some msg =>
      obtain ⟨username, _, ran⟩ := Option.bind_eq_some_iff.mp ran
      obtain ⟨text, _, ran⟩ := Option.bind_eq_some_iff.mp ran
      exact Option.some_inj.mp ran ▸ apiPeerSend_natclient _

theorem switch_natclient {command usrid arg : CStr} {heap : Option MsgT} {result : ApiResult}
    (ran : switchDevice command usrid heap arg natclient = some result) :
    result.natclient = natclient := by
  cases heap with
  | none => exact Option.some_inj.mp ran ▸ rfl
  | some msg =>
      simp only [switchDevice, Option.bind_eq_bind] at ran
      obtain ⟨fields, _, ran⟩ := Option.bind_eq_some_iff.mp ran
      obtain ⟨xml, _, ran⟩ := Option.bind_eq_some_iff.mp ran
      obtain ⟨text, _, ran⟩ := Option.bind_eq_some_iff.mp ran
      exact Option.some_inj.mp ran ▸ apiPeerSend_natclient _

theorem send_natclient {line : CStr} {result : ApiResult}
    (ran : sendLine line natclient = some result) : result.natclient = natclient := by
  simp only [sendLine, Option.bind_eq_bind] at ran
  obtain ⟨msg, _, ran⟩ := Option.bind_eq_some_iff.mp ran
  split at ran
  · exact Option.some_inj.mp ran ▸ apiPeerSend_natclient _
  · exact Option.some_inj.mp ran ▸ rfl

def IsConnect : Command → Prop
  | .connect _ _ _ => True
  | _ => False

/-- No other command writes to the table or to an instance. -/
theorem others_natclient {usrid : CharArray 256} {command : Command} {result : ApiResult}
    (other : ¬ IsConnect command) (ran : natclientConsole usrid natclient command = some result) :
    result.natclient = natclient := by
  cases command with
  | connect env outcome user => exact absurd trivial other
  | send allocated line =>
      rw [natclientConsole] at ran
      split at ran
      · obtain ⟨text, _, ran⟩ := Option.bind_eq_some_iff.mp ran
        exact send_natclient ran
      · exact Option.some_inj.mp ran ▸ rfl
  | add heap username =>
      obtain ⟨text, _, ran⟩ := Option.bind_eq_some_iff.mp ran
      exact add_natclient ran
  | turnon heap line =>
      obtain ⟨text, _, ran⟩ := Option.bind_eq_some_iff.mp ran
      exact switch_natclient ran
  | turnoff heap line =>
      obtain ⟨text, _, ran⟩ := Option.bind_eq_some_iff.mp ran
      exact switch_natclient ran

end Others

/-! The invariant of the table, and what it gives. -/
section Law

structure Separate (natclient : NatClientT) : Prop where
  names : ∀ left right, left ≠ right → nameOf natclient left ≠ [] →
    nameOf natclient left ≠ nameOf natclient right
  handles : ∀ (left right : Fin maxIceTrans) icest, left ≠ right →
    natclient.iceTransList[left].icest = some icest →
      natclient.iceTransList[right].icest ≠ some icest
  long : ∀ slot, nameOf natclient slot ≠ [] → 2 < (nameOf natclient slot).length
  -- A name is a string that the line input has left.
  clean : ∀ slot, '\x00' ∉ nameOf natclient slot
  kept : ∀ slot, ¬ EndsIn dropped (nameOf natclient slot)

structure Claims (before after : NatClientT) (slot : Fin maxIceTrans) (name : CStr) : Prop where
  lowest : LowestFree before slot
  name : nameOf after slot = name
  icest : after.iceTransList[slot].icest = before.iceTransList[slot].icest
  receive : after.iceReceive = before.iceReceive
  others : ∀ other, other ≠ slot → after.iceTransList[other] = before.iceTransList[other]
  sessions : ∀ other icest, other ≠ slot → before.iceTransList[other].icest = some icest →
    after.lib.live icest = before.lib.live icest

variable {natclient : NatClientT}

theorem claim_claims (separate : Separate natclient) {slot : Fin maxIceTrans} {name : CharArray 256}
    (lowest : LowestFree natclient slot) (rem : RemInfo) (outcome : StartOutcome) :
    Claims natclient (claim natclient slot name rem outcome) slot name.text := by
  constructor
  · exact lowest
  · simp [nameOf, claim, claimed]
  · simp [claim, claimed]
  · rfl
  · intro other different
    have apart : slot.val ≠ other.val := fun same => different (Fin.ext same.symm)
    simp [claim, Vector.getElem_set_ne _ _ apart]
  · intro other icest different occupied
    exact startNego_other _ _ outcome fun same =>
      separate.handles other slot icest different occupied same

theorem connect_claims (separate : Separate natclient) (env : PeerEnv) (outcome : StartOutcome)
    {arg : CStr} {result : ApiResult} (long : arg.length ≤ 255) (new : ¬ Named natclient arg)
    (free : Named natclient []) (ran : apiPeerConnect env outcome arg natclient = some result) :
    ∃ slot, Claims natclient result.natclient slot arg := by
  obtain ⟨slot, lowest, shape⟩ := connect_free env outcome new free (Nat.lt_succ_of_le long)
  rw [shape] at ran
  obtain ⟨rem, _, rfl⟩ := Option.map_eq_some_iff.mp ran
  exact ⟨slot, claim_claims separate lowest rem outcome⟩

theorem claims_separate {after : NatClientT} {slot : Fin maxIceTrans} {name : CStr}
    (separate : Separate natclient) (long : 2 < name.length) (clean : '\x00' ∉ name)
    (ends : ¬ EndsIn dropped name) (new : ¬ Named natclient name)
    (claims : Claims natclient after slot name) : Separate after := by
  have kept (other : Fin maxIceTrans) (different : other ≠ slot) :
      nameOf after other = nameOf natclient other := by
        rw [nameOf, nameOf, claims.others other different]
  have sameHandle (other : Fin maxIceTrans) :
      after.iceTransList[other].icest = natclient.iceTransList[other].icest := by
    by_cases own : other = slot
    · rw [own, claims.icest]
    · rw [claims.others other own]
  constructor
  · intro left right different occupied same
    -- Two equal names would give the new name to a slot that has it already.
    by_cases leftOwn : left = slot
    · have rightOther : right ≠ slot := fun rightOwn => different (leftOwn.trans rightOwn.symm)
      rw [leftOwn, claims.name, kept right rightOther] at same
      exact new ⟨right, same.symm⟩
    · rw [kept left leftOwn] at same occupied
      by_cases rightOwn : right = slot
      · rw [rightOwn, claims.name] at same
        exact new ⟨left, same⟩
      · rw [kept right rightOwn] at same
        exact separate.names left right different occupied same
  · intro left right icest different occupied
    rw [sameHandle] at occupied ⊢
    exact separate.handles left right icest different occupied
  · intro other occupied
    by_cases own : other = slot
    · rw [own, claims.name]
      exact long
    · rw [kept other own] at occupied ⊢
      exact separate.long other occupied
  · intro other
    by_cases own : other = slot
    · rw [own, claims.name]
      exact clean
    · rw [kept other own]
      exact separate.clean other
  · intro other
    by_cases own : other = slot
    · rw [own, claims.name]
      exact ends
    · rw [kept other own]
      exact separate.kept other

theorem step_separate {usrid : CharArray 256} {command : Command} {calls : List ApiCall}
    {after : NatClientT} (separate : Separate natclient)
    (taken : consoleStep usrid natclient command = some (after, calls)) : Separate after := by
  obtain ⟨result, ran, shape⟩ := Option.map_eq_some_iff.mp taken
  cases shape
  cases command with
  | connect env outcome user =>
      obtain ⟨name, read, ran⟩ := Option.bind_eq_some_iff.mp ran
      by_cases long : 2 < name.length
      · rw [if_pos long] at ran
        by_cases named : Named natclient name
        · rw [connect_named env outcome named] at ran
          exact Option.some_inj.mp ran ▸ separate
        · by_cases free : Named natclient []
          · obtain ⟨slot, claims⟩ := connect_claims separate env outcome
              (Nat.le_of_lt_succ (LineInput.string_length read)) named free ran
            exact claims_separate separate long (LineInput.string_clean read)
              (LineInput.string_kept read) named claims
          · rw [connect_full env outcome named free] at ran
            exact Option.some_inj.mp ran ▸ separate
      · rw [if_neg long] at ran
        exact Option.some_inj.mp ran ▸ separate
  -- No other command writes to the table.
  | send allocated line => exact others_natclient (by simp [IsConnect]) ran ▸ separate
  | add heap username => exact others_natclient (by simp [IsConnect]) ran ▸ separate
  | turnon heap line => exact others_natclient (by simp [IsConnect]) ran ▸ separate
  | turnoff heap line => exact others_natclient (by simp [IsConnect]) ran ▸ separate

end Law

/-! Setting the table up gives every slot an instance of its own. -/
section Setup

theorem setup_spec (compCnt : Nat) (lib : PjNath) (outcome : SetupOutcome) :
    (setupTrans compCnt lib outcome).1.name = .empty ∧
      lib.next ≤ (setupTrans compCnt lib outcome).2.next ∧
      ∀ icest, (setupTrans compCnt lib outcome).1.icest = some icest →
        lib.next ≤ icest ∧ icest < (setupTrans compCnt lib outcome).2.next := by
  have session := initSession_local
    (natclientCreateInstance .zero lib compCnt outcome.created).icetrans
    (natclientCreateInstance .zero lib compCnt outcome.created).lib 'o' outcome.session
  simp only [setupTrans]
  rw [session.name, session.icest, session.next]
  rcases createInstance_cases .zero lib compCnt outcome.created with same | ⟨_, same⟩
  · rw [same]
    exact ⟨rfl, Nat.le_refl _, fun _ impossible => absurd impossible (by simp [IceTrans.zero])⟩
  · rw [same]
    refine ⟨rfl, Nat.le_succ _, ?_⟩
    rintro icest ⟨⟩
    exact ⟨Nat.le_refl _, Nat.lt_succ_self _⟩

theorem start_free (usrid : CharArray 256) (compCnt : Nat)
    (receive first second third : SetupOutcome) (slot : Fin maxIceTrans) :
    nameOf (consoleStart usrid compCnt receive first second third) slot = [] := by
  have empty (lib : PjNath) (outcome : SetupOutcome) :
      (setupTrans compCnt lib outcome).1.name.text = [] := by
    rw [(setup_spec compCnt lib outcome).1]
    rfl
  fin_cases slot <;> exact empty _ _

theorem start_ordered (usrid : CharArray 256) (compCnt : Nat)
    (receive first second third : SetupOutcome)
    (left right : Fin maxIceTrans) (lower : left < right) {low high : Handle}
    (lowAt :
      (consoleStart usrid compCnt receive first second third).iceTransList[left].icest = some low)
    (highAt : (consoleStart usrid compCnt receive first second third).iceTransList[right].icest =
      some high) : low < high := by
  let lib1 := (setupTrans compCnt .empty receive).2
  let lib2 := (setupTrans compCnt lib1 first).2
  let lib3 := (setupTrans compCnt lib2 second).2
  obtain ⟨_, _, own0⟩ := setup_spec compCnt lib1 first
  obtain ⟨_, grows, own1⟩ := setup_spec compCnt lib2 second
  obtain ⟨_, _, own2⟩ := setup_spec compCnt lib3 third
  fin_cases left <;> fin_cases right
  case «0».«1» => exact Nat.lt_of_lt_of_le (own0 low lowAt).2 (own1 high highAt).1
  case «0».«2» =>
    exact Nat.lt_of_lt_of_le (own0 low lowAt).2 (Nat.le_trans grows (own2 high highAt).1)
  case «1».«2» => exact Nat.lt_of_lt_of_le (own1 low lowAt).2 (own2 high highAt).1
  all_goals exact absurd lower (by decide)

theorem start_separate (usrid : CharArray 256) (compCnt : Nat)
    (receive first second third : SetupOutcome) :
    Separate (consoleStart usrid compCnt receive first second third) := by
  constructor
  · intro left right _ occupied
    exact absurd (start_free usrid compCnt receive first second third left) occupied
  · intro left right icest different leftAt rightAt
    rcases Fin.lt_or_lt_of_ne different with lower | higher
    · exact Nat.lt_irrefl _
        (start_ordered usrid compCnt receive first second third left right lower leftAt rightAt)
    · exact Nat.lt_irrefl _
        (start_ordered usrid compCnt receive first second third right left higher rightAt leftAt)
  · intro slot occupied
    exact absurd (start_free usrid compCnt receive first second third slot) occupied
  · intro slot
    rw [start_free]
    exact List.not_mem_nil
  · intro slot
    rw [start_free]
    exact LineInput.not_endsIn_nil dropped

end Setup

section Runs

def Reached (usrid : CharArray 256) (natclient : NatClientT) : Prop :=
  ∃ compCnt receive first second third commands,
    run (consoleStep usrid) (consoleStart usrid compCnt receive first second third) commands =
      some natclient

end Runs

/-! Commands with the lines that are typed for them. -/
section Lines

def streamOf : Command → List Char
  | .connect _ _ user => user.stream
  | .send _ line => line.stream
  | .add _ username => username.stream
  | .turnon _ line => line.stream
  | .turnoff _ line => line.stream

def Types (command : Command) (line : CStr) : Prop :=
  '\n' ∉ line ∧ ∃ later, streamOf command = typed line later

/-- The description is fetched without an abort of the process. -/
def Quiet : Command → Prop
  | .connect env _ user => ∀ name rem, user.string = some name → 2 < name.length →
      natclientConnectWithUser env rem name ≠ none
  | _ => True

/-- A name for `connect` arrives as it was typed, and what arrives for the commands that cut
it into tokens has none that overflows its array. -/
def Fits : Command → CStr → Prop
  | .connect _ _ _, line => '\x00' ∉ line ∧ ¬ EndsIn (· = '\x10') line
  | .send allocated _, line => allocated = true → (firstToken (arrives 1024 line)).length < 256
  | .add _ _, _ => True
  | .turnon heap _, line => heap.isSome = true →
      (firstToken (arrives 1024 line)).length < 256 ∧ (secondToken (arrives 1024 line)).length < 256
  | .turnoff heap _, line => heap.isSome = true →
      (firstToken (arrives 1024 line)).length < 256 ∧ (secondToken (arrives 1024 line)).length < 256

def Effect (natclient : NatClientT) (line : CStr) (result : ApiResult) : Command → Prop
  | .connect _ _ _ => 3 ≤ line.length → line.length ≤ 255 →
      (Named natclient line → result = ⟨0, natclient, []⟩) ∧
      (¬ Named natclient line → ¬ Named natclient [] → result = ⟨-1, natclient, []⟩) ∧
      (¬ Named natclient line → Named natclient [] →
        ∃ slot, Claims natclient result.natclient slot line)
  | _ => result.natclient = natclient

def Lawful (usrid : CharArray 256) (natclient : NatClientT)
    (command : Command) (line : CStr) : Prop :=
  ∃ result, natclientConsole usrid natclient command = some result ∧
    Effect natclient line result command

/-- The names are distinct, and every command that fits has a lawful result; the commands
other than `connect` have one only if they fit. -/
structure TableLaw (usrid : CharArray 256) (natclient : NatClientT) : Prop where
  injective : ∀ left right, left ≠ right → nameOf natclient left ≠ [] →
    nameOf natclient left ≠ nameOf natclient right
  lawful : ∀ command line, Types command line → Quiet command → Fits command line →
    Lawful usrid natclient command line
  exact : ∀ command line, Types command line → ¬ IsConnect command →
    Lawful usrid natclient command line → Fits command line

variable {usrid : CharArray 256} {natclient : NatClientT} {line : CStr}

theorem string_of_types {size : Nat} (roomy : 2 ≤ size) {input : Input size} (plain : '\n' ∉ line)
    (stream : ∃ later, input.stream = typed line later) :
    input.string = some (arrives size line) := by
  obtain ⟨later, same⟩ := stream
  exact LineInput.string_typed roomy plain same

theorem arrives_short (line : CStr) : (arrives 256 line).length < 256 :=
  Nat.lt_succ_of_le (LineInput.arrives_length 256 line)

theorem arrives_line (line : CStr) : (arrives 1024 line).length < 1024 :=
  Nat.lt_succ_of_le (LineInput.arrives_length 1024 line)

/-- The commands that look a name up come to an end on exactly the fitting lines. -/
theorem others_result_iff {command : Command} (other : ¬ IsConnect command)
    (types : Types command line) :
    (∃ result, natclientConsole usrid natclient command = some result) ↔ Fits command line := by
  obtain ⟨plain, stream⟩ := types
  cases command with
  | connect env outcome user => exact absurd trivial other
  | send allocated input =>
      cases allocated with
      | false => exact iff_of_true ⟨_, rfl⟩ fun impossible => absurd impossible Bool.false_ne_true
      | true =>
          have read := string_of_types (by decide) plain stream
          simp only [natclientConsole, read, Fits, ↓reduceIte,
            Option.bind_eq_bind, Option.bind_some,
            forall_const]
          exact send_result_iff (arrives_line line)
  -- The text for the device takes more than the name, and its array has the room.
  | add heap username =>
      have read := string_of_types (by decide) plain stream
      simp only [natclientConsole, read, Fits, Option.bind_eq_bind, Option.bind_some, iff_true]
      exact add_result heap (arrives_short line)
  | turnon heap input =>
      have read := string_of_types (by decide) plain stream
      simp only [natclientConsole, read, Fits, Option.bind_eq_bind, Option.bind_some]
      exact switch_result_iff (by decide) heap
  | turnoff heap input =>
      have read := string_of_types (by decide) plain stream
      simp only [natclientConsole, read, Fits, Option.bind_eq_bind, Option.bind_some]
      exact switch_result_iff (by decide) heap

theorem others_lawful_iff {command : Command} (other : ¬ IsConnect command)
    (types : Types command line) :
    Lawful usrid natclient command line ↔ Fits command line := by
  rw [← @others_result_iff usrid natclient line command other types]
  refine exists_congr fun result => and_iff_left_of_imp fun ran => ?_
  have same := others_natclient other ran
  cases command with
  | connect env outcome user => exact absurd trivial other
  | send allocated input => exact same
  | add heap username => exact same
  | turnon heap input => exact same
  | turnoff heap input => exact same

theorem connect_lawful (separate : Separate natclient) {env : PeerEnv} {outcome : StartOutcome}
    {user : Input 256} (types : Types (.connect env outcome user) line)
    (quiet : Quiet (.connect env outcome user)) (fits : Fits (.connect env outcome user) line) :
    Lawful usrid natclient (.connect env outcome user) line := by
  obtain ⟨plain, stream⟩ := types
  obtain ⟨clean, kept⟩ := fits
  have read := string_of_types (by decide) plain stream
  have console : natclientConsole usrid natclient (.connect env outcome user) =
      if 2 < (arrives 256 line).length then apiPeerConnect env outcome (arrives 256 line) natclient
      else some ⟨0, natclient, []⟩ := by
    rw [natclientConsole, read, Option.bind_eq_bind, Option.bind_some]
  -- A short line arrives as it was typed.
  have whole (short : line.length ≤ 255) : arrives 256 line = line :=
    (LineInput.arrives_self_iff plain).mpr ⟨short, clean, kept⟩
  rw [Lawful, console]
  by_cases long : 2 < (arrives 256 line).length
  · rw [if_pos long]
    by_cases named : Named natclient (arrives 256 line)
    · refine ⟨_, connect_named env outcome named, fun _ short => ?_⟩
      rw [whole short] at named
      exact ⟨fun _ => rfl, fun new => absurd named new, fun new => absurd named new⟩
    · by_cases free : Named natclient []
      -- The first slot without name.
      · obtain ⟨slot, lowest, shape⟩ := connect_free env outcome named free (arrives_short line)
        obtain ⟨rem, connected⟩ := Option.ne_none_iff_exists'.mp (quiet _ _ read long)
        rw [shape, connected]
        have claims := @claim_claims natclient separate slot ⟨arrives 256 line, arrives_short line⟩
          lowest rem outcome
        refine ⟨_, rfl, fun _ short => ?_⟩
        rw [whole short] at named
        exact ⟨fun taken => absurd taken named, fun _ full => absurd free full,
          fun _ _ => ⟨slot, Eq.subst (motive := Claims natclient _ slot) (whole short) claims⟩⟩
      · refine ⟨_, connect_full env outcome named free, fun _ short => ?_⟩
        rw [whole short] at named
        exact ⟨fun taken => absurd taken named, fun _ _ => rfl, fun _ some' => absurd some' free⟩
  · rw [if_neg long]
    refine ⟨_, rfl, fun three short => ?_⟩
    rw [whole short] at long
    exact absurd three long

theorem lawful_of_fits (separate : Separate natclient) {command : Command}
    (types : Types command line) (quiet : Quiet command) (fits : Fits command line) :
    Lawful usrid natclient command line := by
  by_cases connects : IsConnect command
  · cases command with
    | connect env outcome user => exact connect_lawful separate types quiet fits
    | _ => exact connects.elim
  · exact (others_lawful_iff connects types).mpr fits

theorem tableLaw_of_separate (usrid : CharArray 256) (separate : Separate natclient) :
    TableLaw usrid natclient where
  injective := separate.names
  lawful _ _ types quiet fits := lawful_of_fits separate types quiet fits
  exact _ _ types other lawful := (others_lawful_iff other types).mp lawful

/-- From the empty table, commands that fit lead to a table that is a partial injection and
stays one. -/
theorem fitting_runs_lawful (usrid : CharArray 256) (compCnt : Nat)
    (receive first second third : SetupOutcome) (commands : List Command)
    (fit : ∀ command ∈ commands, Quiet command ∧ ∃ line, Types command line ∧ Fits command line) :
    ∃ natclient, run (consoleStep usrid) (consoleStart usrid compCnt receive first second third)
      commands = some natclient ∧ TableLaw usrid natclient := by
  have kept (state : NatClientT) (command : Command) (separate : Separate state)
      (fits : Quiet command ∧ ∃ line, Types command line ∧ Fits command line) :
      ∃ after calls, consoleStep usrid state command = some (after, calls) ∧ Separate after := by
    obtain ⟨quiet, line, types, fits⟩ := fits
    obtain ⟨result, taken, _⟩ := lawful_of_fits separate types quiet fits
    have step : consoleStep usrid state command = some (result.natclient, result.calls) := by
      rw [consoleStep, taken, Option.map_some]
    exact ⟨_, _, step, step_separate separate step⟩
  obtain ⟨natclient, ran, separate⟩ :=
    run_total kept (start_separate usrid compCnt receive first second third) fit
  exact ⟨natclient, ran, tableLaw_of_separate usrid separate⟩

end Lines

section Examples

def phoneName : CharArray 256 := ⟨"phone".toList, by decide⟩

def phone : NatClientT :=
  consoleStart phoneName 1 ⟨true, true⟩ ⟨true, true⟩ ⟨true, true⟩ ⟨true, true⟩

def typedInput (size : Nat) (line : CStr) : Input size :=
  ⟨Vector.replicate size '\x00', typed line []⟩

def connectTo (name : CStr) : Command :=
  .connect (serverOf borrowedIp) ⟨true, some 1⟩ (typedInput 256 name)

theorem connect_types {name : CStr} (plain : '\n' ∉ name) : Types (connectTo name) name :=
  ⟨plain, [], rfl⟩

theorem connect_string {name : CStr} (plain : '\n' ∉ name) :
    (typedInput 256 name).string = some (arrives 256 name) :=
  LineInput.string_typed (by decide) plain rfl

theorem connect_quiet {name : CStr} (plain : '\n' ∉ name)
    (fetched :
      natclientConnectWithUser (serverOf borrowedIp) resetRemInfo (arrives 256 name) ≠ none) :
    Quiet (connectTo name) := by
  intro found rem read _
  obtain rfl := Option.some_inj.mp (read.symm.trans (connect_string plain))
  exact fetched

def lampCommands : List Command :=
  [connectTo "lamp".toList, .turnon (some .zero) (typedInput 1024 "lamp|7".toList),
    connectTo "door".toList]

theorem fitting_runs_lawful_lamp :
    ∃ natclient, run (consoleStep phoneName) phone lampCommands = some natclient ∧
      TableLaw phoneName natclient := by
  refine fitting_runs_lawful phoneName 1 _ _ _ _ lampCommands fun command member => ?_
  rw [lampCommands, List.mem_cons, List.mem_cons, List.mem_singleton] at member
  rcases member with rfl | rfl | rfl
  · exact ⟨connect_quiet (by decide) (by decide +kernel), _, connect_types (by decide),
      by decide, LineInput.rdropWhile_self.mp (by decide)⟩
  · exact ⟨trivial, _, ⟨by decide, [], rfl⟩, fun _ => by decide +kernel⟩
  · exact ⟨connect_quiet (by decide) (by decide +kernel), _, connect_types (by decide),
      by decide, LineInput.rdropWhile_self.mp (by decide)⟩

def longNode : CStr := "lamp|".toList ++ List.replicate 256 '7'

theorem longNode_overflows : Types (.turnon (some .zero) (typedInput 1024 longNode)) longNode ∧
    ¬ Lawful phoneName phone (.turnon (some .zero) (typedInput 1024 longNode)) longNode := by
  have types : Types (.turnon (some .zero) (typedInput 1024 longNode)) longNode :=
    ⟨by decide, [], rfl⟩
  refine ⟨types, fun lawful => ?_⟩
  have fits := (others_lawful_iff (by simp [IsConnect]) types).mp lawful
  exact absurd (fits rfl).2 (by decide +kernel)

end Examples

/-! A connection attempt that starts no negotiation still keeps its slot. -/
section Attempt

def Started (outcome : StartOutcome) (calls : List ApiCall) : Prop :=
  outcome.success = true ∧ ∃ index made, ApiCall.startNego index made ∈ calls ∧
    ∃ call ∈ made, ∃ rem, call.fn = .startIce rem

/-- Without a started negotiation the value is not zero and no name is claimed. -/
def FailsCleanly (env : PeerEnv) (outcome : StartOutcome) (arg : CStr)
    (natclient : NatClientT) : Prop :=
  ∃ result, apiPeerConnect env outcome arg natclient = some result ∧
    (¬ Started outcome result.calls → result.value ≠ 0 ∧
      ∀ name, name ≠ [] → (Named result.natclient name ↔ Named natclient name))

/-- An attempt is clean exactly when it cannot fail: the document is fetched and accepted, the
slot has a session and the library starts. -/
theorem attempt_clean_iff (env : PeerEnv) (outcome : StartOutcome) (arg : CStr)
    (natclient : NatClientT) (slot : Fin maxIceTrans) (doc : XmlNode) (new : ¬ Named natclient arg)
    (lowest : LowestFree natclient slot) (short : arg.length < 256) (served : Serves env arg doc) :
    FailsCleanly env outcome arg natclient ↔
      Fetched env arg ∧ DocAccepts env.sockaddr doc ∧
        (∃ icest, natclient.iceTransList[slot].icest = some icest ∧
          natclient.lib.hasSess icest = true) ∧ outcome.success = true := by
  obtain ⟨slot', lowest', shape⟩ := connect_free env outcome new ⟨slot, lowest.1⟩ short
  obtain rfl : slot = slot' := lowest_unique lowest lowest'
  cases connected : natclientConnectWithUser env natclient.iceTransList[slot].rem arg with
  | none =>
      have outside := (connect_none_iff _ served).mp connected
      rw [connected] at shape
      constructor
      · rintro ⟨result, ran, _⟩
        exact absurd (shape.symm.trans ran) (by simp)
      · rintro ⟨fetched, accepts, _⟩
        exact absurd ⟨fetched, docAccepts_inBounds accepts⟩ outside
  | some rem =>
      have fetched := fetched_of_connect connected
      rw [connected, Option.map_some] at shape
      have starts :=
        startNego_starts_iff (claimed natclient slot ⟨arg, short⟩ rem) natclient.lib outcome
      have stored : (claimed natclient slot ⟨arg, short⟩ rem).rem.candCnt ≠ 0 ↔
          DocAccepts env.sockaddr doc := stored_iff_accepts ⟨fetched, served⟩ connected
      constructor
      · rintro ⟨result, ran, clean⟩
        cases shape.symm.trans ran
        -- The command returns 0 whatever happens, so only a start can make it clean.
        obtain ⟨success, index, made, member, asked⟩ :=
          not_not.mp fun failed => (clean failed).1 rfl
        cases List.mem_singleton.mp member
        obtain ⟨session, nonzero⟩ := starts.mp asked
        exact ⟨fetched, stored.mp nonzero, session, success⟩
      · rintro ⟨_, accepts, session, success⟩
        refine ⟨_, shape, fun failed =>
          absurd ⟨success, slot, _, List.mem_singleton.mpr rfl, ?_⟩ failed⟩
        exact starts.mpr ⟨session, stored.mpr accepts⟩

def noCandidates : XmlNode :=
  .element "registerPeer".toList (field "ufrag".toList "4f2a".toList
    (field "pwd".toList "7c1d9e".toList (.element "candidateList".toList .null .null))) .null

theorem phone_free (slot : Fin maxIceTrans) : nameOf phone slot = [] := start_free _ _ _ _ _ _ slot

theorem attempt_clean_iff_noCandidates :
    FailsCleanly (serverOf noCandidates) ⟨false, none⟩ "lamp".toList phone ↔
      Fetched (serverOf noCandidates) "lamp".toList ∧ DocAccepts dottedLib noCandidates ∧
        (∃ icest, phone.iceTransList[(0 : Fin maxIceTrans)].icest = some icest ∧
          phone.lib.hasSess icest = true) ∧ false = true :=
  attempt_clean_iff (serverOf noCandidates) ⟨false, none⟩ "lamp".toList phone 0 noCandidates
    (fun ⟨slot, same⟩ => absurd ((phone_free slot).symm.trans same) (by decide))
    ⟨phone_free 0, fun lower below => absurd below (Fin.not_lt_zero lower)⟩ (by decide)
    (serverOf_serves (by decide +kernel) _)

/-- The refused user keeps the slot and the call returns zero. -/
theorem noCandidates_not_clean :
    ¬ FailsCleanly (serverOf noCandidates) ⟨false, none⟩ "lamp".toList phone := by
  rintro ⟨result, ran, clean⟩
  have value : (apiPeerConnect (serverOf noCandidates) ⟨false, none⟩ "lamp".toList phone).map
      ApiResult.value = some 0 := by decide +kernel
  rw [ran] at value
  have failed : ¬ Started ⟨false, none⟩ result.calls := fun started => absurd started.1 (by decide)
  exact (clean failed).1 (Option.some_inj.mp value)

end Attempt

end NatClient.SessionTable
