import NatClient.XmlGrammar

/-!
Uniform resource identifiers of RFC 3986 with an authority, as a relation between a text
and the segments of its path, and what percent-encoded text denotes. The inside of an IP
literal is checked by its characters only.
-/

namespace NatClient.UriGrammar

open XmlGrammar

/-! Characters and percent-encoding. -/
section Characters

def unreserved (c : Char) : Bool := c.isAlphanum || c = '-' || c = '.' || c = '_' || c = '~'

def subDelims : List Char := ['!', '$', '&', '\'', '(', ')', '*', '+', ',', ';', '=']

def pchar (c : Char) : Bool := unreserved c || c ∈ subDelims || c = ':' || c = '@'

/-- Text in which a character that is not literal is given by its octet. -/
inductive Decodes (literal : Char → Bool) : List Char → List Char → Prop
  | nil : Decodes literal [] []
  | literal {c : Char} {text octets : List Char} (plain : literal c = true)
      (later : Decodes literal text octets) : Decodes literal (c :: text) (c :: octets)
  | encoded {high low : Char} {first second : Nat} {text octets : List Char}
      (upper : hexValue high = some first) (lower : hexValue low = some second)
      (later : Decodes literal text octets) :
      Decodes literal ('%' :: high :: low :: text) (Char.ofNat (16 * first + second) :: octets)

def Encoded (literal : Char → Bool) (text : List Char) : Prop :=
  ∃ octets, Decodes literal text octets

variable {literal : Char → Bool} {text octets : List Char}

theorem decodes_self (plain : ∀ c ∈ text, literal c = true) : Decodes literal text text := by
  induction text with
  | nil => exact .nil
  | cons c text ih =>
      obtain ⟨here, plain⟩ := List.forall_mem_cons.mp plain
      exact .literal here (ih plain)

theorem decodes_length (decodes : Decodes literal text octets) : octets.length ≤ text.length := by
  induction decodes with
  | nil => exact Nat.le_refl 0
  | literal plain later ih => exact Nat.succ_le_succ ih
  | encoded upper lower later ih =>
      simp only [List.length_cons]
      omega

theorem decodes_tight (decodes : Decodes literal text octets)
    (tight : text.length ≤ octets.length) :
    text = octets ∧ ∀ c ∈ octets, literal c = true := by
  induction decodes with
  | nil => exact ⟨rfl, by simp⟩
  | literal plain later ih =>
      obtain ⟨same, all⟩ := ih (Nat.le_of_succ_le_succ tight)
      exact ⟨congrArg _ same, List.forall_mem_cons.mpr ⟨plain, all⟩⟩
  | encoded upper lower later ih =>
      have shorter := decodes_length later
      simp only [List.length_cons] at tight
      omega

theorem encoded_without {mark : Char} (foreign : literal mark = false) (sign : mark ≠ '%')
    (digit : hexValue mark = none) (encoded : Encoded literal text) : mark ∉ text := by
  obtain ⟨octets, decodes⟩ := encoded
  induction decodes with
  | nil => exact List.not_mem_nil
  | literal plain later ih =>
      refine List.not_mem_cons_of_ne_of_not_mem ?_ ih
      rintro rfl
      simp [foreign] at plain
  | encoded upper lower later ih =>
      simp only [List.mem_cons, not_or]
      refine ⟨sign, ?_, ?_, ih⟩
      · rintro rfl
        simp [digit] at upper
      · rintro rfl
        simp [digit] at lower

end Characters

/-! The parts of an identifier. -/
section Parts

def Scheme : List Char → Prop
  | [] => False
  | first :: rest => first.isAlpha = true ∧ ∀ c ∈ rest, c.isAlphanum = true ∨ c ∈ ['+', '-', '.']

def regName (c : Char) : Bool := unreserved c || c ∈ subDelims

def userChar (c : Char) : Bool := regName c || c = ':'

def Host (text : List Char) : Prop :=
  Encoded regName text ∨ ∃ inner, (∀ c ∈ inner, userChar c = true) ∧ text = '[' :: (inner ++ [']'])

def Authority (text : List Char) : Prop :=
  ∃ user host port, (user = [] ∨ ∃ info, Encoded userChar info ∧ user = info ++ ['@']) ∧ Host host ∧
    (port = [] ∨ ∃ digits, (∀ c ∈ digits, c.isDigit = true) ∧ port = ':' :: digits) ∧
      text = user ++ (host ++ port)

def path (segments : List (List Char)) : List Char := segments.flatMap fun segment => '/' :: segment

def queryChar (c : Char) : Bool := pchar c || c = '/' || c = '?'

def Marked (mark : Char) (text : List Char) : Prop :=
  text = [] ∨ ∃ inner, Encoded queryChar inner ∧ text = mark :: inner

def Base (text : List Char) (segments : List (List Char)) : Prop :=
  ∃ scheme authority, Scheme scheme ∧ Authority authority ∧
    (∀ segment ∈ segments, Encoded pchar segment) ∧
    text = scheme ++ (':' :: '/' :: '/' :: (authority ++ path segments))

def Uri (text : List Char) (segments : List (List Char)) : Prop :=
  ∃ base query fragment, Base base segments ∧ Marked '?' query ∧ Marked '#' fragment ∧
    text = base ++ (query ++ fragment)

/-- What the last segment denotes; dot segments name a place in the hierarchy and nothing else. -/
def LastDenotes (text octets : List Char) : Prop :=
  ∃ segments last, Uri text (segments ++ [last]) ∧ last ≠ ['.'] ∧
    last ≠ ['.', '.'] ∧ Decodes pchar last octets

end Parts

section Last
variable {base : List Char} {segments : List (List Char)}

theorem segment_plain {segment : List Char} (encoded : Encoded pchar segment) : '/' ∉ segment :=
  encoded_without (by decide) (by decide) (by decide) encoded

section Marks
variable {mark : Char} (marks : mark = '?' ∨ mark = '#')

include marks

theorem mark_ne {c : Char} (other : c ≠ '?' ∧ c ≠ '#') : mark ≠ c := by
  rintro rfl
  exact marks.elim other.1 other.2

theorem mark_outside {allowed : Char → Prop} (outside : ¬ allowed '?' ∧ ¬ allowed '#')
    {text : List Char} (all : ∀ c ∈ text, allowed c) : mark ∉ text := by
  intro member
  rcases marks with rfl | rfl
  · exact outside.1 (all _ member)
  · exact outside.2 (all _ member)

theorem mark_encoded {literal : Char → Bool} (foreign : literal '?' = false ∧ literal '#' = false)
    {text : List Char} (encoded : Encoded literal text) : mark ∉ text := by
  rcases marks with rfl | rfl
  · exact encoded_without foreign.1 (by decide) (by decide) encoded
  · exact encoded_without foreign.2 (by decide) (by decide) encoded

theorem path_plain (encoded : ∀ segment ∈ segments, Encoded pchar segment) :
    mark ∉ path segments := by
  intro member
  obtain ⟨segment, among, member⟩ := List.mem_flatMap.mp member
  have inside : mark ∉ segment := mark_encoded marks (by decide) (encoded segment among)
  exact List.not_mem_cons_of_ne_of_not_mem (mark_ne marks (by decide)) inside member

theorem scheme_plain {scheme : List Char} (legal : Scheme scheme) : mark ∉ scheme := by
  cases scheme with
  | nil => exact List.not_mem_nil
  | cons first rest =>
      obtain ⟨start, later⟩ := legal
      have letter : mark ∉ [first] :=
        mark_outside marks (by decide) fun c member => List.mem_singleton.mp member ▸ start
      exact List.not_mem_cons_of_ne_of_not_mem (List.ne_of_not_mem_cons letter)
        (mark_outside marks (by decide) later)

theorem host_plain {host : List Char} (legal : Host host) : mark ∉ host := by
  rcases legal with name | ⟨inner, all, rfl⟩
  · exact mark_encoded marks (by decide) name
  · have address : mark ∉ inner := mark_outside marks (by decide) all
    simp [mark_ne marks, address]

theorem authority_plain {authority : List Char} (legal : Authority authority) :
    mark ∉ authority := by
  obtain ⟨user, host, port, users, hosts, ports, rfl⟩ := legal
  simp only [List.mem_append, not_or]
  refine ⟨?_, host_plain marks hosts, ?_⟩
  · rcases users with rfl | ⟨info, encoded, rfl⟩
    · exact List.not_mem_nil
    · have plain : mark ∉ info := mark_encoded marks (by decide) encoded
      simp [mark_ne marks, plain]
  · rcases ports with rfl | ⟨digits, all, rfl⟩
    · exact List.not_mem_nil
    · have plain : mark ∉ digits := mark_outside marks (by decide) all
      simp [mark_ne marks, plain]

theorem base_plain (based : Base base segments) : mark ∉ base := by
  obtain ⟨scheme, authority, schemes, authorities, encoded, rfl⟩ := based
  simp [mark_ne marks, scheme_plain marks schemes,
    authority_plain marks authorities, path_plain marks encoded]

end Marks

theorem marked_head {mark first : Char} {text rest : List Char} (marked : Marked mark text)
    (starts : text = first :: rest) : first = mark := by
  rcases marked with rfl | ⟨inner, _, rfl⟩
  · exact absurd starts (by simp)
  · exact (List.cons.inj starts).1.symm

theorem tail_head {query fragment rest : List Char} {first : Char} (queries : Marked '?' query)
    (fragments : Marked '#' fragment) (starts : query ++ fragment = first :: rest) :
    first = '?' ∨ first = '#' := by
  cases query with
  | nil => exact Or.inr (marked_head fragments starts)
  | cons mark inner => exact Or.inl ((List.cons.inj starts).1 ▸ marked_head queries rfl)

theorem base_last {segment : List Char} (based : Base base (segments ++ [segment])) :
    Encoded pchar segment ∧ ∃ front, base = front ++ '/' :: segment := by
  obtain ⟨scheme, authority, _, _, encoded, rfl⟩ := based
  refine ⟨encoded segment (by simp),
    scheme ++ (':' :: '/' :: '/' :: (authority ++ path segments)), ?_⟩
  simp [path, List.flatMap_append]

theorem base_snoc {segment : List Char} (based : Base base segments)
    (encoded : Encoded pchar segment) :
    Base (base ++ '/' :: segment) (segments ++ [segment]) := by
  obtain ⟨scheme, authority, schemes, authorities, earlier, rfl⟩ := based
  refine ⟨scheme, authority, schemes, authorities, ?_, ?_⟩
  · intro other member
    rcases List.mem_append.mp member with among | last
    · exact earlier other among
    · rw [List.mem_singleton.mp last]
      exact encoded
  · simp [path, List.flatMap_append]

theorem segment_is_name {front name segment tail : List Char} (quiet : '?' ∉ base ∧ '#' ∉ base)
    (single : '/' ∉ segment)
    (marked : ∀ first rest, tail = first :: rest → first = '?' ∨ first = '#')
    (long : name.length ≤ segment.length)
    (same : base ++ '/' :: name = front ++ '/' :: (segment ++ tail)) :
    segment = name := by
  have slash : ∀ rest, tail ≠ '/' :: rest := by
    intro rest starts
    rcases marked '/' rest starts with mark | mark <;> exact absurd mark (by decide)
  rcases List.append_eq_append_iff.mp same with ⟨gap, _, later⟩ | ⟨gap, inside, later⟩
  -- The segment begins inside the name or with it, and is as long.
  · have lengths := congrArg List.length later
    simp only [List.length_cons, List.length_append] at lengths
    have noGap : gap = [] := List.eq_nil_of_length_eq_zero (by omega)
    have noTail : tail = [] := List.eq_nil_of_length_eq_zero (by omega)
    rw [noGap, noTail, List.nil_append, List.append_nil] at later
    exact (List.cons.inj later).2.symm
  · cases gap with
    | nil =>
        obtain ⟨_, rest⟩ := List.cons.inj later
        have lengths := congrArg List.length rest
        simp only [List.length_append] at lengths
        have noTail : tail = [] := List.eq_nil_of_length_eq_zero (by omega)
        rw [noTail, List.append_nil] at rest
        exact rest
    | cons first gap =>
        -- It begins inside the base and reaches the name only across a mark or a slash.
        obtain ⟨_, rest⟩ := List.cons.inj later
        rcases List.append_eq_append_iff.mp rest with ⟨more, rfl, starts⟩ | ⟨more, rfl, starts⟩
        · cases more with
          | nil => exact absurd starts (slash name)
          | cons mark more =>
              rcases marked mark _ starts with rfl | rfl
              · exact absurd (by simp [inside]) quiet.1
              · exact absurd (by simp [inside]) quiet.2
        · cases more with
          | nil => exact absurd starts.symm (slash name)
          | cons mark more =>
              cases (List.cons.inj starts).1
              exact absurd (by simp) single

/-- Behind a base, the last segment denotes the text that was put there exactly when each
of its characters stands for itself and it is no dot segment. -/
theorem last_denotes_iff (based : Base base segments) (name : List Char) :
    LastDenotes (base ++ '/' :: name) name ↔
      (∀ c ∈ name, pchar c = true) ∧ name ≠ ['.'] ∧ name ≠ ['.', '.'] := by
  constructor
  · rintro ⟨others, last, ⟨whole, query, fragment, wholeBased, queries, fragments, same⟩, dot,
      dots, decodes⟩
    obtain ⟨encoded, front, rfl⟩ := base_last wholeBased
    rw [List.append_assoc, List.cons_append] at same
    have quiet :
      '?' ∉ base ∧ '#' ∉ base := ⟨base_plain (Or.inl rfl) based, base_plain (Or.inr rfl) based⟩
    cases segment_is_name quiet (segment_plain encoded)
      (fun _ _ => tail_head queries fragments) (decodes_length decodes) same
    exact ⟨(decodes_tight decodes (Nat.le_refl _)).2, dot, dots⟩
  · rintro ⟨plain, dot, dots⟩
    have decodes := decodes_self plain
    have whole := base_snoc based ⟨name, decodes⟩
    refine ⟨segments, name, ⟨base ++ '/' :: name, [], [], whole, Or.inl rfl, Or.inl rfl, ?_⟩, dot,
      dots, decodes⟩
    simp

end Last

end NatClient.UriGrammar
