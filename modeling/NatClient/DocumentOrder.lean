import Mathlib.Data.List.Lex
import Mathlib.Order.Bounds.Basic

/-!
Forests of linked nodes, each with its first child and its next sibling. The address
of a node lists the positions among their siblings of its ancestors and of itself.
Document order is the lexicographic order of addresses: a node stands before what is
below it, and an earlier sibling with everything below it before a later one.
-/

namespace NatClient.DocumentOrder

structure Links (Ptr : Type) where
  children : Option Ptr
  next : Option Ptr

abbrev Address := List Nat

theorem address_le {first second : Nat} {inner outer : Address} :
    first :: inner ≤ second :: outer ↔ first < second ∨ first = second ∧ inner ≤ outer := by
  rw [le_iff_lt_or_eq, le_iff_lt_or_eq, List.cons.injEq]
  have order : first :: inner < second :: outer ↔ first < second ∨ first = second ∧ inner < outer :=
    List.cons_lt_cons_iff
  rw [order, or_assoc, ← and_or_left]

theorem address_append_le (parent : Address) {inner outer : Address} :
    parent ++ inner ≤ parent ++ outer ↔ inner ≤ outer := by
  induction parent with
  | nil => rfl
  | cons first rest ih =>
      rw [List.cons_append, List.cons_append, address_le, ih]
      simp

def shift : Address → Address
  | [] => []
  | first :: inner => (first + 1) :: inner

section Forests
variable {Ptr : Type} (links : Ptr → Option (Links Ptr))

/-- A pointer from which only finitely many nodes can be followed, all of them there. -/
inductive Forest : Option Ptr → Prop
  | null : Forest none
  | node {place : Ptr} {here : Links Ptr} (there : links place = some here)
      (below : Forest here.children) (after : Forest here.next) : Forest (some place)

def children (place : Option Ptr) : Option Ptr := (place.bind links).bind Links.children

def next (place : Option Ptr) : Option Ptr := (place.bind links).bind Links.next

def sibling : Nat → Option Ptr → Option Ptr
  | 0, place => place
  | count + 1, place => sibling count (next links place)

def locate : Option Ptr → Address → Option Ptr
  | _, [] => none
  | start, [index] => sibling links index start
  | start, index :: below :: inner =>
      locate (children links (sibling links index start)) (below :: inner)

variable {links}

theorem sibling_null (count : Nat) : sibling links count none = none := by
  induction count with
  | zero => rfl
  | succ count ih => exact ih

theorem locate_null (address : Address) : locate links none address = none := by
  induction address with
  | nil => rfl
  | cons index inner ih =>
      cases inner with
      | nil => exact sibling_null index
      | cons below inner =>
          rw [locate, sibling_null]
          exact ih

theorem locate_shift (start : Option Ptr) (address : Address) :
    locate links start (shift address) = locate links (next links start) address := by
  rcases address with _ | ⟨index, _ | ⟨below, inner⟩⟩ <;> rfl

theorem sibling_add (first second : Nat) (start : Option Ptr) :
    sibling links (first + second) start = sibling links second (sibling links first start) := by
  induction first generalizing start with
  | zero => rw [Nat.zero_add, sibling]
  | succ first ih => rw [Nat.succ_add, sibling, ih, sibling]

theorem forest_children {start : Option Ptr} (forest : Forest links start) :
    Forest links (children links start) := by
  cases forest with
  | null => exact .null
  | node there below _ => simpa [children, there] using below

theorem forest_next {start : Option Ptr} (forest : Forest links start) :
    Forest links (next links start) := by
  cases forest with
  | null => exact .null
  | node there _ after => simpa [next, there] using after

theorem forest_sibling (count : Nat) {start : Option Ptr} (forest : Forest links start) :
    Forest links (sibling links count start) := by
  induction count generalizing start with
  | zero => exact forest
  | succ count ih => exact ih (forest_next forest)

theorem forest_locate {start : Option Ptr} (forest : Forest links start) (address : Address) :
    Forest links (locate links start address) := by
  induction address generalizing start with
  | nil => exact .null
  | cons index inner ih =>
      cases inner with
      | nil => exact forest_sibling index forest
      | cons below inner => exact ih (forest_children (forest_sibling index forest))

/-- From the node at `parent ++ [index]`, its siblings and what is below them are found at
the addresses that share the parent. -/
theorem locate_inside {parent : Address} {index : Nat} {root : Option Ptr} (later : Nat)
    (inner : Address) :
    locate links root (parent ++ (index + later) :: inner) =
      locate links (locate links root (parent ++ [index])) (later :: inner) := by
  induction parent generalizing root with
  | nil =>
      rw [List.nil_append, List.nil_append]
      cases inner with
      | nil => rw [locate, locate, locate, sibling_add]
      | cons below inner => rw [locate, locate, locate, sibling_add]
  | cons first parent ih =>
      cases parent with
      | nil =>
          have deeper := @ih (children links (sibling links first root))
          exact deeper
      | cons second parent =>
          have deeper := @ih (children links (sibling links first root))
          exact deeper

end Forests

/-! The search for an accepted node: the node itself, what is below it, what follows. -/
section Search
variable {Ptr : Type} (links : Ptr → Option (Links Ptr)) (accept : Ptr → Bool)

/-- No result while the fuel lasts too short or where a pointer leads nowhere. -/
def walk : Nat → Option Ptr → Option (Option Ptr)
  | 0, _ => none
  | _ + 1, none => some none
  | fuel + 1, some place => do
      let here ← links place
      if accept place then some (some place)
      else match ← walk fuel here.children with
        | some found => some (some found)
        | none => walk fuel here.next

def Returns (start result : Option Ptr) : Prop :=
  ∃ bound, ∀ fuel, bound ≤ fuel → walk links accept fuel start = some result

def accepted (start : Option Ptr) : Set Address :=
  {address | ∃ place, locate links start address = some place ∧ accept place = true}

/-- `result` is the node at the first address of `addresses`, if there is one. -/
def FirstOf (addresses : Set Address) (start : Option Ptr) : Option Ptr → Prop
  | none => addresses = ∅
  | some place => ∃ address, IsLeast addresses address ∧ locate links start address = some place

variable {links} in
theorem firstOf_iff {addresses : Set Address} {start result : Option Ptr}
    (first : FirstOf links addresses start result) :
    (result = none ↔ addresses = ∅) ∧ ∀ place, result = some place ↔
      ∃ address, IsLeast addresses address ∧ locate links start address = some place := by
  cases result with
  | none =>
      have empty : addresses = ∅ := first
      simp [empty, IsLeast]
  | some found =>
      obtain ⟨least, minimal, located⟩ := first
      have nonempty : addresses ≠ ∅ := Set.Nonempty.ne_empty ⟨least, minimal.1⟩
      refine ⟨by simp [nonempty], fun place => ⟨fun same => ?_, ?_⟩⟩
      · cases same
        exact ⟨least, minimal, located⟩
      · rintro ⟨address, other, there⟩
        rw [← minimal.unique other, located] at there
        exact there

variable {links accept}

theorem returns_null : Returns links accept none none := by
  refine ⟨1, ?_⟩
  rintro (_ | fuel) enough
  · exact absurd enough (by decide)
  · rfl

theorem returns_node {place : Ptr} {here : Links Ptr} (there : links place = some here)
    {inner later : Option Ptr} (below : Returns links accept here.children inner)
    (after : Returns links accept here.next later) :
    Returns links accept (some place) (if accept place then some place else inner.or later) := by
  obtain ⟨bound, below⟩ := below
  obtain ⟨limit, after⟩ := after
  refine ⟨max bound limit + 1, ?_⟩
  rintro (_ | fuel) enough
  · exact absurd enough (by simp)
  · have enoughBelow := below fuel (by omega)
    have enoughAfter := after fuel (by omega)
    rw [walk, there, Option.bind_eq_bind, Option.bind_some, enoughBelow]
    by_cases hit : accept place = true
    · rw [if_pos hit, if_pos hit]
    · rw [if_neg hit, if_neg hit]
      cases inner with
      | none => exact enoughAfter
      | some found => rfl

theorem accepted_null : accepted links accept none = ∅ := by
  ext address
  simp [accepted, locate_null]

theorem accepted_nonempty {start : Option Ptr} {address : Address}
    (member : address ∈ accepted links accept start) : ∃ index inner, address = index :: inner := by
  obtain ⟨place, found, _⟩ := member
  cases address with
  | nil => exact absurd found (by simp [locate])
  | cons index inner => exact ⟨index, inner, rfl⟩

variable {place : Ptr} {here : Links Ptr}

theorem accepted_here : [0] ∈ accepted links accept (some place) ↔ accept place = true := by
  constructor
  · rintro ⟨_, ⟨⟩, here⟩
    exact here
  · exact fun here => ⟨place, rfl, here⟩

theorem accepted_below (there : links place = some here) {address : Address}
    (inside : ∃ index inner, address = index :: inner) :
    0 :: address ∈ accepted links accept (some place) ↔
      address ∈ accepted links accept here.children := by
  obtain ⟨index, inner, rfl⟩ := inside
  have start : children links (some place) = here.children := by simp [children, there]
  have same : locate links (some place) (0 :: index :: inner) =
      locate links here.children (index :: inner) := by
    rw [locate, sibling, start]
  simp only [accepted, Set.mem_ofPred_eq, same]

theorem accepted_after (there : links place = some here) (address : Address) :
    shift address ∈ accepted links accept (some place) ↔
      address ∈ accepted links accept here.next := by
  have start : next links (some place) = here.next := by simp [next, there]
  simp only [accepted, Set.mem_ofPred_eq, locate_shift, start]

theorem accepted_cases (there : links place = some here) {address : Address}
    (member : address ∈ accepted links accept (some place)) :
    (address = [0] ∧ accept place = true) ∨
      (∃ inner ∈ accepted links accept here.children, address = 0 :: inner) ∨
      ∃ later ∈ accepted links accept here.next, address = shift later := by
  obtain ⟨index, inner, rfl⟩ := accepted_nonempty member
  cases index with
  | zero =>
      cases inner with
      | nil => exact Or.inl ⟨rfl, accepted_here.mp member⟩
      | cons below inner =>
          have inside := (accepted_below there ⟨below, inner, rfl⟩).mp member
          exact Or.inr (Or.inl ⟨below :: inner, inside, rfl⟩)
  | succ index =>
      have later : index :: inner ∈ accepted links accept here.next :=
        (accepted_after there (index :: inner)).mp member
      exact Or.inr (Or.inr ⟨index :: inner, later, rfl⟩)

theorem first_here (there : links place = some here) (hit : accept place = true) :
    FirstOf links (accepted links accept (some place)) (some place) (some place) := by
  refine ⟨[0], ⟨accepted_here.mpr hit, ?_⟩, rfl⟩
  intro address member
  rcases accepted_cases there member with ⟨rfl, _⟩ | ⟨inner, _, rfl⟩ | ⟨later, inside, rfl⟩
  · exact le_refl _
  · exact address_le.mpr (Or.inr ⟨rfl, not_lt.mp List.not_lex_nil⟩)
  · obtain ⟨index, inner, rfl⟩ := accepted_nonempty inside
    exact address_le.mpr (Or.inl (Nat.succ_pos index))

theorem first_below (there : links place = some here) (miss : accept place = false) {found : Ptr}
    (first : FirstOf links (accepted links accept here.children) here.children (some found)) :
    FirstOf links (accepted links accept (some place)) (some place) (some found) := by
  obtain ⟨least, ⟨member, minimal⟩, located⟩ := first
  have shape := accepted_nonempty member
  refine ⟨0 :: least, ⟨(accepted_below there shape).mpr member, ?_⟩, ?_⟩
  · intro address other
    rcases accepted_cases there other with ⟨_, hit⟩ | ⟨inner, inside, rfl⟩ | ⟨later, inside, rfl⟩
    · exact absurd hit (by simp [miss])
    · exact address_le.mpr (Or.inr ⟨rfl, minimal inside⟩)
    · obtain ⟨index, inner, rfl⟩ := accepted_nonempty inside
      exact address_le.mpr (Or.inl (Nat.succ_pos index))
  · obtain ⟨index, inner, rfl⟩ := shape
    have start : children links (some place) = here.children := by simp [children, there]
    rw [locate, sibling, start]
    exact located

theorem first_after (there : links place = some here) (miss : accept place = false)
    (none_below : accepted links accept here.children = ∅) {result : Option Ptr}
    (first : FirstOf links (accepted links accept here.next) here.next result) :
    FirstOf links (accepted links accept (some place)) (some place) result := by
  have only : ∀ address ∈ accepted links accept (some place),
      ∃ later ∈ accepted links accept here.next, address = shift later := by
    intro address member
    rcases accepted_cases there member with ⟨_, hit⟩ | ⟨inner, inside, _⟩ | after
    · exact absurd hit (by simp [miss])
    · exact absurd inside (by simp [none_below])
    · exact after
  cases result with
  | none =>
      have empty : accepted links accept here.next = ∅ := first
      apply Set.eq_empty_of_forall_notMem
      intro address member
      obtain ⟨later, inside, _⟩ := only address member
      exact absurd inside (by simp [empty])
  | some found =>
      -- Seen from the node, each address behind it starts one further on.
      obtain ⟨least, ⟨member, minimal⟩, located⟩ := first
      refine ⟨shift least, ⟨(accepted_after there least).mpr member, ?_⟩, ?_⟩
      · intro address other
        obtain ⟨later, inside, rfl⟩ := only address other
        obtain ⟨index, inner, rfl⟩ := accepted_nonempty inside
        obtain ⟨start, rest, rfl⟩ := accepted_nonempty member
        have order := address_le.mp (minimal inside)
        exact address_le.mpr (by simpa using order)
      · have start : next links (some place) = here.next := by simp [next, there]
        rw [locate_shift, start, located]

variable (accept) in
/-- The search of a finite forest ends with the first accepted node. -/
theorem walk_first {start : Option Ptr} (forest : Forest links start) :
    ∃ result, Returns links accept start result ∧
      FirstOf links (accepted links accept start) start result := by
  induction forest with
  | null => exact ⟨none, returns_null, accepted_null⟩
  | @node place here there below after belowIh afterIh =>
      obtain ⟨inner, innerReturns, innerFirst⟩ := belowIh
      obtain ⟨later, laterReturns, laterFirst⟩ := afterIh
      refine ⟨_, returns_node there innerReturns laterReturns, ?_⟩
      by_cases hit : accept place = true
      · rw [if_pos hit]
        exact first_here there hit
      · have miss : accept place = false := by simpa using hit
        rw [if_neg hit]
        cases inner with
        | some found => exact first_below there miss innerFirst
        | none => exact first_after there miss innerFirst laterFirst

def within (parent : Address) (index : Nat) : Set Address :=
  {address | ∃ later inner, address = parent ++ (index + later) :: inner}

theorem within_le (parent : Address) {index first second : Nat} {inner outer : Address} :
    parent ++ (index + first) :: inner ≤ parent ++ (index + second) :: outer ↔
      first :: inner ≤ second :: outer := by
  rw [address_append_le, address_le, address_le, Nat.add_lt_add_iff_left, Nat.add_right_inj]

variable {root start : Option Ptr} {parent : Address} {index : Nat}

theorem accepted_within (there : locate links root (parent ++ [index]) = start) (later : Nat)
    (inner : Address) :
    parent ++ (index + later) :: inner ∈ accepted links accept root ↔
      later :: inner ∈ accepted links accept start := by
  simp only [accepted, Set.mem_ofPred_eq, locate_inside, there]

theorem first_within (there : locate links root (parent ++ [index]) = start) {result : Option Ptr}
    (first : FirstOf links (accepted links accept start) start result) :
    FirstOf links (accepted links accept root ∩ within parent index) root result := by
  cases result with
  | none =>
      have empty : accepted links accept start = ∅ := first
      apply Set.eq_empty_of_forall_notMem
      rintro _ ⟨member, later, inner, rfl⟩
      have inside := (accepted_within there later inner).mp member
      exact absurd inside (by simp [empty])
  | some found =>
      obtain ⟨least, ⟨member, minimal⟩, located⟩ := first
      obtain ⟨later, inner, rfl⟩ := accepted_nonempty member
      refine ⟨parent ++ (index + later) :: inner, ⟨⟨?_, later, inner, rfl⟩, ?_⟩, ?_⟩
      · exact (accepted_within there later inner).mpr member
      · rintro _ ⟨other, second, outer, rfl⟩
        exact (within_le parent).mpr (minimal ((accepted_within there second outer).mp other))
      · rw [locate_inside, there, located]

end Search

end NatClient.DocumentOrder
