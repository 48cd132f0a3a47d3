import Mathlib.Data.List.Basic
import Mathlib.Data.List.Perm.Basic
import Mathlib.Order.Lattice

/-!
Selection sort in place, by falling keys. Each round swaps the highest of the rest to
the front; whatever refers to positions is adjusted with each swap. A relation between
the list and its references that one swap keeps is kept by the sort.
-/

namespace NatClient.SwapSort

variable {α κ ρ : Type}

def swapAt (xs : List α) (i j : Nat) : List α :=
  match xs[i]?, xs[j]? with
  | some a, some b => (xs.set i b).set j a
  | _, _ => xs

def swapIndex (i j position : Nat) : Nat :=
  if position = j then i else if position = i then j else position

section Swap
variable {xs : List α} {i j : Nat}

theorem swapAt_eq {a b : α} (first : xs[i]? = some a) (second : xs[j]? = some b) :
    swapAt xs i j = (xs.set i b).set j a := by
  rw [swapAt, first, second]

theorem swapAt_perm : (swapAt xs i j).Perm xs := by
  unfold swapAt
  split
  case h_1 a b first second =>
    obtain ⟨inside, rfl⟩ := List.getElem?_eq_some_iff.mp first
    obtain ⟨inside', rfl⟩ := List.getElem?_eq_some_iff.mp second
    exact List.set_set_perm inside inside'
  case h_2 => exact List.Perm.refl xs

theorem swapAt_getElem? (inside : i < xs.length) (inside' : j < xs.length) (position : Nat) :
    (swapAt xs i j)[swapIndex i j position]? = xs[position]? := by
  have first := List.getElem?_eq_getElem inside
  have second := List.getElem?_eq_getElem inside'
  rw [swapAt_eq first second, swapIndex]
  by_cases last : position = j
  · rw [if_pos last, last, second]
    by_cases same : j = i
    · subst same
      rw [List.getElem?_set_self (by rw [List.length_set]; exact inside)]
    · rw [List.getElem?_set_ne same, List.getElem?_set_self inside]
  · rw [if_neg last]
    by_cases start : position = i
    · rw [if_pos start, start, first, List.getElem?_set_self
        (by rw [List.length_set]; exact inside')]
    · rw [if_neg start, List.getElem?_set_ne (Ne.symm last), List.getElem?_set_ne (Ne.symm start)]

theorem swapIndex_swapIndex (position : Nat) :
    swapIndex i j (swapIndex i j position) = position := by
  unfold swapIndex
  split <;> split <;> (try split) <;> omega

end Swap

section Rounds
variable [LinearOrder κ] (key : α → κ) (adjust : Nat → Nat → ρ → ρ)

/-- The position of the highest key from the start on, the first of equals. -/
def highestFrom (xs : List α) (start : Nat) : Nat :=
  (List.range' (start + 1) (xs.length - (start + 1))).foldl (fun highest j =>
    match xs[j]?, xs[highest]? with
    | some a, some b => if key a > key b then j else highest
    | _, _ => highest) start

def round (state : List α × ρ) (i : Nat) : List α × ρ :=
  if highestFrom key state.1 i ≠ i then
    (swapAt state.1 i (highestFrom key state.1 i), adjust i (highestFrom key state.1 i) state.2)
  else state

def selectionSort (xs : List α) (references : ρ) : List α × ρ :=
  (List.range (xs.length - 1)).foldl (round key adjust) (xs, references)

variable {key adjust}

theorem scan_highest {xs : List α} (positions : List Nat) (start : Nat) (inside : start < xs.length)
    (within : ∀ j ∈ positions, j < xs.length) :
    ∃ found, positions.foldl (fun highest j =>
        match xs[j]?, xs[highest]? with
        | some a, some b => if key a > key b then j else highest
        | _, _ => highest) start = found ∧ (found = start ∨ found ∈ positions) ∧
      ∃ value, xs[found]? = some value ∧ ∀ j ∈ start :: positions, ∀ other, xs[j]? = some other →
        key other ≤ key value := by
  induction positions generalizing start with
  | nil =>
      refine ⟨start, rfl, Or.inl rfl, xs[start], List.getElem?_eq_getElem inside, ?_⟩
      intro j member other here
      rw [List.mem_singleton] at member
      rw [member, List.getElem?_eq_getElem inside, Option.some.injEq] at here
      rw [here]
  | cons first rest ih =>
      have inside' := within first List.mem_cons_self
      have later : ∀ j ∈ rest, j < xs.length :=
        fun j member => within j (List.mem_cons_of_mem first member)
      simp only [List.foldl_cons, List.getElem?_eq_getElem inside, List.getElem?_eq_getElem inside']
      -- Strictly higher, so the first of equals stays.
      by_cases better : key xs[first] > key xs[start]
      · rw [if_pos better]
        obtain ⟨found, same, where', value, here, best⟩ := ih first inside' later
        refine ⟨found, same, Or.inr ?_, value, here, ?_⟩
        · rcases where' with rfl | inner
          · exact List.mem_cons_self
          · exact List.mem_cons_of_mem first inner
        · intro j member other found'
          rcases List.mem_cons.mp member with rfl | inner
          · have top := best first List.mem_cons_self _ (List.getElem?_eq_getElem inside')
            rw [List.getElem?_eq_getElem inside, Option.some.injEq] at found'
            rw [← found']
            exact better.le.trans top
          · exact best j inner other found'
      · rw [if_neg better]
        obtain ⟨found, same, where', value, here, best⟩ := ih start inside later
        refine ⟨found, same, where'.imp_right (List.mem_cons_of_mem first), value, here, ?_⟩
        intro j member other found'
        rcases List.mem_cons.mp member with rfl | inner
        · exact best j List.mem_cons_self other found'
        · rcases List.mem_cons.mp inner with rfl | last
          · have top := best start List.mem_cons_self _ (List.getElem?_eq_getElem inside)
            rw [List.getElem?_eq_getElem inside', Option.some.injEq] at found'
            rw [← found']
            exact (not_lt.mp better).trans top
          · exact best j (List.mem_cons_of_mem start last) other found'

theorem highestFrom_spec {xs : List α} {start : Nat} (inside : start < xs.length) :
    start ≤ highestFrom key xs start ∧ ∃ value, xs[highestFrom key xs start]? = some value ∧
      ∀ j, start ≤ j → ∀ other, xs[j]? = some other → key other ≤ key value := by
  obtain ⟨found, same, where', value, here, best⟩ := @scan_highest α κ _ key xs
    (List.range' (start + 1) (xs.length - (start + 1))) start inside fun j member => by
      have := List.mem_range'_1.mp member
      omega
  rw [highestFrom, same]
  refine ⟨?_, value, here, ?_⟩
  · rcases where' with rfl | inner
    · exact Nat.le_refl _
    · have := (List.mem_range'_1.mp inner).1
      omega
  · intro j low other found'
    obtain ⟨below, _⟩ := List.getElem?_eq_some_iff.mp found'
    refine best j ?_ other found'
    by_cases same : j = start
    · exact same ▸ List.mem_cons_self
    · exact List.mem_cons_of_mem start (List.mem_range'_1.mpr (by omega))

/-- The front is in order, and nothing behind it is higher. -/
def SortedUpTo (key : α → κ) (xs : List α) (bound : Nat) : Prop :=
  ∀ i j, i < bound → i < j → ∀ a b, xs[i]? = some a → xs[j]? = some b → key b ≤ key a

theorem round_spec {state : List α × ρ} {i : Nat} (inside : i < state.1.length) :
    ∃ highest, i ≤ highest ∧ highest < state.1.length ∧
      (round key adjust state i).1 = swapAt state.1 i highest ∧
      ((highest = i ∧ (round key adjust state i).2 = state.2) ∨
        (highest ≠ i ∧ (round key adjust state i).2 = adjust i highest state.2)) ∧
      ∃ value, state.1[highest]? = some value ∧
        ∀ j, i ≤ j → ∀ other, state.1[j]? = some other → key other ≤ key value := by
  obtain ⟨low, value, here, best⟩ := @highestFrom_spec α κ _ key state.1 i inside
  have below := (List.getElem?_eq_some_iff.mp here).1
  refine ⟨highestFrom key state.1 i, low, below, ?_, ?_, value, here, best⟩
  · unfold round
    split
    · rfl
    case isFalse same =>
      rw [not_not] at same
      rw [same, swapAt_eq (List.getElem?_eq_getElem inside) (List.getElem?_eq_getElem inside),
        List.set_getElem_self, List.set_getElem_self]
  · by_cases same : highestFrom key state.1 i = i
    · exact Or.inl ⟨same, by rw [round, if_neg (not_not.mpr same)]⟩
    · exact Or.inr ⟨same, by rw [round, if_pos same]⟩

theorem round_sorted {state : List α × ρ} {i : Nat} (inside : i < state.1.length)
    (sorted : SortedUpTo key state.1 i) : SortedUpTo key (round key adjust state i).1 (i + 1) := by
  obtain ⟨highest, low, below, swapped, _, value, here, best⟩ :=
    @round_spec α κ ρ _ key adjust state i inside
  have moved := @swapAt_getElem? α state.1 i highest inside below
  have back (position : Nat) : (round key adjust state i).1[position]? =
      state.1[swapIndex i highest position]? := by
    rw [swapped, ← moved (swapIndex i highest position), swapIndex_swapIndex]
  intro left right early later a b first second
  rw [back] at first second
  -- In front of the round nothing moves; at its place stands the highest of the rest.
  by_cases front : left < i
  · have stays : swapIndex i highest left = left := by
      unfold swapIndex
      rw [if_neg (by omega), if_neg (by omega)]
    have behind : left < swapIndex i highest right := by
      unfold swapIndex
      split <;> (try split) <;> omega
    rw [stays] at first
    exact sorted left _ front behind a b first second
  · obtain rfl : left = i := by omega
    have top : swapIndex left highest left = highest := by
      unfold swapIndex
      split <;> (try split) <;> omega
    have behind : left ≤ swapIndex left highest right := by
      unfold swapIndex
      split <;> (try split) <;> omega
    rw [top, here, Option.some.injEq] at first
    rw [← first]
    exact best _ behind b second

variable {related : List α → ρ → Prop}

theorem rounds_spec
    (kept : ∀ xs references i j, i < xs.length → j < xs.length → i ≠ j → related xs references →
      related (swapAt xs i j) (adjust i j references)) (count : Nat) {xs : List α} {references : ρ}
    (bound : count ≤ xs.length) (start : related xs references) :
    let done := (List.range count).foldl (round key adjust) (xs, references)
    done.1.Perm xs ∧ SortedUpTo key done.1 count ∧ related done.1 done.2 := by
  induction count with
  | zero => exact ⟨List.Perm.refl xs, fun i j early => absurd early (Nat.not_lt_zero i), start⟩
  | succ count ih =>
      obtain ⟨perm, sorted, holds⟩ := ih (by omega)
      dsimp only
      rw [List.range_succ, List.foldl_append, List.foldl_cons, List.foldl_nil]
      have inside :
          count < ((List.range count).foldl (round key adjust) (xs, references)).1.length := by
        rw [perm.length_eq]
        omega
      obtain ⟨highest, _, below, swapped, references', _⟩ :=
        @round_spec α κ ρ _ key adjust _ count inside
      refine ⟨swapped ▸ swapAt_perm.trans perm, round_sorted inside sorted, ?_⟩
      rcases references' with ⟨same, unchanged⟩ | ⟨differ, adjusted⟩
      · have itself := swapped
        rw [same, swapAt_eq (List.getElem?_eq_getElem inside) (List.getElem?_eq_getElem inside),
          List.set_getElem_self, List.set_getElem_self] at itself
        rw [itself, unchanged]
        exact holds
      · rw [swapped, adjusted]
        exact kept _ _ count highest inside below (Ne.symm differ) holds

/-- The sort permutes the list into falling order and keeps what a swap keeps. -/
theorem selectionSort_spec (kept : ∀ xs references i j, i < xs.length → j < xs.length → i ≠ j →
      related xs references → related (swapAt xs i j) (adjust i j references)) {xs : List α}
    {references : ρ} (start : related xs references) :
    (selectionSort key adjust xs references).1.Perm xs ∧
      (selectionSort key adjust xs references).1.Pairwise (fun a b => key b ≤ key a) ∧
      related (selectionSort key adjust xs references).1
          (selectionSort key adjust xs references).2 := by
  obtain ⟨perm, sorted, holds⟩ :=
    @rounds_spec α κ ρ _ key adjust related kept (xs.length - 1) xs references
    (Nat.sub_le _ _) start
  refine ⟨perm, List.pairwise_iff_getElem.mpr fun i j first second less => ?_, holds⟩
  have length := perm.length_eq
  exact sorted i j (by rw [selectionSort] at second; omega) less _ _
    (List.getElem?_eq_getElem first) (List.getElem?_eq_getElem second)

end Rounds

end NatClient.SwapSort
