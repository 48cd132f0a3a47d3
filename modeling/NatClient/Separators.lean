import Mathlib.Data.List.TakeWhile

/-!
Two texts joined by a separator that may also occur inside them. A joined text can be cut
at any of its separators; which cuts are allowed is up to a predicate for either side.
-/

namespace NatClient.Separators

variable {α : Type} {sep : α}

def behind [DecidableEq α] (sep : α) (text : List α) : List α := (text.dropWhile (· ≠ sep)).tail

theorem behind_joined [DecidableEq α] {left : List α} (clean : sep ∉ left) (right : List α) :
    behind sep (left ++ sep :: right) = right := by
  have all : ∀ c ∈ left, decide (c ≠ sep) = true := fun c member =>
    decide_eq_true fun same => clean (same ▸ member)
  rw [behind, List.dropWhile_append_of_pos all,
    List.dropWhile_cons_of_neg (by simp), List.tail_cons]

theorem joined_cases {left right left' right' : List α}
    (same : left ++ sep :: right = left' ++ sep :: right') :
    left = left' ∧ right = right' ∨
      (∃ part, left' = left ++ sep :: part ∧ right = part ++ sep :: right') ∨
      ∃ part, left = left' ++ sep :: part ∧ right' = part ++ sep :: right := by
  rcases List.append_eq_append_iff.mp same with ⟨part, front, back⟩ | ⟨part, front, back⟩
  · cases part with
    | nil =>
        rw [List.append_nil] at front
        rw [List.nil_append, List.cons_inj_right] at back
        exact Or.inl ⟨front.symm, back⟩
    | cons c part =>
        obtain ⟨rfl, inner⟩ := List.cons.inj back
        exact Or.inr (Or.inl ⟨part, front, inner⟩)
  · cases part with
    | nil =>
        rw [List.append_nil] at front
        rw [List.nil_append, List.cons_inj_right] at back
        exact Or.inl ⟨front, back.symm⟩
    | cons c part =>
        obtain ⟨rfl, inner⟩ := List.cons.inj back
        exact Or.inr (Or.inr ⟨part, front, inner⟩)

theorem joined_clean {left right left' right' : List α} (clean : sep ∉ left) (clean' : sep ∉ left')
    (same : left ++ sep :: right = left' ++ sep :: right') : left = left' ∧ right = right' := by
  rcases joined_cases same with equal | ⟨part, longer, _⟩ | ⟨part, longer, _⟩
  · exact equal
  · exact absurd (longer ▸ by simp : sep ∈ left') clean'
  · exact absurd (longer ▸ by simp : sep ∈ left) clean

/-- No other allowed pair is joined to the same text. -/
def OnlyCut (Left Right : List α → Prop) (sep : α) (left right : List α) : Prop :=
  ∀ left' right', Left left' → Right right' →
    left' ++ sep :: right' = left ++ sep :: right → left' = left ∧ right' = right

/-- A pair is determined by its joined text exactly when no separator inside either part is
one where the text may be cut as well. -/
theorem onlyCut_iff (Left Right : List α → Prop) (left right : List α) :
    OnlyCut Left Right sep left right ↔
      (∀ front back, left = front ++ sep :: back → Left front → ¬ Right (back ++ sep :: right)) ∧
        ∀ front back, right = front ++ sep :: back → Right back →
            ¬ Left (left ++ sep :: front) := by
  constructor
  · intro only
    constructor
    · rintro front back rfl allowed admitted
      have cut := only front _ allowed admitted (by simp)
      exact absurd (congrArg List.length cut.1) (by simp)
    · rintro front back rfl admitted allowed
      have cut := only _ back allowed admitted (by simp)
      exact absurd (congrArg List.length cut.1) (by simp)
  · rintro ⟨inLeft, inRight⟩ left' right' allowed admitted same
    rcases joined_cases same with equal | ⟨part, longer, rest⟩ | ⟨part, longer, rest⟩
    · exact equal
    · exact absurd (rest ▸ admitted) (inLeft left' part longer allowed)
    · exact absurd (longer ▸ allowed) (inRight part right' rest admitted)

end NatClient.Separators
