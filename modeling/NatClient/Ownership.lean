import Mathlib.Data.Set.Insert
import Mathlib.Logic.Function.Basic

/-!
Resources that are reached through the fields of their owners: a live one is held
by exactly one owner, and what an owner holds is live. Taking a fresh resource and
giving one up keep this.
-/

namespace NatClient.Ownership

variable {Owner Resource : Type}

structure Owns (holds : Owner → Option Resource) (live : Set Resource) : Prop where
  valid : ∀ owner resource, holds owner = some resource → resource ∈ live
  held : ∀ resource ∈ live, ∃ owner, holds owner = some resource
  apart : ∀ left right resource, holds left = some resource →
    holds right = some resource → left = right

theorem owns_empty : Owns (fun _ : Owner => (none : Option Resource)) ∅ where
  valid _ _ held := absurd held (by simp)
  held _ live := absurd live (Set.notMem_empty _)
  apart _ _ _ held := absurd held (by simp)

variable [DecidableEq Owner] {holds : Owner → Option Resource} {live : Set Resource} {owner : Owner}
  {resource : Resource}

theorem update_held {other : Owner} {value : Option Resource}
    (held : Function.update holds owner value other = some resource) :
    (other = owner ∧ value = some resource) ∨ (other ≠ owner ∧ holds other = some resource) := by
  by_cases own : other = owner
  · rw [own, Function.update_self] at held
    exact Or.inl ⟨own, held⟩
  · rw [Function.update_of_ne own] at held
    exact Or.inr ⟨own, held⟩

theorem owns_take (owns : Owns holds live) (free : holds owner = none) (fresh : resource ∉ live) :
    Owns (Function.update holds owner (some resource)) (insert resource live) := by
  have unused (other : Owner) : holds other ≠ some resource := fun held =>
    fresh (owns.valid other resource held)
  constructor
  case valid =>
    intro other found held
    rcases update_held held with ⟨_, same⟩ | ⟨_, before⟩
    · exact Set.mem_insert_iff.mpr (Or.inl (Option.some_inj.mp same).symm)
    · exact Set.mem_insert_of_mem _ (owns.valid other found before)
  case held =>
    intro found inserted
    rcases Set.mem_insert_iff.mp inserted with rfl | old
    · exact ⟨owner, Function.update_self ..⟩
    · obtain ⟨other, held⟩ := owns.held found old
      have different : other ≠ owner := by
        rintro rfl
        exact absurd (free.symm.trans held) (by simp)
      exact ⟨other, by rw [Function.update_of_ne different, held]⟩
  -- Nobody held the new resource before.
  case apart =>
    intro left right found leftHeld rightHeld
    rcases update_held leftHeld with ⟨leftOwn, leftSame⟩ | ⟨_, leftBefore⟩
    · rcases update_held rightHeld with ⟨rightOwn, _⟩ | ⟨_, rightBefore⟩
      · rw [leftOwn, rightOwn]
      · exact absurd (rightBefore.trans leftSame.symm) (unused right)
    · rcases update_held rightHeld with ⟨_, rightSame⟩ | ⟨_, rightBefore⟩
      · exact absurd (leftBefore.trans rightSame.symm) (unused left)
      · exact owns.apart left right found leftBefore rightBefore

theorem owns_drop (owns : Owns holds live) (occupied : holds owner = some resource) :
    Owns (Function.update holds owner none) (live \ {resource}) := by
  have elsewhere (other : Owner) (found : Resource)
      (held : Function.update holds owner none other = some found) :
      other ≠ owner ∧ holds other = some found := by
    rcases update_held held with ⟨_, impossible⟩ | before
    · exact absurd impossible (by simp)
    · exact before
  constructor
  case valid =>
    intro other found held
    obtain ⟨different, before⟩ := elsewhere other found held
    refine ⟨owns.valid other found before, ?_⟩
    rintro rfl
    exact different (owns.apart other owner found before occupied)
  -- A live resource other than the dropped one has its old owner.
  case held =>
    rintro found ⟨old, apart⟩
    obtain ⟨other, held⟩ := owns.held found old
    have different : other ≠ owner := by
      rintro rfl
      exact apart (Option.some_inj.mp (held.symm.trans occupied))
    exact ⟨other, by rw [Function.update_of_ne different, held]⟩
  case apart =>
    intro left right found leftHeld rightHeld
    exact owns.apart left right found (elsewhere left found leftHeld).2
      (elsewhere right found rightHeld).2

end NatClient.Ownership
