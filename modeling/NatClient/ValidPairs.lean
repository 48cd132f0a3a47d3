import NatClient.IceSession
import NatClient.CheckListOrder

/-!
The valid pairs of a session and the pointers of its components into them: the valid
check of a component is the highest valid pair of that component, also while the list
is extended, nominated and sorted again.
-/

namespace NatClient.IceSession

open CString IceTypes SwapSort

section Best
variable (ice : IceSess)

/-- The pointers of a component, over the positions that are not left out. -/
structure Best (except : Option Nat) (compId : Nat) (comp : Comp) : Prop where
  absent : comp.validCheck = none → ∀ p v, some p ≠ except → ice.validList[p]? = some v →
    compIdOf ice v ≠ compId
  top : ∀ index, comp.validCheck = some index → ∃ v, ice.validList[index]? = some v ∧
    compIdOf ice v = compId ∧ ∀ p w, some p ≠ except → ice.validList[p]? = some w →
      compIdOf ice w = compId → prioKey w ≤ prioKey v
  nominated : ∀ index, comp.nominatedCheck = some index → ∃ v, ice.validList[index]? = some v ∧
    compIdOf ice v = compId

structure Pointed (except : Option Nat) : Prop where
  comps : ice.comp.length = pjIceMaxComp
  inside : ∀ comp ∈ ice.comp, ∀ index, comp.validCheck = some index ∨
    comp.nominatedCheck = some index →
    index < ice.validList.length
  best : ∀ k comp, k < ice.compCnt → ice.comp[k]? = some comp → Best ice except (k + 1) comp

variable {ice}

theorem Pointed.except {index : Nat} (pointed : Pointed ice none) : Pointed ice (some index) where
  comps := pointed.comps
  inside := pointed.inside
  best := fun k comp inUse here => by
    have full := pointed.best k comp inUse here
    exact {
      absent := fun none' p v _ found => full.absent none' p v (Option.some_ne_none p) found
      top := fun position pointer => by
        obtain ⟨v, found, same, high⟩ := full.top position pointer
        exact ⟨v, found, same, fun p w _ => high p w (Option.some_ne_none p)⟩
      nominated := full.nominated }

theorem Best.valid_of_nominated {compId : Nat} {comp : Comp} (best : Best ice none compId comp)
    (nominated : comp.nominatedCheck ≠ none) : comp.validCheck ≠ none := by
  intro none'
  obtain ⟨index, pointer⟩ := Option.ne_none_iff_exists'.mp nominated
  obtain ⟨v, found, same⟩ := best.nominated index pointer
  exact best.absent none' index v (Option.some_ne_none index) found same

end Best

/-! Pointers that are set stay set. -/
section Growing

structure Comp.Grows (before after : Comp) : Prop where
  valid : before.validCheck ≠ none → after.validCheck ≠ none
  nominated : before.nominatedCheck ≠ none → after.nominatedCheck ≠ none

def Grown (compCnt : Nat) (before after : List Comp) : Prop :=
  ∀ (k : Nat) grown, k < compCnt → after[k]? = some grown →
    ∃ comp, before[k]? = some comp ∧ comp.Grows grown

theorem Grown.trans {compCnt : Nat} {first second third : List Comp}
    (before : Grown compCnt first second)
    (after : Grown compCnt second third) : Grown compCnt first third := by
  intro k grown inUse here
  obtain ⟨middle, there, second⟩ := after k grown inUse here
  obtain ⟨comp, found, first⟩ := before k middle inUse there
  exact ⟨comp, found, fun valid => second.valid (first.valid valid),
    fun nominated => second.nominated (first.nominated nominated)⟩

theorem compHas_iff {ice : IceSess} (field : Comp → Option Nat) :
    compHas ice field = true ↔
      ∀ (k : Nat) comp, k < ice.compCnt → ice.comp[k]? = some comp → field comp ≠ none := by
  rw [compHas, List.all_eq_true]
  constructor
  · intro all k comp inUse here none'
    have there : (ice.comp.take ice.compCnt)[k]? = some comp := by
      rw [List.getElem?_take_of_lt inUse]
      exact here
    have some' := all comp (List.mem_of_getElem? there)
    rw [none'] at some'
    cases some'
  · intro all comp member
    obtain ⟨k, there⟩ := List.getElem?_of_mem member
    have inUse := (List.getElem?_eq_some_iff.mp there).1
    rw [List.length_take] at inUse
    rw [List.getElem?_take_of_lt (by omega)] at there
    exact Option.isSome_iff_ne_none.mpr (all k comp (by omega) there)

theorem Grown.compHas {ice : IceSess} {comp : List Comp} {field : Comp → Option Nat}
    (grown : Grown ice.compCnt ice.comp comp)
    (grows : ∀ before after : Comp, before.Grows after → field before ≠ none → field after ≠ none)
    (all : compHas ice field = true) : compHas { ice with comp := comp } field = true := by
  refine (compHas_iff field).mpr fun k after inUse here => ?_
  obtain ⟨before, there, grow⟩ := grown k after inUse here
  exact grows before after grow ((compHas_iff field).mp all k before inUse there)

end Growing

section Updating
variable {ice : IceSess}

theorem higher_cases (current : Option Nat) {index : Nat} {pair : Check}
    (found : ice.validList[index]? = some pair)
    (inside : ∀ old, current = some old → old < ice.validList.length) :
    (higher ice current index = some index ∧
      ∀ old v, current = some old → ice.validList[old]? = some v → prioKey v < prioKey pair) ∨
    (higher ice current index = current ∧
      ∃ old v, current = some old ∧ ice.validList[old]? = some v ∧ prioKey pair ≤ prioKey v) := by
  cases current with
  | none => exact Or.inl ⟨rfl, fun old v same => nomatch same⟩
  | some old =>
      obtain ⟨before, here⟩ : ∃ before, ice.validList[old]? = some before :=
        ⟨_, List.getElem?_eq_getElem (inside old rfl)⟩
      rw [higher, here, found]
      dsimp only
      by_cases less : prioKey before < prioKey pair
      · refine Or.inl ⟨if_pos less, fun other v same found' => ?_⟩
        obtain rfl := Option.some.inj same
        rw [here, Option.some.injEq] at found'
        exact found' ▸ less
      · exact Or.inr ⟨if_neg less, old, _, rfl, here, Nat.le_of_not_lt less⟩

theorem everywhere (property : Check → Prop) {index : Nat} {pair : Check}
    (found : ice.validList[index]? = some pair) (here : property pair)
    (others : ∀ p w, some p ≠ some index → ice.validList[p]? = some w → property w)
    {p : Nat} {w : Check} (there : ice.validList[p]? = some w) : property w := by
  by_cases itself : p = index
  · subst itself
    obtain rfl := Option.some.inj (found.symm.trans there)
    exact here
  · exact others p w (fun equal => itself (Option.some.inj equal)) there

theorem updateComp_nominated {index position : Nat} {comp : Comp}
    (below : index < ice.validList.length)
    (inside : ∀ old, comp.nominatedCheck = some old → old < ice.validList.length)
    (pointer : (updateComp ice index comp).nominatedCheck = some position) :
    position = index ∨ comp.nominatedCheck = some position := by
  rw [updateComp] at pointer
  dsimp only at pointer
  split at pointer
  · rcases higher_cases comp.nominatedCheck
      (List.getElem?_eq_getElem below) inside with ⟨new, _⟩ | ⟨kept, _⟩
    · rw [new, Option.some.injEq] at pointer
      exact Or.inl pointer.symm
    · exact Or.inr (kept ▸ pointer)
  · exact Or.inr pointer

theorem Best.updated {index compId : Nat} {pair : Check} {comp : Comp}
    (best : Best ice (some index) compId comp)
    (found : ice.validList[index]? = some pair) (same : compIdOf ice pair = compId)
    (inside : ∀ position, comp.validCheck = some position ∨ comp.nominatedCheck = some position →
      position < ice.validList.length) : Best ice none compId (updateComp ice index comp) := by
  have below := (List.getElem?_eq_some_iff.mp found).1
  have nominated (position : Nat)
    (pointer : (updateComp ice index comp).nominatedCheck = some position) :
      ∃ v, ice.validList[position]? = some v ∧ compIdOf ice v = compId := by
    rcases updateComp_nominated below (fun old at' => inside old (Or.inr at')) pointer
      with rfl | old
    · exact ⟨pair, found, same⟩
    · exact best.nominated position old
  rcases higher_cases comp.validCheck found (fun old at' => inside old (Or.inl at')) with
    ⟨new, lower⟩ | ⟨kept, position, v, pointer, here, high⟩
  · have first : (updateComp ice index comp).validCheck = some index := new
    refine ⟨fun none' => ?_, fun position pointer => ?_, nominated⟩
    · rw [first] at none'
      cases none'
    · rw [first, Option.some.injEq] at pointer
      subst pointer
      refine ⟨pair, found, same, fun p w _ there => ?_⟩
      refine everywhere (fun w => compIdOf ice w = compId → prioKey w ≤ prioKey pair) found
        (fun _ => Nat.le_refl _) (fun p w other there own => ?_) there
      -- The old highest pair, if there was one, is lower than the new one.
      cases current : comp.validCheck with
      | none => exact (best.absent current p w other there own).elim
      | some position =>
          obtain ⟨v, here, _, high⟩ := best.top position current
          exact (high p w other there own).trans (lower position v current here).le
  · have first : (updateComp ice index comp).validCheck = some position := kept.trans pointer
    refine ⟨fun none' => ?_, fun position' pointer' => ?_, nominated⟩
    · rw [first] at none'
      cases none'
    · obtain rfl := Option.some.inj (first.symm.trans pointer')
      obtain ⟨v', here', own, top⟩ := best.top position pointer
      obtain rfl := Option.some.inj (here.symm.trans here')
      refine ⟨v, here, own, fun p w _ there => ?_⟩
      exact everywhere (fun w => compIdOf ice w = compId → prioKey w ≤ prioKey v) found
        (fun _ => high) top there

theorem Best.foreign {index compId : Nat} {pair : Check} {comp : Comp}
    (best : Best ice (some index) compId comp)
    (found : ice.validList[index]? = some pair) (other : compIdOf ice pair ≠ compId) :
    Best ice none compId comp where
  absent := fun none' _ _ _ there =>
    everywhere (fun v => compIdOf ice v ≠ compId) found other (best.absent none') there
  top := fun position pointer => by
    obtain ⟨v, here, own, high⟩ := best.top position pointer
    exact ⟨v, here, own, fun p w _ there =>
      everywhere (fun w => compIdOf ice w = compId → prioKey w ≤ prioKey v) found
        (fun same => (other same).elim) high there⟩
  nominated := best.nominated

theorem updateCompCheck_getElem? {compId index k : Nat} {comp : Comp}
    (here : (updateCompCheck ice compId index).comp[k]? = some comp) :
    ∃ before, ice.comp[k]? = some before ∧
      comp = if compId - 1 = k then updateComp ice index before else before := by
  rw [updateCompCheck] at here
  dsimp only at here
  rw [List.getElem?_modify] at here
  obtain ⟨before, there, same⟩ := Option.map_eq_some_iff.mp here
  exact ⟨before, there, same.symm⟩

theorem higher_ne_none (current : Option Nat) (index : Nat) : higher ice current index ≠ none := by
  unfold higher
  split
  · exact Option.some_ne_none index
  · split
    · split
      · exact Option.some_ne_none index
      · exact Option.some_ne_none _
    · exact Option.some_ne_none _

theorem updateCompCheck_grown (compId index : Nat) :
    Grown ice.compCnt ice.comp (updateCompCheck ice compId index).comp := by
  intro k grown _ here
  obtain ⟨before, there, rfl⟩ := updateCompCheck_getElem? here
  refine ⟨before, there, ?_⟩
  split
  · refine ⟨fun _ => higher_ne_none _ index, fun nominated => ?_⟩
    rw [updateComp]
    dsimp only
    split
    · exact higher_ne_none _ index
    · exact nominated
  · exact ⟨id, id⟩

theorem updateCompCheck_pointed {index compId : Nat} {pair : Check}
    (found : ice.validList[index]? = some pair)
    (same : compIdOf ice pair = compId) (low : 1 ≤ compId)
    (pointed : Pointed ice (some index)) : Pointed (updateCompCheck ice compId index) none := by
  have below := (List.getElem?_eq_some_iff.mp found).1
  refine ⟨?_, fun comp member position pointer => ?_, fun k comp inUse here => ?_⟩
  · rw [updateCompCheck, List.length_modify]
    exact pointed.comps
  · obtain ⟨k, here⟩ := List.getElem?_of_mem member
    obtain ⟨before, there, rfl⟩ := updateCompCheck_getElem? here
    have inside := pointed.inside before (List.mem_of_getElem? there)
    split at pointer
    · rcases pointer with first | second
      · rcases higher_cases before.validCheck found (fun old at' => inside old (Or.inl at')) with
          ⟨new, _⟩ | ⟨kept, _⟩
        · obtain rfl := Option.some.inj (new.symm.trans first)
          exact below
        · exact inside position (Or.inl (kept.symm.trans first))
      · rcases updateComp_nominated below (fun old at' => inside old (Or.inr at')) second
          with rfl | old
        · exact below
        · exact inside position (Or.inr old)
    · exact inside position pointer
  · obtain ⟨before, there, rfl⟩ := updateCompCheck_getElem? here
    have best := pointed.best k before inUse there
    -- Only the component of the pair is told; for the others the pair was none of theirs.
    by_cases mine : compId - 1 = k
    · rw [if_pos mine]
      have own : compIdOf ice pair = k + 1 := by omega
      obtain ⟨absent, top, nominated⟩ := best.updated found own
        (pointed.inside before (List.mem_of_getElem? there))
      exact ⟨absent, top, nominated⟩
    · rw [if_neg mine]
      have other : compIdOf ice pair ≠ k + 1 := by omega
      obtain ⟨absent, top, nominated⟩ := best.foreign found other
      exact ⟨absent, top, nominated⟩

end Updating

section Sorting

def pointees (checks : List Check) (comp : Comp) : Option (Option Check) × Option (Option Check) :=
  (comp.validCheck.map (checks[·]?), comp.nominatedCheck.map (checks[·]?))

theorem pointees_swap {checks : List Check} {i j : Nat} (inside : i < checks.length)
    (inside' : j < checks.length) (comp : Comp) :
    pointees (swapAt checks i j) (Comp.swap i j comp) = pointees checks comp := by
  have moved := @swapAt_getElem? Check checks i j inside inside'
  rw [pointees, pointees, Comp.swap]
  dsimp only
  rw [Option.map_map, Option.map_map]
  exact congrArg₂ Prod.mk (congrArg (fun f => Option.map f comp.validCheck) (funext moved))
    (congrArg (fun f => Option.map f comp.nominatedCheck) (funext moved))

theorem swapComps_take (compCnt i j : Nat) (comp : List Comp) :
    (swapComps compCnt i j comp).take compCnt = (comp.take compCnt).map (Comp.swap i j) ∧
      (swapComps compCnt i j comp).drop compCnt = comp.drop compCnt := by
  have length : ((comp.take compCnt).map (Comp.swap i j)).length = min compCnt comp.length := by
    rw [List.length_map, List.length_take]
  rw [swapComps]
  by_cases enough : compCnt ≤ comp.length
  · rw [Nat.min_eq_left enough] at length
    rw [List.take_left' length, List.drop_left' length]
    exact ⟨rfl, rfl⟩
  · rw [List.drop_eq_nil_of_le (by omega), List.append_nil, List.take_of_length_le (by omega),
      List.drop_eq_nil_of_le (by omega)]
    exact ⟨rfl, rfl⟩

/-- The list is sorted, and the pointers of the components in use follow their pairs. -/
theorem sortValidList_spec (compCnt : Nat) (checks : List Check) (comp : List Comp) :
    (sortValidList compCnt checks comp).1.Perm checks ∧
      Descending (sortValidList compCnt checks comp).1 ∧
      ((sortValidList compCnt checks comp).2.take compCnt).map
          (pointees (sortValidList compCnt checks comp).1) =
        (comp.take compCnt).map (pointees checks) ∧
      (sortValidList compCnt checks comp).2.drop compCnt = comp.drop compCnt := by
  have spec := @selectionSort_spec Check Nat (List Comp) _ prioKey (swapComps compCnt)
    (fun checks' comp' => (comp'.take compCnt).map (pointees checks') = (comp.take compCnt).map
      (pointees checks) ∧
      comp'.drop compCnt = comp.drop compCnt) ?_ checks comp ⟨rfl, rfl⟩
  · exact spec
  · intro checks' comp' i j inside inside' _ ⟨related, behind⟩
    obtain ⟨front, rest⟩ := swapComps_take compCnt i j comp'
    rw [front, rest, List.map_map]
    refine ⟨?_, behind⟩
    rw [← related]
    exact congrArg (fun f => (comp'.take compCnt).map f) (funext (pointees_swap inside inside'))

theorem grown_of_pointees {compCnt : Nat} {before after : List Check} {comp comp' : List Comp}
    (related :
      (comp'.take compCnt).map (pointees after) = (comp.take compCnt).map (pointees before)) :
    Grown compCnt comp comp' := by
  intro k grown inUse here
  have pair := congrArg (fun list => list[k]?) related
  rw [List.getElem?_map, List.getElem?_map, List.getElem?_take_of_lt inUse,
    List.getElem?_take_of_lt inUse,
    here, Option.map_some, eq_comm] at pair
  obtain ⟨old, there, same⟩ := Option.map_eq_some_iff.mp pair
  obtain ⟨valid, nominated⟩ := Prod.mk.inj same
  refine ⟨old, there, fun some' none' => some' ?_, fun some' none' => some' ?_⟩
  · rw [none', Option.map_none, Option.map_eq_none_iff] at valid
    exact valid
  · rw [none', Option.map_none, Option.map_eq_none_iff] at nominated
    exact nominated

theorem sortValid_pointed {ice : IceSess} (pointed : Pointed ice none) :
    Pointed (sortValid ice) none ∧ Descending (sortValid ice).validList ∧
      (sortValid ice).validList.Perm ice.validList ∧
          Grown ice.compCnt ice.comp (sortValid ice).comp := by
  obtain ⟨perm, falling, related, behind⟩ := sortValidList_spec ice.compCnt ice.validList ice.comp
  have shape : sortValid ice = { ice with
      validList := (sortValidList ice.compCnt ice.validList ice.comp).1
      comp := (sortValidList ice.compCnt ice.validList ice.comp).2 } := rfl
  rw [shape]
  generalize sortValidList ice.compCnt ice.validList ice.comp = sorted
    at perm falling related behind
  obtain ⟨checks, comp⟩ := sorted
  dsimp only at perm falling related behind
  have length : comp.length = ice.comp.length := by
    have first := congrArg List.length related
    have second := congrArg List.length behind
    rw [List.length_map, List.length_map, List.length_take, List.length_take] at first
    rw [List.length_drop, List.length_drop] at second
    omega
  have same (p : Nat) (v : Check) (found : checks[p]? = some v) :
      ∃ q : Nat, ice.validList[q]? = some v :=
    List.getElem?_of_mem (perm.subset (List.mem_of_getElem? found))
  -- A pointer leads to the pair that it led to before, wherever that stands now.
  have best (k : Nat) (c : Comp) (inUse : k < ice.compCnt) (here : comp[k]? = some c) :
      Best { ice with validList := checks, comp := comp } none (k + 1) c := by
    have inside : k < ice.comp.length := length ▸ (List.getElem?_eq_some_iff.mp here).1
    obtain ⟨old, before⟩ : ∃ old, ice.comp[k]? = some old := ⟨_, List.getElem?_eq_getElem inside⟩
    have full := pointed.best k _ inUse before
    have pair := congrArg (fun list => list[k]?) related
    rw [List.getElem?_map, List.getElem?_map, List.getElem?_take_of_lt inUse,
      List.getElem?_take_of_lt inUse,
      here, before] at pair
    obtain ⟨valid, nominated⟩ := Prod.mk.inj (Option.some.inj pair)
    refine ⟨fun none' p v _ found => ?_, fun index pointer => ?_, fun index pointer => ?_⟩
    · rw [none', Option.map_none, eq_comm, Option.map_eq_none_iff] at valid
      obtain ⟨q, there⟩ := same p v found
      exact full.absent valid q v (Option.some_ne_none q) there
    · rw [pointer, Option.map_some, eq_comm] at valid
      obtain ⟨index', pointer', there⟩ := Option.map_eq_some_iff.mp valid
      obtain ⟨v, here', own, high⟩ := full.top index' pointer'
      refine ⟨v, there.symm.trans here', own, fun p w _ found => ?_⟩
      obtain ⟨q, there'⟩ := same p w found
      exact high q w (Option.some_ne_none q) there'
    · rw [pointer, Option.map_some, eq_comm] at nominated
      obtain ⟨index', pointer', there⟩ := Option.map_eq_some_iff.mp nominated
      obtain ⟨v, here', own⟩ := full.nominated index' pointer'
      exact ⟨v, there.symm.trans here', own⟩
  refine ⟨⟨length.trans pointed.comps, fun c member index pointer => ?_, best⟩, falling, perm,
    grown_of_pointees related⟩
  obtain ⟨k, here⟩ := List.getElem?_of_mem member
  by_cases inUse : k < ice.compCnt
  · have full := best k c inUse here
    rcases pointer with first | second
    · obtain ⟨v, found, _⟩ := full.top index first
      exact (List.getElem?_eq_some_iff.mp found).1
    · obtain ⟨v, found, _⟩ := full.nominated index second
      exact (List.getElem?_eq_some_iff.mp found).1
  · have there : ice.comp[k]? = some c := by
      have rest := congrArg (fun list => list[k - ice.compCnt]?) behind
      rw [List.getElem?_drop, List.getElem?_drop, Nat.add_sub_cancel' (Nat.le_of_not_lt inUse)]
        at rest
      exact rest.symm.trans here
    rw [perm.length_eq]
    exact pointed.inside c (List.mem_of_getElem? there) index pointer

end Sorting

section Gaining
variable {ice : IceSess}

theorem Pointed.revalid {except : Option Nat} {validList : List Check}
    (alike : ∀ p : Nat, (validList[p]?).map (fun v => (v.lcand, prioKey v)) =
      (ice.validList[p]?).map fun v => (v.lcand, prioKey v))
    (pointed : Pointed ice except) : Pointed { ice with validList := validList } except := by
  have back (p : Nat) (v : Check) (found : validList[p]? = some v) :
      ∃ w, ice.validList[p]? = some w ∧ w.lcand = v.lcand ∧ prioKey w = prioKey v := by
    have same := alike p
    rw [found, Option.map_some, eq_comm] at same
    obtain ⟨w, there, equal⟩ := Option.map_eq_some_iff.mp same
    exact ⟨w, there, (Prod.mk.inj equal).1, (Prod.mk.inj equal).2⟩
  have forth (p : Nat) (w : Check) (found : ice.validList[p]? = some w) :
      ∃ v, validList[p]? = some v ∧ w.lcand = v.lcand ∧ prioKey w = prioKey v := by
    have same := alike p
    rw [found, Option.map_some] at same
    obtain ⟨v, there, equal⟩ := Option.map_eq_some_iff.mp same
    exact ⟨v, there, (Prod.mk.inj equal).1.symm, (Prod.mk.inj equal).2.symm⟩
  -- The candidate tells the component.
  have comps {v w : Check} (same : w.lcand = v.lcand) :
      compIdOf { ice with validList := validList } v = compIdOf ice w := by
    rw [compIdOf, compIdOf, same]
  refine ⟨pointed.comps, fun comp member index pointer => ?_, fun k comp inUse here => ?_⟩
  · obtain ⟨v, found, _⟩ :=
      forth index _ (List.getElem?_eq_getElem (pointed.inside comp member index pointer))
    exact (List.getElem?_eq_some_iff.mp found).1
  · have best := pointed.best k comp inUse here
    refine ⟨fun none' p v other found => ?_, fun index pointer => ?_, fun index pointer => ?_⟩
    · obtain ⟨w, there, cand, _⟩ := back p v found
      rw [comps cand]
      exact best.absent none' p w other there
    · obtain ⟨w, there, own, high⟩ := best.top index pointer
      obtain ⟨v, found, cand, prio⟩ := forth index w there
      refine ⟨v, found, (comps cand).trans own, fun p v' other found' own' => ?_⟩
      obtain ⟨w', there', cand', prio'⟩ := back p v' found'
      rw [comps cand'] at own'
      rw [← prio, ← prio']
      exact high p w' other there' own'
    · obtain ⟨w, there, own⟩ := best.nominated index pointer
      obtain ⟨v, found, cand, _⟩ := forth index w there
      exact ⟨v, found, (comps cand).trans own⟩

theorem modify_nominated_alike (index : Nat) (nominated : Check → Bool) (p : Nat) :
    ((ice.validList.modify index fun valid => { valid with nominated := nominated valid })[p]?).map
        (fun v => (v.lcand, prioKey v)) = (ice.validList[p]?).map fun v =>
            (v.lcand, prioKey v) := by
  rw [List.getElem?_modify]
  cases ice.validList[p]? with
  | none => rfl
  | some v =>
      by_cases same : index = p
      · simp only [if_pos same]
        rfl
      · simp only [if_neg same]
        rfl

theorem Pointed.appended (pair : Check) (pointed : Pointed ice none) :
    Pointed { ice with validList := ice.validList ++ [pair] } (some ice.validList.length) := by
  have back (p : Nat) (v : Check) (other : some p ≠ some ice.validList.length)
      (found : (ice.validList ++ [pair])[p]? = some v) : ice.validList[p]? = some v := by
    rw [List.getElem?_append] at found
    split at found
    · exact found
    · obtain ⟨inside, _⟩ := List.getElem?_eq_some_iff.mp found
      rw [List.length_singleton] at inside
      exact (other (congrArg some (by omega))).elim
  have forth (p : Nat) (v : Check) (found : ice.validList[p]? = some v) :
      (ice.validList ++ [pair])[p]? = some v := by
    rw [List.getElem?_append_left (List.getElem?_eq_some_iff.mp found).1]
    exact found
  refine ⟨pointed.comps, fun comp member index pointer => ?_, fun k comp inUse here => ?_⟩
  · have below := pointed.inside comp member index pointer
    rw [List.length_append]
    omega
  · have best := pointed.best k comp inUse here
    refine ⟨fun none' p v other found => ?_, fun index pointer => ?_, fun index pointer => ?_⟩
    · exact best.absent none' p v (Option.some_ne_none p) (back p v other found)
    · obtain ⟨v, found, own, high⟩ := best.top index pointer
      exact ⟨v, forth index v found, own, fun p w other found' =>
        high p w (Option.some_ne_none p) (back p w other found')⟩
    · obtain ⟨v, found, own⟩ := best.nominated index pointer
      exact ⟨v, forth index v found, own⟩

theorem addValid_spec {after : IceSess} {lcand index : Nat} {check : Check}
    (added : addValid ice lcand check = some (after, index))
    (room : ice.validList.length ≤ pjIceMaxChecks) :
    ∃ validList pair, after = { ice with validList := validList } ∧ validList[index]? = some pair ∧
      pair.lcand = lcand ∧ pair.rcand = check.rcand ∧ validList.length ≤ pjIceMaxChecks ∧
      validList.length ≤ ice.validList.length + 1 ∧
      (∀ v ∈ validList, (v.lcand = lcand ∧ v.rcand = check.rcand) ∨
        ∃ w ∈ ice.validList, w.lcand = v.lcand ∧ w.rcand = v.rcand) ∧
      (Pointed ice none → Pointed after (some index)) := by
  unfold addValid at added
  split at added
  -- A pair that is there takes the flag of the new one.
  case h_1 found first =>
    obtain ⟨rfl, rfl⟩ := Prod.mk.inj (Option.some.inj added)
    obtain ⟨inside, here, _⟩ := List.findIdx?_eq_some_iff_getElem.mp first
    rw [Bool.and_eq_true, decide_eq_true_eq, decide_eq_true_eq] at here
    refine ⟨_, { ice.validList[found] with nominated := check.nominated }, rfl, ?_,
      here.1, here.2, ?_, ?_, ?_, ?_⟩
    · rw [List.getElem?_modify_eq, List.getElem?_eq_getElem inside]
      rfl
    · rw [List.length_modify]
      exact room
    · rw [List.length_modify]
      exact Nat.le_succ _
    · intro v member
      obtain ⟨p, there⟩ := List.getElem?_of_mem member
      rw [List.getElem?_modify] at there
      obtain ⟨w, old, rfl⟩ := Option.map_eq_some_iff.mp there
      refine Or.inr ⟨w, List.mem_of_getElem? old, ?_⟩
      split
      · exact ⟨rfl, rfl⟩
      · exact ⟨rfl, rfl⟩
    · intro pointed
      exact (pointed.revalid (modify_nominated_alike found fun _ => check.nominated)).except
  case h_2 =>
    split at added
    · cases added
    case isFalse free =>
      obtain ⟨rfl, rfl⟩ := Prod.mk.inj (Option.some.inj added)
      refine ⟨_, _, rfl, List.getElem?_concat_length, rfl, rfl, ?_, ?_, ?_,
        fun pointed => pointed.appended _⟩
      · rw [List.length_append, List.length_singleton]
        omega
      · rw [List.length_append, List.length_singleton]
      · intro v member
        rcases List.mem_append.mp member with old | new
        · exact Or.inr ⟨v, old, rfl, rfl⟩
        · rw [List.mem_singleton] at new
          exact Or.inl ⟨new ▸ rfl, new ▸ rfl⟩

def gained (ice : IceSess) (lcand : Nat) (check : Check) : Option IceSess := do
  let (ice, index) ← addValid ice lcand check
  let compId := (ice.lcand[lcand]?).elim 0 fun cand => cand.compId.toNat
  some (sortValid (updateCompCheck ice compId index))

theorem gained_shape {after : IceSess} {lcand : Nat} {check : Check}
    (gain : gained ice lcand check = some after) :
    ∃ validList comp, after = { ice with validList := validList, comp := comp } := by
  obtain ⟨⟨middle, index⟩, added, done⟩ := Option.bind_eq_some_iff.mp gain
  obtain rfl := Option.some.inj done
  unfold addValid at added
  split at added
  · obtain ⟨rfl, rfl⟩ := Prod.mk.inj (Option.some.inj added)
    exact ⟨_, _, rfl⟩
  · split at added
    · cases added
    · obtain ⟨rfl, rfl⟩ := Prod.mk.inj (Option.some.inj added)
      exact ⟨_, _, rfl⟩

theorem gained_spec {after : IceSess} {lcand : Nat} {check : Check} {cand : SessCand}
    (gain : gained ice lcand check = some after) (room : ice.validList.length ≤ pjIceMaxChecks)
    (here : ice.lcand[lcand]? = some cand) (low : 1 ≤ cand.compId.toNat)
    (pointed : Pointed ice none) :
    ∃ validList comp, after = { ice with validList := validList, comp := comp } ∧
      validList.length ≤ pjIceMaxChecks ∧ validList.length ≤ ice.validList.length + 1 ∧
        Descending validList ∧
      (∀ v ∈ validList, (v.lcand = lcand ∧ v.rcand = check.rcand) ∨
        ∃ w ∈ ice.validList, w.lcand = v.lcand ∧ w.rcand = v.rcand) ∧
      Grown ice.compCnt ice.comp comp ∧ Pointed after none := by
  obtain ⟨⟨before, index⟩, added, done⟩ := Option.bind_eq_some_iff.mp gain
  obtain ⟨validList, pair, rfl, found, cand', _, few, grows, origin, counted⟩ :=
    addValid_spec added room
  dsimp only at done
  rw [here] at done
  obtain rfl := Option.some.inj done
  have own : compIdOf { ice with validList := validList } pair = cand.compId.toNat := by
    rw [compIdOf, cand', here]
    rfl
  have updated := @updateCompCheck_pointed { ice with validList := validList } index
    cand.compId.toNat pair found own
    low (counted pointed)
  obtain ⟨pointed', falling, perm, sorted⟩ := sortValid_pointed updated
  have grown :=
    (@updateCompCheck_grown { ice with validList := validList } cand.compId.toNat index).trans
      sorted
  refine ⟨_, _, rfl, ?_, ?_, falling, ?_, grown, pointed'⟩
  · exact perm.length_eq.trans_le few
  · exact perm.length_eq.trans_le grows
  · intro v member
    exact origin v (perm.subset member)

end Gaining

end NatClient.IceSession
