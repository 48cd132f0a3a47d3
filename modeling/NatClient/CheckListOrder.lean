import NatClient.IceCheckList
import Mathlib.Data.List.Nodup

/-!
What the check list of ice_session.c is: the pairs of one component and address family,
at most 32 of them, by falling priority, with reflexive local candidates replaced by
their base, and without a pair that repeats a higher one. The two agents of a session
give the same priority to a pair, and so start from the same order.
-/

namespace NatClient.IceSession

open CString IceTypes SwapSort

def Descending (checks : List Check) : Prop := checks.Pairwise fun a b => prioKey b ≤ prioKey a

section Sorted

theorem sortChecklist_perm (checks : List Check) : (sortChecklist checks).Perm checks :=
  (@selectionSort_spec Check Nat Unit _ prioKey (fun _ _ none => none) (fun _ _ => True)
    (fun _ _ _ _ _ _ _ _ => trivial) checks () trivial).1

theorem sortChecklist_descending (checks : List Check) : Descending (sortChecklist checks) :=
  (@selectionSort_spec Check Nat Unit _ prioKey (fun _ _ none => none) (fun _ _ => True)
    (fun _ _ _ _ _ _ _ _ => trivial) checks () trivial).2.1

end Sorted

section Pairs
variable (role : Role) (lcand rcand : List SessCand)

def pairOf (ids : Nat × Nat) : Option Check :=
  match lcand[ids.1]?, rcand[ids.2]? with
  | some l, some r => if matching l r then some (newCheck role ids.1 ids.2 l r) else none
  | _, _ => none

theorem pairOf_eq_some {ids : Nat × Nat} {check : Check} :
    pairOf role lcand rcand ids = some check ↔
      ∃ l r, lcand[ids.1]? = some l ∧ rcand[ids.2]? = some r ∧ matching l r = true ∧
        check = newCheck role ids.1 ids.2 l r := by
  unfold pairOf
  split
  case h_1 l r first second =>
    constructor
    · intro same
      split at same
      case isTrue fits => exact ⟨l, r, first, second, fits, (Option.some.inj same).symm⟩
      case isFalse => cases same
    · rintro ⟨l', r', first', second', fits, rfl⟩
      rw [first, Option.some.injEq] at first'
      rw [second, Option.some.injEq] at second'
      subst first' second'
      rw [if_pos fits]
  case h_2 missing =>
    constructor
    · intro same
      cases same
    · rintro ⟨l, r, first, second, _⟩
      exact (missing l r first second).elim

theorem mem_pairings {lcands rcands i j : Nat} :
    (i, j) ∈ pairings lcands rcands ↔ i < lcands ∧ j < rcands := by
  simp only [pairings, List.mem_flatMap, List.mem_range, List.mem_map, Prod.mk.injEq]
  constructor
  · rintro ⟨i', first, j', second, rfl, rfl⟩
    exact ⟨first, second⟩
  · rintro ⟨first, second⟩
    exact ⟨i, first, j, second, rfl, rfl⟩

theorem pairings_nodup (lcands rcands : Nat) : (pairings lcands rcands).Nodup := by
  rw [pairings, List.nodup_flatMap]
  refine ⟨fun i _ => List.nodup_range.map fun j j' same => (Prod.mk.inj same).2, ?_⟩
  refine List.nodup_range.imp fun {i i'} differ => ?_
  intro ids first second
  obtain ⟨_, _, rfl⟩ := List.mem_map.mp first
  obtain ⟨_, _, same⟩ := List.mem_map.mp second
  exact differ (Prod.mk.inj same).1.symm

def Fits : List (Nat × Nat) → Nat → Prop
  | [], _ => True
  | ids :: rest, count =>
      count < pjIceMaxChecks ∧ Fits rest (count + (pairOf role lcand rcand ids).toList.length)

theorem pairCandidates_step (ids : Nat × Nat) (rest : List (Nat × Nat)) {checks : List Check}
    (room : checks.length < pjIceMaxChecks) :
    pairCandidates role lcand rcand (ids :: rest) checks =
      pairCandidates role lcand rcand rest (checks ++ (pairOf role lcand rcand ids).toList) := by
  obtain ⟨i, j⟩ := ids
  rw [pairCandidates, if_neg (Nat.not_le_of_lt room), pairOf]
  dsimp only
  cases lcand[i]? with
  | none => rw [Option.toList_none, List.append_nil]
  | some l =>
      cases rcand[j]? with
      | none => rw [Option.toList_none, List.append_nil]
      | some r =>
          dsimp only
          split
          · rw [Option.toList_some]
          · rw [Option.toList_none, List.append_nil]

/-- All matching pairs in order, or too many of them. -/
theorem pairCandidates_spec (ids : List (Nat × Nat)) (checks : List Check) :
    (Fits role lcand rcand ids checks.length →
      pairCandidates role lcand rcand ids checks =
        (checks ++ ids.filterMap (pairOf role lcand rcand), .success)) ∧
    (¬ Fits role lcand rcand ids checks.length →
      (pairCandidates role lcand rcand ids checks).2 = .etoomany) := by
  induction ids generalizing checks with
  | nil =>
      refine ⟨fun _ => ?_, fun full => (full trivial).elim⟩
      rw [pairCandidates, List.filterMap_nil, List.append_nil]
  | cons first rest ih =>
      by_cases room : checks.length < pjIceMaxChecks
      · rw [pairCandidates_step role lcand rcand first rest room]
        obtain ⟨fits, full⟩ := ih (checks ++ (pairOf role lcand rcand first).toList)
        rw [List.length_append] at fits full
        refine ⟨fun holds => ?_, fun fails => full fun holds => fails ⟨room, holds⟩⟩
        rw [fits holds.2, List.append_assoc]
        cases pairOf_first : pairOf role lcand rcand first with
        | none => rw [List.filterMap_cons_none pairOf_first, Option.toList_none, List.nil_append]
        | some check =>
            rw [List.filterMap_cons_some pairOf_first, Option.toList_some, List.singleton_append]
      · refine ⟨fun holds => (room holds.1).elim, fun _ => ?_⟩
        rw [pairCandidates, if_pos (Nat.le_of_not_lt room)]

theorem pairCandidates_bound (ids : List (Nat × Nat)) {checks : List Check}
    (bound : checks.length ≤ pjIceMaxChecks) :
    (pairCandidates role lcand rcand ids checks).1.length ≤ pjIceMaxChecks ∧
      ∀ check ∈ (pairCandidates role lcand rcand ids checks).1,
        check ∈ checks ∨ ∃ ids, pairOf role lcand rcand ids = some check := by
  induction ids generalizing checks with
  | nil => exact ⟨bound, fun check member => Or.inl member⟩
  | cons first rest ih =>
      by_cases room : checks.length < pjIceMaxChecks
      · rw [pairCandidates_step role lcand rcand first rest room]
        cases found : pairOf role lcand rcand first with
        | none =>
            rw [Option.toList_none, List.append_nil]
            exact ih bound
        | some check =>
            rw [Option.toList_some]
            obtain ⟨below, origin⟩ := @ih (checks ++ [check]) (by
              rw [List.length_append, List.length_singleton]
              omega)
            refine ⟨below, fun other member => ?_⟩
            rcases origin other member with inner | later
            · rcases List.mem_append.mp inner with old | new
              · exact Or.inl old
              · exact Or.inr ⟨first, List.mem_singleton.mp new ▸ found⟩
            · exact Or.inr later
      -- A full list ends the loop, whatever is left to pair.
      · rw [pairCandidates, if_pos (Nat.le_of_not_lt room)]
        exact ⟨bound, fun check member => Or.inl member⟩

end Pairs

section Pruned
variable (lcand : List SessCand)

/-- The based pairs, if every reflexive one has a base. -/
theorem rebaseAll_spec (checks : List Check) :
    ((rebaseAll lcand checks).2 = true ↔
      ∀ check ∈ checks, ∃ based, rebase lcand check = some based) ∧
      ((rebaseAll lcand checks).2 = true →
        List.Forall₂ (fun check based => rebase lcand check = some based) checks
            (rebaseAll lcand checks).1) := by
  induction checks with
  | nil =>
      refine ⟨iff_of_true rfl fun check member => ?_, fun _ => List.Forall₂.nil⟩
      cases member
  | cons first rest ih =>
      rw [rebaseAll]
      cases found : rebase lcand first with
      -- The loop stops here, so not every pair has a base.
      | none =>
          refine ⟨iff_of_false (fun same => ?_) fun all => ?_, fun same => ?_⟩
          · cases same
          · obtain ⟨based, here⟩ := all first List.mem_cons_self
            rw [found] at here
            cases here
          · cases same
      | some based =>
          obtain ⟨known, pairs⟩ := ih
          refine ⟨⟨fun same check member => ?_, fun all => ?_⟩, fun same => ?_⟩
          · rcases List.mem_cons.mp member with rfl | inner
            · exact ⟨based, found⟩
            · exact known.mp same check inner
          · exact known.mpr fun check member => all check (List.mem_cons_of_mem first member)
          · exact List.Forall₂.cons found (pairs same)

theorem rebase_prio {check based : Check} (found : rebase lcand check = some based) :
    based.prio = check.prio := by
  unfold rebase at found
  split at found
  · cases found
  · split at found
    · obtain ⟨host, _, rfl⟩ := Option.map_eq_some_iff.mp found
      rfl
    · rw [Option.some.inj found]

theorem rebase_type {check based : Check} (found : rebase lcand check = some based) :
    ∃ cand, lcand[based.lcand]? = some cand ∧ cand.type ≠ .srflx := by
  unfold rebase at found
  split at found
  · cases found
  case h_2 cand here =>
    split at found
    · obtain ⟨host, first, rfl⟩ := Option.map_eq_some_iff.mp found
      obtain ⟨inside, isHost, _⟩ := List.findIdx?_eq_some_iff_getElem.mp first
      refine ⟨lcand[host], List.getElem?_eq_getElem inside, fun reflexive => ?_⟩
      rw [reflexive] at isHost
      simp at isHost
    case isFalse other =>
      obtain rfl := Option.some.inj found
      exact ⟨cand, here, other⟩

theorem prunePairs_spec (fuel : Nat) (checks : List Check) (enough : checks.length ≤ fuel) :
    (prunePairs lcand fuel checks).Sublist checks ∧
      (prunePairs lcand fuel checks).Pairwise
        (fun kept later => redundant lcand kept later = false) ∧
      (Descending checks → ∀ check ∈ checks, ∃ kept ∈ prunePairs lcand fuel checks,
        prioKey check ≤ prioKey kept ∧ (check = kept ∨ redundant lcand kept check = true)) := by
  induction fuel generalizing checks with
  | zero =>
      obtain rfl := List.length_eq_zero_iff.mp (Nat.le_zero.mp enough)
      exact ⟨List.Sublist.refl _, List.Pairwise.nil, fun _ check member =>
        absurd member List.not_mem_nil⟩
  | succ fuel ih =>
      cases checks with
      | nil =>
          exact ⟨List.Sublist.refl _, List.Pairwise.nil, fun _ check member =>
            absurd member List.not_mem_nil⟩
      | cons first rest =>
          rw [prunePairs]
          have shorter := List.length_filter_le (fun later => !redundant lcand first later) rest
          rw [List.length_cons] at enough
          obtain ⟨sub, apart, represented⟩ :=
            ih (rest.filter fun later => !redundant lcand first later) (by omega)
          have behind := sub.trans List.filter_sublist
          refine ⟨behind.cons_cons first, List.pairwise_cons.mpr
            ⟨fun later member => ?_, apart⟩, ?_⟩
          · have kept := (List.mem_filter.mp (sub.subset member)).2
            rwa [Bool.not_eq_true'] at kept
          · intro sorted check member
            obtain ⟨top, sorted'⟩ := List.pairwise_cons.mp sorted
            -- A pair is the one at the front, is erased by it, or is there in the next round.
            rcases List.mem_cons.mp member with rfl | inner
            · exact ⟨check, List.mem_cons_self, Nat.le_refl _, Or.inl rfl⟩
            · cases same : redundant lcand first check with
              | true => exact ⟨first, List.mem_cons_self, top check inner, Or.inr same⟩
              | false =>
                  obtain ⟨kept, member', high, related⟩ :=
                    represented (sorted'.sublist List.filter_sublist) check
                    (List.mem_filter.mpr ⟨inner, by rw [same, Bool.not_false]⟩)
                  exact ⟨kept, List.mem_cons_of_mem first member', high, related⟩

theorem rebased_prios {checks based : List Check}
    (pairs : List.Forall₂ (fun check based => rebase lcand check = some based) checks based) :
    based.map prioKey = checks.map prioKey := by
  induction pairs with
  | nil => rfl
  | cons found _ ih =>
      rw [List.map_cons, List.map_cons, ih, prioKey, prioKey, rebase_prio lcand found]

theorem descending_iff (checks : List Check) :
    Descending checks ↔ (checks.map prioKey).Pairwise fun a b => b ≤ a := by
  rw [Descending, List.pairwise_map]

theorem mem_left {checks based : List Check} {kept : Check}
    (pairs : List.Forall₂ (fun check based => rebase lcand check = some based) checks based)
    (member : kept ∈ based) : ∃ check ∈ checks, rebase lcand check = some kept := by
  induction pairs with
  | nil => cases member
  | cons found _ ih =>
      rcases List.mem_cons.mp member with rfl | inner
      · exact ⟨_, List.mem_cons_self, found⟩
      · obtain ⟨check, member', found'⟩ := ih inner
        exact ⟨check, List.mem_cons_of_mem _ member', found'⟩

theorem mem_right {checks based : List Check} {check : Check}
    (pairs : List.Forall₂ (fun check based => rebase lcand check = some based) checks based)
    (member : check ∈ checks) : ∃ kept ∈ based, rebase lcand check = some kept := by
  induction pairs with
  | nil => cases member
  | cons found _ ih =>
      rcases List.mem_cons.mp member with rfl | inner
      · exact ⟨_, List.mem_cons_self, found⟩
      · obtain ⟨kept, member', found'⟩ := ih inner
        exact ⟨kept, List.mem_cons_of_mem _ member', found'⟩

end Pruned

section Created

/-- What a list of checks between two sets of candidates has to be. -/
structure PairedList (role : Role) (lcand rcand : List SessCand) (clist : List Check) : Prop where
  nonempty : clist ≠ []
  bounded : clist.length ≤ pjIceMaxChecks
  descending : Descending clist
  /-- No pair is the same as a higher one, nor goes to its remote candidate from its base. -/
  apart : clist.Pairwise fun kept later => redundant lcand kept later = false
  /-- A check can be sent from where it is. -/
  sendable : ∀ check ∈ clist, ∃ cand, lcand[check.lcand]? = some cand ∧ cand.type ≠ .srflx
  sound : ∀ check ∈ clist, ∃ ids pair, pairOf role lcand rcand ids = some pair ∧
    rebase lcand pair = some check
  /-- Every pair is on the list, or a pair as high that makes it redundant. -/
  complete : ∀ ids pair, pairOf role lcand rcand ids = some pair →
    ∃ based, rebase lcand pair = some based ∧
      ∃ kept ∈ clist, prioKey based ≤ prioKey kept ∧
        (based = kept ∨ redundant lcand kept based = true)

variable (role : Role) (lcand rcand : List SessCand)

def allPairs : List Check :=
  (pairings lcand.length rcand.length).filterMap (pairOf role lcand rcand)

theorem mem_allPairs {check : Check} :
    check ∈ allPairs role lcand rcand ↔ ∃ ids, pairOf role lcand rcand ids = some check := by
  rw [allPairs, List.mem_filterMap]
  constructor
  · rintro ⟨ids, _, found⟩
    exact ⟨ids, found⟩
  · rintro ⟨⟨i, j⟩, found⟩
    obtain ⟨l, r, first, second, _⟩ := (pairOf_eq_some role lcand rcand).mp found
    exact ⟨(i, j), mem_pairings.mpr ⟨(List.getElem?_eq_some_iff.mp first).1,
      (List.getElem?_eq_some_iff.mp second).1⟩, found⟩

theorem pruned_spec :
    ((pruneChecklist lcand (sortChecklist (allPairs role lcand rcand))).2 = .success ↔
      ∀ ids pair, pairOf role lcand rcand ids = some pair →
        ∃ based, rebase lcand pair = some based) ∧
    ((pruneChecklist lcand (sortChecklist (allPairs role lcand rcand))).2 = .success →
      allPairs role lcand rcand ≠ [] → (allPairs role lcand rcand).length ≤ pjIceMaxChecks →
      PairedList role lcand rcand
          (pruneChecklist lcand (sortChecklist (allPairs role lcand rcand))).1) := by
  have perm := sortChecklist_perm (allPairs role lcand rcand)
  have sorted := sortChecklist_descending (allPairs role lcand rcand)
  generalize sortChecklist (allPairs role lcand rcand) = checks at perm sorted ⊢
  have from' {check : Check} : check ∈ checks ↔ ∃ ids, pairOf role lcand rcand ids = some check :=
    perm.mem_iff.trans (mem_allPairs role lcand rcand)
  obtain ⟨known, pairs⟩ := rebaseAll_spec lcand checks
  rw [pruneChecklist]
  generalize rebaseAll lcand checks = result at known pairs ⊢
  obtain ⟨based, found⟩ := result
  dsimp only at known pairs ⊢
  cases found with
  | false =>
      have fails := mt known.mpr Bool.false_ne_true
      rw [if_neg Bool.false_ne_true]
      refine ⟨iff_of_false (fun same => ?_) fun all => fails fun check member => ?_, fun same => ?_⟩
      · cases same
      · obtain ⟨ids, pair⟩ := from'.mp member
        exact all ids check pair
      · cases same
  | true =>
      rw [if_pos rfl]
      have forall₂ := pairs rfl
      refine ⟨iff_of_true rfl fun ids pair found => known.mp rfl pair (from'.mpr ⟨ids, found⟩), ?_⟩
      intro _ some' few
      obtain ⟨sub, apart, represented⟩ := prunePairs_spec lcand based.length based (Nat.le_refl _)
      have length : based.length = (allPairs role lcand rcand).length := by
        rw [← forall₂.length_eq, perm.length_eq]
      -- The priority was computed before, so a base in its place keeps the order.
      have falling : Descending based := by
        rw [descending_iff, rebased_prios lcand forall₂, ← descending_iff]
        exact sorted
      have complete (ids : Nat × Nat) (pair : Check)
        (found : pairOf role lcand rcand ids = some pair) :
          ∃ based', rebase lcand pair = some based' ∧ ∃ kept ∈ prunePairs lcand based.length based,
            prioKey based' ≤ prioKey kept ∧
                (based' = kept ∨ redundant lcand kept based' = true) := by
        obtain ⟨based', member, rebased⟩ := mem_right lcand forall₂ (from'.mpr ⟨ids, found⟩)
        exact ⟨based', rebased, represented falling based' member⟩
      exact {
        nonempty := fun empty => by
          obtain ⟨check, member⟩ := List.exists_mem_of_ne_nil _ some'
          obtain ⟨ids, found⟩ := (mem_allPairs role lcand rcand).mp member
          obtain ⟨_, _, kept, member', _⟩ := complete ids check found
          dsimp only at empty
          rw [empty] at member'
          cases member'
        bounded := sub.length_le.trans (length ▸ few)
        descending := List.Pairwise.sublist sub falling
        apart := apart
        sendable := fun check member => by
          obtain ⟨pair, _, rebased⟩ := mem_left lcand forall₂ (sub.subset member)
          exact rebase_type lcand rebased
        sound := fun check member => by
          obtain ⟨pair, member', rebased⟩ := mem_left lcand forall₂ (sub.subset member)
          obtain ⟨ids, found⟩ := from'.mp member'
          exact ⟨ids, pair, found, rebased⟩
        complete := complete }

theorem allPairs_of_fits (fits : Fits role lcand rcand (pairings lcand.length rcand.length) 0) :
    pairCandidates role lcand rcand (pairings lcand.length rcand.length) [] =
        (allPairs role lcand rcand, .success) ∧
      (allPairs role lcand rcand).length ≤ pjIceMaxChecks := by
  have paired :=
    (pairCandidates_spec role lcand rcand (pairings lcand.length rcand.length) []).1 fits
  rw [List.nil_append] at paired
  refine ⟨paired, ?_⟩
  have bound :=
    (@pairCandidates_bound role lcand rcand
    (pairings lcand.length rcand.length) [] (Nat.zero_le _)).1
  rwa [paired] at bound

theorem foldl_max_spec (rcand : List SessCand) (start : Nat) :
    start ≤ rcand.foldl (fun highest cand => max highest cand.compId.toNat) start ∧
      (∀ cand ∈ rcand, cand.compId.toNat ≤ rcand.foldl
        (fun highest cand => max highest cand.compId.toNat) start) ∧
      ∀ bound, start ≤ bound → (∀ cand ∈ rcand, cand.compId.toNat ≤ bound) →
        rcand.foldl (fun highest cand => max highest cand.compId.toNat) start ≤ bound := by
  induction rcand generalizing start with
  | nil => exact ⟨Nat.le_refl _, fun _ member => absurd member List.not_mem_nil, fun _ low _ => low⟩
  | cons first rest ih =>
      obtain ⟨low, inside, least⟩ := ih (max start first.compId.toNat)
      rw [List.foldl_cons]
      refine ⟨(Nat.le_max_left _ _).trans low, fun cand member => ?_, fun bound above within => ?_⟩
      · rcases List.mem_cons.mp member with rfl | inner
        · exact (Nat.le_max_right _ _).trans low
        · exact inside cand inner
      · exact least bound (Nat.max_le.mpr ⟨above, within first List.mem_cons_self⟩)
          fun cand member => within cand (List.mem_cons_of_mem first member)

/-- What the session keeps of the candidates of its peer. -/
def knownCands (compCnt : Nat) (rcand : List IceSessCand) : List SessCand :=
  (rcand.filter (knownComponent compCnt)).map SessCand.ofRemote

theorem mem_knownCands {compCnt : Nat} {rcand : List IceSessCand} {cand : SessCand}
    (member : cand ∈ knownCands compCnt rcand) :
    1 ≤ cand.compId.toNat ∧ cand.compId.toNat ≤ compCnt := by
  obtain ⟨remote, kept, rfl⟩ := List.mem_map.mp member
  have known := (List.mem_filter.mp kept).2
  rw [knownComponent, Bool.and_eq_true, decide_eq_true_eq, decide_eq_true_eq] at known
  refine ⟨Nat.one_le_iff_ne_zero.mpr fun zero => known.1 ?_, known.2⟩
  exact BitVec.eq_of_toNat_eq zero

/-- A check list is created exactly when the candidates fit, some pair matches and every
reflexive local candidate of a pair has a base; and it is the list of these pairs. -/
theorem created_list_is_paired (ice : IceSess) (rcand : List IceSessCand) (fresh : ice.clist = []) :
    let known := knownCands ice.compCnt rcand
    let (ice', status) := pjIceSessCreateCheckList ice rcand
    (status = .success ↔ rcand ≠ [] ∧ rcand.length + ice.rcand.length ≤ pjIceMaxCand ∧
      Fits ice.role ice.lcand known (pairings ice.lcand.length known.length) 0 ∧
      (∃ ids pair, pairOf ice.role ice.lcand known ids = some pair) ∧
      ∀ ids pair, pairOf ice.role ice.lcand known ids = some pair →
        ∃ based, rebase ice.lcand pair = some based) ∧
    (status = .success → PairedList ice.role ice.lcand known ice'.clist ∧ ice'.rcand = known ∧
      1 ≤ ice'.compCnt ∧ ice'.compCnt ≤ ice.compCnt ∧
      ∀ check ∈ ice'.clist, ∀ cand, known[check.rcand]? = some cand →
          cand.compId.toNat ≤ ice'.compCnt) := by
  intro known
  rw [pjIceSessCreateCheckList]
  by_cases some' : rcand = []
  · rw [if_pos some']
    refine ⟨iff_of_false (fun same => ?_) fun all => all.1 some', fun same => ?_⟩ <;> cases same
  rw [if_neg some']
  by_cases many : rcand.length + ice.rcand.length > pjIceMaxCand
  · rw [if_pos many]
    refine ⟨iff_of_false (fun same => ?_) fun all => Nat.not_le_of_lt many all.2.1, fun same => ?_⟩
      <;>
      cases same
  rw [if_neg many, fresh]
  have few := Nat.le_of_not_lt many
  dsimp only
  have keeps : (rcand.filter (knownComponent ice.compCnt)).map SessCand.ofRemote = known := rfl
  rw [keeps]
  -- Three ways to fail are left: too many pairs, none, and one without base.
  by_cases fits : Fits ice.role ice.lcand known (pairings ice.lcand.length known.length) 0
  case neg =>
    have full :=
      (pairCandidates_spec ice.role ice.lcand known
        (pairings ice.lcand.length known.length) []).2 fits
    generalize pairCandidates ice.role ice.lcand known
      (pairings ice.lcand.length known.length) [] = result
      at full ⊢
    obtain ⟨clist, status⟩ := result
    dsimp only at full ⊢
    subst full
    rw [if_pos (by decide)]
    refine ⟨iff_of_false (fun same => ?_) fun all => fits all.2.2.1, fun same => ?_⟩ <;> cases same
  obtain ⟨paired, bounded⟩ := allPairs_of_fits ice.role ice.lcand known fits
  rw [paired]
  dsimp only
  rw [if_neg (by decide)]
  by_cases none' : allPairs ice.role ice.lcand known = []
  · rw [if_pos none']
    refine ⟨iff_of_false (fun same => ?_) ?_, fun same => ?_⟩
    · cases same
    · rintro ⟨_, _, _, ⟨ids, pair, found⟩, _⟩
      have member := (mem_allPairs ice.role ice.lcand known).mpr ⟨ids, found⟩
      rw [none'] at member
      cases member
    · cases same
  rw [if_neg none']
  obtain ⟨based, list⟩ := pruned_spec ice.role ice.lcand known
  have matched : ∃ ids pair, pairOf ice.role ice.lcand known ids = some pair := by
    obtain ⟨pair, member⟩ := List.exists_mem_of_ne_nil _ none'
    obtain ⟨ids, found⟩ := (mem_allPairs ice.role ice.lcand known).mp member
    exact ⟨ids, pair, found⟩
  generalize pruneChecklist ice.lcand (sortChecklist (allPairs ice.role ice.lcand known)) = result
    at based list ⊢
  obtain ⟨clist, status⟩ := result
  dsimp only at based list ⊢
  by_cases found : status = .success
  · rw [if_neg (not_not.mpr found)]
    have isList := list found none' bounded
    obtain ⟨_, inside, least⟩ := foldl_max_spec known 0
    refine ⟨iff_of_true rfl ⟨some', few, fits, matched, based.mp found⟩,
      fun _ => ⟨isList, rfl, ?_, ?_, ?_⟩⟩
    · obtain ⟨ids, pair, pairs⟩ := matched
      obtain ⟨_, r, _, second, _⟩ := (pairOf_eq_some ice.role ice.lcand known).mp pairs
      have member := List.mem_of_getElem? second
      exact (mem_knownCands member).1.trans (inside r member)
    · exact least ice.compCnt (Nat.zero_le _) fun cand member => (mem_knownCands member).2
    · intro check _ cand here
      exact inside cand (List.mem_of_getElem? here)
  · rw [if_pos found]
    exact ⟨iff_of_false found fun all => found (based.mpr all.2.2.2.2),
      fun same => (found same).elim⟩

section Hosts

def hostAddr : PjSockaddr := ⟨.inet 0x0A000001#32, 4000⟩
def peerAddr : PjSockaddr := ⟨.inet 0x0A000002#32, 4000⟩

def hostCand (addr : PjSockaddr) : SessCand :=
  { type := .host, compId := 1, foundation := [], prio := 2130706431,
    addr := some addr, transportId := 0,
    baseAddr := some addr }

def withHost (role : Role) (addr : PjSockaddr) : IceSess :=
  { pjIceSessCreate role 1 0 with lcand := [hostCand addr] }

def peerCand : IceSessCand := ⟨.host, 1, [], 2130706431, some peerAddr⟩

end Hosts

theorem created_list_is_paired_hosts :
    let created := pjIceSessCreateCheckList (withHost .controlling hostAddr) [peerCand]
    created.2 = .success ∧
      PairedList .controlling [hostCand hostAddr] (knownCands 1 [peerCand]) created.1.clist := by
  have paired := created_list_is_paired (withHost .controlling hostAddr) [peerCand] rfl
  exact ⟨rfl, (paired.2 rfl).1⟩

end Created

/-! Each agent pairs its own candidates with those that the description of the other names. -/
section Mirror

def mirror (check : Check) : Check := { check with lcand := check.rcand, rcand := check.lcand }

def described (lcand : List SessCand) : List SessCand :=
  lcand.map fun cand => SessCand.ofRemote cand.toIceSessCand

theorem described_getElem? (lcand : List SessCand) (i : Nat) :
    (described lcand)[i]? = (lcand[i]?).map fun cand => SessCand.ofRemote cand.toIceSessCand := by
  rw [described, List.getElem?_map]

theorem calcCheckPrio_mirror (lcand rcand : BitVec 32) :
    calcCheckPrio .controlled rcand lcand = calcCheckPrio .controlling lcand rcand := by
  rw [calcCheckPrio, calcCheckPrio, if_neg (by decide), if_pos rfl]

theorem pairOf_mirror (first second : List SessCand) (ids : Nat × Nat) :
    pairOf .controlled second (described first) ids =
      (pairOf .controlling first (described second) ids.swap).map mirror := by
  rw [pairOf, pairOf, described_getElem?, described_getElem?, Prod.fst_swap, Prod.snd_swap]
  cases second[ids.1]? with
  | none => cases first[ids.2]? <;> rfl
  | some r =>
      cases first[ids.2]? with
      | none => rfl
      | some l =>
          have same : matching r (SessCand.ofRemote l.toIceSessCand) =
              matching l (SessCand.ofRemote r.toIceSessCand) := by
            rw [matching, matching, Bool.eq_iff_iff, Bool.and_eq_true,
              Bool.and_eq_true, decide_eq_true_eq,
              decide_eq_true_eq, decide_eq_true_eq, decide_eq_true_eq]
            exact ⟨fun both => ⟨both.1.symm, both.2.symm⟩, fun both => ⟨both.1.symm, both.2.symm⟩⟩
          simp only [Option.map_some]
          rw [same]
          split
          · rw [newCheck, newCheck, calcCheckPrio_mirror]
            rfl
          · rfl

theorem pairings_swap (lcands rcands : Nat) :
    ((pairings rcands lcands).map Prod.swap).Perm (pairings lcands rcands) := by
  refine (List.perm_ext_iff_of_nodup ((pairings_nodup rcands lcands).map Prod.swap_injective)
    (pairings_nodup lcands rcands)).mpr ?_
  rintro ⟨i, j⟩
  rw [List.mem_map, mem_pairings]
  constructor
  · rintro ⟨⟨j', i'⟩, member, same⟩
    obtain ⟨rfl, rfl⟩ := Prod.mk.inj same
    exact (mem_pairings.mp member).symm
  · rintro ⟨first, second⟩
    exact ⟨(j, i), mem_pairings.mpr ⟨second, first⟩, rfl⟩

theorem allPairs_mirror (first second : List SessCand) :
    (allPairs .controlled second (described first)).Perm
      ((allPairs .controlling first (described second)).map mirror) := by
  have lengths (cands : List SessCand) : (described cands).length = cands.length := by
    rw [described, List.length_map]
  rw [allPairs, allPairs, lengths, lengths, List.map_filterMap]
  have swapped : (pairings second.length first.length).filterMap
      (pairOf .controlled second (described first)) =
        ((pairings second.length first.length).map Prod.swap).filterMap
          fun ids => (pairOf .controlling first (described second) ids).map mirror := by
    rw [List.filterMap_map]
    exact congrArg (fun f => List.filterMap f _) (funext fun ids => pairOf_mirror first second ids)
  rw [swapped]
  exact (pairings_swap first.length second.length).filterMap _

theorem pruned_head {lcand : List SessCand} {checks : List Check}
    (found : (pruneChecklist lcand checks).2 = .success) :
    (pruneChecklist lcand checks).1.head?.map prioKey = (checks.map prioKey).head? := by
  obtain ⟨known, pairs⟩ := rebaseAll_spec lcand checks
  rw [pruneChecklist] at found ⊢
  generalize rebaseAll lcand checks = result at known pairs found ⊢
  obtain ⟨based, ok⟩ := result
  dsimp only at known pairs found ⊢
  cases ok with
  | false =>
      rw [if_neg Bool.false_ne_true] at found
      cases found
  | true =>
      rw [if_pos rfl, ← rebased_prios lcand (pairs rfl), List.head?_map]
      cases based with
      | nil => rfl
      | cons first rest =>
          rw [List.length_cons, prunePairs]
          rfl

theorem sorted_mirror (first second : List SessCand) :
    (sortChecklist (allPairs .controlled second (described first))).map prioKey =
      (sortChecklist (allPairs .controlling first (described second))).map prioKey := by
  have keys := ((sortChecklist_perm _).trans (allPairs_mirror first second)).map prioKey
  rw [List.map_map] at keys
  have same := keys.trans (((sortChecklist_perm _).map prioKey).symm)
  exact same.eq_of_pairwise (fun a b _ _ low high => Nat.le_antisymm high low)
    ((descending_iff _).mp (sortChecklist_descending _))
      ((descending_iff _).mp (sortChecklist_descending _))

/-- Two agents of opposite roles, each with the candidates that the other describes, have
the same pairs with the same priorities: the sorted lists agree priority by priority,
and both check lists start with the same one. -/
theorem agents_order_pairs_alike (first second : IceSess) (controlling : first.role = .controlling)
    (controlled : second.role = .controlled) :
    (allPairs second.role second.lcand (described first.lcand)).Perm
        ((allPairs first.role first.lcand (described second.lcand)).map mirror) ∧
      (sortChecklist (allPairs second.role second.lcand (described first.lcand))).map prioKey =
        (sortChecklist (allPairs first.role first.lcand (described second.lcand))).map prioKey ∧
      ((pruneChecklist first.lcand (sortChecklist
            (allPairs first.role first.lcand (described second.lcand)))).2 = .success →
        (pruneChecklist second.lcand (sortChecklist
            (allPairs second.role second.lcand (described first.lcand)))).2 = .success →
        (pruneChecklist second.lcand (sortChecklist
            (allPairs second.role second.lcand (described first.lcand)))).1.head?.map prioKey =
          (pruneChecklist first.lcand (sortChecklist
            (allPairs first.role first.lcand (described second.lcand)))).1.head?.map prioKey) := by
  rw [controlling, controlled]
  have alike := sorted_mirror first.lcand second.lcand
  refine ⟨allPairs_mirror first.lcand second.lcand, alike, fun found found' => ?_⟩
  rw [pruned_head found, pruned_head found', alike]

def twoCands (addr mapped : PjSockaddr) : List SessCand :=
  [hostCand addr, { hostCand addr with type := .srflx, prio := 1694498815, addr := some mapped }]

/-- The other agent has the two middle pairs the other way round. -/
theorem agents_order_pairs_alike_hosts :
    let ours := twoCands hostAddr ⟨.inet 0xC0A80001, 4000⟩
    let theirs := twoCands peerAddr ⟨.inet 0xC0A80002, 4000⟩
    let first := sortChecklist (allPairs .controlling ours (described theirs))
    let second := sortChecklist (allPairs .controlled theirs (described ours))
    second.map prioKey = first.map prioKey ∧
      first.map (fun check => (check.lcand, check.rcand)) = [(0, 0), (0, 1), (1, 0), (1, 1)] ∧
      second.map (fun check => (check.lcand, check.rcand)) = [(0, 0), (1, 0), (0, 1), (1, 1)] :=
  ⟨(agents_order_pairs_alike
      { pjIceSessCreate .controlling 1 0 with lcand := twoCands hostAddr ⟨.inet 0xC0A80001, 4000⟩ }
      { pjIceSessCreate .controlled 1 0 with lcand := twoCands peerAddr ⟨.inet 0xC0A80002, 4000⟩ }
      rfl rfl).2.1, by decide, by decide⟩

end Mirror

end NatClient.IceSession
