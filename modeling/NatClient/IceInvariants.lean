import NatClient.IceMoves

/-!
Every move keeps the invariants of a session: the arrays and the pointers into them, the
checks in flight and their transactions, and what is known of the outcome.
-/

namespace NatClient.IceSession

open CString IceTypes SwapSort Runs

section Creating
variable {lcand : List SessCand}

theorem rebase_shape {check based : Check} (found : rebase lcand check = some based) :
    based.state = check.state ∧ based.rcand = check.rcand ∧ based.lcand < lcand.length := by
  obtain ⟨cand, here, _⟩ := rebase_type lcand found
  refine ⟨?_, ?_, (List.getElem?_eq_some_iff.mp here).1⟩ <;>
  · unfold rebase at found
    split at found
    · cases found
    · split at found
      · obtain ⟨host, _, rfl⟩ := Option.map_eq_some_iff.mp found
        rfl
      · rw [Option.some.inj found]

theorem rebaseAll_shape (checks : List Check) :
    (rebaseAll lcand checks).1.length = checks.length ∧
      ∀ based ∈ (rebaseAll lcand checks).1, ∃ check ∈ checks, based = check ∨
          rebase lcand check = some based := by
  induction checks with
  | nil => exact ⟨rfl, fun based member => absurd member List.not_mem_nil⟩
  | cons first rest ih =>
      rw [rebaseAll]
      cases found : rebase lcand first with
      | none => exact ⟨rfl, fun based member => ⟨based, member, Or.inl rfl⟩⟩
      | some based' =>
          obtain ⟨length, origin⟩ := ih
          refine ⟨congrArg (· + 1) length, fun based member => ?_⟩
          rcases List.mem_cons.mp member with rfl | inner
          · exact ⟨first, List.mem_cons_self, Or.inr found⟩
          · obtain ⟨check, member', same⟩ := origin based inner
            exact ⟨check, List.mem_cons_of_mem first member', same⟩

structure NewCheck (lcands rcands : Nat) (check : Check) : Prop where
  frozen : check.state = .frozen
  lcand : check.lcand < lcands
  rcand : check.rcand < rcands

theorem NewCheck.based {rcands : Nat} {check based : Check}
    (new : NewCheck lcand.length rcands check)
    (found : based = check ∨ rebase lcand check = some based) :
    NewCheck lcand.length rcands based := by
  rcases found with rfl | found
  · exact new
  · obtain ⟨state, rcand, inside⟩ := rebase_shape found
    exact ⟨state.trans new.frozen, inside, rcand ▸ new.rcand⟩

theorem pruned_shape {rcands : Nat} {checks : List Check}
    (new : ∀ check ∈ checks, NewCheck lcand.length rcands check) :
    (pruneChecklist lcand checks).1.length ≤ checks.length ∧
      ∀ check ∈ (pruneChecklist lcand checks).1, NewCheck lcand.length rcands check := by
  obtain ⟨length, origin⟩ := @rebaseAll_shape lcand checks
  have based (check : Check) (member : check ∈ (rebaseAll lcand checks).1) :
      NewCheck lcand.length rcands check := by
    obtain ⟨before, member', same⟩ := origin check member
    exact (new before member').based same
  rw [pruneChecklist]
  generalize rebaseAll lcand checks = result at length based ⊢
  obtain ⟨list, found⟩ := result
  dsimp only at length based ⊢
  split
  · have sub := (prunePairs_spec lcand list.length list (Nat.le_refl _)).1
    exact ⟨sub.length_le.trans_eq length, fun check member => based check (sub.subset member)⟩
  · exact ⟨length.le, based⟩

structure Paired (ice : IceSess) (known : List SessCand) (clist : List Check)
    (compCnt : Nat) (comp : List Comp) :
    Prop where
  cands : known.length ≤ pjIceMaxCand
  checks : clist.length ≤ pjIceMaxChecks
  new : ∀ check ∈ clist, NewCheck ice.lcand.length known.length check
  fewer : compCnt ≤ ice.compCnt
  used : clist ≠ [] → 1 ≤ compCnt
  comps : comp.length = ice.comp.length
  same : ∀ k : Nat, k < compCnt → comp[k]? = ice.comp[k]?
  origin : ∀ c ∈ comp, c ∈ ice.comp ∨ c = .zero

theorem createCheckList_shape {ice : IceSess} (rcand : List IceSessCand) (noCands : ice.rcand = [])
    (noChecks : ice.clist = []) (room : ice.compCnt ≤ ice.comp.length) :
    ∃ known clist compCnt comp, (pjIceSessCreateCheckList ice rcand).1 =
        { ice with rcand := known, clist := clist, compCnt := compCnt, comp := comp } ∧
      Paired ice known clist compCnt comp := by
  have unchanged : Paired ice ice.rcand ice.clist ice.compCnt ice.comp := {
    cands := by rw [noCands]; exact Nat.zero_le _
    checks := by rw [noChecks]; exact Nat.zero_le _
    new := fun check member => by
      rw [noChecks] at member
      cases member
    fewer := Nat.le_refl _
    used := fun some' => (some' noChecks).elim
    comps := rfl
    same := fun _ _ => rfl
    origin := fun c member => Or.inl member }
  unfold pjIceSessCreateCheckList
  -- Whatever the status, the session keeps what was built up to there.
  by_cases empty : rcand = []
  · rw [if_pos empty]
    exact ⟨_, _, _, _, rfl, unchanged⟩
  rw [if_neg empty]
  by_cases many : rcand.length + ice.rcand.length > pjIceMaxCand
  · rw [if_pos many]
    exact ⟨_, _, _, _, rfl, unchanged⟩
  rw [if_neg many, noChecks]
  have few : (knownCands ice.compCnt rcand).length ≤ pjIceMaxCand := by
    rw [knownCands, List.length_map]
    have := List.length_filter_le (knownComponent ice.compCnt) rcand
    omega
  have within (cand : SessCand) (member : cand ∈ knownCands ice.compCnt rcand) :=
    mem_knownCands member
  have keeps : (rcand.filter (knownComponent ice.compCnt)).map SessCand.ofRemote =
      knownCands ice.compCnt rcand := rfl
  dsimp only
  rw [keeps]
  generalize knownCands ice.compCnt rcand = known at few within
  obtain ⟨bound, origin⟩ := @pairCandidates_bound ice.role ice.lcand known
    (pairings ice.lcand.length known.length) [] (Nat.zero_le _)
  have new (check : Check) (member : check ∈ (pairCandidates ice.role ice.lcand known
      (pairings ice.lcand.length known.length) []).1) :
      NewCheck ice.lcand.length known.length check ∧ ∃ cand, cand ∈ known := by
    rcases origin check member with inner | ⟨ids, found⟩
    · cases inner
    · obtain ⟨l, r, first, second, _, rfl⟩ := (pairOf_eq_some ice.role ice.lcand known).mp found
      exact ⟨⟨rfl, (List.getElem?_eq_some_iff.mp first).1, (List.getElem?_eq_some_iff.mp second).1⟩,
        r, List.mem_of_getElem? second⟩
  generalize pairCandidates ice.role ice.lcand known
    (pairings ice.lcand.length known.length) [] = result
    at bound new ⊢
  obtain ⟨clist, status⟩ := result
  dsimp only at bound new ⊢
  have paired (list : List Check) (less : list.length ≤ clist.length)
      (fresh : ∀ check ∈ list, NewCheck ice.lcand.length known.length check) :
      Paired ice known list ice.compCnt ice.comp := {
    cands := few
    checks := less.trans bound
    new := fresh
    fewer := Nat.le_refl _
    used := fun some' => by
      obtain ⟨check, member⟩ := List.exists_mem_of_ne_nil _ some'
      have some'' : clist ≠ [] := fun none' => by
        rw [none', List.length_nil] at less
        exact some' (List.length_eq_zero_iff.mp (Nat.le_zero.mp less))
      obtain ⟨check', member'⟩ := List.exists_mem_of_ne_nil _ some''
      obtain ⟨_, cand, known'⟩ := new check' member'
      exact (within cand known').1.trans (within cand known').2
    comps := rfl
    same := fun _ _ => rfl
    origin := fun c member => Or.inl member }
  have plain := paired clist (Nat.le_refl _) fun check member => (new check member).1
  by_cases found : status = .success
  case neg =>
    rw [if_pos found]
    exact ⟨_, _, _, _, rfl, plain⟩
  rw [if_neg (not_not.mpr found)]
  by_cases none' : clist = []
  · rw [if_pos none']
    exact ⟨_, _, _, _, rfl, plain⟩
  rw [if_neg none']
  -- The status of the pairing is a success from here on.
  have perm := sortChecklist_perm clist
  obtain ⟨less, fresh⟩ := @pruned_shape ice.lcand known.length (sortChecklist clist)
    fun check member => (new check (perm.subset member)).1
  rw [perm.length_eq] at less
  generalize pruneChecklist ice.lcand (sortChecklist clist) = result at less fresh ⊢
  obtain ⟨list, status'⟩ := result
  dsimp only at less fresh ⊢
  have pruned := paired list less fresh
  by_cases based : status' = .success
  case neg =>
    rw [if_pos based]
    exact ⟨_, _, _, _, rfl, pruned⟩
  rw [if_neg (not_not.mpr based)]
  obtain ⟨_, inside, least⟩ := foldl_max_spec known 0
  have fewer : highestComp known ≤ ice.compCnt :=
    least ice.compCnt (Nat.zero_le _) fun cand member => (within cand member).2
  have front : (ice.comp.take (highestComp known)).length = highestComp known := by
    rw [List.length_take]
    omega
  refine ⟨_, _, _, _, rfl,
    { pruned with fewer := fewer, used := ?_, comps := ?_, same := ?_, origin := ?_ }⟩
  · intro _
    obtain ⟨check, member⟩ := List.exists_mem_of_ne_nil _ none'
    obtain ⟨_, cand, known'⟩ := new check member
    exact (within cand known').1.trans (inside cand known')
  · rw [List.length_append, front, List.length_replicate]
    omega
  · intro k inUse
    rw [List.getElem?_append_left (by omega), List.getElem?_take_of_lt inUse]
  · intro c member
    rcases List.mem_append.mp member with old | new'
    · exact Or.inl (List.mem_of_mem_take old)
    · exact Or.inr (List.eq_of_mem_replicate new')

theorem Arrays.pair_shape {ice : IceSess} (arrays : Arrays ice) (rcand : List IceSessCand)
    (noCands : ice.rcand = []) (noChecks : ice.clist = []) :
    ∃ known clist compCnt comp, (pjIceSessCreateCheckList ice rcand).1 =
        { ice with rcand := known, clist := clist, compCnt := compCnt, comp := comp } ∧
      Paired ice known clist compCnt comp :=
  createCheckList_shape rcand noCands noChecks
    (arrays.compCnt.trans_eq arrays.pointed.comps.symm)

end Creating

section ArraysKept
variable {ice : IceSess}

theorem Pointed.same {other : IceSess} {except : Option Nat} (pointed : Pointed ice except)
    (lcand : other.lcand = ice.lcand) (validList : other.validList = ice.validList)
    (comp : other.comp = ice.comp) (compCnt : other.compCnt = ice.compCnt) :
    Pointed other except := by
  have comps (v : Check) : compIdOf other v = compIdOf ice v := by rw [compIdOf, compIdOf, lcand]
  refine ⟨comp ▸ pointed.comps, ?_, ?_⟩
  · rw [comp, validList]
    exact pointed.inside
  · intro k c inUse here
    rw [compCnt] at inUse
    rw [comp] at here
    obtain ⟨absent, top, nominated⟩ := pointed.best k c inUse here
    constructor
    · rw [validList]
      simp only [comps]
      exact absent
    · rw [validList]
      simp only [comps]
      exact top
    · rw [validList]
      simp only [comps]
      exact nominated

theorem Arrays.reclist {other : IceSess} (arrays : Arrays ice) (lcand : other.lcand = ice.lcand)
    (rcand : other.rcand = ice.rcand) (validList : other.validList = ice.validList)
    (comp : other.comp = ice.comp) (compCnt : other.compCnt = ice.compCnt)
    (checks : other.clist.length ≤ pjIceMaxChecks)
    (inside : ∀ check ∈ other.clist, InArrays ice check)
    (used : other.clist ≠ [] → ice.clist ≠ []) : Arrays other where
  pointed := arrays.pointed.same lcand validList comp compCnt
  compCnt := compCnt ▸ arrays.compCnt
  lcands := lcand ▸ arrays.lcands
  rcands := rcand ▸ arrays.rcands
  checks := checks
  valids := validList ▸ arrays.valids
  compIds := lcand ▸ arrays.compIds
  inside :=
    fun check member => ⟨lcand ▸ (inside check member).lcand, rcand ▸ (inside check member).rcand⟩
  insideValid := fun check member => by
    have within := arrays.insideValid check (validList ▸ member)
    exact ⟨lcand ▸ within.lcand, rcand ▸ within.rcand⟩
  sorted := validList ▸ arrays.sorted
  used := fun some' => compCnt ▸ arrays.used (used some')

theorem Arrays.same {other : IceSess} (arrays : Arrays ice) (lcand : other.lcand = ice.lcand)
    (rcand : other.rcand = ice.rcand) (validList : other.validList = ice.validList)
    (comp : other.comp = ice.comp) (compCnt : other.compCnt = ice.compCnt)
    (clist : other.clist = ice.clist) : Arrays other :=
  arrays.reclist lcand rcand validList comp compCnt (clist ▸ arrays.checks) (clist ▸ arrays.inside)
    fun some' => clist ▸ some'

theorem compIdOf_append (cand : SessCand) {check : Check}
    (inside : check.lcand < ice.lcand.length) :
    compIdOf { ice with lcand := ice.lcand ++ [cand] } check = compIdOf ice check := by
  rw [compIdOf, compIdOf, List.getElem?_append_left inside]

theorem Pointed.moreCands (cand : SessCand) (pointed : Pointed ice none)
    (inside : ∀ check ∈ ice.validList, InArrays ice check) :
    Pointed { ice with lcand := ice.lcand ++ [cand] } none := by
  have comps {p : Nat} {v : Check} (here : ice.validList[p]? = some v) :=
    compIdOf_append cand (inside v (List.mem_of_getElem? here)).lcand
  refine ⟨pointed.comps, pointed.inside, fun k c inUse here => ?_⟩
  obtain ⟨absent, top, nominated⟩ := pointed.best k c inUse here
  constructor
  · intro none' p v except found
    rw [comps found]
    exact absent none' p v except found
  · intro index pointer
    obtain ⟨v, found, own, high⟩ := top index pointer
    refine ⟨v, found, (comps found).trans own, fun p w except found' own' => ?_⟩
    rw [comps found'] at own'
    exact high p w except found' own'
  · intro index pointer
    obtain ⟨v, found, own⟩ := nominated index pointer
    exact ⟨v, found, (comps found).trans own⟩

theorem Arrays.paired {known : List SessCand} {clist : List Check}
    {compCnt : Nat} {comp : List Comp}
    (arrays : Arrays ice) (noCands : ice.rcand = [])
    (paired : Paired ice known clist compCnt comp) :
    Arrays { ice with rcand := known, clist := clist, compCnt := compCnt, comp := comp } where
  pointed := by
    refine ⟨paired.comps.trans arrays.pointed.comps,
      fun c member index pointer => ?_, fun k c inUse here => ?_⟩
    · rcases paired.origin c member with old | rfl
      · exact arrays.pointed.inside c old index pointer
      · rcases pointer with first | second
        · cases first
        · cases second
    · have there : ice.comp[k]? = some c := (paired.same k inUse).symm.trans here
      obtain ⟨absent, top, nominated⟩ :=
        arrays.pointed.best k c (Nat.lt_of_lt_of_le inUse paired.fewer) there
      exact ⟨absent, top, nominated⟩
  compCnt := paired.fewer.trans arrays.compCnt
  lcands := arrays.lcands
  rcands := paired.cands
  checks := paired.checks
  valids := arrays.valids
  compIds := arrays.compIds
  inside := fun check member => ⟨(paired.new check member).lcand, (paired.new check member).rcand⟩
  insideValid := fun check member => by
    have outside := (arrays.insideValid check member).rcand
    rw [noCands] at outside
    exact (Nat.not_lt_zero _ outside).elim
  sorted := arrays.sorted
  used := paired.used

theorem Arrays.gain_spec {after : IceSess} {lcand : Nat} {check : Check} (arrays : Arrays ice)
    (inside : lcand < ice.lcand.length) (gain : gained ice lcand check = some after) :
    ∃ validList comp, after = { ice with validList := validList, comp := comp } ∧
      validList.length ≤ pjIceMaxChecks ∧ validList.length ≤ ice.validList.length + 1 ∧
        Descending validList ∧
      (∀ v ∈ validList, (v.lcand = lcand ∧ v.rcand = check.rcand) ∨
        ∃ w ∈ ice.validList, w.lcand = v.lcand ∧ w.rcand = v.rcand) ∧
      Grown ice.compCnt ice.comp comp ∧ Pointed after none := by
  have here := List.getElem?_eq_getElem inside
  exact gained_spec gain arrays.valids here
    (arrays.compIds _ (List.mem_of_getElem? here)).1 arrays.pointed

theorem Arrays.gained {after : IceSess} {lcand : Nat} {check : Check} (arrays : Arrays ice)
    (insideLocal : lcand < ice.lcand.length) (insideRemote : check.rcand < ice.rcand.length)
    (gain : gained ice lcand check = some after) : Arrays after := by
  obtain ⟨validList, comp, rfl, few, _, falling, origin, _, pointed⟩ :=
    arrays.gain_spec insideLocal gain
  exact {
    pointed := pointed
    compCnt := arrays.compCnt
    lcands := arrays.lcands
    rcands := arrays.rcands
    checks := arrays.checks
    valids := few
    compIds := arrays.compIds
    inside := fun check member =>
      ⟨(arrays.inside check member).lcand, (arrays.inside check member).rcand⟩
    insideValid := fun v member => by
      rcases origin v member with ⟨first, second⟩ | ⟨w, member', first, second⟩
      · exact ⟨first ▸ insideLocal, second ▸ insideRemote⟩
      · have within := arrays.insideValid w member'
        exact ⟨first ▸ within.lcand, second ▸ within.rcand⟩
    sorted := falling
    used := arrays.used }

theorem mem_modify_nominated {index : Nat} {v : Check}
    (member : v ∈ ice.validList.modify index fun valid => { valid with nominated := true }) :
    ∃ w ∈ ice.validList, v.lcand = w.lcand ∧ v.rcand = w.rcand := by
  obtain ⟨p, here⟩ := List.getElem?_of_mem member
  rw [List.getElem?_modify] at here
  obtain ⟨w, there, rfl⟩ := Option.map_eq_some_iff.mp here
  refine ⟨w, List.mem_of_getElem? there, ?_⟩
  split
  · exact ⟨rfl, rfl⟩
  · exact ⟨rfl, rfl⟩

theorem Arrays.nominated {index : Nat} {valid : Check} (arrays : Arrays ice)
    (here : ice.validList[index]? = some valid) :
    Arrays (updateCompCheck
      { ice with
        validList := ice.validList.modify index fun valid => { valid with nominated := true } }
      (compIdOf ice valid) index) := by
  have within := arrays.insideValid valid (List.mem_of_getElem? here)
  have cand := List.getElem?_eq_getElem within.lcand
  have low : 1 ≤ compIdOf ice valid := by
    rw [compIdOf, cand]
    exact (arrays.compIds _ (List.mem_of_getElem? cand)).1
  have pointed := arrays.pointed.revalid (modify_nominated_alike index fun _ => true)
  have found : (ice.validList.modify index fun valid => { valid with nominated := true })[index]? =
      some { valid with nominated := true } := by
    rw [List.getElem?_modify_eq, here]
    rfl
  -- Only the flag of the pair has changed, so the pointers are right but for this pair.
  have updated := @updateCompCheck_pointed
    { ice with
      validList := ice.validList.modify index fun valid => { valid with nominated := true } }
    index (compIdOf ice valid) _ found rfl low pointed.except
  exact {
    pointed := updated
    compCnt := arrays.compCnt
    lcands := arrays.lcands
    rcands := arrays.rcands
    checks := arrays.checks
    valids := by
      rw [updateCompCheck, List.length_modify]
      exact arrays.valids
    compIds := arrays.compIds
    inside := fun check member =>
      ⟨(arrays.inside check member).lcand, (arrays.inside check member).rcand⟩
    insideValid := fun v member => by
      obtain ⟨w, member', first, second⟩ := mem_modify_nominated member
      have inside := arrays.insideValid w member'
      exact ⟨first ▸ inside.lcand, second ▸ inside.rcand⟩
    sorted := by
      refine (descending_iff _).mpr ?_
      have same :
        (ice.validList.modify index fun valid => { valid with nominated := true }).map prioKey =
          ice.validList.map prioKey := by
        refine List.ext_getElem? fun p => ?_
        have alike :=
          congrArg (Option.map Prod.snd) (@modify_nominated_alike ice index (fun _ => true) p)
        rw [Option.map_map, Option.map_map] at alike
        rw [List.getElem?_map, List.getElem?_map]
        exact alike
      exact (congrArg (List.Pairwise _) same).mpr ((descending_iff _).mp arrays.sorted)
    used := arrays.used }

theorem arrays_kept {move : Move} {after : IceSess} (arrays : Arrays ice)
    (allowed : Allows ice move after) :
    Arrays after := by
  cases allowed with
  | quiet => exact arrays.same rfl rfl rfl rfl rfl rfl
  | addLocal cand room low high =>
      exact {
        arrays with
        pointed := arrays.pointed.moreCands cand arrays.insideValid
        lcands := by
          rw [List.length_append, List.length_singleton]
          exact room
        compIds := fun other member => by
          rcases List.mem_append.mp member with old | new
          · exact arrays.compIds other old
          · exact List.mem_singleton.mp new ▸ ⟨low, high⟩
        inside := fun check member =>
          ⟨List.length_append ▸ Nat.lt_add_right _ (arrays.inside check member).lcand,
            (arrays.inside check member).rcand⟩
        insideValid := fun check member =>
          ⟨List.length_append ▸ Nat.lt_add_right _ (arrays.insideValid check member).lcand,
            (arrays.insideValid check member).rcand⟩ }
  | addRemote cand room =>
      exact {
        arrays with
        pointed := arrays.pointed.same rfl rfl rfl rfl
        rcands := by
          rw [List.length_append, List.length_singleton]
          exact room
        inside := fun check member =>
          ⟨(arrays.inside check member).lcand,
            List.length_append ▸ Nat.lt_add_right _ (arrays.inside check member).rcand⟩
        insideValid := fun check member =>
          ⟨(arrays.insideValid check member).lcand,
            List.length_append ▸ Nat.lt_add_right _ (arrays.insideValid check member).rcand⟩ }
  | pair rcand noCands noChecks =>
      obtain ⟨known, clist, compCnt, comp, same, paired⟩ := arrays.pair_shape rcand noCands noChecks
      rw [same]
      exact arrays.paired noCands paired
  | append check room begun insideLocal insideRemote =>
      refine arrays.reclist rfl rfl rfl rfl rfl ?_ (fun other member => ?_) fun _ => begun
      · rw [List.length_append, List.length_singleton]
        exact room
      · rcases List.mem_append.mp member with old | new
        · exact arrays.inside other old
        · exact List.mem_singleton.mp new ▸ ⟨insideLocal, insideRemote⟩
  -- A list of the same length with the same pairs.
  | recheck clist pending calmer =>
      refine arrays.reclist rfl rfl rfl rfl rfl
        (calmer.length.trans_le arrays.checks) (fun check member => ?_)
        fun some' none' => some' (List.length_eq_zero_iff.mp ?_)
      · obtain ⟨p, here⟩ := List.getElem?_of_mem member
        obtain ⟨before, there, same⟩ := calmer.back here
        have within := arrays.inside before (List.mem_of_getElem? there)
        exact ⟨same.lcand ▸ within.lcand, same.rcand ▸ within.rcand⟩
      · rw [calmer.length, none', List.length_nil]
  | launch ckid inside nominated controlling =>
      refine arrays.reclist rfl rfl rfl rfl rfl ?_ (fun check member => ?_) fun _ none' => ?_
      · rw [List.length_modify]
        exact arrays.checks
      · obtain ⟨p, here⟩ := List.getElem?_of_mem member
        rw [List.getElem?_modify] at here
        obtain ⟨before, there, rfl⟩ := Option.map_eq_some_iff.mp here
        have within := arrays.inside before (List.mem_of_getElem? there)
        split
        · exact ⟨within.lcand, within.rcand⟩
        · exact within
      · rw [none'] at inside
        cases inside
  | gain lcand check cand insideLocal remote origin gain =>
      exact arrays.gained insideLocal (List.getElem?_eq_some_iff.mp remote).1 gain
  | nominate index valid here => exact arrays.nominated here
  | complete status =>
      unfold onIceComplete
      split
      · exact arrays
      · exact arrays.same rfl rfl rfl rfl rfl rfl
  | arm => exact arrays.same rfl rfl rfl rfl rfl rfl
  | disarm => exact arrays.same rfl rfl rfl rfl rfl rfl
  | report => exact arrays.same rfl rfl rfl rfl rfl rfl
  | indicate => exact arrays.same rfl rfl rfl rfl rfl rfl

end ArraysKept

section FlightKept
variable {ice : IceSess}

theorem Flight.same {other : IceSess} (flight : Flight ice) (clist : other.clist = ice.clist)
    (pending : other.pending = ice.pending) (later : ice.performed ≤ other.performed) :
    Flight other where
  numbers := fun tx member => by
    obtain ⟨below, inside⟩ := flight.numbers tx (pending ▸ member)
    exact ⟨Nat.lt_of_lt_of_le below later, clist ▸ inside⟩
  distinct := pending ▸ flight.distinct
  inFlight := by
    rw [clist, pending]
    exact flight.inFlight

theorem Flight.unique (flight : Flight ice) {first second : Tx} (member : first ∈ ice.pending)
    (member' : second ∈ ice.pending) (same : first.number = second.number) : first = second :=
  List.inj_on_of_nodup_map flight.distinct member member' same

theorem flight_kept {move : Move} {after : IceSess} (arrays : Arrays ice) (flight : Flight ice)
    (allowed : Allows ice move after) : Flight after := by
  cases allowed with
  | quiet role prefs early clistTimer nominating performed acts actions later =>
      exact flight.same rfl rfl later
  | addLocal => exact flight.same rfl rfl (Nat.le_refl _)
  | addRemote => exact flight.same rfl rfl (Nat.le_refl _)
  -- Without checks there are no transactions, and new checks are frozen.
  | pair rcand noCands noChecks =>
      obtain ⟨known, clist, compCnt, comp, same, paired⟩ := arrays.pair_shape rcand noCands noChecks
      rw [same]
      have idle (tx : Tx) (member : tx ∈ ice.pending) : False := by
        have inside := (flight.numbers tx member).2
        rw [noChecks] at inside
        exact Nat.not_lt_zero _ inside
      refine ⟨fun tx member => (idle tx member).elim, flight.distinct,
        fun p check here flying => ?_⟩
      have frozen := (paired.new check (List.mem_of_getElem? here)).frozen
      rw [frozen] at flying
      cases flying
  | append check room begun insideLocal insideRemote waiting =>
      refine ⟨fun tx member => ?_, flight.distinct, fun p other here flying => ?_⟩
      · obtain ⟨below, inside⟩ := flight.numbers tx member
        exact ⟨below, by rw [List.length_append]; exact Nat.lt_add_right _ inside⟩
      · dsimp only at here
        rw [List.getElem?_append] at here
        split at here
        · exact flight.inFlight p other here flying
        · rw [List.mem_singleton.mp (List.mem_of_getElem? here), waiting] at flying
          cases flying
  | recheck clist pending calmer fewer kept =>
      refine ⟨fun tx member => ?_, flight.distinct.sublist (fewer.map Tx.number),
        fun p check here flying => ?_⟩
      · obtain ⟨below, inside⟩ := flight.numbers tx (fewer.subset member)
        exact ⟨below, calmer.length ▸ inside⟩
      · obtain ⟨before, there, same⟩ := calmer.back here
        obtain ⟨flying', tdata⟩ := same.inFlight flying
        obtain ⟨tx, member, own, number⟩ := flight.inFlight p before there flying'
        have number' := tdata.trans number
        exact ⟨tx, kept p check here flying tx member own number', own, number'⟩
  -- The new number is beyond those in flight.
  | launch ckid inside nominated controlling =>
      refine ⟨fun tx member => ?_, ?_, fun p check here flying => ?_⟩
      · dsimp only
        rw [List.length_modify]
        rcases List.mem_append.mp member with old | new
        · obtain ⟨below, inside'⟩ := flight.numbers tx old
          exact ⟨Nat.lt_succ_of_lt below, inside'⟩
        · rw [List.mem_singleton.mp new]
          exact ⟨Nat.lt_succ_self _, inside⟩
      · dsimp only
        rw [List.map_append, List.map_cons, List.map_nil]
        refine List.nodup_append.mpr
          ⟨flight.distinct, List.nodup_singleton _, fun number old new last => ?_⟩
        obtain ⟨tx, member, rfl⟩ := List.mem_map.mp old
        rw [List.mem_singleton.mp last]
        exact Nat.ne_of_lt (flight.numbers tx member).1
      · dsimp only at here ⊢
        rw [List.getElem?_modify] at here
        obtain ⟨before, there, rfl⟩ := Option.map_eq_some_iff.mp here
        by_cases same : ckid = p
        · exact ⟨_, List.mem_append_right _ (List.mem_singleton_self _), same, by rw [if_pos same]⟩
        · rw [if_neg same] at flying ⊢
          obtain ⟨tx, member, own, number⟩ := flight.inFlight p before there flying
          exact ⟨tx, List.mem_append_left _ member, own, number⟩
  | gain lcand check cand insideLocal remote origin gain =>
      obtain ⟨validList, comp, rfl⟩ := gained_shape gain
      exact flight.same rfl rfl (Nat.le_refl _)
  | nominate => exact flight.same rfl rfl (Nat.le_refl _)
  | complete status =>
      unfold onIceComplete
      split
      · exact flight
      · exact flight.same rfl rfl (Nat.le_refl _)
  | arm => exact flight.same rfl rfl (Nat.le_refl _)
  | disarm => exact flight.same rfl rfl (Nat.le_refl _)
  | report => exact flight.same rfl rfl (Nat.le_refl _)
  | indicate => exact flight.same rfl rfl (Nat.le_refl _)

end FlightKept

section OutcomeKept
variable {ice : IceSess}

theorem Outcome.same {other : IceSess} (outcome : Outcome ice) (acts : reports other = reports ice)
    (isComplete : other.isComplete = ice.isComplete) (iceStatus : other.iceStatus = ice.iceStatus)
    (timer : other.timer = ice.timer) (compCnt : other.compCnt = ice.compCnt)
    (compKa : other.compKa = ice.compKa) (grown : Grown ice.compCnt ice.comp other.comp)
    (clist : other.clist = [] → ice.clist = []) : Outcome other := by
  have has {field : Comp → Option Nat}
      (grows : ∀ before after : Comp, before.Grows after → field before ≠ none → field after ≠ none)
      (all : compHas ice field = true) : compHas other field = true := by
    have all' := grown.compHas grows all
    rw [compHas] at all' ⊢
    rwa [compCnt]
  constructor
  · rw [isComplete, acts, timer]
    exact outcome.running
  · rw [isComplete, acts, timer, iceStatus]
    exact outcome.reported
  · rw [isComplete, iceStatus]
    exact fun complete success => has (fun _ _ grows => grows.nominated)
      (outcome.connected complete success)
  · rw [timer]
    exact fun armed => has (fun _ _ grows => grows.valid) (outcome.nominating armed)
  · rw [timer, isComplete, iceStatus]
    exact outcome.alive
  · rw [compKa, compCnt]
    exact outcome.next
  · rw [isComplete, timer, compKa]
    exact fun none' => outcome.unbegun (clist none')

theorem Grown.refl (compCnt : Nat) (comp : List Comp) : Grown compCnt comp comp :=
  fun _ c _ here => ⟨c, here, id, id⟩

theorem Outcome.begun (outcome : Outcome ice) (armed : ice.timer ≠ .none) : ice.clist ≠ [] :=
  fun none' => armed (outcome.unbegun none').2.1

theorem outcome_kept {move : Move} {after : IceSess} (arrays : Arrays ice) (outcome : Outcome ice)
    (allowed : Allows ice move after) : Outcome after := by
  have grown := Grown.refl ice.compCnt ice.comp
  cases allowed with
  | quiet role prefs early clistTimer nominating performed acts actions later grown' silent =>
      refine outcome.same ?_ rfl rfl rfl rfl rfl grown id
      rw [reports, grown', List.filterMap_append, silent, List.append_nil]
      rfl
  | addLocal => exact outcome.same rfl rfl rfl rfl rfl rfl grown id
  | addRemote => exact outcome.same rfl rfl rfl rfl rfl rfl grown id
  | pair rcand noCands noChecks =>
      obtain ⟨known, clist, compCnt, comp, same, paired⟩ := arrays.pair_shape rcand noCands noChecks
      rw [same]
      obtain ⟨running, idle, first⟩ := outcome.unbegun noChecks
      have isRunning {property : Prop} (complete : ice.isComplete = true) : property := by
        rw [running] at complete
        cases complete
      have isIdle {timer : TimerId} {property : Prop}
        (other : timer ≠ .none) (armed : ice.timer = timer) :
          property := (other (armed.symm.trans idle)).elim
      exact ⟨outcome.running, outcome.reported, fun complete => isRunning complete,
        fun armed => isIdle (by decide) armed, outcome.alive, Or.inl first,
          fun _ => ⟨running, idle, first⟩⟩
  | append => exact outcome.same rfl rfl rfl rfl rfl rfl grown fun none' =>
      (List.append_eq_nil_iff.mp none').1
  | recheck clist pending calmer =>
      refine outcome.same rfl rfl rfl rfl rfl rfl grown fun none' => List.length_eq_zero_iff.mp ?_
      rw [← calmer.length]
      exact List.length_eq_zero_iff.mpr none'
  | launch ckid inside nominated controlling =>
      refine outcome.same rfl rfl rfl rfl rfl rfl grown fun none' => List.length_eq_zero_iff.mp ?_
      have empty := List.length_eq_zero_iff.mpr none'
      rwa [List.length_modify] at empty
  | gain lcand check cand insideLocal remote origin gain =>
      obtain ⟨validList, comp, rfl, _, _, _, _, grown', _⟩ :=
        arrays.gain_spec insideLocal gain
      exact outcome.same rfl rfl rfl rfl rfl rfl grown' id
  | nominate index valid here =>
      have grown' := @updateCompCheck_grown
        { ice with
          validList := ice.validList.modify index fun valid => { valid with nominated := true } }
        (compIdOf ice valid) index
      exact outcome.same rfl rfl rfl rfl rfl rfl grown' id
  -- The first completion sets the callback timer, and a later one does nothing.
  | complete status begun connected =>
      unfold onIceComplete
      split
      · exact outcome
      case isFalse incomplete =>
        obtain ⟨unreported, _, _⟩ := outcome.running (Bool.eq_false_of_not_eq_true incomplete)
        exact {
          running := fun running => by cases running
          reported := fun _ => Or.inl ⟨unreported, rfl⟩
          connected := fun _ success => connected success
          nominating := fun armed => by cases armed
          alive := fun armed => by cases armed
          next := outcome.next
          unbegun := fun none' => (begun none').elim }
  -- A session that is not complete sets only timers for nomination.
  | arm timer free begun purpose =>
      have late : timer ≠ .completionCallback ∧ timer ≠ .keepAlive := by
        rcases purpose with rfl | ⟨rfl, _⟩ <;> decide
      exact {
        running := fun running => ⟨(outcome.running running).1, late⟩
        reported := fun complete => by
          rcases outcome.reported complete with ⟨_, due⟩ | ⟨reported, _⟩
          · rw [free] at due
            cases due
          · exact Or.inr ⟨reported, late.1⟩
        connected := outcome.connected
        nominating := fun armed => by
          rcases purpose with rfl | ⟨_, all⟩
          · cases armed
          · exact all
        alive := fun armed => (late.2 armed).elim
        next := outcome.next
        unbegun := fun none' => (begun none').elim }
  | disarm armed =>
      have late : ice.timer ≠ .completionCallback ∧ ice.timer ≠ .none := by
        rcases armed with same | same <;> rw [same] <;> decide
      have begun := outcome.begun late.2
      exact {
        running := fun running => ⟨(outcome.running running).1, nofun, nofun⟩
        reported := fun complete => by
          rcases outcome.reported complete with ⟨_, due⟩ | ⟨reported, _⟩
          · exact (late.1 due).elim
          · exact Or.inr ⟨reported, nofun⟩
        connected := outcome.connected
        nominating := fun armed => by cases armed
        alive := fun armed => by cases armed
        next := outcome.next
        unbegun := fun none' => (begun none').elim }
  -- The timer was the callback's, so nothing had been reported.
  | report due =>
      have complete : ice.isComplete = true := by
        cases running : ice.isComplete with
        | false => exact ((outcome.running running).2.1 due).elim
        | true => rfl
      have begun := outcome.begun (due ▸ by decide)
      have unreported : reports ice = [] := by
        rcases outcome.reported complete with ⟨unreported, _⟩ | ⟨_, other⟩
        · exact unreported
        · exact (other due).elim
      have next' :
        (if ice.iceStatus = .success then TimerId.keepAlive else .none) ≠
            .completionCallback ∧
          (if ice.iceStatus = .success then TimerId.keepAlive else .none) ≠
            .startNominatedCheck := by
        split <;> decide
      exact {
        running := fun running => by
          rw [act] at running
          dsimp only at running
          rw [complete] at running
          cases running
        reported := fun _ => by
          refine Or.inr ⟨?_, next'.1⟩
          rw [reports, act]
          dsimp only
          rw [List.filterMap_append, show ice.acts.filterMap reportOf = [] from unreported]
          rfl
        connected := outcome.connected
        nominating := fun armed => (next'.2 armed).elim
        alive := fun armed => by
          rw [act] at armed ⊢
          dsimp only at armed ⊢
          by_cases success : ice.iceStatus = .success
          · exact ⟨complete, success⟩
          · rw [if_neg success] at armed
            cases armed
        next := outcome.next
        unbegun := fun none' => (begun none').elim }
  | indicate check due =>
      have begun := outcome.begun (due ▸ by decide)
      have some' := arrays.used begun
      obtain ⟨complete, success⟩ := outcome.alive due
      exact {
        running := fun running => by
          rw [act] at running
          dsimp only at running
          rw [complete] at running
          cases running
        reported := fun _ => by
          rcases outcome.reported complete with ⟨_, other⟩ | ⟨reported, _⟩
          · rw [due] at other
            cases other
          · refine Or.inr ⟨?_, nofun⟩
            rw [reports, act]
            dsimp only
            rw [List.filterMap_append]
            exact (List.append_nil _).trans reported
        connected := outcome.connected
        nominating := fun armed => by cases armed
        alive := fun _ => ⟨complete, success⟩
        next := Or.inr (Nat.mod_lt _ some')
        unbegun := fun none' => (begun none').elim }

end OutcomeKept

section Kept
variable {ice : IceSess}

theorem live_kept {move : Move} {after : IceSess} (arrays : Arrays ice)
    (allowed : Allows ice move after) :
    after.isDestroying = ice.isDestroying := by
  cases allowed with
  | pair rcand noCands noChecks =>
      obtain ⟨known, clist, compCnt, comp, same, _⟩ := arrays.pair_shape rcand noCands noChecks
      rw [same]
  | gain lcand check cand insideLocal remote origin gain =>
      obtain ⟨validList, comp, rfl⟩ := gained_shape gain
      rfl
  | complete status =>
      unfold onIceComplete
      split <;> rfl
  | quiet => rfl
  | addLocal => rfl
  | addRemote => rfl
  | append => rfl
  | recheck => rfl
  | launch => rfl
  | nominate => rfl
  | arm => rfl
  | disarm => rfl
  | report => rfl
  | indicate => rfl

theorem Inv.kept {move : Move} {after : IceSess} (inv : Inv ice) (allowed : Allows ice move after) :
    Inv after where
  arrays := arrays_kept inv.arrays allowed
  flight := flight_kept inv.arrays inv.flight allowed
  outcome := outcome_kept inv.arrays inv.outcome allowed
  live := (live_kept inv.arrays allowed).trans inv.live

end Kept

end NatClient.IceSession
