import NatClient.TransportComps

/-!
Runs of a stream transport: when the application hears that its candidates are gathered,
what keeps the one session well formed, and where data goes while it is running.
-/

namespace NatClient.IceTransport

open CString IceTypes IceSession IceLifetime

section Gathering

def Ungathered (comps : List TransComp) : Prop := ∃ comp ∈ comps, comp.gathered = false

/-- A socket changes the candidates of its component; then the application is told of an
error, or of the end of gathering, or of nothing. -/
inductive Gathers (st : IceStrans) (comps : List TransComp) : IceStrans → Prop where
  | quiet (still : st.cfg.ignoreStunError = false → Ungathered st.comps → Ungathered comps) :
      Gathers st comps { st with comps := comps }
  | failed (op : StransOp) (status : Status)
      (gathering : op ≠ .negotiation) (error : status ≠ .success) :
      Gathers st comps (sessFail { st with comps := comps } op status)
  | updated : Gathers st comps (sessInitUpdate { st with comps := comps })

structure Keeps (st : IceStrans) (comps : List TransComp) : Prop where
  each : ∀ comp ∈ comps, CompInv comp
  length : comps.length = st.comps.length

variable {st : IceStrans} {comp : TransComp} {compIdx : Nat}

theorem Keeps.set (each : ∀ comp ∈ st.comps, CompInv comp) (inv : CompInv comp) :
    Keeps st (st.comps.set compIdx comp) where
  each := fun other member => by
    rcases List.mem_or_eq_of_mem_set member with old | rfl
    · exact each other old
    · exact inv
  length := List.length_set

theorem Keeps.refl (each : ∀ comp ∈ st.comps, CompInv comp) : Keeps st st.comps := ⟨each, rfl⟩

theorem ungathered_set {before : TransComp} (here : st.comps[compIdx]? = some before)
    (waits : before.gathered = false → comp.gathered = false) (ungathered : Ungathered st.comps) :
    Ungathered (st.comps.set compIdx comp) := by
  obtain ⟨other, member, waiting⟩ := ungathered
  obtain ⟨p, there⟩ := List.getElem?_of_mem member
  obtain ⟨inside, _⟩ := List.getElem?_eq_some_iff.mp here
  by_cases same : compIdx = p
  · subst same
    obtain rfl := Option.some.inj (here.symm.trans there)
    exact ⟨comp, List.mem_of_getElem? (List.getElem?_set_self inside), waits waiting⟩
  · exact ⟨other, List.mem_of_getElem? ((List.getElem?_set_ne same).trans there), waiting⟩

theorem bindingFailed_gathers {index : Nat} {status : Status}
    (each : ∀ comp ∈ st.comps, CompInv comp) (inv : CompInv comp) (error : status ≠ .success) :
    ∃ comps, Keeps st comps ∧ Gathers st comps (bindingFailed st compIdx index comp status) := by
  rw [bindingFailed]
  dsimp only
  split
  · exact ⟨_, Keeps.set each (setStatus_inv inv index),
      Gathers.failed .init status (by decide) error⟩
  case isFalse several =>
    exact ⟨_, Keeps.set each (moved_inv inv fun one => several (Or.inr one)), Gathers.updated⟩

theorem stunOnStatus_gathers (each : ∀ comp ∈ st.comps, CompInv comp)
    (op : StunSockOp) (status : Status) (info : Except Status PjSockaddr) :
    ∃ comps, Keeps st comps ∧ Gathers st comps (stunOnStatus st compIdx op status info) := by
  have unchanged : ∃ comps, Keeps st comps ∧ Gathers st comps st :=
    ⟨st.comps, Keeps.refl each, Gathers.quiet fun _ waits => waits⟩
  rw [stunOnStatus]
  split
  · exact unchanged
  case h_2 comp here =>
    have inv := each comp (List.mem_of_getElem? here)
    split
    · exact unchanged
    case h_2 index found =>
      split
      · split
        · exact unchanged
        case isFalse error =>
          dsimp only
          split
          -- The candidate is marked, and the application hears nothing.
          case isTrue ignored =>
            refine ⟨_, Keeps.set each (setStatus_inv inv index), Gathers.quiet fun minded => ?_⟩
            rw [show st.cfg.ignoreStunError = true from ignored] at minded
            cases minded
          case isFalse =>
            exact ⟨_, Keeps.set each (setStatus_inv inv index),
              Gathers.failed .init status (by decide) error⟩
      · split
        · split
          -- The socket knows its mapped address.
          case h_1 mapped =>
            exact ⟨_, Keeps.set each (mappedAddr_inv inv found mapped), Gathers.updated⟩
          case h_2 status =>
            split
            · exact unchanged
            case isFalse error => exact bindingFailed_gathers each inv error
        case isFalse error => exact bindingFailed_gathers each inv error

theorem turnReady_gathers (each : ∀ comp ∈ st.comps, CompInv comp)
    (allocating : (st.comps[compIdx]?).any (fun comp => comp.turnSock = .allocating) = true)
    (relay : PjSockaddr) :
    ∃ after, turnReady st compIdx relay = some after ∧
      ∃ comps, Keeps st comps ∧ Gathers st comps after := by
  rw [turnReady]
  split
  case h_1 absent =>
    rw [absent] at allocating
    cases allocating
  case h_2 comp here =>
    rw [here, Option.any_some, decide_eq_true_eq] at allocating
    have inv := each comp (List.mem_of_getElem? here)
    cases found : ofType .relayed comp.candList with
    | none => exact (ofType_none found (inv.relayed allocating)).elim
    | some index =>
        exact ⟨_, rfl, _, Keeps.set each (turnReady_inv inv found relay), Gathers.updated⟩

theorem held_ungathered {candList : List GatheredCand}
    {cand : GatheredCand} (inside : cand ∈ candList) (pending : cand.status = .pending) :
    candList.all (fun cand => decide (cand.status ≠ .pending)) = false := by
  rw [List.all_eq_false]
  exact ⟨cand, inside, by rw [pending]; decide⟩

theorem ungathered_iff : comp.gathered = false ↔
    ∃ cand ∈ comp.candList, cand.status = .pending := by
  refine ⟨fun waits => ?_, fun ⟨cand, inside, pending⟩ => held_ungathered inside pending⟩
  rw [TransComp.gathered] at waits
  simpa using waits

theorem waitRelayed_waits (waits : comp.gathered = false) :
    (waitRelayed comp).gathered = false := by
  obtain ⟨cand, member, pending⟩ := ungathered_iff.mp waits
  rw [waitRelayed]
  split
  case h_1 index found =>
    obtain ⟨p, here⟩ := List.getElem?_of_mem member
    have there : (comp.candList.modify index fun cand => { cand with status := .pending })[p]? =
        some (if index = p then { cand with status := .pending } else cand) := by
      rw [List.getElem?_modify, here]
      rfl
    refine held_ungathered (List.mem_of_getElem? there) ?_
    split
    · rfl
    · exact pending
  case h_2 => exact waits

/-- Whoever waited for the candidates of a component still does. -/
theorem addUpdateTurn_waits (start : TurnStart) (waits : comp.gathered = false) :
    (addUpdateTurn start comp).1.gathered = false := by
  have waiting := waitRelayed_waits waits
  cases start with
  | refused => exact waiting
  | failed status => exact waiting
  | allocating =>
      rw [addUpdateTurn]
      dsimp only
      split
      · obtain ⟨cand, member, pending⟩ := ungathered_iff.mp waiting
        exact held_ungathered (List.mem_append_left _ member) pending
      · exact waiting

theorem retry_gathers {before : TransComp} (here : st.comps[compIdx]? = some before)
    (waits : before.gathered = false → comp.gathered = false) (retry : TurnStart) :
    Gathers st (st.comps.set compIdx (addUpdateTurn retry comp).1)
      ((addUpdateTurn retry comp).2.elim (updateComp st compIdx (addUpdateTurn retry comp).1)
        (turnFailed (updateComp st compIdx (addUpdateTurn retry comp).1) .keepAlive)) := by
  have quiet : Gathers st (st.comps.set compIdx (addUpdateTurn retry comp).1)
      (updateComp st compIdx (addUpdateTurn retry comp).1) :=
    Gathers.quiet fun _ => ungathered_set here fun waiting =>
      addUpdateTurn_waits retry (waits waiting)
  cases (addUpdateTurn retry comp).2 with
  | none => exact quiet
  | some status =>
      rw [Option.elim_some, turnFailed]
      split
      · exact quiet
      case isFalse error => exact Gathers.failed .keepAlive status (by decide) error

theorem turnClosed_gathers (each : ∀ comp ∈ st.comps, CompInv comp)
    (lastStatus : Status) (retry : TurnStart) :
    ∃ comps, Keeps st comps ∧ Gathers st comps (turnClosed st compIdx lastStatus retry) := by
  rw [turnClosed]
  split
  · exact ⟨st.comps, Keeps.refl each, Gathers.quiet fun _ waits => waits⟩
  case h_2 comp here =>
    have closed := closed_inv (each comp (List.mem_of_getElem? here)) (comp.turnErrCnt + 1)
    have retried :=
      @retry_gathers st { comp with turnErrCnt := comp.turnErrCnt + 1, turnSock := .none }
      compIdx comp here id retry
    dsimp only
    split
    · exact ⟨_, Keeps.set each closed, Gathers.quiet fun _ => ungathered_set here id⟩
    case isFalse error =>
      split
      · exact ⟨_, Keeps.set each closed, Gathers.failed .init lastStatus (by decide) error⟩
      · split
        · exact ⟨_, Keeps.set each closed, Gathers.failed .keepAlive lastStatus (by decide) error⟩
        · exact ⟨_, Keeps.set each (addUpdateTurn_inv closed retry), retried⟩

end Gathering

section Told

def about (op : StransOp) (report : StransOp × Status) : Bool := report.1 = op

theorem about_other {op wanted : StransOp} (other : op ≠ wanted)
    (reports : List (StransOp × Status))
    (status : Status) :
    (reports ++ [(op, status)]).filter (about wanted) = reports.filter (about wanted) := by
  have skipped : [(op, status)].filter (about wanted) = [] := by
    rw [List.filter_eq_nil_iff]
    intro report member
    rw [List.mem_singleton.mp member, about, decide_eq_true_eq]
    exact other
  rw [List.filter_append, skipped, List.append_nil]

/-- The report is about the end of gathering, or about an error that took its place. -/
def Concludes (report : StransOp × Status) : Prop :=
  report.1 = .init ∨ (report.1 = .keepAlive ∧ report.2 ≠ .success)

theorem concludes_failed {op : StransOp} {status : Status} (gathering : op ≠ .negotiation)
    (error : status ≠ .success) : Concludes (op, status) := by
  cases op with
  | init => exact Or.inl rfl
  | negotiation => exact (gathering rfl).elim
  | keepAlive => exact Or.inr ⟨rfl, error⟩

structure Told (st : IceStrans) : Prop where
  silent : st.cbCalled = false → ∀ report ∈ st.reports, report.1 = .negotiation
  called : st.cbCalled = true → ∃ report ∈ st.reports, Concludes report
  once : (st.reports.filter (about .init)).length ≤ 1
  waiting : st.cfg.ignoreStunError = false → st.cbCalled = false →
    st.destroyReq = false → Ungathered st.comps

variable {st after : IceStrans} {comps : List TransComp}

theorem sessInitUpdate_cases (st : IceStrans) :
    (sessInitUpdate st = st ∧ (st.cbCalled = true ∨ Ungathered st.comps)) ∨
    (st.cbCalled = false ∧ (∀ comp ∈ st.comps, comp.gathered = true) ∧
      sessInitUpdate st = report { st with cbCalled := true, state := .ready } .init .success) := by
  rw [sessInitUpdate]
  split
  case isTrue called => exact Or.inl ⟨rfl, Or.inl called⟩
  case isFalse uncalled =>
    split
    case isTrue all =>
      exact Or.inr ⟨Bool.eq_false_iff.mpr uncalled, fun comp member =>
        List.all_eq_true.mp all comp member, rfl⟩
    case isFalse some' =>
      obtain ⟨comp, member, waits⟩ := List.all_eq_false.mp (Bool.eq_false_iff.mpr some')
      exact Or.inl ⟨rfl, Or.inr ⟨comp, member, Bool.eq_false_iff.mpr waits⟩⟩

theorem Told.first (silent : st.cbCalled = false → ∀ report ∈ st.reports, report.1 = .negotiation)
    (uncalled : st.cbCalled = false) {op : StransOp} {status : Status}
    (concludes : Concludes (op, status))
    (state : StransState) :
    Told (report { st with cbCalled := true, state := state } op status) where
  silent := fun called => by cases called
  called := fun _ => ⟨(op, status), List.mem_append_right _ (List.mem_singleton_self _), concludes⟩
  once := by
    have none' : st.reports.filter (about .init) = [] := by
      rw [List.filter_eq_nil_iff]
      intro report member
      rw [about, silent uncalled report member]
      decide
    rw [report, List.filter_append, none', List.nil_append]
    exact List.length_filter_le _ _
  waiting := fun _ called => by cases called

theorem Gathers.told (gathers : Gathers st comps after) (told : Told st) : Told after := by
  cases gathers with
  | quiet still =>
      exact ⟨told.silent, told.called, told.once, fun minded uncalled live =>
        still minded (told.waiting minded uncalled live)⟩
  | failed op status gathering error =>
      rw [sessFail]
      split
      case isTrue known =>
        exact ⟨told.silent, told.called, told.once, fun _ uncalled => by
          rw [show st.cbCalled = true from known.2] at uncalled
          cases uncalled⟩
      case isFalse new =>
        cases called : st.cbCalled with
        | false =>
            exact @Told.first { st with comps := comps } told.silent called op status
              (concludes_failed gathering error) st.state
        | true =>
            -- A further failure is one of keep-alive, and may be told again.
            have other : op ≠ .init := fun same => new ⟨same, called⟩
            refine ⟨(fun uncalled => by cases uncalled),
              (fun _ => ⟨(op, status), ?_, concludes_failed gathering error⟩), ?_,
              (fun _ uncalled => by cases uncalled)⟩
            · exact List.mem_append_right _ (List.mem_singleton_self _)
            · rw [report, about_other other]
              exact told.once
  | updated =>
      rcases sessInitUpdate_cases { st with comps := comps }
        with ⟨same, waits⟩ | ⟨uncalled, _, same⟩
      · rw [same]
        refine ⟨told.silent, told.called, told.once, fun _ uncalled _ => waits.resolve_left ?_⟩
        rw [show st.cbCalled = false from uncalled]
        exact Bool.false_ne_true
      · rw [same]
        exact @Told.first { st with comps := comps } told.silent uncalled .init .success
          (Or.inl rfl) .ready

theorem Gathers.complete (gathers : Gathers st comps after)
    (reported : (StransOp.init, Status.success) ∈ after.reports) :
    (StransOp.init, Status.success) ∈ st.reports ∨ ∀ comp ∈ after.comps, comp.gathered = true := by
  cases gathers with
  | quiet still => exact Or.inl reported
  | failed op status gathering error =>
      rw [sessFail] at reported
      split at reported
      · exact Or.inl reported
      · rcases List.mem_append.mp reported with old | new
        · exact Or.inl old
        · exact (error (Prod.mk.inj (List.mem_singleton.mp new)).2.symm).elim
  | updated =>
      rcases sessInitUpdate_cases { st with comps := comps } with ⟨same, _⟩ | ⟨_, all, same⟩
      · rw [same] at reported
        exact Or.inl reported
      · rw [same]
        exact Or.inr all

end Told

end NatClient.IceTransport
