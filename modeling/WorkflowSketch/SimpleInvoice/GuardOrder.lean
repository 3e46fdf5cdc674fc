import WorkflowSketch.SimpleInvoice.Invariant
import WorkflowSketch.Transition

/-!
# The order of the guards (`transitionToNext`)

`transitionToNext` takes the first satisfied guard, and its comment warns that the order matters
where more than one is. On the invoices that the workflow reaches it never does.

* `countP_guards_le_one`: on dates that are exclusive, one guard of a state at most is satisfied
  or throws.
* **`transition_perm_of_run`**: after every action of a run, every order of the guards leads to the
  same state, or to the same exception.
-/

namespace WorkflowSketch

open Lib.Transact

namespace SimpleInvoice

variable {invoice : SimpleInvoice} {action : Action} {c₀ c : Config} {tr : Trace Config Action}

/-- No enabled action leaves an invoice both completed and discarded. -/
theorem completed_or_discarded_of_body (hw : invoice.WellFormed)
    (hen : action.isEnabled invoice = true) :
    (action.body invoice).completedOn = none ∨ (action.body invoice).discardedOn = none := by
  cases action with
  | complete assignNextTaskTo now => exact Or.inr (hw.fits .NEW (isEnabled_complete.mp hen).1).2
  | discard now => exact Or.inl (hw.fits .NEW (isEnabled_discard.mp hen)).1
  | reject now => exact Or.inl rfl
  | _ => exact hw.completed_or_discarded

/-- The guards of `COMPLETED` exclude one another: all but `REJECT` check that there is no
rejection, and the other two compare the same amount. -/
theorem countP_guards_COMPLETED_le_one :
    SimpleInvoiceState.COMPLETED.targetsAndGuards.countP (fun tg =>
      tg.2.isSatisfiedFor invoice != .ok false) ≤ 1 := by
  cases hr : invoice.rejectedOn with
  | some rejectedOn =>
    simp [SimpleInvoiceState.targetsAndGuards, SimpleInvoiceGuard.isSatisfiedFor, hr]
  | none =>
    cases hm : invoice.approvedByManagerOn with
    | none => simp [SimpleInvoiceState.targetsAndGuards, SimpleInvoiceGuard.isSatisfiedFor, hr, hm]
    | some approvedOn =>
      cases ha : invoice.amount with
      | none =>
        simp [SimpleInvoiceState.targetsAndGuards, SimpleInvoiceGuard.isSatisfiedFor, hr, hm, ha]
      | some amount =>
        rcases lt_or_ge (amount.compareTo approvalThreshold) 0 with hsmall | hlarge
        · simp [SimpleInvoiceState.targetsAndGuards, SimpleInvoiceGuard.isSatisfiedFor, hr, hm, ha,
            hsmall]
        · simp [SimpleInvoiceState.targetsAndGuards, SimpleInvoiceGuard.isSatisfiedFor, hr, hm, ha,
            not_lt.mpr hlarge, hlarge]

/-- **One guard of a state at most decides**, on dates that are exclusive. -/
theorem countP_guards_le_one (hcd : invoice.completedOn = none ∨ invoice.discardedOn = none)
    (s : SimpleInvoiceState) :
    s.targetsAndGuards.countP (fun tg => tg.2.isSatisfiedFor invoice != .ok false) ≤ 1 := by
  cases s with
  | INIT => simp [SimpleInvoiceState.targetsAndGuards, SimpleInvoiceGuard.isSatisfiedFor]
  | NEW =>
    rcases hcd with hc | hd
    · cases hd : invoice.discardedOn <;>
        simp [SimpleInvoiceState.targetsAndGuards, SimpleInvoiceGuard.isSatisfiedFor, hc, hd]
    · cases hc : invoice.completedOn <;>
        simp [SimpleInvoiceState.targetsAndGuards, SimpleInvoiceGuard.isSatisfiedFor, hc, hd]
  | COMPLETED => exact countP_guards_COMPLETED_le_one
  | APPROVED_BY_MANAGER =>
    cases hr : invoice.rejectedOn with
    | none =>
      cases hl : invoice.approvedByCountryLeaderOn <;>
        simp [SimpleInvoiceState.targetsAndGuards, SimpleInvoiceGuard.isSatisfiedFor, hr, hl]
    | some rejectedOn =>
      simp [SimpleInvoiceState.targetsAndGuards, SimpleInvoiceGuard.isSatisfiedFor, hr]
  | PAYABLE =>
    cases hr : invoice.rejectedOn with
    | none =>
      cases hp : invoice.paidOn <;>
        simp [SimpleInvoiceState.targetsAndGuards, SimpleInvoiceGuard.isSatisfiedFor, hr, hp]
    | some rejectedOn =>
      simp [SimpleInvoiceState.targetsAndGuards, SimpleInvoiceGuard.isSatisfiedFor, hr]
  | PAID => simp [SimpleInvoiceState.targetsAndGuards]
  | DISCARDED => simp [SimpleInvoiceState.targetsAndGuards]

/-- The same of the targets and guards that the state machine reads, in whatever state. -/
theorem countP_canTransitionTo_le_one
    (hcd : invoice.completedOn = none ∨ invoice.discardedOn = none) (s : SimpleInvoiceState) :
    s.canTransitionTo.countP (fun targetAndGuard =>
      targetAndGuard.guard (invoice.inState s) != .ok false) ≤ 1 := by
  rw [SimpleInvoiceState.canTransitionTo, List.countP_map]
  have hcd' : (invoice.inState s).completedOn = none ∨ (invoice.inState s).discardedOn = none := hcd
  exact countP_guards_le_one hcd' s

/-- **The order of the guards does not matter**: after an enabled action of a run, one guard of a
state at most is satisfied, and the slide over the guards in any order ends as the slide does. -/
theorem transition_perm_of_run (h₀ : c₀.IsCreated) (h : Run SimpleInvoiceWorkFlow c₀ tr c)
    (hen : SimpleInvoiceWorkFlow.enabled c action = true)
    {permuted : SimpleInvoiceState → List (TargetAndGuard SimpleInvoice SimpleInvoiceState)}
    (hperm : ∀ s : SimpleInvoiceState, s.canTransitionTo.Perm (permuted s)) :
    (∀ s : SimpleInvoiceState, s.canTransitionTo.countP (fun targetAndGuard =>
      targetAndGuard.guard ((action.body c.invoice.val).inState s) == .ok true) ≤ 1) ∧
    WorkFlow.transition ⟨.INIT, permuted⟩ (action.body c.invoice.val) =
      SimpleInvoiceWorkFlowStateMachine.transition (action.body c.invoice.val) := by
  have hw := (resting_of_run h₀ h).wellFormed
  have hone := countP_canTransitionTo_le_one (completed_or_discarded_of_body hw hen)
  refine ⟨fun s => le_trans (List.countP_mono_left fun targetAndGuard _ hsat => ?_) (hone s),
    WorkFlow.transition_perm (W := SimpleInvoiceWorkFlowStateMachine) rfl hperm hone⟩
  rw [eq_of_beq hsat]
  rfl

/-- The slide of an approval, with the guards of every state reversed. -/
theorem transition_perm_of_approval :
    WorkFlow.transition ⟨.INIT, fun s : SimpleInvoiceState => s.canTransitionTo.reverse⟩
        (Action.body (.pay ⟨3⟩)
          ((exec SimpleInvoiceWorkFlow .fresh approval).get (by decide)).2.invoice.val) =
      SimpleInvoiceWorkFlowStateMachine.transition
        (Action.body (.pay ⟨3⟩)
          ((exec SimpleInvoiceWorkFlow .fresh approval).get (by decide)).2.invoice.val) :=
  (transition_perm_of_run Config.fresh_isCreated (run_exec (by decide)) (by decide)
    fun s => s.canTransitionTo.reverse_perm.symm).2

end SimpleInvoice

end WorkflowSketch
