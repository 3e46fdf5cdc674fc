import WorkflowSketch.SimpleInvoice.Entity

/-!
# The slide of an invoice, in closed form

`SimpleInvoice.next` is one step of the invoice's slide. The `next_…` lemmas give it state by
state; the rest of the development reads the guards through them only.

* `classify`: the state an invoice's data calls for, or the exception of the guard that reads a
  null amount. It is what the slide computes from scratch (`settle_INIT`), from `NEW`
  (`settle_NEW`) and, on completed data without a rejection, from `COMPLETED`
  (`settle_COMPLETED`).
-/

namespace WorkflowSketch

open Lib Lib.FirstRepeat

namespace SimpleInvoice

/-- One step of the slide from state `s` on the invoice's data. -/
def next (invoice : SimpleInvoice) (s : SimpleInvoiceState) :
    Except RuntimeException SimpleInvoiceState :=
  WorkFlow.next SimpleInvoiceWorkFlowStateMachine invoice s

variable {invoice : SimpleInvoice}

/-- The amount needs the second approval. -/
def needsSecondApproval (amount : BigDecimal) : Prop := 0 ≤ amount.compareTo approvalThreshold

instance (amount : BigDecimal) : Decidable (needsSecondApproval amount) :=
  inferInstanceAs (Decidable (0 ≤ amount.compareTo approvalThreshold))

/-- By value: the amount is at least `10000`, whatever its scale. -/
theorem needsSecondApproval_iff (amount : BigDecimal) :
    needsSecondApproval amount ↔ 10000 ≤ amount.toRat := by
  unfold needsSecondApproval
  rw [BigDecimal.compareTo_nonneg_iff]
  norm_num [approvalThreshold, BigDecimal.toRat]

/-! ## One step -/

/-- The guards read the data of the invoice, not its state. -/
theorem isSatisfiedFor_set (guard : SimpleInvoiceGuard) (s : Option SimpleInvoiceState) :
    guard.isSatisfiedFor (WithWorkFlow.setWorkFlowState invoice s) =
      guard.isSatisfiedFor invoice := by
  cases guard <;> rfl

theorem next_eq (s : SimpleInvoiceState) :
    invoice.next s = WorkFlow.firstSatisfied invoice s s.canTransitionTo := by
  refine WorkFlow.next_eq_of_data _ fun targetAndGuard hmem => ?_
  obtain ⟨tg, -, rfl⟩ := List.mem_map.mp hmem
  exact isSatisfiedFor_set tg.2 (some s)

theorem next_INIT : invoice.next .INIT = .ok .NEW := rfl

theorem next_NEW :
    invoice.next .NEW = .ok (if invoice.completedOn.isSome then .COMPLETED
      else if invoice.discardedOn.isSome then .DISCARDED else .NEW) := by
  rw [next_eq]
  simp only [SimpleInvoiceState.canTransitionTo, SimpleInvoiceState.targetsAndGuards,
    List.map_cons, List.map_nil, WorkFlow.firstSatisfied, SimpleInvoiceGuard.isSatisfiedFor]
  cases invoice.completedOn.isSome <;> cases invoice.discardedOn.isSome <;> rfl

/-- `REJECT` stands first among the guards of `COMPLETED`. -/
theorem next_COMPLETED_of_rejected (h : invoice.rejectedOn.isSome) :
    invoice.next .COMPLETED = .ok .NEW := by
  rw [next_eq]
  simp only [SimpleInvoiceState.canTransitionTo, SimpleInvoiceState.targetsAndGuards,
    List.map_cons, WorkFlow.firstSatisfied, SimpleInvoiceGuard.isSatisfiedFor, h]

theorem next_COMPLETED_of_unapproved (hr : invoice.rejectedOn = none)
    (hm : invoice.approvedByManagerOn = none) : invoice.next .COMPLETED = .ok .COMPLETED := by
  rw [next_eq]
  simp [SimpleInvoiceState.canTransitionTo, SimpleInvoiceState.targetsAndGuards,
    WorkFlow.firstSatisfied, SimpleInvoiceGuard.isSatisfiedFor, hr, hm]

/-- Of an approved invoice the amount decides; a null amount is dereferenced. -/
theorem next_COMPLETED_of_approved (hr : invoice.rejectedOn = none)
    (hm : invoice.approvedByManagerOn.isSome) :
    invoice.next .COMPLETED = match invoice.amount with
      | none => .error .nullPointerException
      | some amount =>
        .ok (if needsSecondApproval amount then .APPROVED_BY_MANAGER else .PAYABLE) := by
  rw [next_eq]
  cases ha : invoice.amount with
  | none =>
    simp [SimpleInvoiceState.canTransitionTo, SimpleInvoiceState.targetsAndGuards,
      WorkFlow.firstSatisfied, SimpleInvoiceGuard.isSatisfiedFor, hr, hm, ha]
  | some amount =>
    by_cases hlarge : needsSecondApproval amount
    · have h : (0 : Int) ≤ amount.compareTo approvalThreshold := hlarge
      simp [SimpleInvoiceState.canTransitionTo, SimpleInvoiceState.targetsAndGuards,
        WorkFlow.firstSatisfied, SimpleInvoiceGuard.isSatisfiedFor, hr, hm, ha, h, hlarge]
    · have h : amount.compareTo approvalThreshold < 0 := not_le.mp hlarge
      have h' : ¬ 0 ≤ amount.compareTo approvalThreshold := hlarge
      simp [SimpleInvoiceState.canTransitionTo, SimpleInvoiceState.targetsAndGuards,
        WorkFlow.firstSatisfied, SimpleInvoiceGuard.isSatisfiedFor, hr, hm, ha, h, h', hlarge]

theorem next_APPROVED_BY_MANAGER :
    invoice.next .APPROVED_BY_MANAGER = .ok (if invoice.rejectedOn.isSome then .NEW
      else if invoice.approvedByCountryLeaderOn.isSome then .PAYABLE
      else .APPROVED_BY_MANAGER) := by
  rw [next_eq]
  simp only [SimpleInvoiceState.canTransitionTo, SimpleInvoiceState.targetsAndGuards,
    List.map_cons, List.map_nil, WorkFlow.firstSatisfied, SimpleInvoiceGuard.isSatisfiedFor]
  cases invoice.rejectedOn.isSome <;> cases invoice.approvedByCountryLeaderOn.isSome <;> rfl

theorem next_PAYABLE :
    invoice.next .PAYABLE = .ok (if invoice.rejectedOn.isSome then .NEW
      else if invoice.paidOn.isSome then .PAID else .PAYABLE) := by
  rw [next_eq]
  simp only [SimpleInvoiceState.canTransitionTo, SimpleInvoiceState.targetsAndGuards,
    List.map_cons, List.map_nil, WorkFlow.firstSatisfied, SimpleInvoiceGuard.isSatisfiedFor]
  cases invoice.rejectedOn.isSome <;> cases invoice.paidOn.isSome <;> rfl

theorem next_PAID : invoice.next .PAID = .ok .PAID := rfl

theorem next_DISCARDED : invoice.next .DISCARDED = .ok .DISCARDED := rfl

/-- A step stays, or takes a target of the state whose guard is satisfied. -/
theorem target_of_next {s t : SimpleInvoiceState} (h : invoice.next s = .ok t) :
    t = s ∨ ∃ guard, (t, guard) ∈ s.targetsAndGuards ∧ guard.isSatisfiedFor invoice = .ok true := by
  rw [next_eq] at h
  rcases WorkFlow.target_of_firstSatisfied h with rfl | ⟨tg, htg, rfl, hguard⟩
  · exact Or.inl rfl
  · obtain ⟨tg, hmem, rfl⟩ := List.mem_map.mp htg
    exact Or.inr ⟨tg.2, hmem, hguard⟩

/-- No step leads back to `INIT`. -/
theorem next_ne_INIT {s t : SimpleInvoiceState} (hs : s ≠ .INIT) (h : invoice.next s = .ok t) :
    t ≠ .INIT := by
  rcases target_of_next h with rfl | ⟨guard, hmem, -⟩
  · exact hs
  · rintro rfl
    cases s <;> simp [SimpleInvoiceState.targetsAndGuards] at hmem

/-- The order in which the states stand in the enumeration. -/
def rank : SimpleInvoiceState → Nat
  | .INIT => 0
  | .NEW => 1
  | .COMPLETED => 2
  | .APPROVED_BY_MANAGER => 3
  | .PAYABLE => 4
  | .PAID => 5
  | .DISCARDED => 6

/-- Without a rejection no step leads back. -/
theorem rank_lt_of_next (hr : invoice.rejectedOn = none) (s t : SimpleInvoiceState)
    (h : invoice.next s = .ok t) : t = s ∨ rank s < rank t := by
  rcases target_of_next h with rfl | ⟨guard, hmem, hguard⟩
  · exact Or.inl rfl
  · have hreject : guard ≠ .REJECT := by
      rintro rfl
      simp [SimpleInvoiceGuard.isSatisfiedFor, hr] at hguard
    cases s <;> simp [SimpleInvoiceState.targetsAndGuards] at hmem <;> grind [rank]

/-! ## The slide -/

/-- The state that the data of an invoice calls for. -/
def classify (invoice : SimpleInvoice) : Except RuntimeException SimpleInvoiceState :=
  if invoice.completedOn = none then
    .ok (if invoice.discardedOn = none then .NEW else .DISCARDED)
  else if invoice.rejectedOn ≠ none then .ok .NEW
  else if invoice.approvedByManagerOn = none then .ok .COMPLETED
  else match invoice.amount with
    | none => .error .nullPointerException
    | some amount =>
      if needsSecondApproval amount ∧ invoice.approvedByCountryLeaderOn = none then
        .ok .APPROVED_BY_MANAGER
      else .ok (if invoice.paidOn = none then .PAYABLE else .PAID)

theorem settle_PAYABLE (hr : invoice.rejectedOn = none) :
    settle invoice.next .PAYABLE =
      .ok (if invoice.paidOn = none then .PAYABLE else .PAID) := by
  rcases hp : invoice.paidOn with _ | paidOn
  · rw [if_pos rfl]
    exact settle_of_fixed (by simp [next_PAYABLE, hr, hp])
  · have hstep : invoice.next .PAYABLE = .ok .PAID := by simp [next_PAYABLE, hr, hp]
    rw [settle_of_rank (rank_lt_of_next hr) hstep, settle_of_fixed next_PAID]
    simp

theorem settle_APPROVED_BY_MANAGER (hr : invoice.rejectedOn = none) :
    settle invoice.next .APPROVED_BY_MANAGER =
      if invoice.approvedByCountryLeaderOn = none then .ok .APPROVED_BY_MANAGER
      else .ok (if invoice.paidOn = none then .PAYABLE else .PAID) := by
  rcases hl : invoice.approvedByCountryLeaderOn with _ | approvedOn
  · rw [if_pos rfl]
    exact settle_of_fixed (by simp [next_APPROVED_BY_MANAGER, hr, hl])
  · have hstep : invoice.next .APPROVED_BY_MANAGER = .ok .PAYABLE := by
      simp [next_APPROVED_BY_MANAGER, hr, hl]
    rw [settle_of_rank (rank_lt_of_next hr) hstep, settle_PAYABLE hr]
    simp

/-- **From `COMPLETED`**, on completed data without a rejection, the slide is `classify`. -/
theorem settle_COMPLETED (hc : invoice.completedOn ≠ none) (hr : invoice.rejectedOn = none) :
    settle invoice.next .COMPLETED = invoice.classify := by
  rcases hm : invoice.approvedByManagerOn with _ | approvedOn
  · rw [settle_of_fixed (next_COMPLETED_of_unapproved hr hm)]
    simp [classify, hc, hr, hm]
  · have hm' : invoice.approvedByManagerOn.isSome := by simp [hm]
    have hnext := next_COMPLETED_of_approved hr hm'
    rcases ha : invoice.amount with _ | amount
    · rw [ha] at hnext
      rw [settle_of_error hnext]
      simp [classify, hc, hr, hm, ha]
    · rw [ha] at hnext
      rw [settle_of_rank (rank_lt_of_next hr) hnext]
      by_cases hlarge : needsSecondApproval amount
      · rw [if_pos hlarge, settle_APPROVED_BY_MANAGER hr]
        simp [classify, hc, hr, hm, ha, hlarge]
      · rw [if_neg hlarge, settle_PAYABLE hr]
        simp [classify, hc, hr, hm, ha, hlarge]

/-- **From `NEW`** the slide is `classify`. -/
theorem settle_NEW : settle invoice.next .NEW = invoice.classify := by
  rcases hc : invoice.completedOn with _ | completedOn
  · rcases hd : invoice.discardedOn with _ | discardedOn
    · rw [settle_of_fixed (by simp [next_NEW, hc, hd])]
      simp [classify, hc, hd]
    · have hstep : invoice.next .NEW = .ok .DISCARDED := by simp [next_NEW, hc, hd]
      have hend : settle invoice.next .NEW = .ok .DISCARDED := settle_eq_ok_iff.mpr
        ⟨[.NEW, .DISCARDED], .cons hstep (.cons next_DISCARDED (.nil _)), by simp, by simp⟩
      simp [hend, classify, hc, hd]
  · have hstep : invoice.next .NEW = .ok .COMPLETED := by simp [next_NEW, hc]
    rcases hr : invoice.rejectedOn with _ | rejectedOn
    · rw [settle_of_rank (rank_lt_of_next hr) hstep, settle_COMPLETED (by simp [hc]) hr]
    · -- the cycle through `REJECT`: the loop stops when it is back in `NEW`
      have hback : invoice.next .COMPLETED = .ok .NEW := next_COMPLETED_of_rejected (by simp [hr])
      have hend : settle invoice.next .NEW = .ok .NEW := settle_eq_ok_iff.mpr
        ⟨[.NEW, .COMPLETED], .cons hstep (.cons hback (.nil _)), by simp, by simp⟩
      simp [hend, classify, hc, hr]

/-- **From scratch** the slide is `classify`. -/
theorem settle_INIT : settle invoice.next .INIT = invoice.classify := by
  have hnew : settle invoice.next .INIT = settle invoice.next .NEW :=
    settle_step (P := (· ≠ .INIT)) (fun _ _ hs h => next_ne_INIT hs h) next_INIT (by simp)
      (by simp)
  rw [hnew, settle_NEW]

end SimpleInvoice

end WorkflowSketch
