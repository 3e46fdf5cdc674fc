import WorkflowSketch.SimpleInvoice.History

/-!
# Starting from scratch (`reinitialisation_works_…`)

An invoice gets its state step by step, from the state it is in, after each action. Deleting the
state and sliding from `INIT` over the dates that are left computes it a second time.

* **`transition_of_noState`**: the slide from scratch on any data, in closed form.
* `amountFits_of_run`: unless the amount of an approved invoice is edited, the amount stays what
  the state stands for.
* **`reinitialise_of_run`**: then both computations agree, on the invoice and on its tasks.
-/

namespace WorkflowSketch

open Lib Lib.Transact

namespace SimpleInvoice

open SimpleInvoiceTaskService

variable {invoice invoice' : SimpleInvoice} {action : Action} {c₀ c : Config}
  {tr : Trace Config Action}

/-! ## On any data -/

/-- **From scratch**, whatever the data: the state it leads to in terms of the dates and the value
of the amount, or the exception where a null amount is read. -/
theorem transition_of_noState (hs : invoice.invoiceState = none) :
    (invoice.completedOn = none → invoice.discardedOn ≠ none →
      SimpleInvoiceWorkFlowStateMachine.transition invoice = .ok (invoice.inState .DISCARDED)) ∧
    (invoice.completedOn = none → invoice.discardedOn = none →
      SimpleInvoiceWorkFlowStateMachine.transition invoice = .ok (invoice.inState .NEW)) ∧
    (invoice.completedOn ≠ none → invoice.rejectedOn ≠ none →
      SimpleInvoiceWorkFlowStateMachine.transition invoice = .ok (invoice.inState .NEW)) ∧
    (invoice.completedOn ≠ none → invoice.rejectedOn = none →
      (invoice.approvedByManagerOn = none →
        SimpleInvoiceWorkFlowStateMachine.transition invoice = .ok (invoice.inState .COMPLETED)) ∧
      (invoice.approvedByManagerOn ≠ none →
        (invoice.amount = none →
          SimpleInvoiceWorkFlowStateMachine.transition invoice = .error .nullPointerException) ∧
        ∀ amount, invoice.amount = some amount →
          SimpleInvoiceWorkFlowStateMachine.transition invoice = .ok (invoice.inState
            (if 10000 ≤ amount.toRat ∧ invoice.approvedByCountryLeaderOn = none then
              .APPROVED_BY_MANAGER
            else if invoice.paidOn ≠ none then .PAID
            else .PAYABLE)))) := by
  have hslide : SimpleInvoiceWorkFlowStateMachine.transition invoice = invoice.reclassified := by
    rw [transition_eq, hs, Option.getD_none, settle_INIT, reclassified]
  rw [hslide]
  refine ⟨fun hc hd => ?_, fun hc hd => ?_, fun hc hr => ?_, fun hc hr =>
    ⟨fun hm => ?_, fun hm => ⟨fun ha => ?_, fun amount ha => ?_⟩⟩⟩
  · simp [reclassified, classify, hc, hd, Except.map]
  · simp [reclassified, classify, hc, hd, Except.map]
  · simp [reclassified, classify, hc, hr, Except.map]
  · simp [reclassified, classify, hc, hr, hm, Except.map]
  · simp [reclassified, classify, hc, hr, hm, ha, Except.map]
  · simp only [← needsSecondApproval_iff, ne_eq, ite_not]
    by_cases hl : needsSecondApproval amount ∧ invoice.approvedByCountryLeaderOn = none
    · simp [reclassified, classify, hc, hr, hm, ha, hl, Except.map]
    · simp [reclassified, classify, hc, hr, hm, ha, hl, Except.map]

/-- The threshold itself, written `1E+4`, needs the second approval. -/
theorem transition_of_threshold :
    SimpleInvoiceWorkFlowStateMachine.transition
        { create "I-123" with
          amount := some ⟨1, -4⟩, completedOn := some ⟨0⟩, approvedByManagerOn := some ⟨1⟩ } =
      .ok
        { create "I-123" with
          invoiceState := some .APPROVED_BY_MANAGER, amount := some ⟨1, -4⟩,
          completedOn := some ⟨0⟩, approvedByManagerOn := some ⟨1⟩ } := by
  have h := (((@transition_of_noState
    { create "I-123" with
      amount := some ⟨1, -4⟩, completedOn := some ⟨0⟩, approvedByManagerOn := some ⟨1⟩ }
    rfl).2.2.2 (by simp) rfl).2 (by simp)).2 ⟨1, -4⟩ rfl
  rw [if_pos ⟨by norm_num [BigDecimal.toRat], rfl⟩] at h
  exact h

/-! ## In a run -/

/-- The action edits the amount, to whatever value. -/
def Action.isSetAmount : Action → Bool
  | .setAmount _ => true
  | _ => false

/-- The step edits the amount of an invoice the manager has approved. -/
def EditsApproved (step : Config × Action) : Prop :=
  step.2.isSetAmount = true ∧ step.1.invoice.val.IsApproved

instance (step : Config × Action) : Decidable (EditsApproved step) :=
  inferInstanceAs (Decidable (_ ∧ _))

theorem amountFits_inState {s t : SimpleInvoiceState} :
    (invoice.inState s).AmountFits t ↔ invoice.AmountFits t := by
  cases t <;> rfl

theorem amountFits_of_not_isApproved {s : SimpleInvoiceState} (h : ¬ invoice.IsApproved)
    (hs : invoice.invoiceState = some s) : ∀ i : SimpleInvoice, i.AmountFits s := by
  intro i
  cases s with
  | APPROVED_BY_MANAGER => exact absurd (isApproved_iff.mpr (Or.inl hs)) h
  | PAYABLE => exact absurd (isApproved_iff.mpr (Or.inr (Or.inl hs))) h
  | PAID => exact absurd (isApproved_iff.mpr (Or.inr (Or.inr hs))) h
  | _ => trivial

theorem amountFits_of_reclassified {s : SimpleInvoiceState}
    (h : invoice.reclassified = .ok invoice') (hs : invoice'.invoiceState = some s) :
    invoice'.AmountFits s := by
  obtain ⟨t, ht, rfl⟩ := reclassified_eq_ok_iff.mp h
  obtain rfl : t = s := by simpa [inState] using hs
  exact amountFits_inState.mpr (amountFits_of_classify ht)

/-- **A step that does not edit the amount of an approved invoice** leaves the amount what the
state stands for. -/
theorem amountFits_of_outcome (hstep : ¬ EditsApproved (c, action))
    (hen : action.isEnabled c.invoice.val = true)
    (hout : outcome action c.invoice.val = .ok invoice')
    (hfits : ∀ s, c.invoice.val.invoiceState = some s → c.invoice.val.AmountFits s) :
    ∀ s, invoice'.invoiceState = some s → invoice'.AmountFits s := by
  intro s hs
  cases action with
  | initializeState =>
    simp only [outcome] at hout
    split at hout
    · exact amountFits_of_reclassified hout hs
    · cases hout; exact hfits s hs
  | deleteState => cases hout; exact absurd hs (by simp [deleteState])
  | setInvoiceType invoiceType =>
    cases hout
    have hbefore := hfits s hs
    cases s <;> exact hbefore
  | setAmount amount =>
    have hunapproved : ¬ c.invoice.val.IsApproved := fun happ => hstep ⟨rfl, happ⟩
    cases hout
    exact amountFits_of_not_isApproved hunapproved hs _
  | complete assignNextTaskTo now =>
    have hre : (c.invoice.val.complete now).reclassified = .ok invoice' := hout
    exact amountFits_of_reclassified hre hs
  | approveAsManager now =>
    have hre : (c.invoice.val.approveAsManager now).reclassified = .ok invoice' := hout
    exact amountFits_of_reclassified hre hs
  | approveAsCountryLeader now =>
    obtain ⟨amount, ha, -⟩ :=
      hfits .APPROVED_BY_MANAGER (isEnabled_approveAsCountryLeader.mp hen)
    cases hout
    obtain rfl : (if c.invoice.val.paidOn = none then .PAYABLE else .PAID) = s := Option.some.inj hs
    rw [amountFits_inState]
    split
    · exact ⟨amount, ha, fun _ => Option.some_ne_none now⟩
    · exact ⟨amount, ha, fun _ => Option.some_ne_none now⟩
  | pay now =>
    obtain ⟨amount, ha, hl⟩ := hfits .PAYABLE (isEnabled_pay.mp hen)
    cases hout
    obtain rfl : .PAID = s := Option.some.inj hs
    exact ⟨amount, ha, hl⟩
  | discard now =>
    cases hout
    obtain rfl : .DISCARDED = s := Option.some.inj hs
    trivial
  | reject now =>
    cases hout
    obtain rfl : .NEW = s := Option.some.inj hs
    trivial

theorem amountFits_of_run (h₀ : c₀.IsCreated) (h : Run SimpleInvoiceWorkFlow c₀ tr c) :
    (∀ step ∈ tr, ¬ EditsApproved step) →
      ∀ s, c.invoice.val.invoiceState = some s → c.invoice.val.AmountFits s := by
  refine keepOutcome_of_run (P := fun tr c => (∀ step ∈ tr, ¬ EditsApproved step) →
    ∀ s, c.invoice.val.invoiceState = some s → c.invoice.val.AmountFits s) ?_
    h₀.resting.wellFormed (fun _ s hs => ?_) h
  · intro tr c action c' hfits _ hen hout hall
    have hbefore := hfits fun step hstep => hall step (List.mem_append_left _ hstep)
    exact amountFits_of_outcome (hall (c, action) (by simp)) hen hout hbefore
  · obtain ⟨⟨invoiceNumber, hval⟩, -⟩ := h₀
    rw [hval] at hs
    exact absurd hs (by simp [create])

/-- **Starting from scratch reproduces the state**, the data and the tasks with their assignees:
the state is deleted, and is back after the slide. -/
theorem reinitialise_of_run (h₀ : c₀.IsCreated) (h : Run SimpleInvoiceWorkFlow c₀ tr c)
    (hall : ∀ step ∈ tr, ¬ EditsApproved step) (hs : c.invoice.val.invoiceState ≠ none) :
    ∃ c₁ c₂, perform c .deleteState = .ok c₁ ∧ c₁.invoice.val.invoiceState = none ∧
      perform c₁ .initializeState = .ok c₂ ∧
      c₂.invoice = c.invoice ∧ c₂.tasks.rows = c.tasks.rows := by
  obtain ⟨s, hs⟩ := Option.ne_none_iff_exists'.mp hs
  have hrest := resting_of_run h₀ h
  have hdelete : perform c .deleteState = .ok (c.update deleteState) := rfl
  have hw : (c.update deleteState).invoice.val.WellFormed :=
    hrest.wellFormed.body .deleteState rfl
  have hclassify : c.invoice.val.classify = .ok s :=
    classify_of_fits hrest.wellFormed.completed_or_discarded (hrest.wellFormed.fits s hs)
      (amountFits_of_run h₀ h hall s hs)
  have hback : c.invoice.val.deleteState.inState s = c.invoice.val := by
    rw [inState, deleteState, ← hs]
  have hout : outcome .initializeState (c.update deleteState).invoice.val = .ok c.invoice.val :=
    reclassified_eq_ok_iff.mpr ⟨s, hclassify, hback⟩
  obtain ⟨c₂, hok, hinvoice, htasks⟩ :=
    perform_initializeState hw hout hs (hrest.tasksFit s hs)
  exact ⟨_, c₂, hdelete, rfl, hok, hinvoice, htasks⟩

theorem reinitialise_of_payment :
    ∃ c₁ c₂, perform ((exec SimpleInvoiceWorkFlow .fresh payment).get (by decide)).2 .deleteState =
        .ok c₁ ∧ c₁.invoice.val.invoiceState = none ∧ perform c₁ .initializeState = .ok c₂ ∧
      c₂.invoice = ((exec SimpleInvoiceWorkFlow .fresh payment).get (by decide)).2.invoice ∧
      c₂.tasks.rows = ((exec SimpleInvoiceWorkFlow .fresh payment).get (by decide)).2.tasks.rows :=
  reinitialise_of_run Config.fresh_isCreated (run_exec (by decide)) (by decide) (by decide)

end SimpleInvoice

end WorkflowSketch
