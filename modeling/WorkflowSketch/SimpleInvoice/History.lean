import WorkflowSketch.SimpleInvoice.Invariant

/-!
# Approvals and end states over a history

What the state of an invoice says about the steps that led to it.

* **`approved_of_run`**: an invoice that may be paid was approved by a manager since it was last
  completed exactly if that completion found no approval. `reject` takes the completion back but
  not the approvals, so the second completion of a rejected invoice slides past the manager.
* **`secondApproval_of_run`**: the threshold is read when an invoice leaves `COMPLETED`, and never
  again while it is edited afterwards.
* **`endStates_of_run`**: a discarded invoice stays discarded, and a paid one stays paid unless it
  is started from scratch after its amount was raised over the threshold.
-/

namespace WorkflowSketch

open Lib Lib.Transact

namespace SimpleInvoice

variable {invoice invoice' : SimpleInvoice} {action : Action} {c₀ c : Config}
  {tr : Trace Config Action}

/-! ## The manager's approval -/

/-- `complete`. -/
def Action.isComplete : Action → Bool
  | .complete _ _ => true
  | _ => false

/-- `approveAsManager`. -/
def Action.isApproveAsManager : Action → Bool
  | .approveAsManager _ => true
  | _ => false

/-- The invoice was completed, and a manager has approved it since it last was. -/
def ApprovedSinceCompletion (tr : Trace Config Action) : Prop :=
  (last? Action.isComplete tr).isSome = true ∧
    ∃ step ∈ since Action.isComplete tr, step.2.isApproveAsManager = true

instance (tr : Trace Config Action) : Decidable (ApprovedSinceCompletion tr) :=
  inferInstanceAs (Decidable (_ ∧ _))

/-- Only the manager writes the date of his approval, and nobody clears it. -/
theorem approvedByManagerOn_of_outcome (h : outcome action invoice = .ok invoice') :
    if action.isApproveAsManager then invoice'.approvedByManagerOn ≠ none
    else invoice'.approvedByManagerOn = invoice.approvedByManagerOn := by
  rw [outcome_eq_body h]
  cases action with
  | approveAsManager now => exact Option.some_ne_none now
  | _ => rfl

/-- Only `complete` sets the date of the completion. -/
theorem completedOn_of_outcome (h : outcome action invoice = .ok invoice')
    (ha : action.isComplete = false) (hc : invoice'.completedOn ≠ none) :
    invoice.completedOn ≠ none := by
  rw [outcome_eq_body h] at hc
  cases action with
  | complete assignNextTaskTo now => exact absurd ha (by simp [Action.isComplete])
  | reject now => exact absurd rfl hc
  | _ => exact hc

/-- What the date of the approval says about the history: of the last completion, and of the
approvals since. -/
structure ApprovalHistory (tr : Trace Config Action) (c : Config) : Prop where
  completed : c.invoice.val.completedOn ≠ none → (last? Action.isComplete tr).isSome = true
  kept : ∀ step, last? Action.isComplete tr = some step →
    step.1.invoice.val.approvedByManagerOn ≠ none → c.invoice.val.approvedByManagerOn ≠ none
  since_iff : ∀ step, last? Action.isComplete tr = some step →
    c.invoice.val.approvedByManagerOn ≠ none →
      ((∃ step ∈ since Action.isComplete tr, step.2.isApproveAsManager = true) ↔
        step.1.invoice.val.approvedByManagerOn = none)

/-- A completion starts the history anew. -/
theorem ApprovalHistory.complete {c' : Config} (hcomplete : action.isComplete = true)
    (hout : outcome action c.invoice.val = .ok c'.invoice.val) :
    ApprovalHistory (tr ++ [(c, action)]) c' := by
  have happrove : action.isApproveAsManager = false := by
    cases action <;> first | rfl | exact absurd hcomplete (by simp [Action.isComplete])
  have hm : c'.invoice.val.approvedByManagerOn = c.invoice.val.approvedByManagerOn := by
    have hm := approvedByManagerOn_of_outcome hout
    rwa [happrove, if_neg (by simp)] at hm
  have hlast : last? Action.isComplete (tr ++ [(c, action)]) = some (c, action) := by
    rw [last?_concat, if_pos hcomplete]
  refine ⟨fun _ => by rw [hlast]; rfl, fun step hstep => ?_, fun step hstep => ?_⟩
  · obtain rfl : (c, action) = step := Option.some.inj (hlast.symm.trans hstep)
    rw [hm]
    exact id
  · obtain rfl : (c, action) = step := Option.some.inj (hlast.symm.trans hstep)
    rw [since_concat, if_pos hcomplete, hm]
    simp

/-- Any other step belongs to the last completion. -/
theorem ApprovalHistory.other {c' : Config} (hh : ApprovalHistory tr c)
    (hw : c.invoice.val.WellFormed) (hen : action.isEnabled c.invoice.val = true)
    (hcomplete : action.isComplete = false)
    (hout : outcome action c.invoice.val = .ok c'.invoice.val) :
    ApprovalHistory (tr ++ [(c, action)]) c' := by
  have hm := approvedByManagerOn_of_outcome hout
  have hlast : last? Action.isComplete (tr ++ [(c, action)]) = last? Action.isComplete tr := by
    rw [last?_concat, hcomplete]
    rfl
  have hsince : since Action.isComplete (tr ++ [(c, action)]) =
      (c, action) :: since Action.isComplete tr := by
    rw [since_concat, hcomplete]
    rfl
  refine ⟨fun hc => ?_, fun step hstep hstale => ?_, fun step hstep happroved => ?_⟩
  · rw [hlast]
    exact hh.completed (completedOn_of_outcome hout hcomplete hc)
  · rw [hlast] at hstep
    split at hm
    · exact hm
    · rw [hm]
      exact hh.kept step hstep hstale
  · rw [hlast] at hstep
    rw [hsince]
    by_cases happrove : action.isApproveAsManager = true
    · -- an approval is offered in `COMPLETED` only, where there is none yet
      have hnone : c.invoice.val.approvedByManagerOn = none := by
        cases action with
        | approveAsManager now =>
          exact (hw.fits .COMPLETED (isEnabled_approveAsManager.mp hen)).2.2
        | _ => exact absurd happrove (by simp [Action.isApproveAsManager])
      refine iff_of_true ⟨_, List.mem_cons_self, happrove⟩ ?_
      by_contra hstale
      exact hh.kept step hstep hstale hnone
    · rw [if_neg happrove] at hm
      rw [hm] at happroved
      rw [← hh.since_iff step hstep happroved]
      simp [happrove]

theorem ApprovalHistory.commit {c' : Config} (hh : ApprovalHistory tr c)
    (hw : c.invoice.val.WellFormed) (hen : action.isEnabled c.invoice.val = true)
    (hout : outcome action c.invoice.val = .ok c'.invoice.val) :
    ApprovalHistory (tr ++ [(c, action)]) c' := by
  cases hcomplete : action.isComplete with
  | true => exact ApprovalHistory.complete hcomplete hout
  | false => exact hh.other hw hen hcomplete hout

theorem approvalHistory_of_run (h₀ : c₀.IsCreated) (h : Run SimpleInvoiceWorkFlow c₀ tr c) :
    ApprovalHistory tr c := by
  refine keepOutcome_of_run ApprovalHistory.commit h₀.resting.wellFormed ?_ h
  obtain ⟨⟨invoiceNumber, hval⟩, -⟩ := h₀
  exact ⟨fun hc => absurd rfl (hval ▸ hc), fun step hstep => absurd hstep (by simp [last?]),
    fun step hstep => absurd hstep (by simp [last?])⟩

/-- **An invoice that may be paid was approved since its last completion** exactly if that
completion found no approval; in particular if no completion of its history did. -/
theorem approved_of_run (h₀ : c₀.IsCreated) (h : Run SimpleInvoiceWorkFlow c₀ tr c)
    (hs : c.invoice.val.invoiceState = some .PAYABLE ∨ c.invoice.val.invoiceState = some .PAID) :
    (ApprovedSinceCompletion tr ↔ ∃ step, last? Action.isComplete tr = some step ∧
      step.1.invoice.val.approvedByManagerOn = none) ∧
    ((∀ step ∈ tr, step.2.isComplete = true → step.1.invoice.val.approvedByManagerOn = none) →
      ApprovedSinceCompletion tr) := by
  have hw := (resting_of_run h₀ h).wellFormed
  have hh := approvalHistory_of_run h₀ h
  have hdates : c.invoice.val.completedOn ≠ none ∧ c.invoice.val.approvedByManagerOn ≠ none := by
    rcases hs with hs | hs <;> exact ⟨(hw.fits _ hs).1, (hw.fits _ hs).2.2.1⟩
  obtain ⟨step, hstep⟩ := Option.isSome_iff_exists.mp (hh.completed hdates.1)
  have hiff := hh.since_iff step hstep hdates.2
  have hmain : ApprovedSinceCompletion tr ↔ ∃ step, last? Action.isComplete tr = some step ∧
      step.1.invoice.val.approvedByManagerOn = none := by
    simp [ApprovedSinceCompletion, hstep, hiff]
  obtain ⟨hmem, hcomplete⟩ := mem_of_last? hstep
  exact ⟨hmain, fun hall => hmain.mpr ⟨step, hstep, hall step hmem hcomplete⟩⟩

/-- Completed, approved, rejected, and completed again. -/
def recompletion : List Action :=
  [.initializeState, .setAmount (some ⟨500, 0⟩), .setInvoiceType (some .CAPEX),
    .complete none ⟨1⟩, .approveAsManager ⟨2⟩, .reject ⟨3⟩, .complete none ⟨4⟩]

/-- The second completion slides to `PAYABLE`, past the manager. -/
theorem not_approved_of_recompletion :
    ¬ ∀ (c₀ c : Config) (tr : Trace Config Action), c₀.IsCreated →
      Run SimpleInvoiceWorkFlow c₀ tr c →
        c.invoice.val.invoiceState = some .PAYABLE ∨ c.invoice.val.invoiceState = some .PAID →
          ApprovedSinceCompletion tr := by
  intro h
  have hrun := run_exec (S := SimpleInvoiceWorkFlow) (s := .fresh) (l := recompletion) (by decide)
  exact absurd (h _ _ _ Config.fresh_isCreated hrun (Or.inl (by decide))) (by decide)

/-- A first approval is one since the completion. -/
theorem approved_of_approval :
    ApprovedSinceCompletion ((exec SimpleInvoiceWorkFlow .fresh approval).get (by decide)).1 :=
  (approved_of_run Config.fresh_isCreated (run_exec (by decide)) (Or.inl (by decide))).2 (by decide)

/-! ## The second approval -/

/-- The manager's approval counts: the states that `COMPLETED` leads to. -/
def IsApproved (invoice : SimpleInvoice) : Prop :=
  invoice.invoiceState ∈ [some .APPROVED_BY_MANAGER, some .PAYABLE, some .PAID]

instance (invoice : SimpleInvoice) : Decidable invoice.IsApproved :=
  inferInstanceAs (Decidable (_ ∈ _))

theorem isApproved_iff : invoice.IsApproved ↔ invoice.invoiceState = some .APPROVED_BY_MANAGER ∨
    invoice.invoiceState = some .PAYABLE ∨ invoice.invoiceState = some .PAID := by
  simp [IsApproved]

/-- The second approval was given, or is awaited. -/
def AwaitsOrHasApproval (invoice : SimpleInvoice) : Prop :=
  invoice.invoiceState = some .APPROVED_BY_MANAGER ∨ invoice.approvedByCountryLeaderOn ≠ none

/-- The slide reads the amount: over the threshold it awaits the second approval. -/
theorem amount_of_reclassified (h : invoice.reclassified = .ok invoice')
    (happroved : invoice'.IsApproved) :
    ∃ amount, invoice.amount = some amount ∧
      (needsSecondApproval amount → invoice'.AwaitsOrHasApproval) := by
  obtain ⟨s, hs, rfl⟩ := reclassified_eq_ok_iff.mp h
  have hfits := amountFits_of_classify hs
  rcases isApproved_iff.mp happroved with happ | happ | happ
  · obtain rfl : s = .APPROVED_BY_MANAGER := by simpa [inState] using happ
    obtain ⟨amount, ha, -⟩ := hfits
    exact ⟨amount, ha, fun _ => Or.inl rfl⟩
  · obtain rfl : s = .PAYABLE := by simpa [inState] using happ
    obtain ⟨amount, ha, hl⟩ := hfits
    exact ⟨amount, ha, fun hlarge => Or.inr (hl hlarge)⟩
  · obtain rfl : s = .PAID := by simpa [inState] using happ
    obtain ⟨amount, ha, hl⟩ := hfits
    exact ⟨amount, ha, fun hlarge => Or.inr (hl hlarge)⟩

/-- A step into the approved states reads the amount. -/
theorem amount_of_outcome (hen : action.isEnabled invoice = true)
    (h : outcome action invoice = .ok invoice') (hbefore : ¬ invoice.IsApproved)
    (hafter : invoice'.IsApproved) :
    ∃ amount, invoice.amount = some amount ∧
      (needsSecondApproval amount → invoice'.AwaitsOrHasApproval) := by
  cases action with
  | initializeState =>
    simp only [outcome] at h
    split at h
    · exact amount_of_reclassified h hafter
    · cases h; exact absurd hafter hbefore
  | deleteState => cases h; exact absurd hafter (by simp [IsApproved, deleteState])
  | setInvoiceType invoiceType => cases h; exact absurd hafter hbefore
  | setAmount amount => cases h; exact absurd hafter hbefore
  | complete assignNextTaskTo now =>
    have hre : (invoice.complete now).reclassified = .ok invoice' := h
    have hread := amount_of_reclassified hre hafter
    exact hread
  | approveAsManager now =>
    have hre : (invoice.approveAsManager now).reclassified = .ok invoice' := h
    have hread := amount_of_reclassified hre hafter
    exact hread
  | approveAsCountryLeader now =>
    exact absurd (isApproved_iff.mpr (Or.inl (isEnabled_approveAsCountryLeader.mp hen))) hbefore
  | pay now => exact absurd (isApproved_iff.mpr (Or.inr (Or.inl (isEnabled_pay.mp hen)))) hbefore
  | discard now => cases h; exact absurd hafter (by simp [IsApproved, inState])
  | reject now => cases h; exact absurd hafter (by simp [IsApproved, inState])

/-- Within the approved states only the country leader takes an invoice past his approval. -/
theorem awaitsOrHasApproval_of_outcome (hen : action.isEnabled invoice = true)
    (h : outcome action invoice = .ok invoice') (hbefore : invoice.IsApproved)
    (hafter : invoice'.IsApproved) (ha : invoice.AwaitsOrHasApproval) :
    invoice'.AwaitsOrHasApproval := by
  cases action with
  | initializeState =>
    have hs : invoice.invoiceState ≠ none := by
      rcases isApproved_iff.mp hbefore with hs | hs | hs <;> simp [hs]
    simp only [outcome, if_neg hs] at h
    cases h; exact ha
  | deleteState => cases h; exact absurd hafter (by simp [IsApproved, deleteState])
  | setInvoiceType invoiceType => cases h; exact ha
  | setAmount amount => cases h; exact ha
  | complete assignNextTaskTo now =>
    exact absurd hbefore (by simp [IsApproved, (isEnabled_complete.mp hen).1])
  | approveAsManager now =>
    exact absurd hbefore (by simp [IsApproved, isEnabled_approveAsManager.mp hen])
  | approveAsCountryLeader now => cases h; exact Or.inr (Option.some_ne_none now)
  | pay now =>
    cases h
    exact Or.inr (ha.resolve_left (by simp [isEnabled_pay.mp hen]))
  | discard now => cases h; exact absurd hafter (by simp [IsApproved, inState])
  | reject now => cases h; exact absurd hafter (by simp [IsApproved, inState])

/-- The step by which an invoice entered the approved states read its amount: over the threshold
it then awaits the second approval or has it. -/
def SecondApprovalHistory (tr : Trace Config Action) (c : Config) : Prop :=
  ∃ pre b a post amount, tr = pre ++ (b, a) :: post ∧ ¬ b.invoice.val.IsApproved ∧
    (∀ step ∈ post, step.1.invoice.val.IsApproved) ∧ b.invoice.val.amount = some amount ∧
    (needsSecondApproval amount → c.invoice.val.AwaitsOrHasApproval)

theorem SecondApprovalHistory.commit {c' : Config}
    (hh : c.invoice.val.IsApproved → SecondApprovalHistory tr c)
    (hen : action.isEnabled c.invoice.val = true)
    (hout : outcome action c.invoice.val = .ok c'.invoice.val)
    (hafter : c'.invoice.val.IsApproved) : SecondApprovalHistory (tr ++ [(c, action)]) c' := by
  by_cases hbefore : c.invoice.val.IsApproved
  · obtain ⟨pre, b, a, post, amount, rfl, hb, hpost, hamount, hl⟩ := hh hbefore
    refine ⟨pre, b, a, post ++ [(c, action)], amount, by simp, hb, ?_, hamount,
      fun hlarge => awaitsOrHasApproval_of_outcome hen hout hbefore hafter (hl hlarge)⟩
    intro step hstep
    rcases List.mem_append.mp hstep with hstep | hstep
    · exact hpost step hstep
    · rw [List.mem_singleton.mp hstep]; exact hbefore
  · obtain ⟨amount, hamount, hl⟩ := amount_of_outcome hen hout hbefore hafter
    exact ⟨tr, c, action, [], amount, rfl, hbefore, by simp, hamount, hl⟩

theorem secondApprovalHistory_of_run (h₀ : c₀.IsCreated) (h : Run SimpleInvoiceWorkFlow c₀ tr c) :
    c.invoice.val.IsApproved → SecondApprovalHistory tr c := by
  refine keepOutcome_of_run (P := fun tr c => c.invoice.val.IsApproved → SecondApprovalHistory tr c)
    (fun hh _ hen hout => SecondApprovalHistory.commit hh hen hout) h₀.resting.wellFormed
    (fun happroved => ?_) h
  obtain ⟨⟨invoiceNumber, hval⟩, -⟩ := h₀
  rw [hval] at happroved
  exact absurd happroved (by simp [IsApproved, create])

/-- **The second approval was not bypassed** when the amount was read: by the step that last took
the invoice into the approved states. -/
theorem secondApproval_of_run (h₀ : c₀.IsCreated) (h : Run SimpleInvoiceWorkFlow c₀ tr c)
    (hs : c.invoice.val.invoiceState = some .PAYABLE ∨ c.invoice.val.invoiceState = some .PAID) :
    ∃ pre b a post amount, tr = pre ++ (b, a) :: post ∧ ¬ b.invoice.val.IsApproved ∧
      (∀ step ∈ post, step.1.invoice.val.IsApproved) ∧ b.invoice.val.amount = some amount ∧
      (amount.toRat < 10000 ∨ c.invoice.val.approvedByCountryLeaderOn ≠ none) := by
  obtain ⟨pre, b, a, post, amount, htr, hb, hpost, hamount, hl⟩ :=
    secondApprovalHistory_of_run h₀ h (isApproved_iff.mpr (Or.inr hs))
  refine ⟨pre, b, a, post, amount, htr, hb, hpost, hamount, ?_⟩
  by_cases hlarge : needsSecondApproval amount
  · refine Or.inr ((hl hlarge).resolve_left ?_)
    rcases hs with hs | hs <;> simp [hs]
  · exact Or.inl (not_le.mp (mt (needsSecondApproval_iff amount).mpr hlarge))

/-- The amount is raised over the threshold when the invoice may be paid. -/
theorem not_secondApproval_of_raised :
    ¬ ∀ (c₀ c : Config) (tr : Trace Config Action), c₀.IsCreated →
      Run SimpleInvoiceWorkFlow c₀ tr c →
        c.invoice.val.invoiceState = some .PAYABLE ∨ c.invoice.val.invoiceState = some .PAID →
          ∃ amount, c.invoice.val.amount = some amount ∧
            (amount.toRat < 10000 ∨ c.invoice.val.approvedByCountryLeaderOn ≠ none) := by
  intro h
  have hrun := run_exec (S := SimpleInvoiceWorkFlow) (s := .fresh)
    (l := approval ++ [.setAmount (some ⟨20000, 0⟩)]) (by decide)
  obtain ⟨amount, hamount, hl⟩ := h _ _ _ Config.fresh_isCreated hrun (Or.inl (by decide))
  obtain rfl : ⟨20000, 0⟩ = amount := Option.some.inj ((by decide : _ = some _).symm.trans hamount)
  rcases hl with hl | hl
  · exact absurd hl (by norm_num [BigDecimal.toRat])
  · exact hl (by decide)

/-- Completed with a large amount, and approved twice. -/
def secondApproval : List Action :=
  [.initializeState, .setAmount (some ⟨1000000, 2⟩), .setInvoiceType (some .CAPEX),
    .complete none ⟨1⟩, .approveAsManager ⟨2⟩, .approveAsCountryLeader ⟨3⟩]

/-- `10000.00` needs the second approval, and had it. -/
theorem secondApproval_of_secondApproval :
    ∃ pre b a post amount,
      ((exec SimpleInvoiceWorkFlow .fresh secondApproval).get (by decide)).1 =
          pre ++ (b, a) :: post ∧
        ¬ b.invoice.val.IsApproved ∧ (∀ step ∈ post, step.1.invoice.val.IsApproved) ∧
        b.invoice.val.amount = some amount ∧ (amount.toRat < 10000 ∨
          ((exec SimpleInvoiceWorkFlow .fresh secondApproval).get
            (by decide)).2.invoice.val.approvedByCountryLeaderOn ≠ none) :=
  secondApproval_of_run Config.fresh_isCreated (run_exec (by decide)) (Or.inl (by decide))

/-! ## End states -/

/-- None of the six actions of the workflow is visible. -/
def IsHidden (invoice : SimpleInvoice) : Prop :=
  invoice.hideComplete = true ∧ invoice.hideApproveAsManager = true ∧
    invoice.hideApproveAsCountryLeader = true ∧ invoice.hidePay = true ∧
    invoice.hideDiscard = true ∧ invoice.hideReject = true

/-- The invoice is in the end state `s`, or its state was deleted. -/
def EndsIn (invoice : SimpleInvoice) (s : SimpleInvoiceState) : Prop :=
  invoice.invoiceState = some s ∨ invoice.invoiceState = none

theorem EndsIn.isHidden {s : SimpleInvoiceState} (hs : s = .PAID ∨ s = .DISCARDED)
    (h : invoice.EndsIn s) : invoice.IsHidden := by
  rcases h with h | h
  · rcases hs with rfl | rfl <;> simp [IsHidden, hideComplete, hideApproveAsManager,
      hideApproveAsCountryLeader, hidePay, hideDiscard, hideReject, h]
  · simp [IsHidden, hideComplete, hideApproveAsManager, hideApproveAsCountryLeader, hidePay,
      hideDiscard, hideReject, h]

/-- In an end state only a start from scratch, the deletion of the state and the edits are left. -/
theorem outcome_of_endsIn {s : SimpleInvoiceState} (hs : s = .PAID ∨ s = .DISCARDED)
    (h : invoice.EndsIn s) (hen : action.isEnabled invoice = true)
    (hout : outcome action invoice = .ok invoice') :
    (action = .initializeState ∧ invoice.invoiceState = none ∧
        invoice.reclassified = .ok invoice') ∨
      (invoice'.EndsIn s ∧ ∃ invoiceState invoiceType amount, invoice' =
        { invoice with invoiceState, invoiceType, amount }) := by
  obtain ⟨h₁, h₂, h₃, h₄, h₅, h₆⟩ := h.isHidden hs
  cases action with
  | initializeState =>
    simp only [outcome] at hout
    split at hout
    · rename_i hnone
      exact Or.inl ⟨rfl, hnone, hout⟩
    · cases hout; exact Or.inr ⟨h, _, _, _, rfl⟩
  | deleteState => cases hout; exact Or.inr ⟨Or.inr rfl, _, _, _, rfl⟩
  | setInvoiceType invoiceType => cases hout; exact Or.inr ⟨h, _, _, _, rfl⟩
  | setAmount amount => cases hout; exact Or.inr ⟨h, _, _, _, rfl⟩
  | complete assignNextTaskTo now => exact absurd hen (by simp [Action.isEnabled, h₁])
  | approveAsManager now => exact absurd hen (by simp [Action.isEnabled, h₂])
  | approveAsCountryLeader now => exact absurd hen (by simp [Action.isEnabled, h₃])
  | pay now => exact absurd hen (by simp [Action.isEnabled, h₄])
  | discard now => exact absurd hen (by simp [Action.isEnabled, h₅])
  | reject now => exact absurd hen (by simp [Action.isEnabled, h₆])

/-- Discarded, and not taken back by a completion. -/
structure Discarded (invoice : SimpleInvoice) : Prop where
  endsIn : invoice.EndsIn .DISCARDED
  not_completed : invoice.completedOn = none
  discarded : invoice.discardedOn ≠ none

theorem Discarded.of_outcome (h : invoice.Discarded) (hen : action.isEnabled invoice = true)
    (hout : outcome action invoice = .ok invoice') : invoice'.Discarded := by
  rcases outcome_of_endsIn (Or.inr rfl) h.endsIn hen hout with
    ⟨-, -, hre⟩ | ⟨hends, invoiceState, invoiceType, amount, rfl⟩
  · obtain ⟨s, hs, rfl⟩ := reclassified_eq_ok_iff.mp hre
    have hclassify : invoice.classify = .ok .DISCARDED := by
      simp [classify, h.not_completed, h.discarded]
    obtain rfl : .DISCARDED = s := Except.ok.inj (hclassify.symm.trans hs)
    exact ⟨Or.inl rfl, h.not_completed, h.discarded⟩
  · exact ⟨hends, h.not_completed, h.discarded⟩

/-- Paid, with the dates that led there. -/
structure Paid (invoice : SimpleInvoice) : Prop where
  endsIn : invoice.EndsIn .PAID
  completed : invoice.completedOn ≠ none
  not_rejected : invoice.rejectedOn = none
  approved : invoice.approvedByManagerOn ≠ none
  paid : invoice.paidOn ≠ none

/-- The step starts an invoice without a state from scratch, when its amount calls for a second
approval that it does not have. -/
def StartsUnapproved (step : Config × Action) : Prop :=
  step.2 = .initializeState ∧ step.1.invoice.val.invoiceState = none ∧
    (∃ amount ∈ step.1.invoice.val.amount, needsSecondApproval amount) ∧
    step.1.invoice.val.approvedByCountryLeaderOn = none

instance (step : Config × Action) : Decidable (StartsUnapproved step) :=
  inferInstanceAs (Decidable (_ ∧ _ ∧ _ ∧ _))

theorem Paid.of_outcome (h : c.invoice.val.Paid)
    (hstep : ¬ StartsUnapproved (c, action)) (hen : action.isEnabled c.invoice.val = true)
    (hout : outcome action c.invoice.val = .ok invoice') : invoice'.Paid := by
  rcases outcome_of_endsIn (Or.inl rfl) h.endsIn hen hout with
    ⟨rfl, hnone, hre⟩ | ⟨hends, invoiceState, invoiceType, amount, rfl⟩
  · obtain ⟨s, hs, rfl⟩ := reclassified_eq_ok_iff.mp hre
    obtain rfl : s = .PAID := by
      cases ha : c.invoice.val.amount with
      | none => simp [classify, h.completed, h.not_rejected, h.approved, ha] at hs
      | some amount =>
        have happroved : ¬ (needsSecondApproval amount ∧
            c.invoice.val.approvedByCountryLeaderOn = none) := fun hlarge =>
          hstep ⟨rfl, hnone, ⟨amount, ha, hlarge.1⟩, hlarge.2⟩
        simpa [classify, h.completed, h.not_rejected, h.approved, h.paid, ha, happroved]
          using hs.symm
    exact ⟨Or.inl rfl, h.completed, h.not_rejected, h.approved, h.paid⟩
  · exact ⟨hends, h.completed, h.not_rejected, h.approved, h.paid⟩

/-- **End states are final**: a discarded invoice stays discarded, and a paid one stays paid unless
it is started from scratch with an amount that calls for an approval it does not have. -/
theorem endStates_of_run {c₁ c₂ : Config} {tr₁ tr₂ : Trace Config Action} (h₀ : c₀.IsCreated)
    (h₁ : Run SimpleInvoiceWorkFlow c₀ tr₁ c₁) (h₂ : Run SimpleInvoiceWorkFlow c₁ tr₂ c₂) :
    (c₁.invoice.val.invoiceState = some .DISCARDED →
      c₂.invoice.val.EndsIn .DISCARDED ∧ c₂.invoice.val.IsHidden) ∧
    (c₁.invoice.val.invoiceState = some .PAID → (∀ step ∈ tr₂, ¬ StartsUnapproved step) →
      c₂.invoice.val.EndsIn .PAID ∧ c₂.invoice.val.IsHidden) := by
  have hw := (resting_of_run h₀ h₁).wellFormed
  constructor
  · intro hs
    have hd : c₁.invoice.val.discardedOn ≠ none := hw.fits .DISCARDED hs
    have hdiscarded : c₂.invoice.val.Discarded :=
      keepOutcome_of_run (P := fun _ c => c.invoice.val.Discarded)
        (fun hdiscarded _ hen hout => hdiscarded.of_outcome hen hout) hw
        ⟨Or.inl hs, hw.completed_or_discarded.resolve_right hd, hd⟩ h₂
    exact ⟨hdiscarded.endsIn, hdiscarded.endsIn.isHidden (Or.inr rfl)⟩
  · intro hs hall
    obtain ⟨hc, hr, hm, hp⟩ := hw.fits .PAID hs
    have hpaid : (∀ step ∈ tr₂, ¬ StartsUnapproved step) → c₂.invoice.val.Paid := by
      refine keepOutcome_of_run (P := fun tr c => (∀ step ∈ tr, ¬ StartsUnapproved step) →
        c.invoice.val.Paid) ?_ hw (fun _ => ⟨Or.inl hs, hc, hr, hm, hp⟩) h₂
      intro tr c action c' hpaid _ hen hout hall
      have hbefore := hpaid fun step hstep => hall step (List.mem_append_left _ hstep)
      exact hbefore.of_outcome (hall (c, action) (by simp)) hen hout
    exact ⟨(hpaid hall).endsIn, (hpaid hall).endsIn.isHidden (Or.inl rfl)⟩

/-- Started from scratch with a raised amount, a paid invoice awaits the second approval. -/
theorem not_endStates_of_raised :
    ¬ ∀ (c₀ c₁ c₂ : Config) (tr₁ tr₂ : Trace Config Action) (s : SimpleInvoiceState),
      c₀.IsCreated → Run SimpleInvoiceWorkFlow c₀ tr₁ c₁ → Run SimpleInvoiceWorkFlow c₁ tr₂ c₂ →
        s = .PAID ∨ s = .DISCARDED → c₁.invoice.val.invoiceState = some s →
          c₂.invoice.val.EndsIn s ∧ c₂.invoice.val.IsHidden := by
  intro h
  have hpaid := run_exec (S := SimpleInvoiceWorkFlow) (s := .fresh) (l := payment) (by decide)
  have hraised := run_exec (S := SimpleInvoiceWorkFlow)
    (s := ((exec SimpleInvoiceWorkFlow .fresh payment).get (by decide)).2)
    (l := [.deleteState, .setAmount (some ⟨20000, 0⟩), .initializeState]) (by decide)
  have hend := h _ _ _ _ _ .PAID Config.fresh_isCreated hpaid hraised (Or.inl rfl) (by decide)
  rcases hend.1 with hs | hs
  · exact absurd hs (by decide)
  · exact absurd hs (by decide)

/-- Started from scratch with its own amount, a paid invoice is paid. -/
theorem endStates_of_payment :
    ((exec SimpleInvoiceWorkFlow ((exec SimpleInvoiceWorkFlow .fresh payment).get (by decide)).2
      [.deleteState, .initializeState]).get (by decide)).2.invoice.val.EndsIn .PAID :=
  ((endStates_of_run Config.fresh_isCreated (run_exec (by decide)) (run_exec (by decide))).2
    (by decide) (by decide)).1

end SimpleInvoice

end WorkflowSketch
