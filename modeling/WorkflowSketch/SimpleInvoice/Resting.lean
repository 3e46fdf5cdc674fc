import WorkflowSketch.SimpleInvoice.Slide

/-!
# What the data of a resting invoice looks like

Between two steps an invoice rests in a state, or in none. The states say little by themselves:
the guards read dates that earlier rounds of the workflow may have left behind. This module is the
link between the two.

* `Fits`: the dates an invoice resting in a state has and lacks. A state that fits is **stable**
  (`Fits.stable`), and the state that `classify` finds fits (`fits_of_classify`).
* `WellFormed`: the invariant of the workflow. It survives every edit of the amount.
* `AmountFits`: the part of `classify` that depends on the amount. As long as it holds too, the
  data calls for the very state the invoice is in (`classify_of_fits`).
-/

namespace WorkflowSketch

open Lib Lib.FirstRepeat

namespace SimpleInvoice

variable {invoice : SimpleInvoice}

/-- The invoice, in a state. -/
def inState (invoice : SimpleInvoice) (s : SimpleInvoiceState) : SimpleInvoice :=
  { invoice with invoiceState := some s }

/-- The dates an invoice resting in a state has and lacks. -/
def Fits (invoice : SimpleInvoice) : SimpleInvoiceState → Prop
  | .INIT => False
  | .NEW => invoice.completedOn = none ∧ invoice.discardedOn = none
  | .COMPLETED =>
    invoice.completedOn ≠ none ∧ invoice.rejectedOn = none ∧ invoice.approvedByManagerOn = none
  | .APPROVED_BY_MANAGER =>
    invoice.completedOn ≠ none ∧ invoice.rejectedOn = none ∧ invoice.approvedByManagerOn ≠ none ∧
      invoice.approvedByCountryLeaderOn = none
  | .PAYABLE =>
    invoice.completedOn ≠ none ∧ invoice.rejectedOn = none ∧ invoice.approvedByManagerOn ≠ none ∧
      invoice.paidOn = none
  | .PAID =>
    invoice.completedOn ≠ none ∧ invoice.rejectedOn = none ∧ invoice.approvedByManagerOn ≠ none ∧
      invoice.paidOn ≠ none
  | .DISCARDED => invoice.discardedOn ≠ none

/-- The invariant of the workflow. -/
structure WellFormed (invoice : SimpleInvoice) : Prop where
  completed_or_rejected : invoice.completedOn = none ∨ invoice.rejectedOn = none
  completed_or_discarded : invoice.completedOn = none ∨ invoice.discardedOn = none
  fits : ∀ s, invoice.invoiceState = some s → invoice.Fits s

/-- An invoice just created is well formed. -/
theorem wellFormed_create (invoiceNumber : String) : (create invoiceNumber).WellFormed where
  completed_or_rejected := Or.inl rfl
  completed_or_discarded := Or.inl rfl
  fits s h := by simp [create] at h

/-- **A state that fits satisfies none of its guards**, and none of them throws. -/
theorem Fits.unsatisfied {s : SimpleInvoiceState} (h : invoice.Fits s) :
    ∀ tg ∈ s.targetsAndGuards, tg.2.isSatisfiedFor invoice = .ok false := by
  cases s with
  | INIT => exact absurd h (by simp [Fits])
  | NEW =>
    obtain ⟨hc, hd⟩ := h
    simp [SimpleInvoiceState.targetsAndGuards, SimpleInvoiceGuard.isSatisfiedFor, hc, hd]
  | COMPLETED =>
    obtain ⟨-, hr, hm⟩ := h
    simp [SimpleInvoiceState.targetsAndGuards, SimpleInvoiceGuard.isSatisfiedFor, hr, hm]
  | APPROVED_BY_MANAGER =>
    obtain ⟨-, hr, -, hl⟩ := h
    simp [SimpleInvoiceState.targetsAndGuards, SimpleInvoiceGuard.isSatisfiedFor, hr, hl]
  | PAYABLE =>
    obtain ⟨-, hr, -, hp⟩ := h
    simp [SimpleInvoiceState.targetsAndGuards, SimpleInvoiceGuard.isSatisfiedFor, hr, hp]
  | PAID => simp [SimpleInvoiceState.targetsAndGuards]
  | DISCARDED => simp [SimpleInvoiceState.targetsAndGuards]

/-- The same of the targets and guards the state machine reads. -/
theorem Fits.unsatisfied_guard {s : SimpleInvoiceState} (h : invoice.Fits s) :
    ∀ targetAndGuard ∈ s.canTransitionTo, targetAndGuard.guard invoice = .ok false := by
  intro targetAndGuard hmem
  obtain ⟨tg, htg, rfl⟩ := List.mem_map.mp hmem
  exact h.unsatisfied tg htg

/-- **A state that fits is stable.** -/
theorem Fits.stable {s : SimpleInvoiceState} (h : invoice.Fits s) : invoice.next s = .ok s := by
  rw [next_eq]
  exact WorkFlow.firstSatisfied_eq_ok_iff.mpr (Or.inr ⟨rfl, h.unsatisfied_guard⟩)

/-- **The state that the data calls for fits.** -/
theorem fits_of_classify {s : SimpleInvoiceState}
    (hcr : invoice.completedOn = none ∨ invoice.rejectedOn = none)
    (h : invoice.classify = .ok s) : invoice.Fits s := by
  unfold classify at h
  split at h
  · rename_i hc
    split at h
    · rename_i hd; cases h; exact ⟨hc, hd⟩
    · rename_i hd; cases h; exact hd
  · rename_i hc
    have hr := hcr.resolve_left hc
    rw [if_neg (by simp [hr])] at h
    split at h
    · rename_i hm; cases h; exact ⟨hc, hr, hm⟩
    · rename_i hm
      split at h
      · exact absurd h (by simp)
      · split at h
        · rename_i hlarge; cases h; exact ⟨hc, hr, hm, hlarge.2⟩
        · split at h
          · rename_i hp; cases h; exact ⟨hc, hr, hm, hp⟩
          · rename_i hp; cases h; exact ⟨hc, hr, hm, hp⟩

/-! ## The amount -/

/-- The amount and the second approval are what the state stands for. -/
def AmountFits (invoice : SimpleInvoice) : SimpleInvoiceState → Prop
  | .APPROVED_BY_MANAGER => ∃ amount, invoice.amount = some amount ∧ needsSecondApproval amount
  | .PAYABLE | .PAID =>
    ∃ amount, invoice.amount = some amount ∧
      (needsSecondApproval amount → invoice.approvedByCountryLeaderOn ≠ none)
  | _ => True

/-- The state that the data calls for is the one the amount stands for. -/
theorem amountFits_of_classify {s : SimpleInvoiceState} (h : invoice.classify = .ok s) :
    invoice.AmountFits s := by
  unfold classify at h
  split at h
  · split at h
    · cases h; trivial
    · cases h; trivial
  · split at h
    · cases h; trivial
    · split at h
      · cases h; trivial
      · split at h
        · exact absurd h (by simp)
        · rename_i amount ha
          split at h
          · rename_i hlarge; cases h; exact ⟨amount, ha, hlarge.1⟩
          · rename_i hlarge
            have hl : needsSecondApproval amount → invoice.approvedByCountryLeaderOn ≠ none :=
              fun hneeds hnone => hlarge ⟨hneeds, hnone⟩
            split at h
            · cases h; exact ⟨amount, ha, hl⟩
            · cases h; exact ⟨amount, ha, hl⟩

/-- **The data calls for the state the invoice is in.** -/
theorem classify_of_fits {s : SimpleInvoiceState}
    (hcd : invoice.completedOn = none ∨ invoice.discardedOn = none) (h : invoice.Fits s)
    (ha : invoice.AmountFits s) : invoice.classify = .ok s := by
  cases s with
  | INIT => exact absurd h (by simp [Fits])
  | NEW => obtain ⟨hc, hd⟩ := h; simp [classify, hc, hd]
  | COMPLETED => obtain ⟨hc, hr, hm⟩ := h; simp [classify, hc, hr, hm]
  | APPROVED_BY_MANAGER =>
    obtain ⟨hc, hr, hm, hl⟩ := h
    obtain ⟨amount, ha, hlarge⟩ := ha
    simp [classify, hc, hr, hm, hl, ha, hlarge]
  | PAYABLE =>
    obtain ⟨hc, hr, hm, hp⟩ := h
    obtain ⟨amount, ha, hl⟩ := ha
    have hlarge : ¬ (needsSecondApproval amount ∧ invoice.approvedByCountryLeaderOn = none) :=
      fun hlarge => hl hlarge.1 hlarge.2
    simp [classify, hc, hr, hm, hp, ha, hlarge]
  | PAID =>
    obtain ⟨hc, hr, hm, hp⟩ := h
    obtain ⟨amount, ha, hl⟩ := ha
    have hlarge : ¬ (needsSecondApproval amount ∧ invoice.approvedByCountryLeaderOn = none) :=
      fun hlarge => hl hlarge.1 hlarge.2
    simp [classify, hc, hr, hm, hp, ha, hlarge]
  | DISCARDED =>
    have hc : invoice.completedOn = none := hcd.resolve_right h
    have hd : invoice.discardedOn ≠ none := h
    simp [classify, hc, hd]

end SimpleInvoice

end WorkflowSketch
