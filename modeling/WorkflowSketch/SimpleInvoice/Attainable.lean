import WorkflowSketch.SimpleInvoice.Invariant

/-!
# The invoices that can be reached, exactly

`WellFormed` and the other invariants say what every run keeps. `Attainable` is all there is to
say: an invoice satisfies it exactly if some run of the workflow leads to it, whatever its dates,
its type and its amount are. A question about one configuration is a question about `Attainable`.
The clock answers any dates here; fewer invoices are reached if it does not go back.

* `Attainable.of_outcome`: every enabled action keeps it.
* `Reached.step`: what an action makes of a reached invoice is reached; the `reached_…` lemmas go
  through the states in the order of the workflow, with arbitrary data.
* **`reached_iff`**: the reachable invoices are the attainable ones.
-/

namespace WorkflowSketch

open Lib Lib.Transact

namespace SimpleInvoice

variable {invoice invoice' : SimpleInvoice} {action : Action} {c₀ : Config}

/-- The dates of an invoice as its history may have left them, over and above its state. -/
structure DatesFollow (invoice : SimpleInvoice) : Prop where
  /-- Only a completed invoice is approved, and a completion leaves one of two dates for good. -/
  approved : invoice.approvedByManagerOn ≠ none →
    invoice.completedOn ≠ none ∨ invoice.rejectedOn ≠ none
  secondApproved : invoice.approvedByCountryLeaderOn ≠ none → invoice.approvedByManagerOn ≠ none
  paid : invoice.paidOn ≠ none → invoice.approvedByManagerOn ≠ none
  /-- Paid and approved twice, an invoice is never rejected again. -/
  final : invoice.paidOn ≠ none → invoice.approvedByCountryLeaderOn ≠ none →
    invoice.completedOn ≠ none

/-- What can be said of every invoice that can be reached. -/
structure Attainable (invoice : SimpleInvoice) : Prop where
  wellFormed : invoice.WellFormed
  datesFollow : invoice.DatesFollow

instance (invoice : SimpleInvoice) : (s : SimpleInvoiceState) → Decidable (invoice.Fits s)
  | .INIT => inferInstanceAs (Decidable False)
  | .NEW => inferInstanceAs (Decidable (_ ∧ _))
  | .COMPLETED => inferInstanceAs (Decidable (_ ∧ _ ∧ _))
  | .APPROVED_BY_MANAGER => inferInstanceAs (Decidable (_ ∧ _ ∧ _ ∧ _))
  | .PAYABLE => inferInstanceAs (Decidable (_ ∧ _ ∧ _ ∧ _))
  | .PAID => inferInstanceAs (Decidable (_ ∧ _ ∧ _ ∧ _))
  | .DISCARDED => inferInstanceAs (Decidable (_ ≠ _))

instance (invoice : SimpleInvoice) : Decidable invoice.WellFormed :=
  decidable_of_iff ((invoice.completedOn = none ∨ invoice.rejectedOn = none) ∧
      (invoice.completedOn = none ∨ invoice.discardedOn = none) ∧
      ∀ s ∈ invoice.invoiceState, invoice.Fits s)
    ⟨fun h => ⟨h.1, h.2.1, h.2.2⟩, fun h => ⟨h.1, h.2, h.3⟩⟩

instance (invoice : SimpleInvoice) : Decidable invoice.DatesFollow :=
  decidable_of_iff ((invoice.approvedByManagerOn ≠ none →
        invoice.completedOn ≠ none ∨ invoice.rejectedOn ≠ none) ∧
      (invoice.approvedByCountryLeaderOn ≠ none → invoice.approvedByManagerOn ≠ none) ∧
      (invoice.paidOn ≠ none → invoice.approvedByManagerOn ≠ none) ∧
      (invoice.paidOn ≠ none → invoice.approvedByCountryLeaderOn ≠ none →
        invoice.completedOn ≠ none))
    ⟨fun h => ⟨h.1, h.2.1, h.2.2.1, h.2.2.2⟩, fun h => ⟨h.1, h.2, h.3, h.4⟩⟩

instance (invoice : SimpleInvoice) : Decidable invoice.Attainable :=
  decidable_of_iff (invoice.WellFormed ∧ invoice.DatesFollow)
    ⟨fun h => ⟨h.1, h.2⟩, fun h => ⟨h.1, h.2⟩⟩

/-! ## Every run keeps it -/

theorem attainable_create (invoiceNumber : String) : (create invoiceNumber).Attainable where
  wellFormed := wellFormed_create invoiceNumber
  datesFollow := by refine ⟨?_, ?_, ?_, ?_⟩ <;> simp [create]

/-- In the states in which a rejection is offered, the payment and the second approval are not
both there. -/
theorem not_paid_of_isEnabled_reject {now : LocalDate} (ha : invoice.Attainable)
    (hen : (Action.reject now).isEnabled invoice = true) (hp : invoice.paidOn ≠ none) :
    invoice.approvedByCountryLeaderOn = none := by
  rcases isEnabled_reject.mp hen with hs | hs | hs
  · obtain ⟨-, -, hm⟩ := ha.wellFormed.fits .COMPLETED hs
    exact absurd hm (ha.datesFollow.paid hp)
  · exact (ha.wellFormed.fits .APPROVED_BY_MANAGER hs).2.2.2
  · exact absurd (ha.wellFormed.fits .PAYABLE hs).2.2.2 hp

theorem DatesFollow.of_outcome (ha : invoice.Attainable) (hen : action.isEnabled invoice = true)
    (h : outcome action invoice = .ok invoice') : invoice'.DatesFollow := by
  have hd := ha.datesFollow
  have hw := ha.wellFormed
  rw [outcome_eq_body h]
  cases action with
  | complete assignNextTaskTo now =>
    exact ⟨fun _ => Or.inl (Option.some_ne_none now), hd.secondApproved, hd.paid,
      fun _ _ => Option.some_ne_none now⟩
  | approveAsManager now =>
    obtain ⟨hc, -⟩ := hw.fits .COMPLETED (isEnabled_approveAsManager.mp hen)
    exact ⟨fun _ => Or.inl hc, fun _ => Option.some_ne_none now,
      fun _ => Option.some_ne_none now, fun _ _ => hc⟩
  | approveAsCountryLeader now =>
    obtain ⟨hc, -, hm, -⟩ := hw.fits .APPROVED_BY_MANAGER (isEnabled_approveAsCountryLeader.mp hen)
    exact ⟨fun _ => Or.inl hc, fun _ => hm, fun _ => hm, fun _ _ => hc⟩
  | pay now =>
    obtain ⟨hc, -, hm, -⟩ := hw.fits .PAYABLE (isEnabled_pay.mp hen)
    exact ⟨fun _ => Or.inl hc, fun _ => hm, fun _ => hm, fun _ _ => hc⟩
  | reject now =>
    exact ⟨fun _ => Or.inr (Option.some_ne_none now), hd.secondApproved, hd.paid,
      fun hp hl => absurd (not_paid_of_isEnabled_reject ha hen hp) hl⟩
  | _ => exact ⟨hd.approved, hd.secondApproved, hd.paid, hd.final⟩

/-- **Every enabled action keeps an invoice attainable.** -/
theorem Attainable.of_outcome (ha : invoice.Attainable) (hen : action.isEnabled invoice = true)
    (h : outcome action invoice = .ok invoice') : invoice'.Attainable :=
  ⟨ha.wellFormed.of_outcome hen h, DatesFollow.of_outcome ha hen h⟩

theorem invoiceNumber_of_outcome (h : outcome action invoice = .ok invoice') :
    invoice'.invoiceNumber = invoice.invoiceNumber := by
  rw [outcome_eq_body h]
  cases action <;> rfl

theorem attainable_of_run {tr : Trace Config Action} {c : Config} (h₀ : c₀.IsCreated)
    (h : Run SimpleInvoiceWorkFlow c₀ tr c) :
    c.invoice.val.Attainable ∧ c.invoice.val.invoiceNumber = c₀.invoice.val.invoiceNumber := by
  refine keepOutcome_of_run (P := fun _ c => c.invoice.val.Attainable ∧
    c.invoice.val.invoiceNumber = c₀.invoice.val.invoiceNumber) ?_ h₀.resting.wellFormed ?_ h
  · intro tr c action c' ⟨ha, hn⟩ _ hen hout
    exact ⟨ha.of_outcome hen hout, (invoiceNumber_of_outcome hout).trans hn⟩
  · obtain ⟨⟨invoiceNumber, hval⟩, -⟩ := h₀
    exact ⟨hval ▸ attainable_create invoiceNumber, rfl⟩

/-! ## Reaching an invoice -/

/-- Some run leads to the invoice. -/
def Reached (c₀ : Config) (invoice : SimpleInvoice) : Prop :=
  ∃ tr c, Run SimpleInvoiceWorkFlow c₀ tr c ∧ c.invoice.val = invoice

/-- **What an enabled action makes of a reached invoice is reached.** -/
theorem Reached.step (h₀ : c₀.IsCreated) (h : Reached c₀ invoice) (action : Action)
    (hen : action.isEnabled invoice = true) (hout : outcome action invoice = .ok invoice') :
    Reached c₀ invoice' := by
  obtain ⟨tr, c, hrun, rfl⟩ := h
  have hw := (resting_of_run h₀ hrun).wellFormed
  obtain ⟨c', hok⟩ := (perform_isOk_iff hw hen).mpr ⟨_, hout⟩
  obtain ⟨hout', -⟩ := perform_cases hw hen hok
  exact ⟨_, c', Run.commit hrun hen hok, Except.ok.inj (hout'.symm.trans hout)⟩

/-- The type and the amount are edited at any time. -/
theorem Reached.edit (h₀ : c₀.IsCreated) (h : Reached c₀ invoice)
    (invoiceType : Option SimpleInvoiceType) (amount : Option BigDecimal) :
    Reached c₀ { invoice with invoiceType, amount } :=
  (h.step h₀ (.setInvoiceType invoiceType) rfl rfl).step h₀ (.setAmount amount) rfl rfl

/-- So is the state deleted, -/
theorem Reached.deleted (h₀ : c₀.IsCreated) (h : Reached c₀ invoice) :
    Reached c₀ { invoice with invoiceState := none } :=
  h.step h₀ .deleteState rfl rfl

/-- and computed from scratch. -/
theorem Reached.reinitialised (h₀ : c₀.IsCreated) (h : Reached c₀ invoice)
    {s : SimpleInvoiceState} (hs : invoice.classify = .ok s) :
    Reached c₀ { invoice with invoiceState := some s } :=
  (h.deleted h₀).step h₀ .initializeState rfl (reclassified_eq_ok_iff.mpr ⟨s, hs, rfl⟩)

/-- A rejection takes the completion back. -/
theorem Reached.rejected (h₀ : c₀.IsCreated) (h : Reached c₀ invoice) (now : LocalDate)
    (hs : invoice.invoiceState = some .COMPLETED ∨
      invoice.invoiceState = some .APPROVED_BY_MANAGER ∨ invoice.invoiceState = some .PAYABLE) :
    Reached c₀
      { invoice with
        invoiceState := some .NEW, completedOn := none, rejectedOn := some now } :=
  h.step h₀ (.reject now) (isEnabled_reject.mpr hs) rfl

section States

variable {n : String} (t : Option SimpleInvoiceType) (a : Option BigDecimal)
  (c m l p : LocalDate)

theorem reached_NEW (h₀ : c₀.IsCreated) (hn : c₀.invoice.val.invoiceNumber = n) :
    Reached c₀ { create n with invoiceState := some .NEW, invoiceType := t, amount := a } := by
  have hval : c₀.invoice.val = create n := by
    obtain ⟨⟨invoiceNumber, hval⟩, -⟩ := h₀
    rw [hval] at hn ⊢
    exact congrArg create hn
  have hstart : Reached c₀ (create n) := ⟨[], c₀, Run.start, hval⟩
  exact (hstart.reinitialised h₀ rfl).edit h₀ t a

theorem reached_COMPLETED (h₀ : c₀.IsCreated) (hn : c₀.invoice.val.invoiceNumber = n) :
    Reached c₀
      { create n with
        invoiceState := some .COMPLETED, invoiceType := t, amount := a,
        completedOn := some c } := by
  have hnew := reached_NEW (some .CAPEX) (some ⟨0, 0⟩) h₀ hn
  exact (hnew.step h₀ (.complete none c) rfl rfl).edit h₀ t a

/-- Over the threshold the manager's approval leads to the country leader, -/
theorem reached_APPROVED_BY_MANAGER (h₀ : c₀.IsCreated)
    (hn : c₀.invoice.val.invoiceNumber = n) :
    Reached c₀
      { create n with
        invoiceState := some .APPROVED_BY_MANAGER, invoiceType := t, amount := a,
        completedOn := some c, approvedByManagerOn := some m } := by
  have hcompleted := reached_COMPLETED none (some ⟨10000, 0⟩) c h₀ hn
  exact (hcompleted.step h₀ (.approveAsManager m) rfl rfl).edit h₀ t a

/-- and below it past him. -/
theorem reached_PAYABLE (h₀ : c₀.IsCreated) (hn : c₀.invoice.val.invoiceNumber = n) :
    Reached c₀
      { create n with
        invoiceState := some .PAYABLE, invoiceType := t, amount := a, completedOn := some c,
        approvedByManagerOn := some m } := by
  have hcompleted := reached_COMPLETED none (some ⟨0, 0⟩) c h₀ hn
  exact (hcompleted.step h₀ (.approveAsManager m) rfl rfl).edit h₀ t a

theorem reached_PAYABLE_approvedTwice (h₀ : c₀.IsCreated)
    (hn : c₀.invoice.val.invoiceNumber = n) :
    Reached c₀
      { create n with
        invoiceState := some .PAYABLE, invoiceType := t, amount := a, completedOn := some c,
        approvedByManagerOn := some m, approvedByCountryLeaderOn := some l } :=
  (reached_APPROVED_BY_MANAGER t a c m h₀ hn).step h₀ (.approveAsCountryLeader l) rfl rfl

theorem reached_PAID (h₀ : c₀.IsCreated) (hn : c₀.invoice.val.invoiceNumber = n) :
    Reached c₀
      { create n with
        invoiceState := some .PAID, invoiceType := t, amount := a, completedOn := some c,
        approvedByManagerOn := some m, paidOn := some p } :=
  (reached_PAYABLE t a c m h₀ hn).step h₀ (.pay p) rfl rfl

theorem reached_PAID_approvedTwice (h₀ : c₀.IsCreated)
    (hn : c₀.invoice.val.invoiceNumber = n) :
    Reached c₀
      { create n with
        invoiceState := some .PAID, invoiceType := t, amount := a, completedOn := some c,
        approvedByManagerOn := some m, approvedByCountryLeaderOn := some l,
        paidOn := some p } :=
  (reached_PAYABLE_approvedTwice t a c m l h₀ hn).step h₀ (.pay p) rfl rfl

/-- Started from scratch with a raised amount, a paid invoice awaits the second approval. -/
theorem reached_APPROVED_BY_MANAGER_paid (h₀ : c₀.IsCreated)
    (hn : c₀.invoice.val.invoiceNumber = n) :
    Reached c₀
      { create n with
        invoiceState := some .APPROVED_BY_MANAGER, invoiceType := t, amount := a,
        completedOn := some c, approvedByManagerOn := some m, paidOn := some p } := by
  have hpaid := reached_PAID none (some ⟨10000, 0⟩) c m p h₀ hn
  exact (hpaid.reinitialised h₀ rfl).edit h₀ t a

end States

/-! ## All of them -/

/-- An attainable invoice that was completed is reached through the states of the workflow. -/
theorem reached_of_completed {s : SimpleInvoiceState} (h₀ : c₀.IsCreated)
    (ha : invoice.Attainable) (hn : c₀.invoice.val.invoiceNumber = invoice.invoiceNumber)
    (hs : invoice.invoiceState = some s) (hc : invoice.completedOn ≠ none) :
    Reached c₀ invoice := by
  have hfits := ha.wellFormed.fits s hs
  have hr := ha.wellFormed.completed_or_rejected.resolve_left hc
  have hd := ha.wellFormed.completed_or_discarded.resolve_left hc
  have hsecond := ha.datesFollow.secondApproved
  have hpaid := ha.datesFollow.paid
  obtain ⟨n, state, t, a, completedOn, managerOn, leaderOn, paidOn, discardedOn, rejectedOn⟩ :=
    invoice
  dsimp only at hs hc hr hd hsecond hpaid hn
  subst hs hr hd
  obtain ⟨c, rfl⟩ := Option.ne_none_iff_exists'.mp hc
  cases s with
  | INIT => exact absurd hfits (by simp [Fits])
  | NEW => exact absurd hfits.1 hc
  | DISCARDED => exact absurd rfl hfits
  | COMPLETED =>
    obtain ⟨-, -, rfl⟩ : _ ∧ _ ∧ managerOn = none := hfits
    obtain rfl : leaderOn = none := by simpa using hsecond
    obtain rfl : paidOn = none := by simpa using hpaid
    exact reached_COMPLETED t a c h₀ hn
  | APPROVED_BY_MANAGER =>
    obtain ⟨-, -, hm, rfl⟩ : _ ∧ _ ∧ managerOn ≠ none ∧ leaderOn = none := hfits
    obtain ⟨m, rfl⟩ := Option.ne_none_iff_exists'.mp hm
    cases paidOn with
    | none => exact reached_APPROVED_BY_MANAGER t a c m h₀ hn
    | some p => exact reached_APPROVED_BY_MANAGER_paid t a c m p h₀ hn
  | PAYABLE =>
    obtain ⟨-, -, hm, rfl⟩ : _ ∧ _ ∧ managerOn ≠ none ∧ paidOn = none := hfits
    obtain ⟨m, rfl⟩ := Option.ne_none_iff_exists'.mp hm
    cases leaderOn with
    | none => exact reached_PAYABLE t a c m h₀ hn
    | some l => exact reached_PAYABLE_approvedTwice t a c m l h₀ hn
  | PAID =>
    obtain ⟨-, -, hm, hp⟩ : _ ∧ _ ∧ managerOn ≠ none ∧ paidOn ≠ none := hfits
    obtain ⟨m, rfl⟩ := Option.ne_none_iff_exists'.mp hm
    obtain ⟨p, rfl⟩ := Option.ne_none_iff_exists'.mp hp
    cases leaderOn with
    | none => exact reached_PAID t a c m p h₀ hn
    | some l => exact reached_PAID_approvedTwice t a c m l p h₀ hn

/-- A new invoice is a fresh one, or was rejected in the state its approvals call for. -/
theorem reached_of_new (h₀ : c₀.IsCreated) (ha : invoice.Attainable)
    (hn : c₀.invoice.val.invoiceNumber = invoice.invoiceNumber)
    (hs : invoice.invoiceState = some .NEW) : Reached c₀ invoice := by
  obtain ⟨hc, hd⟩ := ha.wellFormed.fits .NEW hs
  have happroved := ha.datesFollow.approved
  have hsecond := ha.datesFollow.secondApproved
  have hpaid := ha.datesFollow.paid
  have hfinal := ha.datesFollow.final
  obtain ⟨n, state, t, a, completedOn, managerOn, leaderOn, paidOn, discardedOn, rejectedOn⟩ :=
    invoice
  dsimp only at hs hc hd happroved hsecond hpaid hfinal hn
  subst hs hc hd
  cases rejectedOn with
  | none =>
    obtain rfl : managerOn = none := by simpa using happroved
    obtain rfl : leaderOn = none := by simpa using hsecond
    obtain rfl : paidOn = none := by simpa using hpaid
    exact reached_NEW t a h₀ hn
  | some r =>
    cases managerOn with
    | none =>
      obtain rfl : leaderOn = none := by simpa using hsecond
      obtain rfl : paidOn = none := by simpa using hpaid
      exact (reached_COMPLETED t a r h₀ hn).rejected h₀ r (by simp)
    | some m =>
      cases leaderOn with
      | none =>
        cases paidOn with
        | none => exact (reached_PAYABLE t a r m h₀ hn).rejected h₀ r (by simp)
        | some p => exact (reached_APPROVED_BY_MANAGER_paid t a r m p h₀ hn).rejected h₀ r (by simp)
      | some l =>
        obtain rfl : paidOn = none := by simpa using hfinal
        exact (reached_PAYABLE_approvedTwice t a r m l h₀ hn).rejected h₀ r (by simp)

/-- The state an attainable invoice may have been in before its state was deleted. -/
theorem exists_state (ha : invoice.Attainable) :
    ∃ s, (invoice.inState s).Attainable := by
  obtain ⟨hcr, hcd, -⟩ := ha.wellFormed
  obtain ⟨happroved, hsecond, hpaid, hfinal⟩ := ha.datesFollow
  obtain ⟨s, hfits⟩ : ∃ s, invoice.Fits s := by
    by_cases hc : invoice.completedOn = none
    · by_cases hd : invoice.discardedOn = none
      · exact ⟨.NEW, hc, hd⟩
      · exact ⟨.DISCARDED, hd⟩
    · have hr := hcr.resolve_left hc
      by_cases hm : invoice.approvedByManagerOn = none
      · exact ⟨.COMPLETED, hc, hr, hm⟩
      · by_cases hp : invoice.paidOn = none
        · exact ⟨.PAYABLE, hc, hr, hm, hp⟩
        · exact ⟨.PAID, hc, hr, hm, hp⟩
  exact ⟨s, wellFormed_inState hcr hcd hfits, happroved, hsecond, hpaid, hfinal⟩

theorem reached_of_state {s : SimpleInvoiceState} (h₀ : c₀.IsCreated) (ha : invoice.Attainable)
    (hn : c₀.invoice.val.invoiceNumber = invoice.invoiceNumber)
    (hs : invoice.invoiceState = some s) : Reached c₀ invoice := by
  by_cases hc : invoice.completedOn = none
  · by_cases hd : invoice.discardedOn = none
    · -- only `NEW` has neither date
      have hnew : invoice.invoiceState = some .NEW := by
        have hfits := ha.wellFormed.fits s hs
        cases s with
        | INIT => exact absurd hfits (by simp [Fits])
        | NEW => exact hs
        | DISCARDED => exact absurd hd hfits
        | _ => exact absurd hc hfits.1
      exact reached_of_new h₀ ha hn hnew
    · obtain ⟨d, hd⟩ := Option.ne_none_iff_exists'.mp hd
      have hdiscarded : invoice.invoiceState = some .DISCARDED := by
        have hfits := ha.wellFormed.fits s hs
        cases s with
        | INIT => exact absurd hfits (by simp [Fits])
        | NEW => rw [hfits.2] at hd; exact absurd hd (by simp)
        | DISCARDED => exact hs
        | _ => exact absurd hc hfits.1
      have hfollow := ha.datesFollow
      have hbefore : Attainable
          { invoice with invoiceState := some .NEW, discardedOn := none } := by
        refine ⟨⟨Or.inl hc, Or.inl hc, fun t ht => ?_⟩, hfollow.1, hfollow.2, hfollow.3, hfollow.4⟩
        obtain rfl : .NEW = t := Option.some.inj ht
        exact ⟨hc, rfl⟩
      have hreached := (reached_of_new h₀ hbefore hn rfl).step h₀ (.discard d) rfl rfl
      have hback : invoice = { invoice with
          invoiceState := some .DISCARDED, discardedOn := some d } := by
        rw [← hdiscarded, ← hd]
      rw [hback]
      exact hreached
  · exact reached_of_completed h₀ ha hn hs hc

theorem Reached.of_attainable (h₀ : c₀.IsCreated) (ha : invoice.Attainable)
    (hn : c₀.invoice.val.invoiceNumber = invoice.invoiceNumber) : Reached c₀ invoice := by
  cases hs : invoice.invoiceState with
  | some s => exact reached_of_state h₀ ha hn hs
  | none =>
    obtain ⟨s, hstate⟩ := exists_state ha
    have hreached := (reached_of_state h₀ hstate hn rfl).deleted h₀
    have hback : invoice = { invoice.inState s with invoiceState := none } := by
      rw [inState, ← hs]
    rw [hback]
    exact hreached

/-- **The reachable invoices, exactly**: from a created invoice, those of its number that are
attainable, if the clock may answer any dates. -/
theorem reached_iff (h₀ : c₀.IsCreated) :
    Reached c₀ invoice ↔
      invoice.Attainable ∧ invoice.invoiceNumber = c₀.invoice.val.invoiceNumber := by
  constructor
  · rintro ⟨tr, c, hrun, rfl⟩
    exact attainable_of_run h₀ hrun
  · rintro ⟨ha, hn⟩
    exact Reached.of_attainable h₀ ha hn.symm

/-- A rejected invoice may have been paid, but not also approved twice. -/
theorem reached_iff_of_fresh :
    Reached .fresh { create "I-123" with
        invoiceState := some .NEW, approvedByManagerOn := some ⟨1⟩, paidOn := some ⟨2⟩,
        rejectedOn := some ⟨3⟩ } ∧
      ¬ Reached .fresh { create "I-123" with
        invoiceState := some .NEW, approvedByManagerOn := some ⟨1⟩,
        approvedByCountryLeaderOn := some ⟨1⟩, paidOn := some ⟨2⟩, rejectedOn := some ⟨3⟩ } :=
  ⟨(reached_iff Config.fresh_isCreated).mpr (by decide),
    fun h => absurd ((reached_iff Config.fresh_isCreated).mp h) (by decide)⟩

end SimpleInvoice

end WorkflowSketch
