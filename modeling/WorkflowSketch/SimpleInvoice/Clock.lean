import WorkflowSketch.SimpleInvoice.Audit

/-!
# Time that never goes back (`clockService.now()`)

The dates of an invoice are what the clock answered, and no guard compares them. Whether they are in
order is a matter of the clock and of the order in which the actions are offered.

* `InTime`: the dates are answers of the clock, and the approvals and the payment are in order.
* `InTime.of_outcome`: one action keeps it, if the clock does not go back.
* **`datesInOrder_of_taskRun`**: in every run during which the clock does not go back, the dates of
  every stored invoice are in order. Only a rejected invoice may be completed after its approval.
-/

namespace WorkflowSketch

open Lib Lib.Transact

namespace SimpleInvoice

variable {invoice invoice' : SimpleInvoice} {action : Action} {own : List Action}
  {store : Store} {c : Config}

/-! ## The answers of the clock -/

/-- What the clock answered while the action ran, if it was asked. -/
def Action.now? : Action → Option LocalDate
  | .complete _ now => some now
  | .approveAsManager now => some now
  | .approveAsCountryLeader now => some now
  | .pay now => some now
  | .discard now => some now
  | .reject now => some now
  | _ => none

/-- The same, of an action of a user. -/
def UserAction.now? : UserAction → Option LocalDate
  | onInvoices (.create _) => none
  | onInvoices (.act _ own) => own.now?
  | onTask _ action => action.onInvoice.now?

/-- The clock does not go back. -/
def IsMonotonic (answers : List LocalDate) : Prop :=
  answers.Pairwise fun d d' => d.day ≤ d'.day

instance (answers : List LocalDate) : Decidable (IsMonotonic answers) :=
  inferInstanceAs (Decidable (List.Pairwise _ _))

/-- The one date, if it is there, is not after the other one, if that is there. -/
def NotAfter (date date' : Option LocalDate) : Prop :=
  ∀ d, date = some d → ∀ d', date' = some d' → d.day ≤ d'.day

theorem notAfter_of_eq_none {date date' : Option LocalDate} (h : date' = none) :
    NotAfter date date' :=
  fun _ _ d' hd' => absurd (h.symm.trans hd') (by simp)

/-! ## The dates in order -/

/-- A date of the invoice is one that the clock answered to an action on it. -/
def IsAnswer (own : List Action) (date : Option LocalDate) : Prop :=
  ∀ d, date = some d → d ∈ own.filterMap Action.now?

/-- The dates of an invoice after the actions on it. -/
structure InTime (own : List Action) (invoice : SimpleInvoice) : Prop where
  completed : IsAnswer own invoice.completedOn
  approved : IsAnswer own invoice.approvedByManagerOn
  secondApproval : NotAfter invoice.approvedByManagerOn invoice.approvedByCountryLeaderOn
  payment : NotAfter invoice.approvedByManagerOn invoice.paidOn
  /-- Nothing was taken back: it was completed once, before its approval. -/
  unrejected : ActionKind.reject ∉ own.map Action.kind →
    invoice.rejectedOn = none ∧ NotAfter invoice.completedOn invoice.approvedByManagerOn

theorem IsAnswer.concat {date : Option LocalDate} (h : IsAnswer own date) (action : Action) :
    IsAnswer (own ++ [action]) date := by
  intro d hd
  rw [List.filterMap_append]
  exact List.mem_append_left _ (h d hd)

theorem isAnswer_now {now : LocalDate} (h : action.now? = some now) :
    IsAnswer (own ++ [action]) (some now) := by
  rintro d ⟨⟩
  rw [List.filterMap_append]
  refine List.mem_append_right _ ?_
  simp [h]

/-- An answer of the past is not after the present one. -/
theorem IsAnswer.notAfter {date : Option LocalDate} {now : LocalDate} (h : IsAnswer own date)
    (hnow : action.now? = some now)
    (hclock : IsMonotonic ((own ++ [action]).filterMap Action.now?)) :
    NotAfter date (some now) := by
  rintro d hd _ ⟨⟩
  rw [IsMonotonic, List.filterMap_append, List.pairwise_append] at hclock
  exact hclock.2.2 d (h d hd) now (by simp [hnow])

theorem unrejected_concat (hreject : ActionKind.reject ∉ (own ++ [action]).map Action.kind) :
    ActionKind.reject ∉ own.map Action.kind ∧ action.kind ≠ .reject := by
  rw [List.map_append, List.mem_append, not_or] at hreject
  exact ⟨hreject.1, fun hkind => hreject.2 (by simp [hkind])⟩

theorem inTime_create (invoiceNumber : String) :
    InTime [] (SimpleInvoice.create invoiceNumber) := by
  refine ⟨fun d hd => ?_, fun d hd => ?_, notAfter_of_eq_none rfl,
    notAfter_of_eq_none rfl, fun _ => ⟨rfl, notAfter_of_eq_none rfl⟩⟩ <;> simp [create] at hd

/-- **One action keeps the dates in order**, if the clock does not go back. -/
theorem InTime.of_outcome (h : InTime own invoice) (ha : invoice.Attainable)
    (hen : action.isEnabled invoice = true) (hout : outcome action invoice = .ok invoice')
    (hclock : IsMonotonic ((own ++ [action]).filterMap Action.now?)) :
    InTime (own ++ [action]) invoice' := by
  rw [outcome_eq_body hout]
  have hdates := ha.datesFollow
  have hbefore : ActionKind.reject ∉ (own ++ [action]).map Action.kind →
      invoice.rejectedOn = none ∧ NotAfter invoice.completedOn invoice.approvedByManagerOn :=
    fun hreject => h.unrejected (unrejected_concat hreject).1
  cases action with
  | complete assignNextTaskTo now =>
    obtain ⟨hc, -⟩ := ha.wellFormed.fits .NEW (isEnabled_complete.mp hen).1
    refine ⟨isAnswer_now rfl, h.approved.concat _, h.secondApproval, h.payment,
      fun hreject => ⟨rfl, ?_⟩⟩
    -- neither completed nor rejected before, it was not approved either
    have hr := (hbefore hreject).1
    have hm : invoice.approvedByManagerOn = none :=
      not_not.mp fun hm => (hdates.approved hm).elim (· hc) (· hr)
    exact notAfter_of_eq_none hm
  | approveAsManager now =>
    obtain ⟨-, -, hm⟩ := ha.wellFormed.fits .COMPLETED (isEnabled_approveAsManager.mp hen)
    have hl : invoice.approvedByCountryLeaderOn = none :=
      not_not.mp fun hl => hdates.secondApproved hl hm
    have hp : invoice.paidOn = none := not_not.mp fun hp => hdates.paid hp hm
    exact ⟨h.completed.concat _, isAnswer_now rfl, notAfter_of_eq_none hl, notAfter_of_eq_none hp,
      fun hreject => ⟨(hbefore hreject).1, h.completed.notAfter rfl hclock⟩⟩
  | approveAsCountryLeader now =>
    exact ⟨h.completed.concat _, h.approved.concat _, h.approved.notAfter rfl hclock, h.payment,
      hbefore⟩
  | pay now =>
    exact ⟨h.completed.concat _, h.approved.concat _, h.secondApproval,
      h.approved.notAfter rfl hclock, hbefore⟩
  | reject now =>
    refine ⟨fun d hd => absurd hd (by simp [Action.body, reject]), h.approved.concat _,
      h.secondApproval, h.payment, fun hreject => ?_⟩
    exact absurd rfl (unrejected_concat hreject).2
  | _ =>
    exact ⟨h.completed.concat _, h.approved.concat _, h.secondApproval, h.payment, hbefore⟩

theorem inTime_of_run {row : Nat} {n : String} {tr : Trace Config Action}
    (h : Run SimpleInvoiceWorkFlow (Config.start row n) tr c)
    (hclock : IsMonotonic ((tr.map Prod.snd).filterMap Action.now?)) :
    InTime (tr.map Prod.snd) c.invoice.val := by
  have hboth : c.invoice.val.Attainable ∧ (IsMonotonic ((tr.map Prod.snd).filterMap Action.now?) →
      InTime (tr.map Prod.snd) c.invoice.val) := by
    refine keepOutcome_of_run (P := fun tr c => c.invoice.val.Attainable ∧
      (IsMonotonic ((tr.map Prod.snd).filterMap Action.now?) →
        InTime (tr.map Prod.snd) c.invoice.val)) ?_ (wellFormed_create n) ?_ h
    · intro tr c action c' ⟨ha, hin⟩ _ hen hout
      refine ⟨ha.of_outcome hen hout, fun hclock => ?_⟩
      rw [List.map_append] at hclock ⊢
      -- what the clock answered before went forward, too
      have hbefore := hclock
      rw [IsMonotonic, List.filterMap_append, List.pairwise_append] at hbefore
      exact (hin hbefore.1).of_outcome ha hen hout hclock
    · exact ⟨attainable_create n, fun _ => inTime_create n⟩
  exact hboth.2 hclock

/-! ## In the whole system -/

/-- An action asks the clock once, through a task as directly. -/
theorem now?_of_ownAction {invoice : Nat} {action : UserAction} {own : Action}
    (hown : action.ownAction? invoice store = some own) : own.now? = action.now? := by
  rcases eq_of_ownAction hown with rfl | ⟨task, taskAction, rfl, rfl⟩ <;> rfl

/-- **The dates of every stored invoice are in order**, in every run during which the clock does not
go back: neither the second approval nor the payment is before the manager's approval, and that is
not before the completion, unless the invoice was rejected in between. -/
theorem datesInOrder_of_taskRun {row : Row SimpleInvoice} {tr : Trace Store UserAction}
    (h : Run SimpleInvoiceTaskSystem .empty tr store)
    (hclock : IsMonotonic ((tr.map Prod.snd).filterMap UserAction.now?))
    (hrow : row ∈ store.invoices.rows) :
    NotAfter row.val.approvedByManagerOn row.val.approvedByCountryLeaderOn ∧
      NotAfter row.val.approvedByManagerOn row.val.paidOn ∧
      (ActionKind.reject ∉ (ownActions row.id tr).map Action.kind →
        NotAfter row.val.completedOn row.val.approvedByManagerOn) := by
  obtain ⟨n, tr', c, hrun, hpart, hown⟩ := exists_own_run h (isStored_of_mem hrow)
  obtain rfl : c.invoice = row := Table.eq_of_id hpart.mem hrow hpart.id_eq
  have hanswers : ((ownActions c.invoice.id tr).filterMap Action.now?).Sublist
      ((tr.map Prod.snd).filterMap UserAction.now?) :=
    sublist_filterMap_labelled now?_of_ownAction
  have hin := inTime_of_run hrun (hown ▸ List.Pairwise.sublist hanswers hclock)
  rw [← hown]
  exact ⟨hin.secondApproval, hin.payment, fun hreject => (hin.unrejected hreject).2⟩

/-- The same invoice, approved through the second task and paid. -/
def paidThroughTask : List UserAction :=
  throughTask ++ [.onTask 1 (.approveAsManager ⟨2⟩), .onInvoices (.act 0 (.pay ⟨3⟩))]

/-- What is stored of it then. -/
def paidInvoice : Row SimpleInvoice :=
  { completedInvoice with val := { completedInvoice.val with
      invoiceState := some .PAID, approvedByManagerOn := some ⟨2⟩, paidOn := some ⟨3⟩ } }

theorem datesInOrder_of_paidThroughTask :
    NotAfter paidInvoice.val.completedOn paidInvoice.val.approvedByManagerOn ∧
      NotAfter paidInvoice.val.approvedByManagerOn paidInvoice.val.paidOn := by
  obtain ⟨-, hpayment, hcompletion⟩ :=
    datesInOrder_of_taskRun (run_exec (l := paidThroughTask) (by decide)) (by decide)
      (show paidInvoice ∈
        ((exec SimpleInvoiceTaskSystem .empty paidThroughTask).get (by decide)).2.invoices.rows by
          decide)
  exact ⟨hcompletion (by decide), hpayment⟩

end SimpleInvoice

end WorkflowSketch
