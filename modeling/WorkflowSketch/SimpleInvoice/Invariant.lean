import WorkflowSketch.SimpleInvoice.Action

/-!
# The invariants of the workflow

What every run of an invoice keeps, from its creation on, whatever is done to it and in whatever
order.

* `WellFormed.of_outcome`, `resting_of_run`: an invoice is well formed, and its tasks fit its state,
  in every configuration reached.
* **`datesAgree_of_run`**: the state of an invoice and its dates agree.
* **`stable_of_run`**: the states rested in are stable, so that a spurious event changes nothing.
* **`perform_isOk_iff_of_run`**: exactly when the handling of an event fails.
* **`pay_of_run`**: an invoice is paid at most once.
-/

namespace WorkflowSketch

open Lib Lib.Transact

namespace SimpleInvoice

open SimpleInvoiceTaskRepository SimpleInvoiceTaskService

variable {invoice invoice' : SimpleInvoice} {action : Action}

/-! ## One step, on the invoice -/

theorem fits_inState {s t : SimpleInvoiceState} : (invoice.inState s).Fits t ↔ invoice.Fits t := by
  cases t <;> rfl

theorem wellFormed_inState {s : SimpleInvoiceState}
    (hcr : invoice.completedOn = none ∨ invoice.rejectedOn = none)
    (hcd : invoice.completedOn = none ∨ invoice.discardedOn = none) (hfits : invoice.Fits s) :
    (invoice.inState s).WellFormed where
  completed_or_rejected := hcr
  completed_or_discarded := hcd
  fits t ht := by
    obtain rfl : s = t := by simpa [inState] using ht
    exact fits_inState.mpr hfits

theorem reclassified_eq_ok_iff :
    invoice.reclassified = .ok invoice' ↔
      ∃ s, invoice.classify = .ok s ∧ invoice.inState s = invoice' :=
  map_eq_ok_iff

theorem wellFormed_of_reclassified (h : invoice.reclassified = .ok invoice')
    (hcr : invoice.completedOn = none ∨ invoice.rejectedOn = none)
    (hcd : invoice.completedOn = none ∨ invoice.discardedOn = none) : invoice'.WellFormed := by
  obtain ⟨s, hs, rfl⟩ := reclassified_eq_ok_iff.mp h
  exact wellFormed_inState hcr hcd (fits_of_classify hcr hs)

/-- Edits and `deleteState` keep an invoice well formed: the invariant reads no editable data. -/
theorem WellFormed.body (hw : invoice.WellFormed) (action : Action)
    (h : action.updatedArguments = none) : (action.body invoice).WellFormed := by
  cases action with
  | deleteState => exact ⟨hw.1, hw.2, fun s hs => absurd hs (by simp [Action.body, deleteState])⟩
  | setInvoiceType invoiceType =>
    exact ⟨hw.1, hw.2, fun s hs => by cases s <;> exact hw.fits _ hs⟩
  | setAmount amount => exact ⟨hw.1, hw.2, fun s hs => by cases s <;> exact hw.fits _ hs⟩
  | _ => exact absurd h (by simp [Action.updatedArguments])

/-- **One step keeps an invoice well formed.** -/
theorem WellFormed.of_outcome (hw : invoice.WellFormed) (hen : action.isEnabled invoice = true)
    (h : outcome action invoice = .ok invoice') : invoice'.WellFormed := by
  cases action with
  | initializeState =>
    simp only [outcome] at h
    split at h
    · exact wellFormed_of_reclassified h hw.1 hw.2
    · cases h; exact hw
  | deleteState => cases h; exact hw.body .deleteState rfl
  | setInvoiceType invoiceType => cases h; exact hw.body (.setInvoiceType invoiceType) rfl
  | setAmount amount => cases h; exact hw.body (.setAmount amount) rfl
  | complete assignNextTaskTo now =>
    obtain ⟨-, hd⟩ := hw.fits .NEW (isEnabled_complete.mp hen).1
    have hre : (invoice.complete now).reclassified = .ok invoice' := h
    exact wellFormed_of_reclassified hre (Or.inr rfl) (Or.inr hd)
  | approveAsManager now =>
    have hre : (invoice.approveAsManager now).reclassified = .ok invoice' := h
    exact wellFormed_of_reclassified hre hw.1 hw.2
  | approveAsCountryLeader now =>
    obtain ⟨hc, hr, hm, -⟩ := hw.fits .APPROVED_BY_MANAGER (isEnabled_approveAsCountryLeader.mp hen)
    cases h
    refine wellFormed_inState hw.1 hw.2 ?_
    split
    · rename_i hp; exact ⟨hc, hr, hm, hp⟩
    · rename_i hp; exact ⟨hc, hr, hm, hp⟩
  | pay now =>
    obtain ⟨hc, hr, hm, -⟩ := hw.fits .PAYABLE (isEnabled_pay.mp hen)
    cases h
    exact wellFormed_inState hw.1 hw.2 ⟨hc, hr, hm, Option.some_ne_none now⟩
  | discard now =>
    obtain ⟨hc, -⟩ := hw.fits .NEW (isEnabled_discard.mp hen)
    cases h
    exact wellFormed_inState (Or.inl hc) (Or.inl hc) (Option.some_ne_none now)
  | reject now =>
    have hd : invoice.discardedOn = none := by
      refine hw.completed_or_discarded.resolve_left ?_
      rcases isEnabled_reject.mp hen with hs | hs | hs <;> exact (hw.fits _ hs).1
    cases h
    exact wellFormed_inState (Or.inl rfl) (Or.inl rfl) ⟨rfl, hd⟩

/-- Apart from the state, a step leaves what the action's body wrote. -/
theorem outcome_eq_body (h : outcome action invoice = .ok invoice') :
    invoice' = { action.body invoice with invoiceState := invoice'.invoiceState } := by
  have hslide : ∀ {i : SimpleInvoice}, i.reclassified = .ok invoice' →
      invoice' = { i with invoiceState := invoice'.invoiceState } := by
    intro i hi
    obtain ⟨s, -, rfl⟩ := reclassified_eq_ok_iff.mp hi
    rfl
  cases action with
  | initializeState =>
    simp only [outcome] at h
    split at h
    · exact hslide h
    · cases h; rfl
  | complete assignNextTaskTo now => exact hslide h
  | approveAsManager now => exact hslide h
  | _ => cases h; rfl

/-! ## One step, with the tasks -/

/-- The invariant of an invoice and its tasks. -/
structure Config.Resting (config : Config) : Prop where
  wellFormed : config.invoice.val.WellFormed
  tasksFit : ∀ s, config.invoice.val.invoiceState = some s →
    TasksFit config.tasks config.invoice.id s
  oneTask : (findByInvoice config.tasks config.invoice.id).length ≤ 1

variable {config config' c₀ c : Config} {tr : Trace Config Action}

theorem Config.IsCreated.resting (h : config.IsCreated) : config.Resting := by
  obtain ⟨⟨invoiceNumber, hval⟩, hnone⟩ := h
  exact ⟨hval ▸ wellFormed_create invoiceNumber, fun s hs => by simp [hval, create] at hs,
    by simp [hnone]⟩

/-- A step that publishes no `Updated` event leaves the state, or deletes it. -/
theorem body_state_of_silent (invoice : SimpleInvoice) (h : action.updatedArguments = none) :
    (action.body invoice).invoiceState = none ∨
      (action.body invoice).invoiceState = invoice.invoiceState := by
  cases action with
  | deleteState => exact Or.inl rfl
  | setInvoiceType invoiceType => exact Or.inr rfl
  | setAmount amount => exact Or.inr rfl
  | _ => exact absurd h (by simp [Action.updatedArguments])

/-- **One step keeps an invoice and its tasks at rest.** -/
theorem Config.Resting.perform (hrest : config.Resting)
    (hen : action.isEnabled config.invoice.val = true)
    (h : SimpleInvoice.perform config action = .ok config') : config'.Resting := by
  obtain ⟨hout, hid, htasks⟩ := perform_cases hrest.wellFormed hen h
  have hw := hrest.wellFormed.of_outcome hen hout
  rcases htasks with ⟨hsilent, htasks⟩ | ⟨arguments, s, -, hs, hmaintain⟩
  · rw [outcome_of_silent hsilent] at hout
    have hval : action.body config.invoice.val = config'.invoice.val := by simpa using hout
    refine ⟨hw, fun s hs => ?_, by rw [htasks, hid]; exact hrest.oneTask⟩
    rw [htasks, hid]
    rcases body_state_of_silent config.invoice.val hsilent with hnone | hsame
    · rw [← hval, hnone] at hs; exact absurd hs (by simp)
    · rw [← hval, hsame] at hs; exact hrest.tasksFit s hs
  · have hfit : TasksFit config'.tasks config'.invoice.id s :=
      tasksFit_of_maintainTasksFor hs hmaintain (by rw [hid]; exact hrest.oneTask)
    refine ⟨hw, fun t ht => ?_, hfit.length_le⟩
    obtain rfl : s = t := by simpa [hs] using ht
    exact hfit

/-- **Every configuration reached is at rest.** -/
theorem resting_of_run (h₀ : c₀.IsCreated) (h : Run SimpleInvoiceWorkFlow c₀ tr c) : c.Resting :=
  h.keep (fun _ _ _ hrest hen hok => hrest.perform hen hok) h₀.resting

/-- **The history rule of the workflow**: what the outcome of every enabled action keeps, on a
well-formed invoice, holds at the end of a run. -/
theorem keepOutcome_of_run {P : Trace Config Action → Config → Prop}
    (hP : ∀ {tr c action c'}, P tr c → c.invoice.val.WellFormed →
      action.isEnabled c.invoice.val = true →
      outcome action c.invoice.val = .ok c'.invoice.val → P (tr ++ [(c, action)]) c')
    (hw : c₀.invoice.val.WellFormed) (h₀ : P [] c₀) (h : Run SimpleInvoiceWorkFlow c₀ tr c) :
    P tr c := by
  have hboth : c.invoice.val.WellFormed ∧ P tr c := by
    refine h.keepTrace (P := fun tr c => c.invoice.val.WellFormed ∧ P tr c) ?_ ⟨hw, h₀⟩
    intro tr c action c' ⟨hw, hp⟩ hen hok
    obtain ⟨hout, -, -⟩ := perform_cases hw hen hok
    exact ⟨hw.of_outcome hen hout, hP hp hw hen hout⟩
  exact hboth.2

/-! ## States and dates -/

/-- What the state of an invoice says about its dates, and they about one another. -/
structure DatesAgree (invoice : SimpleInvoice) : Prop where
  completed_rejected : ¬ (invoice.completedOn ≠ none ∧ invoice.rejectedOn ≠ none)
  completed_discarded : ¬ (invoice.completedOn ≠ none ∧ invoice.discardedOn ≠ none)
  not_init : invoice.invoiceState ≠ some .INIT
  new : invoice.invoiceState = some .NEW → invoice.completedOn = none ∧ invoice.discardedOn = none
  completed : invoice.invoiceState ∈ [some .COMPLETED, some .APPROVED_BY_MANAGER, some .PAYABLE,
    some .PAID] →
      invoice.completedOn ≠ none ∧ invoice.rejectedOn = none ∧ invoice.discardedOn = none
  approved : invoice.invoiceState ∈ [some .APPROVED_BY_MANAGER, some .PAYABLE, some .PAID] →
    invoice.approvedByManagerOn ≠ none
  unapproved : invoice.invoiceState = some .COMPLETED → invoice.approvedByManagerOn = none
  paid : invoice.invoiceState = some .PAID → invoice.paidOn ≠ none
  payable : invoice.invoiceState = some .PAYABLE → invoice.paidOn = none
  discarded : invoice.invoiceState = some .DISCARDED →
    invoice.discardedOn ≠ none ∧ invoice.completedOn = none

theorem WellFormed.datesAgree (hw : invoice.WellFormed) : invoice.DatesAgree where
  completed_rejected h := hw.completed_or_rejected.elim h.1 h.2
  completed_discarded h := hw.completed_or_discarded.elim h.1 h.2
  not_init h := hw.fits .INIT h
  new h := hw.fits .NEW h
  completed h := by
    have hc : invoice.completedOn ≠ none ∧ invoice.rejectedOn = none := by
      simp only [List.mem_cons, List.not_mem_nil, or_false] at h
      rcases h with h | h | h | h <;> exact ⟨(hw.fits _ h).1, (hw.fits _ h).2.1⟩
    exact ⟨hc.1, hc.2, hw.completed_or_discarded.resolve_left hc.1⟩
  approved h := by
    simp only [List.mem_cons, List.not_mem_nil, or_false] at h
    rcases h with h | h | h <;> exact (hw.fits _ h).2.2.1
  unapproved h := (hw.fits .COMPLETED h).2.2
  paid h := (hw.fits .PAID h).2.2.2
  payable h := (hw.fits .PAYABLE h).2.2.2
  discarded h :=
    ⟨hw.fits .DISCARDED h, hw.completed_or_discarded.resolve_right (hw.fits .DISCARDED h)⟩

/-- **The state of an invoice and its dates agree**, in every configuration reached. -/
theorem datesAgree_of_run (h₀ : c₀.IsCreated) (h : Run SimpleInvoiceWorkFlow c₀ tr c) :
    c.invoice.val.DatesAgree :=
  (resting_of_run h₀ h).wellFormed.datesAgree

theorem datesAgree_of_payment :
    ((exec SimpleInvoiceWorkFlow .fresh payment).get (by decide)).2.invoice.val.DatesAgree :=
  datesAgree_of_run Config.fresh_isCreated (run_exec (by decide))

/-! ## Stability -/

/-- An `Updated` event without an actor, on tasks that already fit the state it leads to. -/
theorem perform_initializeState {s : SimpleInvoiceState} (hw : config.invoice.val.WellFormed)
    (hout : outcome .initializeState config.invoice.val = .ok invoice)
    (hs : invoice.invoiceState = some s) (hfit : TasksFit config.tasks config.invoice.id s) :
    ∃ config', perform config .initializeState = .ok config' ∧
      config'.invoice = ⟨config.invoice.id, invoice⟩ ∧ config'.tasks.rows = config.tasks.rows := by
  have hen : Action.initializeState.isEnabled config.invoice.val = true := rfl
  obtain ⟨config', hok⟩ := (perform_isOk_iff hw hen).mpr ⟨_, hout⟩
  obtain ⟨hout', hid, htasks⟩ := perform_cases hw hen hok
  have hval : invoice = config'.invoice.val := Except.ok.inj (hout.symm.trans hout')
  have hinvoice : config'.invoice = ⟨config.invoice.id, invoice⟩ := Row.ext hid hval.symm
  refine ⟨config', hok, hinvoice, ?_⟩
  rcases htasks with ⟨hsilent, -⟩ | ⟨arguments, t, harg, -, hmaintain⟩
  · exact absurd hsilent (by simp [Action.updatedArguments])
  · obtain rfl : arguments = [] := by simpa [Action.updatedArguments] using harg.symm
    rw [hinvoice] at hmaintain
    exact rows_maintainTasksFor hs hmaintain hfit

/-- **The state rested in is stable**: none of its guards is satisfied, and a spurious `Updated`
event changes neither the invoice nor any task. -/
theorem stable_of_run (h₀ : c₀.IsCreated) (h : Run SimpleInvoiceWorkFlow c₀ tr c)
    {s : SimpleInvoiceState} (hs : c.invoice.val.invoiceState = some s) :
    (∀ targetAndGuard ∈ s.canTransitionTo, targetAndGuard.guard c.invoice.val = .ok false) ∧
      ∃ c', perform c .initializeState = .ok c' ∧ c'.invoice = c.invoice ∧
        c'.tasks.rows = c.tasks.rows := by
  have hrest := resting_of_run h₀ h
  have hout : outcome .initializeState c.invoice.val = .ok c.invoice.val := by simp [outcome, hs]
  exact ⟨(hrest.wellFormed.fits s hs).unsatisfied_guard,
    perform_initializeState hrest.wellFormed hout hs (hrest.tasksFit s hs)⟩

theorem stable_of_payment :
    ∃ c', perform ((exec SimpleInvoiceWorkFlow .fresh payment).get (by decide)).2 .initializeState =
        .ok c' ∧
      c'.invoice = ((exec SimpleInvoiceWorkFlow .fresh payment).get (by decide)).2.invoice ∧
      c'.tasks.rows = ((exec SimpleInvoiceWorkFlow .fresh payment).get (by decide)).2.tasks.rows :=
  (stable_of_run Config.fresh_isCreated (run_exec (by decide)) (s := .PAID) (by decide)).2

/-! ## Failure -/

/-- The data calls for no state only if a guard reads a null amount. -/
theorem reclassified_isOk_iff :
    (∃ invoice', invoice.reclassified = .ok invoice') ↔
      ¬ (invoice.completedOn ≠ none ∧ invoice.rejectedOn = none ∧
        invoice.approvedByManagerOn ≠ none ∧ invoice.amount = none) := by
  have hclassify : (∃ invoice', invoice.reclassified = .ok invoice') ↔
      ∃ s, invoice.classify = .ok s := by
    simp only [reclassified_eq_ok_iff]
    exact ⟨fun ⟨_, s, hs, _⟩ => ⟨s, hs⟩, fun ⟨s, hs⟩ => ⟨_, s, hs, rfl⟩⟩
  rw [hclassify]
  by_cases hc : invoice.completedOn = none
  · simp [classify, hc]
  · by_cases hr : invoice.rejectedOn = none
    · by_cases hm : invoice.approvedByManagerOn = none
      · simp [classify, hc, hr, hm]
      · cases ha : invoice.amount with
        | none => simp [classify, hc, hr, hm, ha]
        | some amount =>
          refine iff_of_true ?_ (by simp)
          simp only [classify, hc, hr, hm, ha, ne_eq, not_true_eq_false, if_false]
          split
          · exact ⟨_, rfl⟩
          · exact ⟨_, rfl⟩
    · simp [classify, hc, hr]

/-- **When the handling of an event fails**: an approval by the manager, or a start from scratch on
data that has one, meets a null amount. Every other enabled step goes through. -/
theorem perform_isOk_iff_of_run (h₀ : c₀.IsCreated) (h : Run SimpleInvoiceWorkFlow c₀ tr c)
    (hen : SimpleInvoiceWorkFlow.enabled c action = true) :
    (∃ c', perform c action = .ok c') ↔
      ¬ (c.invoice.val.amount = none ∧
        ((∃ now, action = .approveAsManager now) ∨
          (action = .initializeState ∧ c.invoice.val.invoiceState = none ∧
            c.invoice.val.completedOn ≠ none ∧ c.invoice.val.approvedByManagerOn ≠ none))) := by
  have hw := (resting_of_run h₀ h).wellFormed
  replace hen : action.isEnabled c.invoice.val = true := hen
  rw [perform_isOk_iff hw hen]
  cases action with
  | initializeState =>
    by_cases hs : c.invoice.val.invoiceState = none
    · simp only [outcome, hs, if_true]
      rw [reclassified_isOk_iff]
      have hr : c.invoice.val.completedOn ≠ none → c.invoice.val.rejectedOn = none :=
        hw.completed_or_rejected.resolve_left
      simp only [reduceCtorEq, exists_false, true_and, false_or]
      tauto
    · simp [outcome, hs]
  | complete assignNextTaskTo now =>
    have ha : c.invoice.val.amount ≠ none := (isEnabled_complete.mp hen).2.1
    simp only [outcome, reclassified_isOk_iff]
    simp [complete, ha]
  | approveAsManager now =>
    obtain ⟨hc, hr, -⟩ := hw.fits .COMPLETED (isEnabled_approveAsManager.mp hen)
    simp only [outcome, reclassified_isOk_iff]
    simp [approveAsManager, hc, hr]
  | _ => simp [outcome]

/-- The amount is deleted between the completion and the approval. -/
theorem not_perform_isOk_of_null_amount :
    ¬ ∀ (c₀ c : Config) (tr : Trace Config Action) (action : Action), c₀.IsCreated →
      Run SimpleInvoiceWorkFlow c₀ tr c → SimpleInvoiceWorkFlow.enabled c action = true →
        ∃ c', perform c action = .ok c' := by
  intro h
  have hrun := run_exec (S := SimpleInvoiceWorkFlow) (s := .fresh)
    (l := [.initializeState, .setAmount (some ⟨500, 0⟩), .setInvoiceType (some .CAPEX),
      .complete none ⟨1⟩, .setAmount none]) (by decide)
  obtain ⟨c', hok⟩ := h _ _ _ (.approveAsManager ⟨2⟩) Config.fresh_isCreated hrun (by decide)
  have hgoes : (perform _ _).isOk = true := congrArg Except.isOk hok
  exact absurd hgoes (by decide)

theorem perform_isOk_of_approval :
    ∃ c', perform ((exec SimpleInvoiceWorkFlow .fresh approval).get (by decide)).2 (.pay ⟨3⟩) =
      .ok c' :=
  (perform_isOk_iff_of_run Config.fresh_isCreated (run_exec (by decide)) (by decide)).mpr
    fun h => absurd h.1 (by decide)

/-! ## Payment -/

/-- `pay`. -/
def Action.isPay : Action → Bool
  | .pay _ => true
  | _ => false

/-- A payment date stays. -/
theorem paidOn_of_outcome (h : outcome action invoice = .ok invoice')
    (hp : invoice.paidOn ≠ none ∨ action.isPay = true) : invoice'.paidOn ≠ none := by
  rw [outcome_eq_body h]
  cases action with
  | pay now => exact Option.some_ne_none now
  | _ => exact hp.resolve_right (by simp [Action.isPay])

/-- The payments of a history, and the date they leave. -/
structure PaymentHistory (tr : Trace Config Action) (c : Config) : Prop where
  once : tr.countP (fun step => step.2.isPay) ≤ 1
  dated : (∃ step ∈ tr, step.2.isPay = true) → c.invoice.val.paidOn ≠ none

theorem PaymentHistory.commit {c' : Config} (hh : PaymentHistory tr c)
    (hw : c.invoice.val.WellFormed) (hen : action.isEnabled c.invoice.val = true)
    (hout : outcome action c.invoice.val = .ok c'.invoice.val) :
    PaymentHistory (tr ++ [(c, action)]) c' where
  once := by
    rw [List.countP_append, List.countP_singleton]
    cases hpay : action.isPay with
    | false => simpa [hpay] using hh.once
    | true =>
      -- `pay` is offered in `PAYABLE` only, where there is no payment date
      have hnone : ∀ step ∈ tr, step.2.isPay ≠ true := by
        intro step hmem hstep
        cases action with
        | pay now =>
          have hunpaid := (hw.fits .PAYABLE (isEnabled_pay.mp hen)).2.2.2
          exact hh.dated ⟨step, hmem, hstep⟩ hunpaid
        | _ => exact absurd hpay (by simp [Action.isPay])
      rw [List.countP_eq_zero.mpr hnone]
      simp
  dated := by
    rintro ⟨step, hmem, hstep⟩
    refine paidOn_of_outcome hout ?_
    rcases List.mem_append.mp hmem with hmem | hmem
    · exact Or.inl (hh.dated ⟨step, hmem, hstep⟩)
    · rw [List.mem_singleton.mp hmem] at hstep
      exact Or.inr hstep

/-- **An invoice is paid at most once**: after a payment `pay` is never visible again. -/
theorem pay_of_run (h₀ : c₀.IsCreated) (h : Run SimpleInvoiceWorkFlow c₀ tr c) :
    tr.countP (fun step => step.2.isPay) ≤ 1 ∧
      ((∃ step ∈ tr, step.2.isPay = true) → c.invoice.val.hidePay = true) := by
  have hh : PaymentHistory tr c :=
    keepOutcome_of_run PaymentHistory.commit h₀.resting.wellFormed ⟨by simp, by simp⟩ h
  refine ⟨hh.once, fun hpay => ?_⟩
  by_cases hs : c.invoice.val.invoiceState = some .PAYABLE
  · have hunpaid := ((resting_of_run h₀ h).wellFormed.fits .PAYABLE hs).2.2.2
    exact absurd hunpaid (hh.dated hpay)
  · simp [hidePay, hs]

theorem pay_of_payment :
    ((exec SimpleInvoiceWorkFlow .fresh payment).get (by decide)).2.invoice.val.hidePay = true :=
  (pay_of_run Config.fresh_isCreated (run_exec (by decide))).2 (by decide)

end SimpleInvoice

end WorkflowSketch
