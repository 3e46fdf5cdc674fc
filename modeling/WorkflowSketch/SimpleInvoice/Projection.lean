import WorkflowSketch.SimpleInvoice.Graph
import WorkflowSketch.SimpleInvoice.Interleaving
import WorkflowSketch.SimpleInvoice.TaskAction

/-!
# From the whole system to one invoice

The results on one invoice are about `SimpleInvoiceWorkFlow`, a system of its own. The application
is `SimpleInvoiceTaskSystem`: all invoices over one store, acted on directly or through tasks.

* **`run_of_taskRun`**: acting through tasks adds nothing; it is the same run on the invoices.
* **`projection_of_taskRun`**: for each stored invoice, its own steps in a run of the whole system
  are a run of its workflow, on the same data and the same tasks.
* `InOrder`: what the kinds of the actions on one invoice say about each other.
* **`inOrder_of_taskRun`**: the same of every invoice of the whole system.
-/

namespace WorkflowSketch

open Lib Lib.Transact

namespace SimpleInvoice

open SimpleInvoiceTaskRepository SimpleInvoiceTaskService

variable {store store' : Store} {row : Row SimpleInvoice} {invoice : Nat} {config : Config}

/-! ## Tasks add nothing -/

/-- What a user does, as an action on the invoices. -/
def UserAction.asStoreAction? (store : Store) : UserAction → Option StoreAction
  | .onInvoices action => some action
  | .onTask task action =>
    (store.tasks.get? task).map fun row => .act row.val.invoice action.onInvoice

/-- Whatever a user does, and is offered, is an action on the invoices. -/
theorem exists_asStoreAction {action : UserAction} (hen : action.isEnabled store = true) :
    ∃ storeAction, action.asStoreAction? store = some storeAction ∧
      store.isEnabled storeAction = true ∧
      action.perform store = (store.perform storeAction).mapError .runtimeException := by
  cases action with
  | onInvoices action => exact ⟨action, rfl, hen, rfl⟩
  | onTask task action =>
    simp only [UserAction.isEnabled, Option.any_eq_true] at hen
    obtain ⟨task', htask, hen⟩ := hen
    obtain ⟨row, hrow, hid, hget⟩ := exists_invoice_of_isEnabled hen
    have hperform := perform_onInvoice hget hen
    rw [isEnabled_onInvoice hget] at hen
    refine ⟨.act row.id action.onInvoice, ?_, ?_, ?_⟩
    · simp only [UserAction.asStoreAction?, htask, Option.map_some, hid]
    · simpa [Store.isEnabled, Table.get?_eq_some_iff.mpr ⟨hrow, rfl⟩] using hen
    · simp only [UserAction.perform, htask]
      exact hperform

theorem taskSystem_simulation :
    Simulation SimpleInvoiceTaskSystem SimpleInvoiceSystem UserAction.asStoreAction? Eq where
  step := by
    rintro s s' _ a b rfl hen hok hlabel
    obtain ⟨storeAction, hsome, hen', hperform⟩ := exists_asStoreAction hen
    obtain rfl : storeAction = b := Option.some.inj (hsome.symm.trans hlabel)
    exact ⟨hen', s', mapError_eq_ok_iff.mp (hperform.symm.trans hok), rfl⟩
  skip := by
    rintro s s' _ a rfl hen - hlabel
    obtain ⟨storeAction, hsome, -⟩ := exists_asStoreAction hen
    exact absurd (hsome.symm.trans hlabel) (by simp)

/-- The steps of a run with tasks are all actions on the invoices. -/
theorem states_of_taskRun {store₀ : Store} {tr : Trace Store UserAction}
    (h : Run SimpleInvoiceTaskSystem store₀ tr store) :
    (labelled UserAction.asStoreAction? tr).map Prod.fst = tr.map Prod.fst := by
  refine h.keepTrace (P := fun tr _ => (labelled UserAction.asStoreAction? tr).map Prod.fst =
    tr.map Prod.fst) ?_ rfl
  intro tr s action s' ih hen _
  obtain ⟨storeAction, hsome, -⟩ := exists_asStoreAction hen
  rw [labelled_concat, hsome, List.map_append, ih]
  simp

/-- **Acting through tasks adds nothing**: a run is the same run, through the same stores, with each
action of a task replaced by the action on its invoice. -/
theorem run_of_taskRun {store₀ : Store} {tr : Trace Store UserAction}
    (h : Run SimpleInvoiceTaskSystem store₀ tr store) :
    Run SimpleInvoiceSystem store₀ (labelled UserAction.asStoreAction? tr) store ∧
      (labelled UserAction.asStoreAction? tr).map Prod.fst = tr.map Prod.fst :=
  ⟨taskSystem_simulation.run_eq h, states_of_taskRun h⟩

/-- Completing the invoice through its task is completing it. -/
theorem run_of_throughTask :
    Run SimpleInvoiceSystem .empty
      (labelled UserAction.asStoreAction?
        ((exec SimpleInvoiceTaskSystem .empty throughTask).get (by decide)).1)
      ((exec SimpleInvoiceTaskSystem .empty throughTask).get (by decide)).2 :=
  (run_of_taskRun (run_exec (by decide))).1

/-! ## One invoice of many -/

/-- A step on the invoices: a new one, or an action on a stored one. -/
theorem Store.perform_cases {action : StoreAction}
    (hen : store.isEnabled action = true) (hok : store.perform action = .ok store') :
    (∃ invoiceNumber, action = .create invoiceNumber ∧ store' = { store with
        invoices := store.invoices.insert (SimpleInvoice.create invoiceNumber) }) ∨
      ∃ row ∈ store.invoices.rows, ∃ own config, action = .act row.id own ∧
        own.isEnabled row.val = true ∧
        SimpleInvoice.perform ⟨row, store.tasks⟩ own = .ok config ∧
        store' = ⟨store.invoices.modify row.id fun _ => config.invoice.val, config.tasks⟩ := by
  cases action with
  | create invoiceNumber =>
    cases hok
    exact Or.inl ⟨invoiceNumber, rfl, rfl⟩
  | act invoice own =>
    simp only [Store.isEnabled, Option.any_eq_true] at hen
    obtain ⟨row, hget, hen⟩ := hen
    obtain ⟨hrow, rfl⟩ := Table.get?_eq_some_iff.mp hget
    obtain ⟨config, hconfig, rfl⟩ := (Store.perform_act_eq_ok_iff hrow).mp hok
    exact Or.inr ⟨row, hrow, own, config, rfl, hen, hconfig, rfl⟩

/-- An action on the invoice, as one of its workflow. -/
def StoreAction.ownAction? (invoice : Nat) : StoreAction → Option Action
  | .create _ => none
  | .act other action => if other = invoice then some action else none

/-- What a user does to the invoice. -/
def UserAction.ownAction? (invoice : Nat) (store : Store) (action : UserAction) : Option Action :=
  (action.asStoreAction? store).bind (StoreAction.ownAction? invoice)

/-- The invoice with its tasks, as they are in the store. -/
structure IsPart (invoice : Nat) (store : Store) (config : Config) : Prop where
  mem : config.invoice ∈ store.invoices.rows
  id_eq : config.invoice.id = invoice
  tasks : taskView config.tasks invoice = taskView store.tasks invoice

/-- Its own steps are those of its workflow. -/
theorem IsPart.act {action : Action} (h : IsPart invoice store config)
    (hok : store.perform (.act invoice action) = .ok store') :
    ∃ config', perform config action = .ok config' ∧ IsPart invoice store' config' := by
  obtain ⟨hmem, rfl, htasks⟩ := h
  obtain ⟨c, hc, rfl⟩ := (Store.perform_act_eq_ok_iff hmem).mp hok
  have halike : Alike ⟨config.invoice, store.tasks⟩ config := ⟨rfl, htasks.symm⟩
  obtain ⟨config', hok', hval, hview⟩ := halike.perform hc
  have hid : c.invoice.id = config.invoice.id := id_of_perform (c := ⟨_, store.tasks⟩) hc
  have hid' := id_of_perform hok'
  refine ⟨config', hok', ?_, hid', ?_⟩
  · have hrow : config'.invoice = ⟨config.invoice.id, config'.invoice.val⟩ := Row.ext hid' rfl
    rw [hrow]
    exact Table.mem_modify_iff.mpr ⟨config.invoice, hmem, rfl, hval⟩
  · rw [hid, hid'] at hview
    exact hview.symm

/-- The steps of others leave it and its tasks as they are. -/
theorem IsPart.other {action : StoreAction} (h : IsPart invoice store config)
    (hown : action.ownAction? invoice = none) (hen : store.isEnabled action = true)
    (hok : store.perform action = .ok store') : IsPart invoice store' config := by
  obtain ⟨hmem, hid, htasks⟩ := h
  rcases Store.perform_cases hen hok with
    ⟨n, rfl, rfl⟩ | ⟨row, hrow, own, c, rfl, -, hc, rfl⟩
  · exact ⟨List.mem_append_left _ hmem, hid, htasks⟩
  · have hne : row.id ≠ invoice := by simpa [StoreAction.ownAction?] using hown
    refine ⟨?_, hid, ?_⟩
    · rw [Table.rows_modify]
      exact List.mem_map.mpr ⟨config.invoice, hmem, if_neg (hid ▸ Ne.symm hne)⟩
    · rw [htasks, taskView, taskView, findByInvoice, findByInvoice]
      rw [select_perform hc fun task htask => by rw [htask]; simpa using hne]

theorem invoice_simulation (invoice : Nat) :
    Simulation SimpleInvoiceSystem SimpleInvoiceWorkFlow
      (fun _ action => action.ownAction? invoice) (IsPart invoice) where
  step := by
    intro s s' config action own h hen hok hlabel
    cases action with
    | create invoiceNumber => exact absurd hlabel (by simp [StoreAction.ownAction?])
    | act other action =>
      simp only [StoreAction.ownAction?, Option.ite_none_right_eq_some, Option.some.injEq] at hlabel
      obtain ⟨rfl, rfl⟩ := hlabel
      have hget : s.invoices.get? other = some config.invoice :=
        Table.get?_eq_some_iff.mpr ⟨h.mem, h.id_eq⟩
      have hoffered : s.isEnabled (.act other action) = true := hen
      rw [Store.isEnabled, hget, Option.any_some] at hoffered
      exact ⟨hoffered, h.act hok⟩
  skip h hen hok hlabel := h.other hlabel hen hok

/-- **One invoice of the whole system**: what it does there it does in its workflow. -/
theorem userInvoice_simulation (invoice : Nat) :
    Simulation SimpleInvoiceTaskSystem SimpleInvoiceWorkFlow (UserAction.ownAction? invoice)
      (IsPart invoice) :=
  taskSystem_simulation.comp (invoice_simulation invoice)

/-! ## From its creation on -/

/-- The invoice is stored. -/
def IsStored (invoice : Nat) (store : Store) : Prop :=
  invoice ∈ store.invoices.rows.map Row.id

theorem isStored_of_mem (hrow : row ∈ store.invoices.rows) : IsStored row.id store :=
  List.mem_map_of_mem hrow

/-- A user acts on stored invoices only. -/
theorem isStored_of_ownAction {action : UserAction} {own : Action}
    (hen : action.isEnabled store = true) (hown : action.ownAction? invoice store = some own) :
    IsStored invoice store := by
  obtain ⟨storeAction, hsome, hen', -⟩ := exists_asStoreAction hen
  rw [UserAction.ownAction?, hsome, Option.bind_some] at hown
  cases storeAction with
  | create invoiceNumber => exact absurd hown (by simp [StoreAction.ownAction?])
  | act other action =>
    simp only [StoreAction.ownAction?, Option.ite_none_right_eq_some] at hown
    obtain ⟨rfl, -⟩ := hown
    simp only [Store.isEnabled, Option.any_eq_true] at hen'
    obtain ⟨row, hget, -⟩ := hen'
    obtain ⟨hrow, rfl⟩ := Table.get?_eq_some_iff.mp hget
    exact isStored_of_mem hrow

/-- A step stores one invoice at most, the next one, and keeps those there are. -/
theorem isStored_of_perform {action : UserAction} (hen : action.isEnabled store = true)
    (hok : action.perform store = .ok store') :
    (∃ invoiceNumber, action.asStoreAction? store = some (.create invoiceNumber) ∧
      store' = { store with
        invoices := store.invoices.insert (SimpleInvoice.create invoiceNumber) }) ∨
      ∀ invoice, IsStored invoice store' ↔ IsStored invoice store := by
  obtain ⟨storeAction, hsome, hen', hperform⟩ := exists_asStoreAction hen
  replace hok := mapError_eq_ok_iff.mp (hperform.symm.trans hok)
  rcases Store.perform_cases hen' hok with
    ⟨n, rfl, rfl⟩ | ⟨row, hrow, own, c, rfl, -, -, rfl⟩
  · exact Or.inl ⟨n, hsome, rfl⟩
  · refine Or.inr fun invoice => ?_
    unfold IsStored
    rw [Table.ids_modify]

/-- No own step of an invoice comes before it is stored. -/
theorem labelled_eq_nil {store₀ : Store} {tr : Trace Store UserAction}
    (h : Run SimpleInvoiceTaskSystem store₀ tr store) (hnot : ¬ IsStored invoice store) :
    labelled (UserAction.ownAction? invoice) tr = [] := by
  have hstored : labelled (UserAction.ownAction? invoice) tr ≠ [] → IsStored invoice store := by
    refine h.keepTrace (P := fun tr store =>
      labelled (UserAction.ownAction? invoice) tr ≠ [] → IsStored invoice store) ?_
      fun hne => absurd rfl hne
    intro tr s action s' ih hen hok hne
    have hbefore : IsStored invoice s := by
      rw [labelled_concat] at hne
      cases hown : action.ownAction? invoice s with
      | none => exact ih (by simpa [hown] using hne)
      | some own => exact isStored_of_ownAction hen hown
    rcases isStored_of_perform hen hok with ⟨invoiceNumber, -, rfl⟩ | hiff
    · unfold IsStored
      rw [Table.rows_insert, List.map_append]
      exact List.mem_append_left _ hbefore
    · exact (hiff invoice).mpr hbefore
  exact not_not.mp (mt hstored hnot)

/-- The configuration an invoice starts from. -/
def Config.start (invoice : Nat) (invoiceNumber : String) : Config :=
  ⟨⟨invoice, SimpleInvoice.create invoiceNumber⟩, Table.empty⟩

theorem Config.start_isCreated (invoice : Nat) (invoiceNumber : String) :
    (Config.start invoice invoiceNumber).IsCreated := ⟨⟨invoiceNumber, rfl⟩, rfl⟩

/-- The own steps of a stored invoice are a run from the step that created it on. -/
theorem exists_projection {tr : Trace Store UserAction}
    (h : Run SimpleInvoiceTaskSystem .empty tr store) (hstored : IsStored invoice store) :
    ∃ n tr' c, Run SimpleInvoiceWorkFlow (Config.start invoice n) tr' c ∧ IsPart invoice store c ∧
      List.Forall₂ (fun p q => IsPart invoice p.1 q.1 ∧ p.2 = q.2)
        (labelled (UserAction.ownAction? invoice) tr) tr' := by
  obtain ⟨tr₁, s₁, action, s₂, tr₂, h₁, hnot, hen, hok, hnew, h₂, rfl⟩ :=
    h.exists_entry (P := IsStored invoice) List.not_mem_nil hstored
  rcases isStored_of_perform hen hok with ⟨n, haction, rfl⟩ | hiff
  · have hid : invoice = s₁.invoices.nextId := by
      unfold IsStored at hnew
      rw [Table.rows_insert, List.map_append, List.mem_append] at hnew
      exact List.mem_singleton.mp (hnew.resolve_left hnot)
    have hfresh : IsPart invoice
        { s₁ with invoices := s₁.invoices.insert (SimpleInvoice.create n) }
        (Config.start invoice n) := by
      refine ⟨?_, rfl, ?_⟩
      · rw [hid]
        exact List.mem_append_right _ List.mem_cons_self
      · show [] = taskView s₁.tasks invoice
        rw [taskView, hid, (resting_of_taskRun h₁).findByInvoice_nextId]
        rfl
    obtain ⟨tr', c, hrun, hpart, hmatch⟩ := (userInvoice_simulation invoice).run hfresh h₂
    refine ⟨n, tr', c, hrun, hpart, ?_⟩
    -- neither the creation nor a step before it is an own step
    have hown : action.ownAction? invoice s₁ = none := by
      rw [UserAction.ownAction?, haction]
      rfl
    have hnil := labelled_eq_nil h₁ hnot
    have hlabelled : labelled (UserAction.ownAction? invoice) (tr₁ ++ (s₁, action) :: tr₂) =
        labelled (UserAction.ownAction? invoice) tr₂ := by
      rw [labelled, List.filterMap_append, ← labelled, hnil, List.nil_append]
      simp [labelled, hown]
    rwa [hlabelled]
  · exact absurd ((hiff invoice).mp hnew) hnot

/-- **Every invoice runs through its workflow**: in a run of the whole system the own steps of a
stored invoice, directly or through a task, are a run from its creation on, in which it has the same
data and the same tasks before each of them, and in the end. -/
theorem projection_of_taskRun {tr : Trace Store UserAction}
    (h : Run SimpleInvoiceTaskSystem .empty tr store) (hrow : row ∈ store.invoices.rows) :
    ∃ tr' c, Run SimpleInvoiceWorkFlow (Config.start row.id row.val.invoiceNumber) tr' c ∧
      c.invoice = row ∧ taskView c.tasks row.id = taskView store.tasks row.id ∧
      List.Forall₂ (fun p q => IsPart row.id p.1 q.1 ∧ p.2 = q.2)
        (labelled (UserAction.ownAction? row.id) tr) tr' := by
  obtain ⟨n, tr', c, hrun, hpart, hmatch⟩ := exists_projection h (isStored_of_mem hrow)
  obtain rfl : c.invoice = row := Table.eq_of_id hpart.mem hrow hpart.id_eq
  -- no step writes the number
  obtain ⟨-, hn⟩ := attainable_of_run (Config.start_isCreated _ n) hrun
  obtain rfl : c.invoice.val.invoiceNumber = n := hn
  exact ⟨tr', c, hrun, rfl, hpart.tasks, hmatch⟩

/-- The invoice that is completed and approved in between steps of another one. -/
theorem projection_of_twoInvoices :
    ∃ tr' c, Run SimpleInvoiceWorkFlow (Config.start 0 "I-1") tr' c ∧ c.invoice = completedInvoice ∧
      taskView c.tasks 0 = [(some .MANAGER, none)] := by
  have hrun := run_exec (S := SimpleInvoiceTaskSystem) (s := .empty)
    (l := twoInvoices.map .onInvoices) (by decide)
  obtain ⟨tr', c, hown, hinvoice, htasks, -⟩ := projection_of_taskRun hrun
    (show completedInvoice ∈ ((exec SimpleInvoiceTaskSystem .empty
      (twoInvoices.map .onInvoices)).get (by decide)).2.invoices.rows by decide)
  exact ⟨tr', c, hown, hinvoice, htasks.trans (by decide)⟩

/-! ## Once, and in order -/

variable {invoice' : SimpleInvoice} {action : Action} {kinds : List ActionKind}

/-- The actions whose date nothing clears. -/
def ActionKind.isStamped : ActionKind → Bool
  | .approveAsManager | .approveAsCountryLeader | .pay | .discard => true
  | _ => false

/-- The date that such an action leaves. -/
def stamp : ActionKind → SimpleInvoice → Option LocalDate
  | .approveAsManager, invoice => invoice.approvedByManagerOn
  | .approveAsCountryLeader, invoice => invoice.approvedByCountryLeaderOn
  | .pay, invoice => invoice.paidOn
  | .discard, invoice => invoice.discardedOn
  | _, _ => none

/-- What the dates of an invoice say about the actions on it so far. -/
structure InOrder (kinds : List ActionKind) (invoice : SimpleInvoice) : Prop where
  once : ∀ kind : ActionKind, kind.isStamped = true → kinds.count kind ≤ 1
  stamped : ∀ kind : ActionKind, kind.isStamped = true →
    (stamp kind invoice ≠ none ↔ kind ∈ kinds)
  completed : invoice.completedOn ≠ none ∨ invoice.rejectedOn ≠ none →
    [.complete].Sublist kinds
  approved : invoice.approvedByManagerOn ≠ none → [.complete, .approveAsManager].Sublist kinds
  secondApproved : invoice.approvedByCountryLeaderOn ≠ none →
    [.complete, .approveAsManager, .approveAsCountryLeader].Sublist kinds
  paid : invoice.paidOn ≠ none → [.complete, .approveAsManager, .pay].Sublist kinds

/-- An action leaves its own date only. -/
theorem stamp_of_outcome {invoice : SimpleInvoice} (h : outcome action invoice = .ok invoice')
    (kind : ActionKind) (hkind : kind.isStamped = true) :
    stamp kind invoice' ≠ none ↔ stamp kind invoice ≠ none ∨ action.kind = kind := by
  rw [outcome_eq_body h]
  cases kind with
  | approveAsManager | approveAsCountryLeader | pay | discard =>
    cases action <;> first
      | exact iff_of_true (Option.some_ne_none _) (Or.inr rfl)
      | exact (or_iff_left (by simp [Action.kind])).symm
  | _ => exact absurd hkind (by simp [ActionKind.isStamped])

/-- It is offered only while there is no such date. -/
theorem stamp_of_isEnabled {invoice : SimpleInvoice} (hw : invoice.WellFormed)
    (hen : action.isEnabled invoice = true) (hkind : action.kind.isStamped = true) :
    stamp action.kind invoice = none := by
  cases action with
  | approveAsManager now => exact (hw.fits .COMPLETED (isEnabled_approveAsManager.mp hen)).2.2
  | approveAsCountryLeader now =>
    exact (hw.fits .APPROVED_BY_MANAGER (isEnabled_approveAsCountryLeader.mp hen)).2.2.2
  | pay now => exact (hw.fits .PAYABLE (isEnabled_pay.mp hen)).2.2.2
  | discard now => exact (hw.fits .NEW (isEnabled_discard.mp hen)).2
  | _ => exact absurd hkind (by simp [Action.kind, ActionKind.isStamped])

theorem inOrder_create (invoiceNumber : String) :
    InOrder [] (SimpleInvoice.create invoiceNumber) := by
  have hnone : ∀ kind, stamp kind (SimpleInvoice.create invoiceNumber) = none := by
    intro kind
    cases kind <;> rfl
  refine ⟨by simp, fun kind _ => by simp [hnone], ?_, ?_, ?_, ?_⟩ <;> simp [SimpleInvoice.create]

/-- Only a completion makes an invoice a completed or a rejected one. -/
theorem kind_of_completed {invoice : SimpleInvoice} (hw : invoice.WellFormed)
    (hen : action.isEnabled invoice = true) (hout : outcome action invoice = .ok invoice')
    (hbefore : ¬ (invoice.completedOn ≠ none ∨ invoice.rejectedOn ≠ none))
    (hafter : invoice'.completedOn ≠ none ∨ invoice'.rejectedOn ≠ none) :
    action.kind = .complete := by
  rw [outcome_eq_body hout] at hafter
  cases action with
  | complete assignNextTaskTo now => rfl
  | reject now =>
    refine absurd (Or.inl ?_) hbefore
    rcases isEnabled_reject.mp hen with hs | hs | hs <;> exact (hw.fits _ hs).1
  | _ => exact absurd hafter hbefore

/-- **One action keeps the order.** -/
theorem InOrder.of_outcome {invoice : SimpleInvoice} (h : InOrder kinds invoice)
    (hw : invoice.WellFormed) (hen : action.isEnabled invoice = true)
    (hout : outcome action invoice = .ok invoice') :
    InOrder (kinds ++ [action.kind]) invoice' := by
  have hlater : ∀ {l : List ActionKind}, l.Sublist kinds → l.Sublist (kinds ++ [action.kind]) :=
    fun hl => hl.trans (List.sublist_append_left _ _)
  have hnow : ∀ {l : List ActionKind} {kind}, l.Sublist kinds → action.kind = kind →
      (l ++ [kind]).Sublist (kinds ++ [action.kind]) := by
    rintro l _ hl rfl
    exact hl.append (List.Sublist.refl _)
  refine ⟨fun kind hkind => ?_, fun kind hkind => ?_, fun hc => ?_, fun hm => ?_, fun hl => ?_,
    fun hp => ?_⟩
  · rw [List.count_append, List.count_singleton]
    by_cases hsame : action.kind = kind
    · subst hsame
      have hnone : kinds.count action.kind = 0 := List.count_eq_zero.mpr fun hmem =>
        (h.stamped _ hkind).mpr hmem (stamp_of_isEnabled hw hen hkind)
      simp [hnone]
    · simpa [hsame] using h.once kind hkind
  · rw [stamp_of_outcome hout kind hkind, h.stamped kind hkind, List.mem_append, List.mem_singleton,
      eq_comm (a := kind)]
  · by_cases hbefore : invoice.completedOn ≠ none ∨ invoice.rejectedOn ≠ none
    · exact hlater (h.completed hbefore)
    · exact hnow (l := []) (List.nil_sublist _) (kind_of_completed hw hen hout hbefore hc)
  · rcases (stamp_of_outcome hout .approveAsManager rfl).mp hm with hbefore | hkind
    · exact hlater (h.approved hbefore)
    · cases action with
      | approveAsManager now =>
        obtain ⟨hc, -⟩ := hw.fits .COMPLETED (isEnabled_approveAsManager.mp hen)
        exact hnow (h.completed (Or.inl hc)) rfl
      | _ => exact absurd hkind (by simp [Action.kind])
  · rcases (stamp_of_outcome hout .approveAsCountryLeader rfl).mp hl with hbefore | hkind
    · exact hlater (h.secondApproved hbefore)
    · cases action with
      | approveAsCountryLeader now =>
        obtain ⟨-, -, hm, -⟩ :=
          hw.fits .APPROVED_BY_MANAGER (isEnabled_approveAsCountryLeader.mp hen)
        exact hnow (h.approved hm) rfl
      | _ => exact absurd hkind (by simp [Action.kind])
  · rcases (stamp_of_outcome hout .pay rfl).mp hp with hbefore | hkind
    · exact hlater (h.paid hbefore)
    · cases action with
      | pay now =>
        obtain ⟨-, -, hm, -⟩ := hw.fits .PAYABLE (isEnabled_pay.mp hen)
        exact hnow (h.approved hm) rfl
      | _ => exact absurd hkind (by simp [Action.kind])

/-- The kinds of the actions of a history. -/
def kindsOf {σ : Type*} (tr : Trace σ Action) : List ActionKind := tr.map fun step => step.2.kind

theorem inOrder_of_run {c₀ c : Config} {tr : Trace Config Action} (h₀ : c₀.IsCreated)
    (h : Run SimpleInvoiceWorkFlow c₀ tr c) : InOrder (kindsOf tr) c.invoice.val := by
  refine keepOutcome_of_run (P := fun tr c => InOrder (kindsOf tr) c.invoice.val) ?_
    h₀.resting.wellFormed ?_ h
  · intro tr c action c' hh hw hen hout
    rw [kindsOf, List.map_append]
    exact hh.of_outcome hw hen hout
  · obtain ⟨⟨invoiceNumber, hval⟩, -⟩ := h₀
    rw [hval]
    exact inOrder_create invoiceNumber

/-- **Once, and in order**, in the whole system: of the actions on a stored invoice, directly or
through a task, each approval, the payment and the discarding occur once at most; and one that is
paid was completed, approved by the manager and paid, in this order. -/
theorem inOrder_of_taskRun {tr : Trace Store UserAction}
    (h : Run SimpleInvoiceTaskSystem .empty tr store) (hrow : row ∈ store.invoices.rows) :
    InOrder (kindsOf (labelled (UserAction.ownAction? row.id) tr)) row.val ∧
      (row.val.invoiceState = some .PAID → [.complete, .approveAsManager, .pay].Sublist
        (kindsOf (labelled (UserAction.ownAction? row.id) tr))) ∧
      (row.val.invoiceState = some .PAYABLE → [.complete, .approveAsManager].Sublist
        (kindsOf (labelled (UserAction.ownAction? row.id) tr))) := by
  obtain ⟨n, tr', c, hrun, hpart, hmatch⟩ := exists_projection h (isStored_of_mem hrow)
  obtain rfl : c.invoice = row := Table.eq_of_id hpart.mem hrow hpart.id_eq
  have hkinds : kindsOf (labelled (UserAction.ownAction? c.invoice.id) tr) = kindsOf tr' := by
    have hkind : ∀ {σ : Type} (tr : Trace σ Action),
        kindsOf tr = (tr.map Prod.snd).map Action.kind := fun tr => by
      rw [List.map_map]
      rfl
    rw [hkind, hkind, map_snd_eq_of_forall₂ hmatch]
  have h₀ := Config.start_isCreated c.invoice.id n
  have hw := (resting_of_run h₀ hrun).wellFormed
  have horder := inOrder_of_run h₀ hrun
  rw [hkinds]
  exact ⟨horder, fun hs => horder.paid (hw.fits .PAID hs).2.2.2,
    fun hs => horder.approved (hw.fits .PAYABLE hs).2.2.1⟩

/-- The invoice completed through its task was completed. -/
theorem inOrder_of_throughTask :
    InOrder (kindsOf (labelled (UserAction.ownAction? 0)
      ((exec SimpleInvoiceTaskSystem .empty throughTask).get (by decide)).1))
      completedInvoice.val :=
  (inOrder_of_taskRun (run_exec (by decide))
    (show completedInvoice ∈
      ((exec SimpleInvoiceTaskSystem .empty throughTask).get (by decide)).2.invoices.rows by
        decide)).1

end SimpleInvoice

end WorkflowSketch
