import WorkflowSketch.SimpleInvoice.Projection
import WorkflowSketch.SimpleInvoice.Refinement

/-!
# The tables of invoices and of tasks as a whole

The results on the tasks of one invoice, read as results on the two tables that the application
stores, in every run of the whole system.

* **`rows_of_taskRun`**: the invoices are those created, in that order; none is ever lost.
* **`worklist_of_taskRun`**: what a role finds to do, each invoice once: the new invoices for the
  administrators and the completed ones for the managers. No other role ever finds anything.
* **`failure_of_taskRun`**: how an action of a task fails, also where it is not offered.
-/

namespace WorkflowSketch

open Lib Lib.Transact

namespace SimpleInvoice

open SimpleInvoiceTaskRepository SimpleInvoiceTaskService

variable {store store' : Store} {row : Row SimpleInvoice} {action : StoreAction}

/-! ## The invoices -/

/-- The number a step creates an invoice under. -/
def StoreAction.created? : StoreAction → Option String
  | .create invoiceNumber => some invoiceNumber
  | .act _ _ => none

/-- The numbers that a run creates invoices under. -/
def createdNumbers (tr : Trace Store UserAction) : List String :=
  tr.filterMap fun step => (step.2.asStoreAction? step.1).bind StoreAction.created?

/-- No action writes the number. -/
theorem invoiceNumber_of_perform {c c' : Config} {own : Action}
    (h : SimpleInvoice.perform c own = .ok c') :
    c'.invoice.val.invoiceNumber = c.invoice.val.invoiceNumber := by
  have hbody : ∀ invoice, (own.body invoice).invoiceNumber = invoice.invoiceNumber := by
    intro invoice
    cases own <;> rfl
  rcases perform_eq_ok h with ⟨-, rfl⟩ | ⟨-, s, -, -, hinvoice, -⟩
  · exact hbody c.invoice.val
  · rw [hinvoice]
    exact hbody c.invoice.val

/-- The invoices created so far, by number, in that order and under consecutive identities. -/
structure IsComplete (numbers : List String) (store : Store) : Prop where
  ids : store.invoices.rows.map Row.id = List.range store.invoices.nextId
  numbers : store.invoices.rows.map (fun row => row.val.invoiceNumber) = numbers

theorem IsComplete.perform {numbers : List String} (h : IsComplete numbers store)
    (hen : store.isEnabled action = true) (hok : store.perform action = .ok store') :
    IsComplete (numbers ++ action.created?.toList) store' := by
  rcases Store.perform_cases hen hok with
    ⟨n, rfl, rfl⟩ | ⟨row, hrow, own, config, rfl, -, hconfig, rfl⟩
  · constructor
    · show (store.invoices.insert _).rows.map Row.id = List.range (store.invoices.nextId + 1)
      rw [Table.rows_insert, List.map_append, h.ids, List.range_succ]
      rfl
    · show (store.invoices.insert _).rows.map _ = _
      rw [Table.rows_insert, List.map_append, h.numbers]
      rfl
  · constructor
    · exact (Table.ids_modify _ _ _).trans h.ids
    · rw [StoreAction.created?, Option.toList_none, List.append_nil, ← h.numbers,
        Table.rows_modify, List.map_map]
      refine List.map_congr_left fun r hr => ?_
      rw [Function.comp_apply]
      by_cases hid : r.id = row.id
      · rw [if_pos hid, Table.eq_of_id hr hrow hid]
        exact invoiceNumber_of_perform hconfig
      · rw [if_neg hid]

theorem isComplete_of_taskRun {tr : Trace Store UserAction}
    (h : Run SimpleInvoiceTaskSystem .empty tr store) : IsComplete (createdNumbers tr) store := by
  refine h.keepTrace (P := fun tr store => IsComplete (createdNumbers tr) store) ?_ ⟨rfl, rfl⟩
  intro tr s action s' hcomplete hen hok
  obtain ⟨storeAction, hsome, hen', hperform⟩ := exists_asStoreAction hen
  have hstep := hcomplete.perform hen' (mapError_eq_ok_iff.mp (hperform.symm.trans hok))
  have hnumbers : createdNumbers (tr ++ [(s, action)]) =
      createdNumbers tr ++ storeAction.created?.toList := by
    rw [createdNumbers, List.filterMap_append]
    cases hcreated : storeAction.created? <;> simp [createdNumbers, hsome, hcreated]
  rwa [hnumbers]

/-- **No invoice is ever lost**, renumbered or out of order: those stored are those created. -/
theorem rows_of_taskRun {tr : Trace Store UserAction}
    (h : Run SimpleInvoiceTaskSystem .empty tr store) :
    store.invoices.rows.map (fun row => (row.id, row.val.invoiceNumber)) =
      (List.range (createdNumbers tr).length).zip (createdNumbers tr) := by
  obtain ⟨hids, hnumbers⟩ := isComplete_of_taskRun h
  have hlength : (createdNumbers tr).length = store.invoices.nextId := by
    rw [← hnumbers, List.length_map, ← List.length_map Row.id, hids, List.length_range]
  rw [hlength, ← hids, ← hnumbers, List.zip_map']

/-- Two invoices of one number, one of which is completed through its task. -/
theorem rows_of_throughTask :
    ((exec SimpleInvoiceTaskSystem .empty
        (throughTask ++ [.onInvoices (.create "I-1")])).get (by decide)).2.invoices.rows.map
        (fun row => (row.id, row.val.invoiceNumber)) = [(0, "I-1"), (1, "I-1")] :=
  (rows_of_taskRun (run_exec (by decide))).trans (by decide)

/-! ## What a role finds to do -/

/-- An invoice in this state waits for the role. -/
def awaits : Role → SimpleInvoiceState → Bool
  | .ADMINISTRATOR, .NEW => true
  | .MANAGER, .COMPLETED => true
  | _, _ => false

/-- The invoices that a role has a task for, without those whose state was deleted. -/
def worklist (store : Store) (role : Role) : List Nat :=
  (store.tasks.select fun task => task.assignedToRole == some role &&
    (store.invoices.get? task.invoice).any fun row => row.val.invoiceState.isSome).map
      fun task => task.val.invoice

/-- The invoices that wait for a role. -/
def awaiting (store : Store) (role : Role) : List Nat :=
  (store.invoices.select fun invoice => invoice.invoiceState.any (awaits role)).map Row.id

theorem awaits_iff {role : Role} {s : SimpleInvoiceState} :
    awaits role s = true ↔ survivingRole s = some role := by
  cases role <;> cases s <;> decide

/-- A task is for an administrator or a manager. -/
def HasOffice (task : Row SimpleInvoiceTask) : Prop :=
  task.val.assignedToRole = some .ADMINISTRATOR ∨ task.val.assignedToRole = some .MANAGER

/-- Also when the state of its invoice was deleted: the task is that of an earlier state. -/
theorem hasOffice_of_perform (hrest : store.Resting)
    (hoffice : ∀ task ∈ store.tasks.rows, HasOffice task) (hen : store.isEnabled action = true)
    (hok : store.perform action = .ok store') : ∀ task ∈ store'.tasks.rows, HasOffice task := by
  rcases Store.perform_cases hen hok with
    ⟨n, rfl, rfl⟩ | ⟨row, hrow, own, config, rfl, hown, hconfig, rfl⟩
  · exact hoffice
  · intro task htask
    have hrest' := (hrest.invoices row hrow).perform hown hconfig
    obtain ⟨-, hid, htasks⟩ := perform_cases (hrest.invoices row hrow).wellFormed hown hconfig
    rcases htasks with ⟨-, htasks⟩ | ⟨arguments, s, -, hs, -⟩
    · have htask' : task ∈ config.tasks.rows := htask
      rw [htasks] at htask'
      exact hoffice task htask'
    · rcases mem_findByInvoice_or htask row.id with hmine | hother
      · obtain ⟨-, -, hcases⟩ := hrest'.task_eq hs (hid ▸ hmine)
        exact hcases.imp And.right And.right
      · rw [select_perform hconfig fun t ht => by simp [ht]] at hother
        exact hoffice task (Table.mem_select.mp hother).1

/-- What the tasks of a store say about its invoices, and they about the tasks. -/
structure Worked (store : Store) : Prop where
  resting : store.Resting
  offices : ∀ task ∈ store.tasks.rows, HasOffice task
  stored : ∀ task ∈ store.tasks.rows, IsStored task.val.invoice store

theorem worked_of_taskRun {tr : Trace Store UserAction}
    (h : Run SimpleInvoiceTaskSystem .empty tr store) : Worked store := by
  have hboth : store.Resting ∧ ∀ task ∈ store.tasks.rows, HasOffice task := by
    refine h.keep (P := fun store => store.Resting ∧ ∀ task ∈ store.tasks.rows, HasOffice task)
      ?_ ⟨Store.resting_empty, fun _ htask => absurd htask List.not_mem_nil⟩
    intro s action s' ⟨hrest, hoffice⟩ hen hok
    obtain ⟨storeAction, -, hen', hperform⟩ := exists_asStoreAction hen
    replace hok := mapError_eq_ok_iff.mp (hperform.symm.trans hok)
    exact ⟨hrest.perform hen' hok, hasOffice_of_perform hrest hoffice hen' hok⟩
  refine ⟨hboth.1, hboth.2, fun task htask => ?_⟩
  unfold IsStored
  rw [(isComplete_of_taskRun h).ids, List.mem_range]
  exact hboth.1.tasks_lt task htask

variable {role : Role}

/-- An invoice has one task at most. -/
theorem Worked.nodup_tasks (h : Worked store) :
    (store.tasks.rows.map fun task => task.val.invoice).Nodup := by
  rw [List.nodup_map_iff_inj_on (List.Nodup.of_map _ store.tasks.ids_nodup)]
  intro task htask other hother hsame
  obtain ⟨row, hrow, hid⟩ := List.mem_map.mp (h.stored task htask)
  have hmem : task ∈ findByInvoice store.tasks row.id :=
    Table.mem_select.mpr ⟨htask, by simp [hid]⟩
  have hmem' : other ∈ findByInvoice store.tasks row.id :=
    Table.mem_select.mpr ⟨hother, by simp [hid, hsame]⟩
  have hone : (findByInvoice store.tasks row.id).length ≤ 1 := (h.resting.invoices row hrow).oneTask
  match hlist : findByInvoice store.tasks row.id with
  | [] => exact absurd (hlist ▸ hmem) List.not_mem_nil
  | [first] =>
    rw [hlist, List.mem_singleton] at hmem hmem'
    rw [hmem, hmem']
  | first :: second :: rest => simp [hlist] at hone

/-- **An invoice is on the list of a role exactly if it waits for it.** -/
theorem Worked.mem_worklist_iff (h : Worked store) {invoice : Nat} :
    invoice ∈ worklist store role ↔ invoice ∈ awaiting store role := by
  constructor
  · intro hmem
    obtain ⟨task, htask, rfl⟩ := List.mem_map.mp hmem
    obtain ⟨htask, hcond⟩ := Table.mem_select.mp htask
    simp only [Bool.and_eq_true, beq_iff_eq, Option.any_eq_true] at hcond
    obtain ⟨hrole, row, hget, hsome⟩ := hcond
    obtain ⟨hrow, hid⟩ := Table.get?_eq_some_iff.mp hget
    obtain ⟨s, hs⟩ := Option.isSome_iff_exists.mp hsome
    obtain ⟨-, hsurvive, -⟩ := (h.resting.invoices row hrow).task_eq hs
      (Table.mem_select.mpr ⟨htask, by simp [hid]⟩)
    refine List.mem_map.mpr ⟨row, Table.mem_select.mpr ⟨hrow, ?_⟩, hid⟩
    rw [hs, Option.any_some, awaits_iff, hsurvive, hrole]
  · intro hmem
    obtain ⟨row, hrow, rfl⟩ := List.mem_map.mp hmem
    obtain ⟨hrow, hcond⟩ := Table.mem_select.mp hrow
    obtain ⟨s, hs, hawaits⟩ := (Option.any_eq_true _ _).mp hcond
    have hfit := (h.resting.invoices row hrow).tasksFit s hs
    rw [TasksFit, awaits_iff.mp hawaits] at hfit
    obtain ⟨task, hone, hrole⟩ := hfit
    have htask : task ∈ findByInvoice store.tasks row.id := hone ▸ List.mem_singleton_self task
    obtain ⟨htask, hinvoice⟩ := Table.mem_select.mp htask
    replace hinvoice := eq_of_beq hinvoice
    refine List.mem_map.mpr ⟨task, Table.mem_select.mpr ⟨htask, ?_⟩, hinvoice⟩
    rw [hinvoice, Table.get?_eq_some_iff.mpr ⟨hrow, rfl⟩]
    simp [hrole, hs]

/-- **What a role finds to do** is what waits for it, each invoice once: an administrator the new
invoices, a manager the completed ones. A task is one of the two's, for a stored invoice, and no
invoice has two, so a country leader and a treasurer never find anything. -/
theorem worklist_of_taskRun {tr : Trace Store UserAction}
    (h : Run SimpleInvoiceTaskSystem .empty tr store) :
    (∀ role, (worklist store role).Perm (awaiting store role)) ∧
      (store.tasks.rows.map fun task => task.val.invoice).Nodup ∧
      ∀ task ∈ store.tasks.rows, IsStored task.val.invoice store ∧ HasOffice task := by
  have hworked := worked_of_taskRun h
  refine ⟨fun role => ?_, hworked.nodup_tasks,
    fun task htask => ⟨hworked.stored task htask, hworked.offices task htask⟩⟩
  have hlist : (worklist store role).Nodup :=
    hworked.nodup_tasks.sublist (List.filter_sublist.map _)
  have hwaiting : (awaiting store role).Nodup :=
    store.invoices.ids_nodup.sublist (List.filter_sublist.map _)
  exact (List.perm_ext_iff_of_nodup hlist hwaiting).mpr fun invoice => hworked.mem_worklist_iff

/-- A manager finds the one that is completed; the other one has no state. -/
theorem worklist_of_throughTask :
    (worklist ((exec SimpleInvoiceTaskSystem .empty
      (throughTask ++ [.onInvoices (.create "I-1")])).get (by decide)).2 .MANAGER).Perm [0] :=
  ((worklist_of_taskRun (run_exec (by decide))).1 .MANAGER).trans (by decide)

/-! ## How an action fails -/

/-- What an action that is offered throws, if it does. -/
def Action.failure (invoice : SimpleInvoice) : Action → Option RuntimeException
  | .initializeState =>
    if invoice.invoiceState = none ∧ invoice.completedOn ≠ none ∧
        invoice.approvedByManagerOn ≠ none ∧ invoice.amount = none then
      some .nullPointerException
    else none
  | .approveAsManager _ => if invoice.amount = none then some .nullPointerException else none
  | _ => none

/-- How an action of a task fails, offered or not. -/
def taskFailure (invoice : SimpleInvoice) : TaskAction → Option WrappedException
  | .complete _ _ =>
    if invoice.invoiceState ≠ some .NEW then some .hiddenException
    else if invoice.amount = none ∨ invoice.invoiceType = none then some .disabledException
    else none
  | .approveAsManager _ =>
    if invoice.invoiceState ≠ some .COMPLETED then some .hiddenException
    else if invoice.amount = none then some (.runtimeException .nullPointerException)
    else none

/-- What a user's action throws, if it does. -/
def UserAction.failure (store : Store) : UserAction → Option WrappedException
  | onInvoices (.create _) => none
  | onInvoices (.act invoice own) =>
    (store.invoices.get? invoice).bind fun row =>
      (own.failure row.val).map WrappedException.runtimeException
  | onTask task action =>
    (store.tasks.get? task).bind fun row =>
      (row.val.getInvoice store).bind fun invoice => taskFailure invoice.val action

variable {invoice : SimpleInvoice} {own : Action} {x : RuntimeException}

theorem outcome_eq_error_iff (hw : invoice.WellFormed) (hen : own.isEnabled invoice = true) :
    outcome own invoice = .error x ↔ own.failure invoice = some x := by
  cases own with
  | initializeState =>
    have hr : invoice.completedOn ≠ none → invoice.rejectedOn = none :=
      hw.completed_or_rejected.resolve_left
    by_cases hs : invoice.invoiceState = none
    · simp only [outcome, hs, if_true, Action.failure, true_and]
      rw [reclassified_eq_error_iff]
      split <;> simp <;> tauto
    · simp [outcome, Action.failure, hs]
  | complete assignNextTaskTo now =>
    have ha := (isEnabled_complete.mp hen).2.1
    simp only [outcome, reclassified_eq_error_iff]
    simp [complete, Action.failure, ha]
  | approveAsManager now =>
    obtain ⟨hc, hr, -⟩ := hw.fits .COMPLETED (isEnabled_approveAsManager.mp hen)
    simp only [outcome, reclassified_eq_error_iff]
    by_cases ha : invoice.amount = none
    · simp [approveAsManager, Action.failure, ha, hr, hc, eq_comm]
    · simp [approveAsManager, Action.failure, ha]
  | _ => simp [outcome, Action.failure]

/-- An action that is offered on a stored invoice. -/
theorem Store.perform_act_eq_error_iff (hrest : store.Resting) (hrow : row ∈ store.invoices.rows)
    (hen : own.isEnabled row.val = true) :
    store.perform (.act row.id own) = .error x ↔ own.failure row.val = some x := by
  have hw := (hrest.invoices row hrow).wellFormed
  rw [Store.perform_act hrow, map_eq_error_iff]
  exact (perform_eq_error_iff hw hen).trans (outcome_eq_error_iff hw hen)

/-- An action of a task, offered or not. -/
theorem taskPerform_eq_error_iff (hrest : store.Resting) (hrow : row ∈ store.invoices.rows)
    {task : SimpleInvoiceTask} (hget : task.getInvoice store = some row) {action : TaskAction}
    {x : WrappedException} :
    task.perform store action = .error x ↔ taskFailure row.val action = some x := by
  by_cases hen : task.isEnabled store action = true
  · -- offered, the action is that on the invoice
    rw [perform_onInvoice hget hen, mapError_eq_error_iff]
    rw [isEnabled_onInvoice hget] at hen
    simp only [Store.perform_act_eq_error_iff hrest hrow hen]
    cases action with
    | complete assignNextTaskTo now =>
      obtain ⟨hs, ha, ht⟩ := isEnabled_complete.mp hen
      simp [TaskAction.onInvoice, Action.failure, taskFailure, hs, ha, ht]
    | approveAsManager now =>
      have hs := isEnabled_approveAsManager.mp hen
      by_cases ha : row.val.amount = none
      · simp [TaskAction.onInvoice, Action.failure, taskFailure, hs, ha, eq_comm]
      · simp [TaskAction.onInvoice, Action.failure, taskFailure, hs, ha]
  · rw [isEnabled_onInvoice hget] at hen
    cases action with
    | complete assignNextTaskTo now =>
      simp only [SimpleInvoiceTask.perform, SimpleInvoiceTask.complete, hget, taskFailure]
      by_cases hs : row.val.invoiceState = some .NEW
      · have hdata : row.val.amount = none ∨ row.val.invoiceType = none := by
          by_contra hneither
          rw [not_or] at hneither
          exact hen (isEnabled_complete.mpr ⟨hs, hneither⟩)
        simp [hideComplete, disableComplete, hs, hdata]
      · simp [hideComplete, hs]
    | approveAsManager now =>
      have hs : row.val.invoiceState ≠ some .COMPLETED := mt isEnabled_approveAsManager.mpr hen
      simp [SimpleInvoiceTask.perform, SimpleInvoiceTask.approveAsManager, hget, taskFailure,
        hideApproveAsManager, hs]

/-- **Which actions fail, and with what**, in every store reached: those on the invoices where they
are offered, those of the tasks in any case. Nothing else is thrown. -/
theorem failure_of_taskRun {tr : Trace Store UserAction}
    (h : Run SimpleInvoiceTaskSystem .empty tr store) {action : UserAction}
    (hoffered : ∀ storeAction, action = .onInvoices storeAction →
      store.isEnabled storeAction = true) (x : WrappedException) :
    action.perform store = .error x ↔ action.failure store = some x := by
  obtain ⟨hrest, -, hstored⟩ := worked_of_taskRun h
  cases action with
  | onInvoices storeAction =>
    rw [UserAction.perform, mapError_eq_error_iff]
    cases storeAction with
    | create invoiceNumber => simp [Store.perform, UserAction.failure, pure, Except.pure]
    | act invoice own =>
      have hen := hoffered _ rfl
      simp only [Store.isEnabled, Option.any_eq_true] at hen
      obtain ⟨row, hget, hen⟩ := hen
      obtain ⟨hrow, rfl⟩ := Table.get?_eq_some_iff.mp hget
      simp only [Store.perform_act_eq_error_iff hrest hrow hen, UserAction.failure, hget,
        Option.bind_some, Option.map_eq_some_iff, eq_comm (a := x)]
  | onTask id action =>
    cases htask : store.tasks.get? id with
    | none => simp [UserAction.perform, UserAction.failure, htask]
    | some task =>
      obtain ⟨htaskRow, -⟩ := Table.get?_eq_some_iff.mp htask
      obtain ⟨row, hrow, hid⟩ := List.mem_map.mp (hstored task htaskRow)
      have hget : task.val.getInvoice store = some row :=
        Table.get?_eq_some_iff.mpr ⟨hrow, hid⟩
      simp only [UserAction.perform, UserAction.failure, htask, Option.bind_some, hget]
      exact taskPerform_eq_error_iff hrest hrow hget

/-- A completion through the task of an invoice that is completed already. -/
theorem failure_of_throughTask :
    (UserAction.onTask 1 (.complete none ⟨2⟩)).perform
      ((exec SimpleInvoiceTaskSystem .empty throughTask).get (by decide)).2 =
        .error .hiddenException :=
  (failure_of_taskRun (run_exec (by decide)) (fun _ heq => absurd heq (by simp)) _).mpr
    (by decide)

end SimpleInvoice

end WorkflowSketch
