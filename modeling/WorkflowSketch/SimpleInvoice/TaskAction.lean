import WorkflowSketch.SimpleInvoice.Store

/-!
# Acting through a task (`SimpleInvoiceTask.java`)

A task offers the action that is next on its invoice: `complete` or `approveAsManager`, hidden and
disabled as they are on the invoice, and called on it through the framework's wrapper.

* `SimpleInvoiceTaskSystem`: the workflows of all invoices, with their tasks as a second way in.
* `resting_of_taskRun`: the invoices stay at rest.
* **`task_of_run`**: a task points to the next action on its invoice, and the action consumes it.
-/

namespace WorkflowSketch

open Lib Lib.Transact

/-- An action of the task's menu with its arguments. -/
inductive TaskAction where
  | complete (assignNextTaskTo : Option Person) (now : LocalDate)
  | approveAsManager (now : LocalDate)
  deriving DecidableEq, Repr

namespace SimpleInvoiceTask

open SimpleInvoice

/-- `getInvoice`: the stored row; the column of a task's invoice allows no null. -/
def getInvoice (store : Store) (task : SimpleInvoiceTask) : Option (Row SimpleInvoice) :=
  store.invoices.get? task.invoice

/-- `choices0Complete`, written as that of the invoice. -/
def choices0Complete : List Person :=
  [.JEANNE, .AMBROISE, .OSCAR, .PASCAL, .CATHERINE].filter fun x => x.hasRoles.contains .MANAGER

/-- `disableComplete`: that of the invoice. -/
def disableComplete (store : Store) (task : SimpleInvoiceTask) : Option String :=
  (task.getInvoice store).bind fun invoice => invoice.val.disableComplete

/-- `hideComplete`: that of the invoice. -/
def hideComplete (store : Store) (task : SimpleInvoiceTask) : Bool :=
  (task.getInvoice store).all fun invoice => invoice.val.hideComplete

/-- `hideApproveAsManager`: that of the invoice. -/
def hideApproveAsManager (store : Store) (task : SimpleInvoiceTask) : Bool :=
  (task.getInvoice store).all fun invoice => invoice.val.hideApproveAsManager

/-- `complete`: `wrapperFactory.wrap(getInvoice()).complete(assignNextTaskTo)`. -/
def complete (store : Store) (task : SimpleInvoiceTask) (assignNextTaskTo : Option Person)
    (now : LocalDate) : Except WrappedException Store :=
  match task.getInvoice store with
  | none => .error (.runtimeException .nullPointerException)
  | some invoice =>
    if invoice.val.hideComplete then .error .hiddenException
    else if invoice.val.disableComplete.isSome then .error .disabledException
    else (store.perform (.act invoice.id (.complete assignNextTaskTo now))).mapError
      .runtimeException

/-- `approveAsManager`: `wrapperFactory.wrap(getInvoice()).approveAsManager()`. -/
def approveAsManager (store : Store) (task : SimpleInvoiceTask) (now : LocalDate) :
    Except WrappedException Store :=
  match task.getInvoice store with
  | none => .error (.runtimeException .nullPointerException)
  | some invoice =>
    if invoice.val.hideApproveAsManager then .error .hiddenException
    else (store.perform (.act invoice.id (.approveAsManager now))).mapError .runtimeException

/-- The action is visible and enabled on the task. -/
def isEnabled (store : Store) (task : SimpleInvoiceTask) : TaskAction → Bool
  | .complete _ _ => !task.hideComplete store && (task.disableComplete store).isNone
  | .approveAsManager _ => !task.hideApproveAsManager store

/-- The task's action, through the wrapper. -/
def perform (store : Store) (task : SimpleInvoiceTask) :
    TaskAction → Except WrappedException Store
  | .complete assignNextTaskTo now => task.complete store assignNextTaskTo now
  | .approveAsManager now => task.approveAsManager store now

end SimpleInvoiceTask

/-- The action on the invoice that the task's action calls. -/
def TaskAction.onInvoice : TaskAction → SimpleInvoice.Action
  | .complete assignNextTaskTo now => .complete assignNextTaskTo now
  | .approveAsManager now => .approveAsManager now

namespace SimpleInvoice

open SimpleInvoiceTaskRepository SimpleInvoiceTaskService

/-- What a user does: on the invoices directly, or through a stored task. -/
inductive UserAction where
  | onInvoices (action : StoreAction)
  | onTask (task : Nat) (action : TaskAction)
  deriving DecidableEq, Repr

namespace UserAction

/-- The action is offered, on the invoices or on the task, which is stored then. -/
def isEnabled (store : Store) : UserAction → Bool
  | onInvoices action => store.isEnabled action
  | onTask task action => (store.tasks.get? task).any fun row => row.val.isEnabled store action

/-- The action, with the exceptions of the wrapper. -/
def perform (store : Store) : UserAction → Except WrappedException Store
  | onInvoices action => (store.perform action).mapError .runtimeException
  | onTask task action =>
    match store.tasks.get? task with
    | none => .ok store
    | some row => row.val.perform store action

end UserAction

/-- **The workflows of all invoices, with their tasks.** -/
def SimpleInvoiceTaskSystem : System Store UserAction WrappedException where
  enabled := UserAction.isEnabled
  perform := UserAction.perform

/-! ## A task acts on its invoice -/

variable {store store' : Store} {task : SimpleInvoiceTask} {row : Row SimpleInvoice}
  {action : TaskAction}

/-- An action is offered on a task as it is on the invoice. -/
theorem isEnabled_onInvoice (hget : task.getInvoice store = some row) :
    task.isEnabled store action = action.onInvoice.isEnabled row.val := by
  cases action with
  | complete assignNextTaskTo now =>
    simp only [SimpleInvoiceTask.isEnabled, SimpleInvoiceTask.hideComplete,
      SimpleInvoiceTask.disableComplete, hget, Option.all_some, Option.bind_some]
    rfl
  | approveAsManager now =>
    simp only [SimpleInvoiceTask.isEnabled, SimpleInvoiceTask.hideApproveAsManager, hget,
      Option.all_some]
    rfl

/-- **An enabled action of a task is the action on its invoice.** -/
theorem perform_onInvoice (hget : task.getInvoice store = some row)
    (hen : task.isEnabled store action = true) :
    task.perform store action =
      (store.perform (.act row.id action.onInvoice)).mapError .runtimeException := by
  rw [isEnabled_onInvoice hget] at hen
  cases action with
  | complete assignNextTaskTo now =>
    simp only [TaskAction.onInvoice, Action.isEnabled, Bool.and_eq_true, Bool.not_eq_true',
      Option.isNone_iff_eq_none] at hen
    simp [SimpleInvoiceTask.perform, SimpleInvoiceTask.complete, hget, hen.1, hen.2,
      TaskAction.onInvoice]
  | approveAsManager now =>
    simp only [TaskAction.onInvoice, Action.isEnabled, Bool.not_eq_true'] at hen
    simp [SimpleInvoiceTask.perform, SimpleInvoiceTask.approveAsManager, hget, hen,
      TaskAction.onInvoice]

/-- An action that is offered on a task has an invoice to act on. -/
theorem exists_invoice_of_isEnabled (h : task.isEnabled store action = true) :
    ∃ row, row ∈ store.invoices.rows ∧ row.id = task.invoice ∧
      task.getInvoice store = some row := by
  cases hget : task.getInvoice store with
  | some row =>
    obtain ⟨hrow, hid⟩ := Table.get?_eq_some_iff.mp hget
    exact ⟨row, hrow, hid, rfl⟩
  | none =>
    cases action with
    | complete assignNextTaskTo now =>
      simp [SimpleInvoiceTask.isEnabled, SimpleInvoiceTask.hideComplete, hget] at h
    | approveAsManager now =>
      simp [SimpleInvoiceTask.isEnabled, SimpleInvoiceTask.hideApproveAsManager, hget] at h

/-- **What a user does keeps all invoices at rest**, also through a task. -/
theorem Store.Resting.performUser {action : UserAction} (h : store.Resting)
    (hen : action.isEnabled store = true) (hok : action.perform store = .ok store') :
    store'.Resting := by
  cases action with
  | onInvoices action => exact h.perform hen (mapError_eq_ok_iff.mp hok)
  | onTask id action =>
    simp only [UserAction.isEnabled, Option.any_eq_true] at hen
    obtain ⟨task, htask, hen⟩ := hen
    obtain ⟨row, hrow, -, hget⟩ := exists_invoice_of_isEnabled hen
    simp only [UserAction.perform, htask] at hok
    rw [perform_onInvoice hget hen] at hok
    rw [isEnabled_onInvoice hget] at hen
    have hoffered : store.isEnabled (.act row.id action.onInvoice) = true := by
      simpa [Store.isEnabled, Table.get?_eq_some_iff.mpr ⟨hrow, rfl⟩] using hen
    exact h.perform hoffered (mapError_eq_ok_iff.mp hok)

theorem resting_of_taskRun {tr : Trace Store UserAction}
    (h : Run SimpleInvoiceTaskSystem .empty tr store) : store.Resting :=
  h.keep (fun _ _ _ hrest hen hok => Store.Resting.performUser hrest hen hok) Store.resting_empty

/-! ## The action consumes the task -/

variable {invoice invoice' : SimpleInvoice} {s s' : SimpleInvoiceState} {config : Config}

/-- A task of an invoice at rest is the only one, and its role says which action is next. -/
theorem Config.Resting.task_eq (hrest : config.Resting)
    (hs : config.invoice.val.invoiceState = some s)
    {task : Row SimpleInvoiceTask} (htask : task ∈ findByInvoice config.tasks config.invoice.id) :
    findByInvoice config.tasks config.invoice.id = [task] ∧
      survivingRole s = task.val.assignedToRole ∧
      (s = .NEW ∧ task.val.assignedToRole = some .ADMINISTRATOR ∨
        s = .COMPLETED ∧ task.val.assignedToRole = some .MANAGER) := by
  have hfit := hrest.tasksFit s hs
  unfold TasksFit at hfit
  split at hfit
  · rw [hfit] at htask
    exact absurd htask List.not_mem_nil
  · rename_i role hrole
    obtain ⟨task', hone, hassigned⟩ := hfit
    rw [hone, List.mem_singleton] at htask
    subst htask
    refine ⟨hone, hassigned ▸ hrole, ?_⟩
    rw [hassigned, ← hrole]
    cases s with
    | NEW => exact Or.inl ⟨rfl, rfl⟩
    | COMPLETED => exact Or.inr ⟨rfl, rfl⟩
    | _ => exact absurd hrole (by simp [survivingRole])

/-- **An action of a task takes the invoice to another state**, if there is an amount to read. -/
theorem outcome_onInvoice (hw : invoice.WellFormed)
    (hen : action.onInvoice.isEnabled invoice = true) (ha : invoice.amount ≠ none) :
    ∃ invoice' s', outcome action.onInvoice invoice = .ok invoice' ∧
      invoice'.invoiceState = some s' ∧ invoice.invoiceState ≠ some s' := by
  obtain ⟨invoice', hout⟩ : ∃ invoice', outcome action.onInvoice invoice = .ok invoice' := by
    cases action with
    | complete assignNextTaskTo now => exact reclassified_isOk_iff.mpr fun h => ha h.2.2.2
    | approveAsManager now => exact reclassified_isOk_iff.mpr fun h => ha h.2.2.2
  have hw' := hw.of_outcome hen hout
  have hbody := outcome_eq_body hout
  cases action with
  | complete assignNextTaskTo now =>
    obtain ⟨s', -, rfl⟩ := reclassified_eq_ok_iff.mp hout
    refine ⟨_, s', hout, rfl, ?_⟩
    rw [(isEnabled_complete.mp hen).1]
    rintro ⟨⟩
    exact absurd (hw'.fits .NEW rfl).1 (Option.some_ne_none now)
  | approveAsManager now =>
    obtain ⟨s', -, rfl⟩ := reclassified_eq_ok_iff.mp hout
    refine ⟨_, s', hout, rfl, ?_⟩
    rw [isEnabled_approveAsManager.mp hen]
    rintro ⟨⟩
    exact absurd (hw'.fits .COMPLETED rfl).2.2 (Option.some_ne_none now)

/-- The tasks of an invoice that has left the state its one task was for. -/
theorem findByInvoice_of_left {tasks tasks' : Table SimpleInvoiceTask} {actor : Option Person}
    {task : Row SimpleInvoiceTask} (hs' : row.val.invoiceState = some s')
    (hmaintain : maintainTasksFor tasks row actor = .ok tasks')
    (hone : findByInvoice tasks row.id = [task])
    (hrole : survivingRole s = task.val.assignedToRole) (hne : s ≠ s') :
    findByInvoice tasks' row.id = [] ∨
      ∃ next, findByInvoice tasks' row.id = [next] ∧ next.id = tasks.nextId ∧
        next.val.assignedToRole = s'.hasTaskFor := by
  rw [findByInvoice_maintainTasksFor hs' hmaintain]
  cases hsurvive : survivingRole s' with
  | none => exact Or.inl rfl
  | some role =>
    have hnone : findByInvoiceAndRole tasks row.id role = [] := by
      rw [findByInvoiceAndRole_eq, hone, List.filter_eq_nil_iff]
      intro r hr
      rw [List.mem_singleton.mp hr, ← hrole, ← hsurvive, beq_iff_eq]
      intro hsame
      exact hne (survivingRole_inj s s' (by rw [hsame, hsurvive]; simp) hsame)
    refine Or.inr ?_
    rw [hasTaskFor_of_survivingRole hsurvive]
    simp only [foundOrCreated, hnone, assignFirst]
    refine ⟨_, rfl, ?_⟩
    split <;> exact ⟨rfl, rfl⟩

/-- **The action consumes the task** it is called on, and no other. -/
theorem Config.Resting.consume (hrest : config.Resting)
    (hs : config.invoice.val.invoiceState = some s) {task : Row SimpleInvoiceTask}
    (htask : task ∈ findByInvoice config.tasks config.invoice.id)
    (hen : action.onInvoice.isEnabled config.invoice.val = true)
    (ha : config.invoice.val.amount ≠ none) :
    ∃ config' s', SimpleInvoice.perform config action.onInvoice = .ok config' ∧
      config'.invoice.val.invoiceState = some s' ∧ s ≠ s' ∧
      (∀ r ∈ config'.tasks.rows, r.id ≠ task.id) ∧
      (∀ r ∈ config.tasks.rows, r ≠ task → r ∈ config'.tasks.rows) ∧
      (findByInvoice config'.tasks config.invoice.id = [] ∨
        ∃ next, findByInvoice config'.tasks config.invoice.id = [next] ∧
          next.val.assignedToRole = s'.hasTaskFor) := by
  have hw := hrest.wellFormed
  obtain ⟨hone, hrole, -⟩ := hrest.task_eq hs htask
  obtain ⟨hmem, hown⟩ := Table.mem_select.mp htask
  obtain ⟨invoice', s', hout, hs', hne⟩ := outcome_onInvoice hw hen ha
  rw [hs, Ne, Option.some_inj] at hne
  obtain ⟨config', hok⟩ := (perform_isOk_iff hw hen).mpr ⟨invoice', hout⟩
  obtain ⟨hout', hid, htasks⟩ := perform_cases hw hen hok
  obtain rfl : invoice' = config'.invoice.val := Except.ok.inj (hout.symm.trans hout')
  have hothers := select_perform (p := fun t => t.invoice != config.invoice.id) hok
    fun t ht => by simp [ht]
  have hafter : findByInvoice config'.tasks config.invoice.id = [] ∨
      ∃ next, findByInvoice config'.tasks config.invoice.id = [next] ∧
        next.id = config.tasks.nextId ∧ next.val.assignedToRole = s'.hasTaskFor := by
    rcases htasks with ⟨hsilent, -⟩ | ⟨arguments, t, -, ht, hmaintain⟩
    · cases action <;>
        exact absurd hsilent (by simp [TaskAction.onInvoice, Action.updatedArguments])
    · rw [← hid] at hone ⊢
      exact findByInvoice_of_left hs' hmaintain hone hrole hne
  refine ⟨config', s', hok, hs', hne, fun r hr hrid => ?_, fun r hr hrtask => ?_, ?_⟩
  · rcases mem_findByInvoice_or hr config.invoice.id with hr' | hr'
    · rcases hafter with hnil | ⟨next, hnext, hnextid, -⟩
      · rw [hnil] at hr'
        exact absurd hr' List.not_mem_nil
      · rw [hnext, List.mem_singleton] at hr'
        have hlt := config.tasks.ids_lt task hmem
        rw [← hrid, hr', hnextid] at hlt
        exact absurd hlt (Nat.lt_irrefl _)
    · obtain ⟨hr', hother⟩ := Table.mem_select.mp (hothers ▸ hr')
      obtain rfl := Table.eq_of_id hr' hmem hrid
      rw [bne, hown] at hother
      exact absurd hother (by simp)
  · rcases mem_findByInvoice_or hr config.invoice.id with hr' | hr'
    · rw [hone, List.mem_singleton] at hr'
      exact absurd hr' hrtask
    · exact (Table.mem_select.mp (hothers ▸ hr')).1
  · rcases hafter with hnil | ⟨next, hnext, -, hnextrole⟩
    · exact Or.inl hnil
    · exact Or.inr ⟨next, hnext, hnextrole⟩

/-- **A task points to the next action on its invoice, and the action consumes it**, in every store
reached: one action is visible, which takes the invoice to another state and removes the task,
leaving the other tasks and at most a new one for that state. -/
theorem task_of_run {tr : Trace Store UserAction} (h : Run SimpleInvoiceTaskSystem .empty tr store)
    {task : Row SimpleInvoiceTask} (htask : task ∈ store.tasks.rows)
    (hrow : row ∈ store.invoices.rows) (hinvoice : task.val.invoice = row.id)
    (hs : row.val.invoiceState = some s) :
    (task.val.assignedToRole = some .ADMINISTRATOR ∧
        task.val.hideComplete store = false ∧ task.val.hideApproveAsManager store = true ∨
      task.val.assignedToRole = some .MANAGER ∧
        task.val.hideComplete store = true ∧ task.val.hideApproveAsManager store = false) ∧
    ∀ action, task.val.isEnabled store action = true → row.val.amount ≠ none →
      ∃ store' invoice' s', task.val.perform store action = .ok store' ∧
        ⟨row.id, invoice'⟩ ∈ store'.invoices.rows ∧ invoice'.invoiceState = some s' ∧ s ≠ s' ∧
        (∀ r ∈ store'.tasks.rows, r.id ≠ task.id) ∧
        (∀ r ∈ store.tasks.rows, r ≠ task → r ∈ store'.tasks.rows) ∧
        (findByInvoice store'.tasks row.id = [] ∨
          ∃ next, findByInvoice store'.tasks row.id = [next] ∧
            next.val.assignedToRole = s'.hasTaskFor) := by
  have hrest := (resting_of_taskRun h).invoices row hrow
  have hget : task.val.getInvoice store = some row :=
    Table.get?_eq_some_iff.mpr ⟨hrow, hinvoice.symm⟩
  have hown : task ∈ findByInvoice store.tasks row.id :=
    Table.mem_select.mpr ⟨htask, by simp [hinvoice]⟩
  obtain ⟨hone, hrole, hcases⟩ := hrest.task_eq hs hown
  constructor
  · simp only [SimpleInvoiceTask.hideComplete, SimpleInvoiceTask.hideApproveAsManager, hget,
      Option.all_some, hideComplete, hideApproveAsManager, hs]
    rcases hcases with ⟨rfl, hassigned⟩ | ⟨rfl, hassigned⟩
    · exact Or.inl ⟨hassigned, rfl, rfl⟩
    · exact Or.inr ⟨hassigned, rfl, rfl⟩
  · intro action hen ha
    have hperform := perform_onInvoice hget hen
    rw [isEnabled_onInvoice hget] at hen
    obtain ⟨config, s', hok, hs', hne, hgone, hkept, hafter⟩ := hrest.consume hs hown hen ha
    have hstore : store.perform (.act row.id action.onInvoice) =
        .ok ⟨store.invoices.modify row.id fun _ => config.invoice.val, config.tasks⟩ :=
      (Store.perform_act_eq_ok_iff hrow).mpr ⟨config, hok, rfl⟩
    exact ⟨_, _, s', hperform.trans (mapError_eq_ok_iff.mpr hstore),
      Table.mem_modify_iff.mpr ⟨row, hrow, rfl, rfl⟩, hs', hne, hgone, hkept, hafter⟩

/-- An invoice that is completed through its first task. -/
def throughTask : List UserAction :=
  [.onInvoices (.create "I-1"), .onInvoices (.act 0 .initializeState),
    .onInvoices (.act 0 (.setAmount (some ⟨500, 0⟩))),
    .onInvoices (.act 0 (.setInvoiceType (some .CAPEX))), .onTask 0 (.complete (some .OSCAR) ⟨1⟩)]

theorem task_of_throughTask :
    ∃ store' invoice' s', SimpleInvoiceTask.perform
        ((exec SimpleInvoiceTaskSystem .empty throughTask).get (by decide)).2
        ⟨0, some .MANAGER, some .OSCAR⟩ (.approveAsManager ⟨2⟩) = .ok store' ∧
      ⟨0, invoice'⟩ ∈ store'.invoices.rows ∧ invoice'.invoiceState = some s' ∧ .COMPLETED ≠ s' ∧
      ∀ r ∈ store'.tasks.rows, r.id ≠ 1 := by
  have hall := task_of_run (s := .COMPLETED) (run_exec (by decide))
    (show (⟨1, 0, some .MANAGER, some .OSCAR⟩ : Row SimpleInvoiceTask) ∈
      ((exec SimpleInvoiceTaskSystem .empty throughTask).get (by decide)).2.tasks.rows by decide)
    (show completedInvoice ∈
      ((exec SimpleInvoiceTaskSystem .empty throughTask).get (by decide)).2.invoices.rows by
        decide) rfl rfl
  obtain ⟨store', invoice', s', hok, hrow, hs', hne, hgone, -⟩ :=
    hall.2 (.approveAsManager ⟨2⟩) (by decide) (by decide)
  exact ⟨store', invoice', s', hok, hrow, hs', hne, hgone⟩

end SimpleInvoice

end WorkflowSketch
