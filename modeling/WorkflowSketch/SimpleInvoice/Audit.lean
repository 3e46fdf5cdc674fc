import WorkflowSketch.SimpleInvoice.Assignee
import WorkflowSketch.SimpleInvoice.Worklist

/-!
# What was written when

The tables of the application as a function of its history: every datum of a stored invoice, and
the assignee of every task, is what the last action on the invoice that writes it has written. The
handling of an event writes states only.

* `Column`: a datum of an invoice, with what the actions write to it.
* **`audited_of_taskRun`**: every datum was written last by an action on its invoice, directly or
  through a task.
* **`assigned_of_taskRun`**: a task is assigned by the last completion, and to a person who has
  the task's role.
-/

namespace WorkflowSketch

open Lib Lib.Transact

namespace SimpleInvoice

open SimpleInvoiceTaskRepository SimpleInvoiceTaskService

variable {store : Store} {row : Row SimpleInvoice} {invoice : Nat} {c : Config}
  {tr : Trace Store UserAction}

/-! ## The actions on one invoice -/

/-- The actions on an invoice, directly or through its tasks. -/
def ownActions (invoice : Nat) (tr : Trace Store UserAction) : List Action :=
  (labelled (UserAction.ownAction? invoice) tr).map Prod.snd

/-- An action on the invoice is done directly, or it is what an action on a task calls. -/
theorem eq_of_ownAction {action : UserAction} {own : Action}
    (hown : action.ownAction? invoice store = some own) :
    action = .onInvoices (.act invoice own) ∨
      ∃ task taskAction, action = .onTask task taskAction ∧ own = taskAction.onInvoice := by
  cases action with
  | onInvoices storeAction =>
    simp only [UserAction.ownAction?, UserAction.asStoreAction?, Option.bind_some] at hown
    cases storeAction with
    | create invoiceNumber => exact absurd hown (by simp [StoreAction.ownAction?])
    | act other action =>
      simp only [StoreAction.ownAction?, Option.ite_none_right_eq_some, Option.some.injEq] at hown
      obtain ⟨rfl, rfl⟩ := hown
      exact Or.inl rfl
  | onTask task taskAction =>
    simp only [UserAction.ownAction?, UserAction.asStoreAction?, Option.bind_eq_some_iff,
      Option.map_eq_some_iff] at hown
    obtain ⟨_, ⟨row, -, rfl⟩, hown⟩ := hown
    simp only [StoreAction.ownAction?, Option.ite_none_right_eq_some, Option.some.injEq] at hown
    exact Or.inr ⟨task, taskAction, rfl, hown.2.symm⟩

theorem exists_own_run (h : Run SimpleInvoiceTaskSystem .empty tr store)
    (hstored : IsStored invoice store) :
    ∃ n tr' c, Run SimpleInvoiceWorkFlow (Config.start invoice n) tr' c ∧
      IsPart invoice store c ∧ tr'.map Prod.snd = ownActions invoice tr := by
  obtain ⟨n, tr', c, hrun, hpart, hmatch⟩ := exists_projection h hstored
  exact ⟨n, tr', c, hrun, hpart, map_snd_eq_of_forall₂ hmatch⟩

/-! ## The data of an invoice -/

/-- A datum of an invoice, null at first, and what the actions write to it. The state is none. -/
structure Column (α : Type*) where
  read : SimpleInvoice → Option α
  write : Action → Option (Option α)
  read_create : ∀ n, read (SimpleInvoice.create n) = none
  read_body : ∀ (action : Action) invoice,
    read (action.body invoice) = (write action).getD (read invoice)
  read_inState : ∀ (invoice : SimpleInvoice) s, read (invoice.inState s) = read invoice

namespace Column

/-- Written by its edits only. -/
def invoiceType : Column SimpleInvoiceType where
  read := SimpleInvoice.invoiceType
  write
    | .setInvoiceType invoiceType => some invoiceType
    | _ => none
  read_create _ := rfl
  read_body action _ := by cases action <;> rfl
  read_inState _ _ := rfl

/-- Written by its edits only; no action clears it. -/
def amount : Column BigDecimal where
  read := SimpleInvoice.amount
  write
    | .setAmount amount => some amount
    | _ => none
  read_create _ := rfl
  read_body action _ := by cases action <;> rfl
  read_inState _ _ := rfl

/-- Written by a completion, and cleared by a rejection. -/
def completedOn : Column LocalDate where
  read := SimpleInvoice.completedOn
  write
    | .complete _ now => some (some now)
    | .reject _ => some none
    | _ => none
  read_create _ := rfl
  read_body action _ := by cases action <;> rfl
  read_inState _ _ := rfl

/-- Written by a rejection, and cleared by a completion. -/
def rejectedOn : Column LocalDate where
  read := SimpleInvoice.rejectedOn
  write
    | .complete _ _ => some none
    | .reject now => some (some now)
    | _ => none
  read_create _ := rfl
  read_body action _ := by cases action <;> rfl
  read_inState _ _ := rfl

/-- Written by the manager's approval, and never cleared. -/
def approvedByManagerOn : Column LocalDate where
  read := SimpleInvoice.approvedByManagerOn
  write
    | .approveAsManager now => some (some now)
    | _ => none
  read_create _ := rfl
  read_body action _ := by cases action <;> rfl
  read_inState _ _ := rfl

/-- Written by the second approval, and never cleared. -/
def approvedByCountryLeaderOn : Column LocalDate where
  read := SimpleInvoice.approvedByCountryLeaderOn
  write
    | .approveAsCountryLeader now => some (some now)
    | _ => none
  read_create _ := rfl
  read_body action _ := by cases action <;> rfl
  read_inState _ _ := rfl

/-- Written by the payment, and never cleared. -/
def paidOn : Column LocalDate where
  read := SimpleInvoice.paidOn
  write
    | .pay now => some (some now)
    | _ => none
  read_create _ := rfl
  read_body action _ := by cases action <;> rfl
  read_inState _ _ := rfl

/-- Written by the discarding, and never cleared. -/
def discardedOn : Column LocalDate where
  read := SimpleInvoice.discardedOn
  write
    | .discard now => some (some now)
    | _ => none
  read_create _ := rfl
  read_body action _ := by cases action <;> rfl
  read_inState _ _ := rfl

variable {α : Type*}

/-- What the last of the actions that write the datum has written. -/
def lastWritten (column : Column α) (own : List Action) : Option α :=
  (Transact.lastWritten column.write own).getD none

/-- A step writes what its body writes. -/
theorem read_of_perform (column : Column α) {c c' : Config} {action : Action}
    (hok : SimpleInvoice.perform c action = .ok c') :
    column.read c'.invoice.val =
      (column.write action).getD (column.read c.invoice.val) := by
  rcases perform_eq_ok hok with ⟨-, rfl⟩ | ⟨arguments, s, -, -, hinvoice, -⟩
  · exact column.read_body action c.invoice.val
  · rw [hinvoice, column.read_inState]
    exact column.read_body action c.invoice.val

theorem read_of_run (column : Column α) {n : String} {tr : Trace Config Action}
    (h : Run SimpleInvoiceWorkFlow (Config.start invoice n) tr c) :
    column.read c.invoice.val = column.lastWritten (tr.map Prod.snd) := by
  have hread := h.read_eq (r := fun c => column.read c.invoice.val)
    fun _ _ _ _ hok => column.read_of_perform hok
  exact hread.trans (congrArg _ (column.read_create n))

end Column

/-- Every datum is what was written last. -/
structure Audited (own : List Action) (invoice : SimpleInvoice) : Prop where
  invoiceType : invoice.invoiceType = Column.invoiceType.lastWritten own
  amount : invoice.amount = Column.amount.lastWritten own
  completedOn : invoice.completedOn = Column.completedOn.lastWritten own
  rejectedOn : invoice.rejectedOn = Column.rejectedOn.lastWritten own
  approvedByManagerOn :
    invoice.approvedByManagerOn = Column.approvedByManagerOn.lastWritten own
  approvedByCountryLeaderOn :
    invoice.approvedByCountryLeaderOn = Column.approvedByCountryLeaderOn.lastWritten own
  paidOn : invoice.paidOn = Column.paidOn.lastWritten own
  discardedOn : invoice.discardedOn = Column.discardedOn.lastWritten own

/-- **Every datum of a stored invoice was written last by an action on it**, directly or through a
task, or is null: whatever is done to the others, and however often it slides. -/
theorem audited_of_taskRun (h : Run SimpleInvoiceTaskSystem .empty tr store)
    (hrow : row ∈ store.invoices.rows) : Audited (ownActions row.id tr) row.val := by
  obtain ⟨n, tr', c, hrun, hpart, hown⟩ := exists_own_run h (isStored_of_mem hrow)
  obtain rfl : c.invoice = row := Table.eq_of_id hpart.mem hrow hpart.id_eq
  rw [← hown]
  exact
    { invoiceType := Column.invoiceType.read_of_run hrun
      amount := Column.amount.read_of_run hrun
      completedOn := Column.completedOn.read_of_run hrun
      rejectedOn := Column.rejectedOn.read_of_run hrun
      approvedByManagerOn := Column.approvedByManagerOn.read_of_run hrun
      approvedByCountryLeaderOn := Column.approvedByCountryLeaderOn.read_of_run hrun
      paidOn := Column.paidOn.read_of_run hrun
      discardedOn := Column.discardedOn.read_of_run hrun }

/-- The invoice completed through its task. -/
theorem audited_of_throughTask :
    Audited [.initializeState, .setAmount (some ⟨500, 0⟩), .setInvoiceType (some .CAPEX),
      .complete (some .OSCAR) ⟨1⟩] completedInvoice.val :=
  audited_of_taskRun (run_exec (l := throughTask) (by decide))
    (show completedInvoice ∈
      ((exec SimpleInvoiceTaskSystem .empty throughTask).get (by decide)).2.invoices.rows by decide)

/-! ## The assignees -/

/-- The person that a completion names, or nobody. -/
def Action.assignee? : Action → Option (Option Person)
  | .complete assignNextTaskTo _ => some assignNextTaskTo
  | _ => none

/-- The argument of a completion is null or one of the choices that the invoice, or the task,
offers. -/
def UserAction.isChosen : UserAction → Bool
  | onInvoices (.act _ own) => own.isChosen
  | onTask _ (.complete (some person) _) => SimpleInvoiceTask.choices0Complete.contains person
  | _ => true

/-- A task offers the choices that its invoice offers. -/
theorem isChosen_of_ownAction {action : UserAction} {own : Action}
    (hchosen : action.isChosen = true) (hown : action.ownAction? invoice store = some own) :
    own.isChosen = true := by
  rcases eq_of_ownAction hown with rfl | ⟨task, taskAction, rfl, rfl⟩
  · exact hchosen
  · cases taskAction with
    | complete assignNextTaskTo now =>
      cases assignNextTaskTo with
      | none => rfl
      | some person => exact hchosen
    | approveAsManager now => rfl

/-- The actions on an invoice choose as those of the run do. -/
theorem isChosen_of_mem_ownActions (hchosen : ∀ step ∈ tr, step.2.isChosen = true) {own : Action}
    (hown : own ∈ ownActions invoice tr) : own.isChosen = true := by
  obtain ⟨step, hstep, rfl⟩ := List.mem_map.mp hown
  obtain ⟨step', hstep', hlabel⟩ := List.mem_filterMap.mp hstep
  obtain ⟨own', hown', rfl⟩ := Option.map_eq_some_iff.mp hlabel
  exact isChosen_of_ownAction (hchosen step' hstep') hown'

/-- A stored task, as one of the workflow of its invoice. -/
theorem exists_own_task (h : Run SimpleInvoiceTaskSystem .empty tr store)
    {task : Row SimpleInvoiceTask} (htask : task ∈ store.tasks.rows) :
    ∃ n tr' c task', Run SimpleInvoiceWorkFlow (Config.start task.val.invoice n) tr' c ∧
      tr'.map Prod.snd = ownActions task.val.invoice tr ∧
      task' ∈ findByInvoice c.tasks c.invoice.id ∧
      task'.val.assignedToRole = task.val.assignedToRole ∧
      task'.val.assignedTo = task.val.assignedTo := by
  obtain ⟨n, tr', c, hrun, hpart, hown⟩ :=
    exists_own_run h ((worked_of_taskRun h).stored task htask)
  have hview : (task.val.assignedToRole, task.val.assignedTo) ∈
      taskView c.tasks task.val.invoice := by
    rw [hpart.tasks]
    exact List.mem_map_of_mem (Table.mem_select.mpr ⟨htask, by simp⟩)
  obtain ⟨task', htask', heq⟩ := List.mem_map.mp hview
  obtain ⟨hrole, hassigned⟩ := Prod.ext_iff.mp heq
  rw [← hpart.id_eq] at htask'
  exact ⟨n, tr', c, task', hrun, hown, htask', hrole, hassigned⟩

/-- **Who the tasks are assigned to**, in every store that users reach who choose what they are
offered: an administrator's task to nobody, and a manager's to the person that the last completion
of its invoice named, who is a manager. -/
theorem assigned_of_taskRun (h : Run SimpleInvoiceTaskSystem .empty tr store)
    (hchosen : ∀ step ∈ tr, step.2.isChosen = true) {task : Row SimpleInvoiceTask}
    (htask : task ∈ store.tasks.rows) :
    (task.val.assignedToRole = some .ADMINISTRATOR ∧ task.val.assignedTo = none) ∨
      (task.val.assignedToRole = some .MANAGER ∧
        lastWritten Action.assignee? (ownActions task.val.invoice tr) =
          some task.val.assignedTo ∧
        ∀ person, task.val.assignedTo = some person → .MANAGER ∈ person.hasRoles) := by
  obtain ⟨n, tr', c, task', hrun, hown, htask', hrole, hassigned⟩ := exists_own_task h htask
  have hfollow := assigneesFollow_of_run (Config.start_isCreated _ n) hrun
  rw [← hrole, ← hassigned]
  rcases (worked_of_taskRun h).offices task htask with hoffice | hoffice
  · exact Or.inl ⟨hrole.trans hoffice,
      hfollow.administrator task' htask' (hrole.trans hoffice)⟩
  · obtain ⟨before, now, hlast⟩ := hfollow.manager task' htask' (hrole.trans hoffice)
    refine Or.inr ⟨hrole.trans hoffice, ?_, fun person hperson => ?_⟩
    · rw [← hown]
      exact lastWritten_of_last? (fun action => by cases action <;> rfl) hlast
    · rw [hperson] at hlast
      have hmem : Action.complete (some person) now ∈ ownActions task.val.invoice tr :=
        hown ▸ List.mem_map_of_mem (mem_of_last? hlast).1
      have hchoice := List.contains_iff_mem.mp (isChosen_of_mem_ownActions hchosen hmem)
      simpa [choices0Complete] using (List.mem_filter.mp hchoice).2

/-- The manager's task goes to the person that the completion through the first task named. -/
theorem assigned_of_throughTask :
    lastWritten Action.assignee? (ownActions 0
        ((exec SimpleInvoiceTaskSystem .empty throughTask).get (by decide)).1) =
      some (some .OSCAR) ∧ Role.MANAGER ∈ Person.OSCAR.hasRoles := by
  have hassigned := assigned_of_taskRun (run_exec (l := throughTask) (by decide)) (by decide)
    (show (⟨1, 0, some .MANAGER, some .OSCAR⟩ : Row SimpleInvoiceTask) ∈
      ((exec SimpleInvoiceTaskSystem .empty throughTask).get (by decide)).2.tasks.rows by decide)
  rcases hassigned with ⟨hrole, -⟩ | ⟨-, hlast, hmanager⟩
  · exact absurd hrole (by decide)
  · exact ⟨hlast, hmanager .OSCAR rfl⟩

end SimpleInvoice

end WorkflowSketch
