import WorkflowSketch.SimpleInvoice.Invariant

/-!
# All invoices over one store of tasks (`SimpleInvoiceRepository.java`)

Any number of invoices, created and acted on in any order. What one invoice does is `perform` of
the workflow of one invoice, next to the tasks of all.

* `Store.Resting.perform`: every invoice stays at rest, also under the steps of the others.
* **`tasks_of_run`**: from an empty store on, the tasks of every invoice are those of its state.
-/

namespace WorkflowSketch

open Lib Lib.Transact

namespace SimpleInvoice

open SimpleInvoiceTaskRepository SimpleInvoiceTaskService

/-- The stored invoices and tasks. -/
structure Store where
  invoices : Table SimpleInvoice
  tasks : Table SimpleInvoiceTask

/-- `SimpleInvoiceRepository.create`, or an action on a stored invoice. -/
inductive StoreAction where
  | create (invoiceNumber : String)
  | act (invoice : Nat) (action : Action)
  deriving DecidableEq, Repr

namespace Store

/-- Nothing is stored yet. -/
def empty : Store := ⟨Table.empty, Table.empty⟩

/-- The action is offered: a creation always, an action on an invoice if that is stored and shows
it. -/
def isEnabled (store : Store) : StoreAction → Bool
  | .create _ => true
  | .act invoice action => (store.invoices.get? invoice).any fun row => action.isEnabled row.val

/-- The action with its event, written back to the stored invoice. -/
def perform (store : Store) : StoreAction → Except RuntimeException Store
  | .create invoiceNumber =>
    return { store with invoices := store.invoices.insert (SimpleInvoice.create invoiceNumber) }
  | .act invoice action =>
    match store.invoices.get? invoice with
    | none => return store
    | some row => do
      let config ← SimpleInvoice.perform ⟨row, store.tasks⟩ action
      return { invoices := store.invoices.modify invoice fun _ => config.invoice.val
               tasks := config.tasks }

end Store

/-- **The workflows of all invoices.** -/
def SimpleInvoiceSystem : System Store StoreAction RuntimeException where
  enabled := Store.isEnabled
  perform := Store.perform

/-! ## The invariant -/

/-- Every invoice is at rest, and every task is that of an invoice. -/
structure Store.Resting (store : Store) : Prop where
  invoices : ∀ row ∈ store.invoices.rows, Config.Resting ⟨row, store.tasks⟩
  tasks_lt : ∀ task ∈ store.tasks.rows, task.val.invoice < store.invoices.nextId

variable {store store' : Store} {tr : Trace Store StoreAction}

theorem Store.resting_empty : Store.empty.Resting :=
  ⟨fun _ hrow => absurd hrow List.not_mem_nil, fun _ htask => absurd htask List.not_mem_nil⟩

/-- Whether an invoice is at rest depends on its own tasks only. -/
theorem Config.Resting.of_tasks {row : Row SimpleInvoice} {tasks tasks' : Table SimpleInvoiceTask}
    (h : Config.Resting ⟨row, tasks⟩)
    (htasks : findByInvoice tasks' row.id = findByInvoice tasks row.id) :
    Config.Resting ⟨row, tasks'⟩ := by
  refine ⟨h.wellFormed, fun s hs => ?_, ?_⟩
  · have hfit := h.tasksFit s hs
    unfold TasksFit at hfit ⊢
    rwa [htasks]
  · show (findByInvoice tasks' row.id).length ≤ 1
    rw [htasks]
    exact h.oneTask

/-- No task can refer to the identity of the next invoice yet. -/
theorem Store.Resting.findByInvoice_nextId (h : store.Resting) :
    findByInvoice store.tasks store.invoices.nextId = [] := by
  refine List.filter_eq_nil_iff.mpr fun task htask => ?_
  simpa using Nat.ne_of_lt (h.tasks_lt task htask)

/-- A created invoice is at rest. -/
theorem Store.Resting.create (h : store.Resting) (invoiceNumber : String) :
    Store.Resting
      { store with invoices := store.invoices.insert (SimpleInvoice.create invoiceNumber) } := by
  refine ⟨Table.forall_mem_insert_iff.mpr ⟨h.invoices, ?_⟩,
    fun task htask => Nat.lt_succ_of_lt (h.tasks_lt task htask)⟩
  exact Config.IsCreated.resting ⟨⟨invoiceNumber, rfl⟩, h.findByInvoice_nextId⟩

/-- An action keeps its invoice at rest, and does not disturb the others. -/
theorem Store.Resting.act {row : Row SimpleInvoice} {action : Action} {config : Config}
    (h : store.Resting) (hrow : row ∈ store.invoices.rows)
    (hen : action.isEnabled row.val = true)
    (hok : SimpleInvoice.perform ⟨row, store.tasks⟩ action = .ok config) :
    Store.Resting ⟨store.invoices.modify row.id fun _ => config.invoice.val, config.tasks⟩ := by
  have hrest := h.invoices row hrow
  obtain ⟨-, hid, -⟩ := perform_cases hrest.wellFormed hen hok
  have hframe := fun p => select_perform (p := p) hok
  constructor
  · intro r hr
    rw [Table.rows_modify] at hr
    obtain ⟨r₀, hr₀, rfl⟩ := List.mem_map.mp hr
    split
    · rename_i hrid
      have hconfig : config.invoice = ⟨r₀.id, config.invoice.val⟩ :=
        Row.ext (hid.trans hrid.symm) rfl
      have hafter := hrest.perform hen hok
      rwa [show config = ⟨config.invoice, config.tasks⟩ from rfl, hconfig] at hafter
    · rename_i hrid
      refine (h.invoices r₀ hr₀).of_tasks (hframe _ fun task htask => ?_)
      rw [htask]
      simpa using Ne.symm hrid
  · intro task htask
    rcases mem_findByInvoice_or htask row.id with hown | hother
    · rw [eq_of_beq (Table.mem_select.mp hown).2]
      exact store.invoices.ids_lt row hrow
    · -- a task of another invoice was there before
      rw [hframe _ fun t ht => by simp [ht]] at hother
      exact h.tasks_lt task (Table.mem_select.mp hother).1

/-- An action on a stored invoice is that of its workflow. -/
theorem Store.perform_act {row : Row SimpleInvoice} (hrow : row ∈ store.invoices.rows)
    (action : Action) :
    store.perform (.act row.id action) =
      (SimpleInvoice.perform ⟨row, store.tasks⟩ action).map fun config =>
        ⟨store.invoices.modify row.id fun _ => config.invoice.val, config.tasks⟩ := by
  have hget : store.invoices.get? row.id = some row := Table.get?_eq_some_iff.mpr ⟨hrow, rfl⟩
  simp only [Store.perform, hget]
  cases SimpleInvoice.perform ⟨row, store.tasks⟩ action <;> rfl

theorem Store.perform_act_eq_ok_iff {row : Row SimpleInvoice} (hrow : row ∈ store.invoices.rows)
    {action : Action} :
    store.perform (.act row.id action) = .ok store' ↔
      ∃ config, SimpleInvoice.perform ⟨row, store.tasks⟩ action = .ok config ∧
        ⟨store.invoices.modify row.id fun _ => config.invoice.val, config.tasks⟩ = store' := by
  rw [Store.perform_act hrow, map_eq_ok_iff]

/-- **One step keeps all invoices at rest.** -/
theorem Store.Resting.perform {action : StoreAction} (h : store.Resting)
    (hen : store.isEnabled action = true) (hok : store.perform action = .ok store') :
    store'.Resting := by
  cases action with
  | create invoiceNumber => cases hok; exact h.create invoiceNumber
  | act invoice action =>
    simp only [Store.isEnabled, Option.any_eq_true] at hen
    obtain ⟨row, hget, hen⟩ := hen
    obtain ⟨hrow, rfl⟩ := Table.get?_eq_some_iff.mp hget
    obtain ⟨config, hconfig, rfl⟩ := (Store.perform_act_eq_ok_iff hrow).mp hok
    exact h.act hrow hen hconfig

/-- **The tasks of every invoice are those of its state**: one for the role that is to act on a new
or a completed invoice, none in every other state, and at most one while there is no state. -/
theorem tasks_of_run (h : Run SimpleInvoiceSystem .empty tr store) {row : Row SimpleInvoice}
    (hrow : row ∈ store.invoices.rows) :
    (row.val.invoiceState = some .NEW → ∃ task, findByInvoice store.tasks row.id = [task] ∧
      task.val.assignedToRole = some .ADMINISTRATOR) ∧
    (row.val.invoiceState = some .COMPLETED → ∃ task, findByInvoice store.tasks row.id = [task] ∧
      task.val.assignedToRole = some .MANAGER) ∧
    (∀ s, row.val.invoiceState = some s → s ≠ .NEW → s ≠ .COMPLETED →
      findByInvoice store.tasks row.id = []) ∧
    (row.val.invoiceState = none → (findByInvoice store.tasks row.id).length ≤ 1) := by
  have hrest : store.Resting :=
    h.keep (fun _ _ _ hrest hen hok => Store.Resting.perform hrest hen hok) Store.resting_empty
  have hconfig := hrest.invoices row hrow
  refine ⟨fun hs => hconfig.tasksFit .NEW hs, fun hs => hconfig.tasksFit .COMPLETED hs,
    fun s hs hnew hcompleted => ?_, fun _ => hconfig.oneTask⟩
  have hfit := hconfig.tasksFit s hs
  have hnone : survivingRole s = none := if_neg (by simp [hnew, hcompleted])
  simpa only [TasksFit, hnone] using hfit

/-- Two invoices, the first of which is completed. -/
def twoInvoices : List StoreAction :=
  [.create "I-1", .create "I-2", .act 0 .initializeState, .act 0 (.setAmount (some ⟨500, 0⟩)),
    .act 1 .initializeState, .act 0 (.setInvoiceType (some .CAPEX)), .act 0 (.complete none ⟨1⟩)]

/-- That invoice, as it is stored then. -/
def completedInvoice : Row SimpleInvoice where
  id := 0
  val :=
    { create "I-1" with
      invoiceState := some .COMPLETED, invoiceType := some .CAPEX, amount := some ⟨500, 0⟩,
      completedOn := some ⟨1⟩ }

theorem tasks_of_twoInvoices :
    ∃ task, findByInvoice
        ((exec SimpleInvoiceSystem .empty twoInvoices).get (by decide)).2.tasks 0 = [task] ∧
      task.val.assignedToRole = some .MANAGER :=
  (tasks_of_run (run_exec (by decide))
    (show completedInvoice ∈
      ((exec SimpleInvoiceSystem .empty twoInvoices).get (by decide)).2.invoices.rows by
        decide)).2.1 rfl

end SimpleInvoice

end WorkflowSketch
