import WorkflowSketch.Lib.Interleave
import WorkflowSketch.SimpleInvoice.Store

/-!
# Invoices do not interfere

All invoices share one store of tasks, and their steps are interleaved in any way. What becomes of
an invoice and of its tasks depends on its own steps only.

* `taskView`: the tasks of an invoice as a user sees them, by role and assignee.
* **`Alike.perform`**: a step does the same on the same invoice with the same tasks, next to
  whatever other tasks.
* `ownSteps`: the steps of one invoice in a list of steps.
* `components_invoices`: at every step, the invoice among the others and the invoice alone agree.
* **`noninterference`**: an invoice ends as its own steps alone leave it, in any interleaving.
-/

namespace WorkflowSketch

open Lib Lib.FirstRepeat Lib.Transact

namespace SimpleInvoice

open SimpleInvoiceTaskRepository SimpleInvoiceTaskService

variable {action : Action} {c c' d d' : Config} {tasks tasks' : Table SimpleInvoiceTask}
  {row : Row SimpleInvoice} {s : SimpleInvoiceState} {actor : Option Person}

/-! ## The tasks of one invoice -/

/-- The tasks of an invoice, by role and assignee. -/
def taskView (tasks : Table SimpleInvoiceTask) (invoice : Nat) :
    List (Option Role × Option Person) :=
  (findByInvoice tasks invoice).map fun task => (task.val.assignedToRole, task.val.assignedTo)

/-- What `maintainTasksFor` makes of the tasks of the invoice. -/
def maintainedView (state : SimpleInvoiceState) (actor : Option Person)
    (view : List (Option Role × Option Person)) : List (Option Role × Option Person) :=
  match survivingRole state with
  | none => []
  | some role =>
    match view.filter fun task => task.1 == some role with
    | [] => [(some role, actor)]
    | task :: rest => (task.1, if actor.isSome then actor else task.2) :: rest

/-- **`maintainTasksFor` reads the tasks of its invoice only.** -/
theorem taskView_maintainTasksFor (hs : row.val.invoiceState = some s)
    (h : maintainTasksFor tasks row actor = .ok tasks') :
    taskView tasks' row.id = maintainedView s actor (taskView tasks row.id) := by
  unfold taskView maintainedView
  rw [findByInvoice_maintainTasksFor hs h]
  cases survivingRole s with
  | none => rfl
  | some role =>
    have hfilter : (((findByInvoice tasks row.id).map fun task =>
        (task.val.assignedToRole, task.val.assignedTo)).filter fun task => task.1 == some role) =
        (findByInvoiceAndRole tasks row.id role).map fun task =>
          (task.val.assignedToRole, task.val.assignedTo) := by
      rw [List.filter_map, findByInvoiceAndRole_eq]
      rfl
    dsimp only
    rw [hfilter, foundOrCreated]
    cases findByInvoiceAndRole tasks row.id role with
    | nil => cases actor <;> rfl
    | cons task rest => cases actor <;> rfl

/-! ## One step -/

/-- The same invoice with the same tasks, under whatever identities. -/
structure Alike (c d : Config) : Prop where
  val : c.invoice.val = d.invoice.val
  tasks : taskView c.tasks c.invoice.id = taskView d.tasks d.invoice.id

theorem Alike.symm (h : Alike c d) : Alike d c := ⟨h.val.symm, h.tasks.symm⟩

theorem id_of_perform (h : perform c action = .ok c') : c'.invoice.id = c.invoice.id := by
  rcases perform_eq_ok h with ⟨-, rfl⟩ | ⟨arguments, s, -, -, hinvoice, -⟩
  · rfl
  · rw [hinvoice]

/-- **A step does the same on the same invoice**, next to whatever other tasks. -/
theorem Alike.perform (h : Alike c d) (hok : SimpleInvoice.perform c action = .ok c') :
    ∃ d', SimpleInvoice.perform d action = .ok d' ∧ Alike c' d' := by
  rcases perform_eq_ok hok with ⟨harg, rfl⟩ | ⟨arguments, s, harg, hsettle, hinvoice, hmaintain⟩
  · refine ⟨d.update action.body, by simp [SimpleInvoice.perform, harg, pure, Except.pure], ?_, ?_⟩
    · rw [Config.update_invoice_val, Config.update_invoice_val, h.val]
    · exact h.tasks
  · rw [h.val] at hsettle
    obtain ⟨tasks', htasks'⟩ : ∃ tasks', maintainTasksFor d.tasks
        ⟨d.invoice.id, (action.body d.invoice.val).inState s⟩
        (determineActorIfAny ⟨.EXECUTED, arguments⟩) = .ok tasks' :=
      ⟨_, maintainTasksFor_eq rfl⟩
    refine ⟨⟨⟨d.invoice.id, (action.body d.invoice.val).inState s⟩, tasks'⟩, ?_, ?_, ?_⟩
    · rw [perform_eq harg, hsettle]
      dsimp only [Config.update]
      rw [htasks']
      rfl
    · rw [hinvoice, h.val]
    · have hview := taskView_maintainTasksFor (by rw [hinvoice]; rfl) hmaintain
      have hview' := taskView_maintainTasksFor rfl htasks'
      rw [hview, hview', id_of_perform hok, h.tasks]

/-- It also throws on the one if it throws on the other. -/
theorem Alike.perform_error (h : Alike c d) {x : RuntimeException}
    (herror : SimpleInvoice.perform c action = .error x) :
    ∃ y, SimpleInvoice.perform d action = .error y := by
  cases hd : SimpleInvoice.perform d action with
  | error y => exact ⟨y, rfl⟩
  | ok d' =>
    obtain ⟨c', hok, -⟩ := h.symm.perform hd
    rw [herror] at hok
    exact absurd hok (by simp)

/-! ## An invoice alone -/

variable {store store' alone : Store} {invoice : Nat}

/-- The invoice as it is in the store, and the same invoice in a store of its own. -/
def Alone (invoice : Nat) (store alone : Store) : Prop :=
  ∃ row ∈ store.invoices.rows, row.id = invoice ∧ alone.invoices.rows = [⟨0, row.val⟩] ∧
    taskView store.tasks invoice = taskView alone.tasks 0

/-- An action is offered on the invoice alone as it is among the others. -/
theorem Alone.isEnabled (h : Alone invoice store alone) (action : Action) :
    alone.isEnabled (.act 0 action) = store.isEnabled (.act invoice action) := by
  obtain ⟨row, hrow, rfl, halone, -⟩ := h
  have hget : store.invoices.get? row.id = some row := Table.get?_eq_some_iff.mpr ⟨hrow, rfl⟩
  have hget' : alone.invoices.get? 0 = some ⟨0, row.val⟩ :=
    Table.get?_eq_some_iff.mpr ⟨by simp [halone], rfl⟩
  simp only [Store.isEnabled, hget, hget', Option.any_some]

/-- **Its own steps** do the same on the invoice alone. -/
theorem Alone.act (h : Alone invoice store alone)
    (hok : store.perform (.act invoice action) = .ok store') :
    ∃ alone', alone.perform (.act 0 action) = .ok alone' ∧ Alone invoice store' alone' := by
  obtain ⟨row, hrow, rfl, halone, htasks⟩ := h
  have hmem : (⟨0, row.val⟩ : Row SimpleInvoice) ∈ alone.invoices.rows := by simp [halone]
  have halike : Alike ⟨row, store.tasks⟩ ⟨⟨0, row.val⟩, alone.tasks⟩ := ⟨rfl, htasks⟩
  obtain ⟨c, hc, rfl⟩ := (Store.perform_act_eq_ok_iff hrow).mp hok
  obtain ⟨d, hd, hview⟩ := halike.perform hc
  refine ⟨_, (Store.perform_act_eq_ok_iff hmem).mpr ⟨d, hd, rfl⟩, ⟨row.id, c.invoice.val⟩,
    Table.mem_modify_iff.mpr ⟨row, hrow, rfl, rfl⟩, rfl, ?_, ?_⟩
  · simp [halone, hview.val]
  · have hid : c.invoice.id = row.id := id_of_perform hc
    have hid' : d.invoice.id = 0 := id_of_perform hd
    rw [← hid, ← hid']
    exact hview.tasks

/-- Its own steps also throw on the invoice alone. -/
theorem Alone.act_error (h : Alone invoice store alone) {x : RuntimeException}
    (herror : store.perform (.act invoice action) = .error x) :
    ∃ y, alone.perform (.act 0 action) = .error y := by
  obtain ⟨row, hrow, rfl, halone, htasks⟩ := h
  have hmem : (⟨0, row.val⟩ : Row SimpleInvoice) ∈ alone.invoices.rows := by simp [halone]
  have halike : Alike ⟨row, store.tasks⟩ ⟨⟨0, row.val⟩, alone.tasks⟩ := ⟨rfl, htasks⟩
  rw [Store.perform_act hrow, map_eq_error_iff] at herror
  obtain ⟨y, hy⟩ := halike.perform_error herror
  exact ⟨y, (Store.perform_act hmem action).trans (map_eq_error_iff.mpr hy)⟩

/-- **The steps of other invoices**, and new invoices, leave the invoice as it is. -/
theorem Alone.other (h : Alone invoice store alone) {action : StoreAction}
    (hother : ∀ a, action ≠ .act invoice a) (hen : store.isEnabled action = true)
    (hok : store.perform action = .ok store') : Alone invoice store' alone := by
  obtain ⟨row, hrow, rfl, halone, htasks⟩ := h
  cases action with
  | create invoiceNumber =>
    cases hok
    exact ⟨row, List.mem_append_left _ hrow, rfl, halone, htasks⟩
  | act other action =>
    have hne : row.id ≠ other := fun h => hother action (by rw [h])
    simp only [Store.isEnabled, Option.any_eq_true] at hen
    obtain ⟨row', hget, -⟩ := hen
    obtain ⟨hrow', rfl⟩ := Table.get?_eq_some_iff.mp hget
    obtain ⟨c, hc, rfl⟩ := (Store.perform_act_eq_ok_iff hrow').mp hok
    refine ⟨row, ?_, rfl, halone, ?_⟩
    · rw [Table.rows_modify]
      exact List.mem_map.mpr ⟨row, hrow, if_neg hne⟩
    · rw [← htasks, taskView, taskView, findByInvoice, findByInvoice]
      rw [select_perform hc fun task htask => by rw [htask]; simpa using Ne.symm hne]

theorem Alone.attempt (h : Alone invoice store alone) {action : Action} :
    Alone invoice (SimpleInvoiceSystem.attempt store (.act invoice action))
      (SimpleInvoiceSystem.attempt alone (.act 0 action)) := by
  cases hp : SimpleInvoiceSystem.perform store (.act invoice action) with
  | ok store' =>
    obtain ⟨alone', hp', h'⟩ := h.act hp
    rwa [System.attempt_of_ok hp, System.attempt_of_ok hp']
  | error x =>
    obtain ⟨y, hp'⟩ := h.act_error hp
    rwa [System.attempt_of_error hp, System.attempt_of_error hp']

theorem Alone.attempt_other (h : Alone invoice store alone) {action : StoreAction}
    (hother : ∀ a, action ≠ .act invoice a) (hen : store.isEnabled action = true) :
    Alone invoice (SimpleInvoiceSystem.attempt store action) alone := by
  cases hp : SimpleInvoiceSystem.perform store action with
  | ok store' => rw [System.attempt_of_ok hp]; exact h.other hother hen hp
  | error x => rwa [System.attempt_of_error hp]

/-- A new invoice is the same one in an empty store. -/
theorem Alone.create (h : store.Resting) (invoiceNumber : String) :
    Alone store.invoices.nextId
      { store with invoices := store.invoices.insert (SimpleInvoice.create invoiceNumber) }
      { Store.empty with invoices := Table.empty.insert (SimpleInvoice.create invoiceNumber) } := by
  refine ⟨⟨store.invoices.nextId, SimpleInvoice.create invoiceNumber⟩, ?_, rfl, rfl, ?_⟩
  · exact List.mem_append_right _ List.mem_cons_self
  · show taskView store.tasks _ = []
    rw [taskView, h.findByInvoice_nextId]
    rfl

/-! ## Any interleaving -/

/-- The identity of the next invoice to be created, after a step. -/
def StoreAction.nextInvoice (next : Nat) : StoreAction → Nat
  | .create _ => next + 1
  | .act _ _ => next

/-- A step of the invoice, as one of the invoice alone, whose identity then is the first one. -/
def StoreAction.ownStep? (invoice next : Nat) : StoreAction → Option StoreAction
  | .create invoiceNumber => if next = invoice then some (.create invoiceNumber) else none
  | .act other action => if other = invoice then some (.act 0 action) else none

/-- The steps of the invoice among those from an empty store on, as steps of an invoice alone. -/
def ownSteps (invoice : Nat) (l : List StoreAction) : List StoreAction :=
  project (StoreAction.ownStep? invoice) StoreAction.nextInvoice 0 l

/-- Among the others or alone, the invoice is still to be created, or is the same. -/
structure Separate (invoice next : Nat) (store alone : Store) : Prop where
  resting : store.Resting
  nextId : store.invoices.nextId = next
  same : store.invoices.nextId ≤ invoice ∧ alone = Store.empty ∨ Alone invoice store alone

variable {next : Nat} {action own : StoreAction}

theorem Store.nextId_attempt (store : Store) (action : StoreAction) :
    (SimpleInvoiceSystem.attempt store action).invoices.nextId =
      action.nextInvoice store.invoices.nextId := by
  cases action with
  | create invoiceNumber => rfl
  | act invoice action =>
    cases hp : SimpleInvoiceSystem.perform store (.act invoice action) with
    | error x => rw [System.attempt_of_error hp]; rfl
    | ok store' =>
      rw [System.attempt_of_ok hp]
      cases hget : store.invoices.get? invoice with
      | none =>
        obtain rfl : store = store' := by
          simpa [SimpleInvoiceSystem, Store.perform, hget, pure, Except.pure] using hp
        rfl
      | some row =>
        obtain ⟨hrow, rfl⟩ := Table.get?_eq_some_iff.mp hget
        obtain ⟨c, -, rfl⟩ := (Store.perform_act_eq_ok_iff hrow).mp hp
        rfl

theorem Store.Resting.attempt (h : store.Resting) (hen : store.isEnabled action = true) :
    (SimpleInvoiceSystem.attempt store action).Resting := by
  cases hp : SimpleInvoiceSystem.perform store action with
  | error x => rwa [System.attempt_of_error hp]
  | ok store' => rw [System.attempt_of_ok hp]; exact h.perform hen hp

theorem Separate.empty (invoice : Nat) : Separate invoice 0 .empty .empty :=
  ⟨Store.resting_empty, rfl, Or.inl ⟨Nat.zero_le _, rfl⟩⟩

/-- An invoice is created once. -/
theorem Separate.eq_empty (h : Separate invoice invoice store alone) : alone = Store.empty := by
  rcases h.same with ⟨-, rfl⟩ | ⟨row, hrow, hid, -⟩
  · rfl
  · have hlt := store.invoices.ids_lt row hrow
    have hnext := h.nextId
    omega

/-- A step of the invoice is offered alone as it is among the others. -/
theorem Separate.isEnabled (h : Separate invoice next store alone)
    (hown : action.ownStep? invoice next = some own) :
    alone.isEnabled own = store.isEnabled action := by
  cases action with
  | create invoiceNumber =>
    simp only [StoreAction.ownStep?, Option.ite_none_right_eq_some, Option.some.injEq] at hown
    rw [← hown.2]
    rfl
  | act other action =>
    simp only [StoreAction.ownStep?, Option.ite_none_right_eq_some, Option.some.injEq] at hown
    obtain ⟨rfl, rfl⟩ := hown
    rcases h.same with ⟨hle, rfl⟩ | halone
    · -- nothing is offered on an invoice that is not there
      have hnone : store.invoices.get? other = none := by
        cases hget : store.invoices.get? other with
        | none => rfl
        | some row =>
          obtain ⟨hrow, hid⟩ := Table.get?_eq_some_iff.mp hget
          have hlt := store.invoices.ids_lt row hrow
          omega
      simp only [Store.isEnabled, hnone]
      rfl
    · exact halone.isEnabled action

/-- **Own steps**, also those that throw. -/
theorem Separate.step (h : Separate invoice next store alone)
    (hen : store.isEnabled action = true) (hown : action.ownStep? invoice next = some own) :
    Separate invoice (action.nextInvoice next) (SimpleInvoiceSystem.attempt store action)
      (SimpleInvoiceSystem.attempt alone own) := by
  refine ⟨h.resting.attempt hen, by rw [Store.nextId_attempt, h.nextId], Or.inr ?_⟩
  have hoffered := h.isEnabled hown
  cases action with
  | create invoiceNumber =>
    simp only [StoreAction.ownStep?, Option.ite_none_right_eq_some, Option.some.injEq] at hown
    obtain ⟨rfl, rfl⟩ := hown
    obtain rfl := h.eq_empty
    obtain rfl := h.nextId
    exact Alone.create h.resting invoiceNumber
  | act other action =>
    simp only [StoreAction.ownStep?, Option.ite_none_right_eq_some, Option.some.injEq] at hown
    obtain ⟨rfl, rfl⟩ := hown
    rcases h.same with ⟨-, rfl⟩ | halone
    · rw [hen] at hoffered
      exact absurd hoffered (by simp [Store.isEnabled, Store.empty, Table.get?, Table.empty])
    · exact halone.attempt

/-- **The steps of others.** -/
theorem Separate.skip (h : Separate invoice next store alone)
    (hen : store.isEnabled action = true) (hown : action.ownStep? invoice next = none) :
    Separate invoice (action.nextInvoice next) (SimpleInvoiceSystem.attempt store action)
      alone := by
  refine ⟨h.resting.attempt hen, by rw [Store.nextId_attempt, h.nextId], ?_⟩
  have hother : ∀ a, action ≠ .act invoice a := by
    rintro a rfl
    simp [StoreAction.ownStep?] at hown
  rcases h.same with ⟨hle, rfl⟩ | halone
  · refine Or.inl ⟨?_, rfl⟩
    rw [Store.nextId_attempt, h.nextId]
    rw [h.nextId] at hle
    cases action with
    | create invoiceNumber =>
      have hne : next ≠ invoice := fun heq => by simp [StoreAction.ownStep?, heq] at hown
      show next + 1 ≤ invoice
      omega
    | act other action => exact hle
  · exact Or.inr (halone.attempt_other hother hen)

/-- **Invoices are components**: they share one store of tasks, and do not interfere. -/
theorem components_invoices :
    Components SimpleInvoiceSystem SimpleInvoiceSystem
      StoreAction.ownStep? StoreAction.nextInvoice Separate where
  owner next action := by
    cases action with
    | create invoiceNumber => exact ⟨next, .create invoiceNumber, if_pos rfl⟩
    | act invoice action => exact ⟨invoice, .act 0 action, if_pos rfl⟩
  enabled h hown := h.isEnabled hown
  step h hen hown := h.step hen hown
  skip h hen hown := h.skip hen hown

/-- **Invoices do not interfere.** An interleaving of steps of any invoices is offered iff the own
steps of each are offered to it alone; and then every invoice, with its tasks by role and assignee,
ends as its own steps alone leave it. -/
theorem noninterference (l : List StoreAction) :
    ((execState SimpleInvoiceSystem .empty l).isSome = true ↔
      ∀ invoice, (execState SimpleInvoiceSystem .empty (ownSteps invoice l)).isSome = true) ∧
    ∀ store, execState SimpleInvoiceSystem .empty l = some store → ∀ row ∈ store.invoices.rows,
      ∃ alone row', execState SimpleInvoiceSystem .empty (ownSteps row.id l) = some alone ∧
        alone.invoices.rows = [row'] ∧ row'.val = row.val ∧
        taskView alone.tasks row'.id = taskView store.tasks row.id := by
  refine ⟨components_invoices.isSome_execState_iff Separate.empty, fun store hstore row hrow => ?_⟩
  obtain ⟨next, alone, halone, h⟩ :=
    components_invoices.execState_project (Separate.empty row.id) hstore
  rcases h.same with ⟨hle, -⟩ | ⟨row', hrow', hid, hrows, htasks⟩
  · have hlt := store.invoices.ids_lt row hrow
    omega
  · obtain rfl := Table.eq_of_id hrow' hrow hid
    exact ⟨alone, ⟨0, row'.val⟩, halone, hrows, rfl, htasks.symm⟩

/-- Of two invoices the first ends completed, with a task for the manager, as it does alone. -/
theorem noninterference_of_twoInvoices :
    ∃ alone row', execState SimpleInvoiceSystem .empty (ownSteps 0 twoInvoices) = some alone ∧
      alone.invoices.rows = [row'] ∧ row'.val = completedInvoice.val ∧
      taskView alone.tasks row'.id = [(some .MANAGER, none)] := by
  obtain ⟨alone, row', halone, hrows, hval, htasks⟩ := (noninterference twoInvoices).2
    ((execState SimpleInvoiceSystem .empty twoInvoices).get (by decide)) (Option.some_get _).symm
    completedInvoice (by decide)
  exact ⟨alone, row', halone, hrows, hval, htasks.trans (by decide)⟩

end SimpleInvoice

end WorkflowSketch
