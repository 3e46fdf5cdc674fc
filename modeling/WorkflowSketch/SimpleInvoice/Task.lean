import WorkflowSketch.Lib.Table
import WorkflowSketch.SimpleInvoice.Entity

/-!
# The tasks of an invoice (`SimpleInvoiceTask…`)

`SimpleInvoiceTask.java`, `SimpleInvoiceTaskRepository.java` and `SimpleInvoiceTaskService.java`
over one store of tasks, shared by all invoices. A task refers to its invoice by identity, and so
do the queries; a query answers with the matching rows in the order they were stored.

`maintainTasksFor` first finds or creates a task for the role of the state and then removes the
stale tasks of the invoice; for a state such as `APPROVED_BY_MANAGER` the second pass removes what
the first has created. Results:

* **`select_maintainTasksFor`**: the tasks of other invoices are left alone.
* **`findByInvoice_maintainTasksFor`**: what the invoice's own tasks are afterwards.
* `Maintained`, **`rows_maintainTasksFor`**: a store that is already as it should be is left as it
  is.
* **`maintainTasksFor_of_state`**: what it makes of any store, and that a second call changes
  nothing.
-/

namespace WorkflowSketch

open Lib

/-- `SimpleInvoiceTask`. -/
structure SimpleInvoiceTask where
  invoice : Nat
  assignedToRole : Option Role
  assignedTo : Option Person
  deriving DecidableEq, Repr

/-- `SimpleInvoiceTask.applicableForStates`. -/
def SimpleInvoiceTask.applicableForStates (_ : SimpleInvoiceTask) : List SimpleInvoiceState :=
  [.NEW, .COMPLETED]

namespace SimpleInvoiceTaskRepository

/-- `findByInvoice`: `invoice == :invoice`. -/
def findByInvoice (tasks : Table SimpleInvoiceTask) (invoice : Nat) :
    List (Row SimpleInvoiceTask) :=
  tasks.select fun task => task.invoice == invoice

/-- `findByInvoiceAndRole`: `invoice == :invoice && assignedToRole == :role`. -/
def findByInvoiceAndRole (tasks : Table SimpleInvoiceTask) (invoice : Nat) (role : Role) :
    List (Row SimpleInvoiceTask) :=
  tasks.select fun task => task.invoice == invoice && task.assignedToRole == some role

/-- `create`: the store with the new task, and the task. -/
def create (tasks : Table SimpleInvoiceTask) (invoice : Nat) (role : Role) :
    Table SimpleInvoiceTask × Row SimpleInvoiceTask :=
  let simpleInvoiceTask : SimpleInvoiceTask :=
    { invoice := invoice, assignedToRole := some role, assignedTo := none }
  (tasks.insert simpleInvoiceTask, ⟨tasks.nextId, simpleInvoiceTask⟩)

/-- `findOrCreate(invoice, role)`. -/
def findOrCreate (tasks : Table SimpleInvoiceTask) (invoice : Nat) (role : Role) :
    Table SimpleInvoiceTask × Row SimpleInvoiceTask :=
  match findByInvoiceAndRole tasks invoice role with
  | [] => create tasks invoice role
  | simpleTask :: _ => (tasks, simpleTask)

/-- `setAssignedTo`. -/
def setAssignedTo (person : Option Person) (task : SimpleInvoiceTask) : SimpleInvoiceTask :=
  { task with assignedTo := person }

/-- `findOrCreate(invoice, role, person)`, which assigns the task it finds. -/
def findOrCreateAssigned (tasks : Table SimpleInvoiceTask) (invoice : Nat) (role : Role)
    (person : Option Person) : Table SimpleInvoiceTask :=
  let (tasks, simpleTask) := findOrCreate tasks invoice role
  tasks.modify simpleTask.id (setAssignedTo person)

end SimpleInvoiceTaskRepository

namespace SimpleInvoiceTaskService

open SimpleInvoiceTaskRepository

/-- `cleanUpTasksFor`. -/
def cleanUpTasksFor (tasks : Table SimpleInvoiceTask) (invoice : Row SimpleInvoice) :
    Table SimpleInvoiceTask :=
  tasks.deleteEach (findByInvoice tasks invoice.id) fun task =>
    match invoice.val.invoiceState with
    | none => false
    | some state =>
      !task.val.applicableForStates.contains state ||
        (state.hasTaskFor.isSome && state.hasTaskFor != task.val.assignedToRole)

/-- `maintainTasksFor`; the state of the invoice is dereferenced without a null check. -/
def maintainTasksFor (tasks : Table SimpleInvoiceTask) (invoice : Row SimpleInvoice)
    (actor : Option Person) : Except RuntimeException (Table SimpleInvoiceTask) :=
  match invoice.val.invoiceState with
  | none => .error .nullPointerException
  | some state =>
    let tasks := match state.hasTaskFor with
      | none => tasks
      | some role =>
        if actor.isSome then findOrCreateAssigned tasks invoice.id role actor
        else (findOrCreate tasks invoice.id role).1
    .ok (cleanUpTasksFor tasks invoice)

/-! ## The two passes -/

variable {tasks : Table SimpleInvoiceTask} {invoice : Nat} {role : Role} {actor : Option Person}

/-- The condition under which `cleanUpTasksFor` removes a task, for a non-null state. -/
def isStale (state : SimpleInvoiceState) (task : SimpleInvoiceTask) : Bool :=
  !task.applicableForStates.contains state ||
    (state.hasTaskFor.isSome && state.hasTaskFor != task.assignedToRole)

/-- The role of the one task that may survive in a state. -/
def survivingRole (state : SimpleInvoiceState) : Option Role :=
  if state = .NEW ∨ state = .COMPLETED then state.hasTaskFor else none

theorem hasTaskFor_of_survivingRole {state : SimpleInvoiceState}
    (h : survivingRole state = some role) : state.hasTaskFor = some role := by
  unfold survivingRole at h
  split at h
  · exact h
  · exact absurd h (by simp)

theorem isStale_of_survivingRole_eq_none {state : SimpleInvoiceState}
    (h : survivingRole state = none) (task : SimpleInvoiceTask) : isStale state task = true := by
  cases state <;> first | rfl | exact absurd h (by decide)

theorem isStale_of_survivingRole_eq_some {state : SimpleInvoiceState}
    (h : survivingRole state = some role) (task : SimpleInvoiceTask) :
    isStale state task = !(task.assignedToRole == some role) := by
  have happ : task.applicableForStates.contains state = true := by
    cases state <;> first | rfl | simp [survivingRole] at h
  rw [isStale, happ, hasTaskFor_of_survivingRole h]
  simp only [Bool.not_true, Option.isSome_some, Bool.true_and, Bool.false_or, bne, Bool.beq_comm]

/-- No two states have a task of one role. -/
theorem survivingRole_inj : ∀ s s' : SimpleInvoiceState, survivingRole s ≠ none →
    survivingRole s = survivingRole s' → s = s' := by
  decide

/-- A stored task is one of the invoice, or of another one. -/
theorem mem_findByInvoice_or {task : Row SimpleInvoiceTask} (h : task ∈ tasks.rows)
    (invoice : Nat) :
    task ∈ findByInvoice tasks invoice ∨
      task ∈ tasks.select fun task => task.invoice != invoice := by
  by_cases hown : task.val.invoice = invoice
  · exact Or.inl (Table.mem_select.mpr ⟨h, by simp [hown]⟩)
  · exact Or.inr (Table.mem_select.mpr ⟨h, by simp [hown]⟩)

/-- The first pass of `maintainTasksFor`. -/
def assignTask (tasks : Table SimpleInvoiceTask) (invoice : Nat) (role : Role)
    (actor : Option Person) : Table SimpleInvoiceTask :=
  if actor.isSome then findOrCreateAssigned tasks invoice role actor
  else (findOrCreate tasks invoice role).1

/-- The task an actor was given for, or the task as it is. -/
def assignFirst (actor : Option Person) : List (Row SimpleInvoiceTask) →
    List (Row SimpleInvoiceTask)
  | [] => []
  | task :: rest =>
    (if actor.isSome then ⟨task.id, setAssignedTo actor task.val⟩ else task) :: rest

/-- The tasks of a role, or a new one when there is none. -/
def foundOrCreated (tasks : Table SimpleInvoiceTask) (invoice : Nat) (role : Role) :
    List (Row SimpleInvoiceTask) :=
  match findByInvoiceAndRole tasks invoice role with
  | [] => [(create tasks invoice role).2]
  | found => found

theorem findByInvoiceAndRole_findOrCreate :
    findByInvoiceAndRole (findOrCreate tasks invoice role).1 invoice role =
      foundOrCreated tasks invoice role := by
  unfold foundOrCreated
  cases h : findByInvoiceAndRole tasks invoice role with
  | nil =>
    simp only [findOrCreate, h]
    rw [findByInvoiceAndRole, create, Table.select_insert, ← findByInvoiceAndRole, h]
    simp
  | cons task rest => simp only [findOrCreate, h]

/-- `findOrCreate` answers with the first task of the role there is afterwards. -/
theorem findOrCreate_eq_head (tasks : Table SimpleInvoiceTask) (invoice : Nat) (role : Role) :
    (findByInvoiceAndRole (findOrCreate tasks invoice role).1 invoice role).head? =
      some (findOrCreate tasks invoice role).2 := by
  rw [findByInvoiceAndRole_findOrCreate, foundOrCreated]
  cases h : findByInvoiceAndRole tasks invoice role with
  | nil => simp only [findOrCreate, h, List.head?_cons]
  | cons task rest => simp only [findOrCreate, h, List.head?_cons]

/-- What the first pass leaves of the role. -/
theorem findByInvoiceAndRole_assignTask :
    findByInvoiceAndRole (assignTask tasks invoice role actor) invoice role =
      assignFirst actor (foundOrCreated tasks invoice role) := by
  have hhead := findOrCreate_eq_head tasks invoice role
  obtain ⟨rest, hrest⟩ := List.head?_eq_some_iff.mp hhead
  rw [← findByInvoiceAndRole_findOrCreate, hrest]
  unfold assignTask assignFirst
  split
  · have hmem := (Table.mem_select.mp (hrest ▸ List.mem_cons_self : _ ∈ Table.select _ _)).2
    exact Table.select_modify_head hrest hmem
  · exact hrest

/-- The first pass does not touch what is not the invoice's. -/
theorem select_assignTask {p : SimpleInvoiceTask → Bool}
    (hp : ∀ task, task.invoice = invoice → p task = false) :
    (assignTask tasks invoice role actor).select p = tasks.select p := by
  have hfound : (findOrCreate tasks invoice role).1.select p = tasks.select p := by
    unfold findOrCreate
    split
    · rw [create, Table.select_insert, hp _ rfl]
      simp
    · rfl
  unfold assignTask
  split
  · have hhead := findOrCreate_eq_head tasks invoice role
    obtain ⟨hrow, hq⟩ := Table.mem_select.mp (List.mem_of_head? hhead)
    have hinvoice : (findOrCreate tasks invoice role).2.val.invoice = invoice := by
      simpa using (Bool.and_eq_true_iff.mp hq).1
    rw [findOrCreateAssigned]
    exact (Table.select_modify_of_not hrow (hp _ hinvoice) (hp _ hinvoice)).trans hfound
  · exact hfound

/-! ## Both passes together -/

variable {tasks' : Table SimpleInvoiceTask} {row : Row SimpleInvoice} {state : SimpleInvoiceState}

theorem rows_cleanUpTasksFor (hs : row.val.invoiceState = some state) :
    (cleanUpTasksFor tasks row).rows =
      tasks.rows.filter fun r => !(r.val.invoice == row.id && isStale state r.val) := by
  unfold cleanUpTasksFor findByInvoice
  rw [hs]
  exact Table.rows_deleteEach_select tasks _ _

theorem maintainTasksFor_eq (hs : row.val.invoiceState = some state) :
    maintainTasksFor tasks row actor =
      .ok (cleanUpTasksFor (match state.hasTaskFor with
        | none => tasks
        | some role => assignTask tasks row.id role actor) row) := by
  unfold maintainTasksFor
  rw [hs]
  rfl

/-- The second pass does not touch what is not the invoice's. -/
theorem select_cleanUpTasksFor {p : SimpleInvoiceTask → Bool}
    (hs : row.val.invoiceState = some state)
    (hp : ∀ task, task.invoice = row.id → p task = false) :
    (cleanUpTasksFor tasks row).select p = tasks.select p := by
  rw [Table.select, rows_cleanUpTasksFor hs, List.filter_filter]
  refine List.filter_congr fun r _ => ?_
  by_cases hr : r.val.invoice = row.id
  · simp [hp r.val hr]
  · simp [hr]

/-- **The tasks of other invoices are left alone.** -/
theorem select_maintainTasksFor {p : SimpleInvoiceTask → Bool}
    (hs : row.val.invoiceState = some state) (h : maintainTasksFor tasks row actor = .ok tasks')
    (hp : ∀ task, task.invoice = row.id → p task = false) : tasks'.select p = tasks.select p := by
  rw [maintainTasksFor_eq hs] at h
  cases h
  rw [select_cleanUpTasksFor hs hp]
  split
  · rfl
  · exact select_assignTask hp

/-- **The invoice's own tasks afterwards**: those of the state's role there were, or a new one, the
first of them assigned to the actor, if one was given; none if no role survives in the state. -/
theorem findByInvoice_maintainTasksFor (hs : row.val.invoiceState = some state)
    (h : maintainTasksFor tasks row actor = .ok tasks') :
    findByInvoice tasks' row.id = match survivingRole state with
      | none => []
      | some role => assignFirst actor (foundOrCreated tasks row.id role) := by
  rw [maintainTasksFor_eq hs] at h
  cases h
  rw [findByInvoice, Table.select, rows_cleanUpTasksFor hs, List.filter_filter]
  cases hrole : survivingRole state with
  | none =>
    refine List.filter_eq_nil_iff.mpr fun r _ => ?_
    simp [isStale_of_survivingRole_eq_none hrole]
  | some role =>
    rw [hasTaskFor_of_survivingRole hrole]
    dsimp only
    rw [← findByInvoiceAndRole_assignTask]
    refine List.filter_congr fun r _ => ?_
    rw [isStale_of_survivingRole_eq_some hrole, Bool.not_and, Bool.not_not]
    dsimp only
    cases r.val.invoice == row.id with
    | true => rfl
    | false => rfl

/-- The tasks of an invoice resting in a state: one of the surviving role, or none. -/
def TasksFit (tasks : Table SimpleInvoiceTask) (invoice : Nat) (state : SimpleInvoiceState) :
    Prop :=
  match survivingRole state with
  | none => findByInvoice tasks invoice = []
  | some role => ∃ task, findByInvoice tasks invoice = [task] ∧ task.val.assignedToRole = some role

/-- The tasks of the role are among those of the invoice. -/
theorem findByInvoiceAndRole_eq :
    findByInvoiceAndRole tasks invoice role =
      (findByInvoice tasks invoice).filter fun task => task.val.assignedToRole == some role := by
  rw [findByInvoice, Table.select, List.filter_filter]
  exact List.filter_congr fun r _ => Bool.and_comm _ _

/-- **One task at most before, and the tasks fit the state afterwards.** -/
theorem tasksFit_of_maintainTasksFor (hs : row.val.invoiceState = some state)
    (h : maintainTasksFor tasks row actor = .ok tasks')
    (hone : (findByInvoice tasks row.id).length ≤ 1) : TasksFit tasks' row.id state := by
  unfold TasksFit
  rw [findByInvoice_maintainTasksFor hs h]
  cases survivingRole state with
  | none => rfl
  | some role =>
    have hlen : (findByInvoiceAndRole tasks row.id role).length ≤ 1 := by
      rw [findByInvoiceAndRole_eq]
      exact (List.length_filter_le _ _).trans hone
    dsimp only [foundOrCreated]
    cases hfound : findByInvoiceAndRole tasks row.id role with
    | nil =>
      refine ⟨_, rfl, ?_⟩
      split <;> rfl
    | cons task rest =>
      rw [hfound] at hlen
      obtain rfl : rest = [] := List.eq_nil_of_length_eq_zero (by simpa using hlen)
      have hmem : task ∈ findByInvoiceAndRole tasks row.id role := hfound ▸ List.mem_cons_self
      have hrole : task.val.assignedToRole = some role := by
        simpa using (Bool.and_eq_true_iff.mp (Table.mem_select.mp hmem).2).2
      refine ⟨_, rfl, ?_⟩
      split
      · exact hrole
      · exact hrole

/-- An invoice whose tasks fit has one task at most. -/
theorem TasksFit.length_le (h : TasksFit tasks invoice state) :
    (findByInvoice tasks invoice).length ≤ 1 := by
  unfold TasksFit at h
  split at h
  · simp [h]
  · obtain ⟨task, hone, -⟩ := h
    simp [hone]

/-! ## Maintaining the tasks again -/

/-- The tasks of an invoice, as `maintainTasksFor` leaves them: some of the surviving role, the
first of which the actor has, if one was given; or none. -/
def Maintained (tasks : Table SimpleInvoiceTask) (invoice : Nat) (state : SimpleInvoiceState)
    (actor : Option Person) : Prop :=
  match survivingRole state with
  | none => findByInvoice tasks invoice = []
  | some role => ∃ task rest, findByInvoice tasks invoice = task :: rest ∧
      (∀ r ∈ task :: rest, r.val.assignedToRole = some role) ∧
      (actor.isSome → task.val.assignedTo = actor)

/-- Tasks that fit are maintained, if no actor is given. -/
theorem TasksFit.maintained (h : TasksFit tasks invoice state) :
    Maintained tasks invoice state none := by
  unfold TasksFit at h
  unfold Maintained
  cases hrole : survivingRole state with
  | none => simpa only [hrole] using h
  | some role =>
    simp only [hrole] at h
    obtain ⟨task, hone, htask⟩ := h
    exact ⟨task, [], hone, by simpa using htask, by simp⟩

/-- There is a task of the role, found or created. -/
theorem foundOrCreated_eq_cons (tasks : Table SimpleInvoiceTask) (invoice : Nat) (role : Role) :
    ∃ task rest, foundOrCreated tasks invoice role = task :: rest ∧
      ∀ r ∈ task :: rest, r.val.assignedToRole = some role := by
  unfold foundOrCreated
  cases hfound : findByInvoiceAndRole tasks invoice role with
  | nil => exact ⟨_, [], rfl, by simp [create]⟩
  | cons task rest =>
    refine ⟨task, rest, rfl, fun r hr => ?_⟩
    rw [← hfound] at hr
    simpa using (Bool.and_eq_true_iff.mp (Table.mem_select.mp hr).2).2

/-- **What `maintainTasksFor` leaves** is maintained. -/
theorem maintained_of_maintainTasksFor (hs : row.val.invoiceState = some state)
    (h : maintainTasksFor tasks row actor = .ok tasks') :
    Maintained tasks' row.id state actor := by
  unfold Maintained
  rw [findByInvoice_maintainTasksFor hs h]
  cases survivingRole state with
  | none => rfl
  | some role =>
    obtain ⟨task, rest, hcons, hrole⟩ := foundOrCreated_eq_cons tasks row.id role
    obtain ⟨htask, hrest⟩ := List.forall_mem_cons.mp hrole
    dsimp only
    rw [hcons]
    refine ⟨_, rest, rfl, List.forall_mem_cons.mpr ⟨?_, hrest⟩, fun hactor => ?_⟩
    · split <;> exact htask
    · rw [if_pos hactor]
      rfl

/-- None of the tasks maintained is stale. -/
theorem Maintained.not_isStale (h : Maintained tasks invoice state actor)
    {r : Row SimpleInvoiceTask} (hr : r ∈ findByInvoice tasks invoice) :
    isStale state r.val = false := by
  unfold Maintained at h
  split at h
  · rw [h] at hr
    exact absurd hr List.not_mem_nil
  · rename_i role hrole
    obtain ⟨task, rest, hcons, hall, -⟩ := h
    rw [hcons] at hr
    rw [isStale_of_survivingRole_eq_some hrole, hall r hr]
    simp

/-- The second pass keeps tasks that are maintained. -/
theorem Maintained.filter_eq (h : Maintained tasks row.id state actor) :
    (tasks.rows.filter fun r => !(r.val.invoice == row.id && isStale state r.val)) =
      tasks.rows := by
  refine List.filter_eq_self.mpr fun r hr => ?_
  by_cases hinvoice : r.val.invoice = row.id
  · have hown : r ∈ findByInvoice tasks row.id := Table.mem_select.mpr ⟨hr, by simp [hinvoice]⟩
    simp [h.not_isStale hown]
  · simp [hinvoice]

/-- The first pass where no task has the role. -/
theorem rows_assignTask_of_nil (h : findByInvoiceAndRole tasks invoice role = []) :
    (assignTask tasks invoice role actor).rows =
      tasks.rows ++ [⟨tasks.nextId, invoice, some role, actor⟩] := by
  unfold assignTask findOrCreateAssigned findOrCreate
  rw [h]
  cases actor with
  | none => rfl
  | some person => exact Table.rows_insert_modify _ _ _

/-- The first pass where the actor, if one is given, has the first task of the role. -/
theorem rows_assignTask_of_cons {task : Row SimpleInvoiceTask} {rest : List (Row SimpleInvoiceTask)}
    (h : findByInvoiceAndRole tasks invoice role = task :: rest)
    (hactor : actor.isSome → task.val.assignedTo = actor) :
    (assignTask tasks invoice role actor).rows = tasks.rows := by
  unfold assignTask findOrCreateAssigned findOrCreate
  rw [h]
  split
  · rename_i hsome
    have hmem : task ∈ findByInvoiceAndRole tasks invoice role := h ▸ List.mem_cons_self
    refine Table.rows_modify_eq_self fun r hr hid => ?_
    rw [Table.eq_of_id hr (Table.mem_select.mp hmem).1 hid, setAssignedTo, ← hactor hsome]
  · rfl

/-- **A fixed point**: tasks that are maintained already are left as they are. -/
theorem rows_maintainTasksFor_of_maintained (hs : row.val.invoiceState = some state)
    (h : maintainTasksFor tasks row actor = .ok tasks')
    (hm : Maintained tasks row.id state actor) : tasks'.rows = tasks.rows := by
  rw [maintainTasksFor_eq hs] at h
  cases h
  rw [rows_cleanUpTasksFor hs]
  have hfilter := hm.filter_eq
  unfold Maintained at hm
  cases hsurvive : survivingRole state with
  | none =>
    simp only [hsurvive] at hm
    cases hrole : state.hasTaskFor with
    | none => exact hfilter
    | some role =>
      -- the task just created is removed again
      have hnone : findByInvoiceAndRole tasks row.id role = [] := by
        rw [findByInvoiceAndRole_eq, hm, List.filter_nil]
      dsimp only
      rw [rows_assignTask_of_nil hnone, List.filter_append, hfilter]
      simp [isStale_of_survivingRole_eq_none hsurvive]
  | some role =>
    simp only [hsurvive] at hm
    obtain ⟨task, rest, hcons, hall, hactor⟩ := hm
    have hfound : findByInvoiceAndRole tasks row.id role = task :: rest := by
      rw [findByInvoiceAndRole_eq, hcons]
      exact List.filter_eq_self.mpr fun r hr => by simp [hall r hr]
    rw [hasTaskFor_of_survivingRole hsurvive]
    dsimp only
    rw [rows_assignTask_of_cons hfound hactor, hfilter]

/-- Without an actor, tasks that fit the state are left as they are. -/
theorem rows_maintainTasksFor (hs : row.val.invoiceState = some state)
    (h : maintainTasksFor tasks row none = .ok tasks') (hfit : TasksFit tasks row.id state) :
    tasks'.rows = tasks.rows :=
  rows_maintainTasksFor_of_maintained hs h hfit.maintained

/-! ## On any store -/

/-- **`maintainTasksFor` on any store**, whatever tasks it holds: those of other invoices stay, the
invoice keeps its tasks of the state's role or gets a new one, and a second call changes nothing. -/
theorem maintainTasksFor_of_state (tasks : Table SimpleInvoiceTask) (actor : Option Person)
    (hs : row.val.invoiceState = some state) :
    ∃ tasks', maintainTasksFor tasks row actor = .ok tasks' ∧
      (tasks'.select fun task => task.invoice != row.id) =
        (tasks.select fun task => task.invoice != row.id) ∧
      (state ≠ .NEW → state ≠ .COMPLETED → findByInvoice tasks' row.id = []) ∧
      (state = .NEW ∨ state = .COMPLETED →
        let previous := (findByInvoice tasks row.id).filter fun task =>
          task.val.assignedToRole == state.hasTaskFor
        (previous ≠ [] → findByInvoice tasks' row.id = assignFirst actor previous) ∧
        (previous = [] → ∃ id, (∀ task ∈ tasks.rows, task.id ≠ id) ∧
          findByInvoice tasks' row.id = [⟨id, row.id, state.hasTaskFor, actor⟩])) ∧
      ∃ tasks'', maintainTasksFor tasks' row actor = .ok tasks'' ∧ tasks''.rows = tasks'.rows := by
  obtain ⟨tasks', h⟩ : ∃ tasks', maintainTasksFor tasks row actor = .ok tasks' :=
    ⟨_, maintainTasksFor_eq hs⟩
  obtain ⟨tasks'', hagain⟩ : ∃ tasks'', maintainTasksFor tasks' row actor = .ok tasks'' :=
    ⟨_, maintainTasksFor_eq hs⟩
  have hown := findByInvoice_maintainTasksFor hs h
  refine ⟨tasks', h, select_maintainTasksFor hs h fun task htask => by simp [htask],
    fun hnew hcompleted => ?_, fun hrole => ?_, _, hagain,
    rows_maintainTasksFor_of_maintained hs hagain (maintained_of_maintainTasksFor hs h)⟩
  · have hnone : survivingRole state = none := if_neg (by simp [hnew, hcompleted])
    rw [hown, hnone]
  · obtain ⟨role, hsurvive⟩ : ∃ role, survivingRole state = some role := by
      rcases hrole with rfl | rfl
      · exact ⟨.ADMINISTRATOR, rfl⟩
      · exact ⟨.MANAGER, rfl⟩
    have hfound : ((findByInvoice tasks row.id).filter fun task =>
        task.val.assignedToRole == state.hasTaskFor) = findByInvoiceAndRole tasks row.id role := by
      rw [findByInvoiceAndRole_eq, hasTaskFor_of_survivingRole hsurvive]
    rw [hown, hsurvive, hfound, hasTaskFor_of_survivingRole hsurvive]
    dsimp only [foundOrCreated]
    refine ⟨fun hsome => ?_, fun hnone => ⟨tasks.nextId, fun task htask => ?_, ?_⟩⟩
    · split
      · rename_i hnil
        exact absurd hnil hsome
      · rfl
    · exact Nat.ne_of_lt (tasks.ids_lt task htask)
    · simp only [hnone, assignFirst, create]
      cases actor <;> rfl

/-- Tasks of two invoices, with duplicates and a task without a role. -/
def messyTasks : Table SimpleInvoiceTask :=
  ((((Table.empty.insert ⟨0, some .MANAGER, some .OSCAR⟩).insert
    ⟨1, some .ADMINISTRATOR, none⟩).insert ⟨0, some .ADMINISTRATOR, none⟩).insert
    ⟨0, none, some .PASCAL⟩).insert ⟨0, some .ADMINISTRATOR, some .JEANNE⟩

theorem maintainTasksFor_of_messyTasks :
    ∃ tasks', maintainTasksFor messyTasks
        ⟨0, { SimpleInvoice.create "I-1" with invoiceState := some .NEW }⟩ (some .CATHERINE) =
          .ok tasks' ∧
      findByInvoice tasks' 0 = [⟨2, 0, some .ADMINISTRATOR, some .CATHERINE⟩,
        ⟨4, 0, some .ADMINISTRATOR, some .JEANNE⟩] := by
  obtain ⟨tasks', hok, -, -, hown, -⟩ := @maintainTasksFor_of_state
    ⟨0, { SimpleInvoice.create "I-1" with invoiceState := some .NEW }⟩ .NEW messyTasks
    (some .CATHERINE) rfl
  exact ⟨tasks', hok, (hown (Or.inl rfl)).1 (by decide)⟩

end SimpleInvoiceTaskService

end WorkflowSketch
