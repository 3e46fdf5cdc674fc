import WorkflowSketch.Lib.Table
import WorkflowSketch.Lib.Transact
import WorkflowSketch.SimpleObject.Slide

/-!
# Simple objects and their tasks (`SimpleTask…`, `SimpleSubscriber.java`)

Any number of objects over one store of tasks: `SimpleObjects.create`, `updateName` with its
event, edits of the notes, and `tryToTransition`, which slides without the task service.

* `fitsColumns`, `isUnique`: the constraints that the annotations of `SimpleObject` declare; a
  write that violates one fails as a whole.
* `Framework`: which exceptions the datastore and the wrapper throw. The results hold for any.
* `SimpleTask.applicableForStates` names a state of the other enumeration, so that no task is ever
  applicable and `cleanUpTasksFor` removes what `findOrCreate` has just created.

Results:

* **`rows_maintainTasksFor`**: maintaining the tasks of an object removes all of them.
* **`tasksFollow_iff_of_run`**: the tasks follow the states exactly in those runs that bring no
  object into `NEW`.
-/

namespace WorkflowSketch

open Lib Lib.Transact

/-- The framework, as far as the actions on simple objects rely on it; `ε` are its exceptions. -/
structure Framework (ε : Type*) where
  /-- An exception of the code itself, as it leaves the action. -/
  runtimeException : RuntimeException → ε
  /-- What the datastore throws for a string that is longer than its column. -/
  tooLong : ε
  /-- What it throws for a name that another object has (`SimpleObject_name_UNQ`). -/
  notUnique : ε
  /-- What it throws for the removal of an object that a task still refers to. -/
  referenced : ε
  /-- What `wrapperFactory.wrap` throws for an argument that the action refuses. -/
  invalid : ε

/-- The exceptions of JDO, and those of the wrapper. -/
def Framework.isis : Framework WrappedException where
  runtimeException := .runtimeException
  tooLong := .runtimeException .jdoFatalUserException
  notUnique := .runtimeException .jdoDataStoreException
  referenced := .runtimeException .jdoDataStoreException
  invalid := .invalidException

/-- `SimpleTask`; `simpleObject` is the identity of the object it is attached to. -/
structure SimpleTask where
  simpleObject : Nat
  deriving DecidableEq, Repr

/-- `SimpleTask.applicableForStates`: the `NEW` of `SimpleInvoiceState`. -/
def SimpleTask.applicableForStates (_ : SimpleTask) : List WorkFlowState :=
  [.simpleInvoiceState .NEW]

namespace SimpleTaskRepository

/-- `findByObject`: `simpleObject == :simpleObject`. -/
def findByObject (tasks : Table SimpleTask) (object : Nat) : List (Row SimpleTask) :=
  tasks.select fun task => task.simpleObject == object

/-- `create`: the store with the new task, and the task. -/
def create (tasks : Table SimpleTask) (object : Nat) : Table SimpleTask × Row SimpleTask :=
  let simpleTask : SimpleTask := { simpleObject := object }
  (tasks.insert simpleTask, ⟨tasks.nextId, simpleTask⟩)

/-- `findOrCreate`. -/
def findOrCreate (tasks : Table SimpleTask) (object : Nat) : Table SimpleTask × Row SimpleTask :=
  match findByObject tasks object with
  | [] => create tasks object
  | simpleTask :: _ => (tasks, simpleTask)

end SimpleTaskRepository

namespace SimpleTaskService

open SimpleTaskRepository

/-- `cleanUpTasksFor`. -/
def cleanUpTasksFor (tasks : Table SimpleTask) (object : Row SimpleObject) : Table SimpleTask :=
  tasks.deleteEach (findByObject tasks object.id) fun task =>
    match object.val.state with
    | none => false
    | some state => !task.val.applicableForStates.contains (.simpleState state)

/-- `maintainTasksFor`, which ignores its actor. -/
def maintainTasksFor (tasks : Table SimpleTask) (object : Row SimpleObject) :
    Except RuntimeException (Table SimpleTask) :=
  match object.val.state with
  | none => .error .nullPointerException
  | some state =>
    let tasks := if state.hasTaskFor.isSome then (findOrCreate tasks object.id).1 else tasks
    .ok (cleanUpTasksFor tasks object)

/-- **Maintaining the tasks of an object removes all of them**, and leaves those of the others. -/
theorem rows_maintainTasksFor {tasks tasks' : Table SimpleTask} {object : Row SimpleObject}
    (h : maintainTasksFor tasks object = .ok tasks') :
    tasks'.rows = tasks.rows.filter fun task => task.val.simpleObject != object.id := by
  cases hs : object.val.state with
  | none => simp only [maintainTasksFor, hs] at h; exact absurd h (by simp)
  | some state =>
    simp only [maintainTasksFor, hs] at h
    cases h
    have hclean : ∀ t : Table SimpleTask, (cleanUpTasksFor t object).rows =
        t.rows.filter fun task => task.val.simpleObject != object.id := by
      intro t
      unfold cleanUpTasksFor findByObject
      rw [hs, Table.rows_deleteEach_select]
      refine List.filter_congr fun task _ => ?_
      simp [SimpleTask.applicableForStates, bne]
    rw [hclean]
    split
    · unfold findOrCreate
      split
      · simp [create, List.filter_append]
      · rfl
    · rfl

end SimpleTaskService

namespace SimpleObject

open SimpleTaskRepository SimpleTaskService

/-! ## The subscriber and the actions -/

/-- `SimpleObject.NameUpdated`; its source is the object the action is called on. -/
structure NameUpdated where
  eventPhase : Phase
  deriving DecidableEq, Repr

/-- `SimpleSubscriber.onNameUpdatedEvent`, on its source and the store of tasks. -/
def onNameUpdatedEvent (e : NameUpdated) (object : Row SimpleObject) (tasks : Table SimpleTask) :
    Except RuntimeException (Row SimpleObject × Table SimpleTask) :=
  if e.eventPhase.isExecuted then do
    let slid ← SimpleWorkFlowStateMachine.transition object.val
    let object := { object with val := slid }
    let tasks ← maintainTasksFor tasks object
    return (object, tasks)
  else return (object, tasks)

/-- The stored objects and tasks. -/
structure Store where
  objects : Table SimpleObject
  tasks : Table SimpleTask

/-- `SimpleObjects.create`, or an action or an edit on a stored object. -/
inductive StoreAction where
  | create (name : JavaString)
  | updateName (object : Nat) (name : JavaString)
  | setNotes (object : Nat) (notes : Option JavaString)
  | tryToTransition (object : Nat)
  deriving DecidableEq, Repr

/-- `@Column(length = 40)` of the name and `@Column(length = 4000)` of the notes. -/
def fitsColumns (object : SimpleObject) : Bool :=
  decide (object.name.length ≤ 40) && object.notes.all fun notes => decide (notes.length ≤ 4000)

namespace Store

/-- Nothing is stored yet. -/
def empty : Store := ⟨Table.empty, Table.empty⟩

/-- `SimpleObject_name_UNQ`: no other object has the name. -/
def isUnique (store : Store) (id : Nat) (name : JavaString) : Bool :=
  store.objects.rows.all fun row => row.id == id || row.val.name != name

/-- The action is accepted: `updateName` by its validation and its `maxLength`. The empty name is
offered too, although the framework may refuse it for a mandatory parameter. -/
def isEnabled (store : Store) : StoreAction → Bool
  | .create _ => true
  | .updateName object name =>
    (store.objects.get? object).isSome && (validate0UpdateName name).isNone &&
      decide (name.length ≤ 40)
  | .setNotes object _ => (store.objects.get? object).isSome
  | .tryToTransition object => (store.objects.get? object).isSome

variable {ε : Type*} (framework : Framework ε)

/-- The declared constraints on what is to be written. Where they hold of all that is stored, an
action violates one of them at most, so the order of the checks makes no difference. -/
def checkConstraints (store : Store) (object : Row SimpleObject) : Except ε Unit :=
  if object.val.fitsColumns then
    if store.isUnique object.id object.val.name then .ok () else .error framework.notUnique
  else .error framework.tooLong

/-- Write an object back, under the declared constraints. -/
def write (store : Store) (object : Row SimpleObject) (tasks : Table SimpleTask) :
    Except ε Store :=
  (store.checkConstraints framework object).map fun _ =>
    ⟨store.objects.modify object.id fun _ => object.val, tasks⟩

/-- The action with its event, if it has one, and what the datastore makes of it. -/
def perform (store : Store) : StoreAction → Except ε Store
  | .create name =>
    let object := SimpleObject.create name
    (store.checkConstraints framework ⟨store.objects.nextId, object⟩).map fun _ =>
      { store with objects := store.objects.insert object }
  | .updateName object name =>
    match store.objects.get? object with
    | none => return store
    | some row => do
      let (row, tasks) ←
        (onNameUpdatedEvent ⟨.EXECUTING⟩ row store.tasks).mapError framework.runtimeException
      let row := { row with val := row.val.updateName name }
      let (row, tasks) ←
        (onNameUpdatedEvent ⟨.EXECUTED⟩ row tasks).mapError framework.runtimeException
      store.write framework row tasks
  | .setNotes object notes =>
    match store.objects.get? object with
    | none => return store
    | some row => store.write framework { row with val := row.val.setNotes notes } store.tasks
  | .tryToTransition object =>
    match store.objects.get? object with
    | none => return store
    | some row => do
      let slid ←
        (SimpleWorkFlowStateMachine.transition row.val).mapError framework.runtimeException
      store.write framework { row with val := slid } store.tasks

end Store

variable {ε : Type*} (framework : Framework ε)

/-- **The workflows of all objects.** -/
def SimpleObjectSystem : System Store StoreAction ε where
  enabled := Store.isEnabled
  perform := Store.perform framework

/-! ## What a step can do -/

variable {framework} {store store' : Store} {action : StoreAction} {tr : Trace Store StoreAction}

theorem Store.checkConstraints_eq_ok_iff {object : Row SimpleObject} {u : Unit} :
    store.checkConstraints framework object = .ok u ↔
      object.val.fitsColumns = true ∧ store.isUnique object.id object.val.name = true := by
  unfold Store.checkConstraints
  cases object.val.fitsColumns <;> cases store.isUnique object.id object.val.name <;> simp

theorem Store.write_eq_ok_iff {object : Row SimpleObject} {tasks : Table SimpleTask} :
    store.write framework object tasks = .ok store' ↔
      object.val.fitsColumns = true ∧ store.isUnique object.id object.val.name = true ∧
        store' = ⟨store.objects.modify object.id fun _ => object.val, tasks⟩ := by
  rw [Store.write, map_eq_ok_iff]
  constructor
  · rintro ⟨_, hcheck, rfl⟩
    obtain ⟨hfits, hunique⟩ := Store.checkConstraints_eq_ok_iff.mp hcheck
    exact ⟨hfits, hunique, rfl⟩
  · rintro ⟨hfits, hunique, rfl⟩
    exact ⟨(), Store.checkConstraints_eq_ok_iff.mpr ⟨hfits, hunique⟩, rfl⟩

/-- `updateName` as a whole: the slide, the tasks, and what is written back. -/
theorem Store.perform_updateName {row : Row SimpleObject} (hrow : row ∈ store.objects.rows)
    (name : JavaString) :
    ∃ tasks, maintainTasksFor store.tasks ⟨row.id, (row.val.updateName name).slid⟩ = .ok tasks ∧
      store.perform framework (.updateName row.id name) =
        store.write framework ⟨row.id, (row.val.updateName name).slid⟩ tasks := by
  have hget : store.objects.get? row.id = some row := Table.get?_eq_some_iff.mpr ⟨hrow, rfl⟩
  obtain ⟨tasks, htasks⟩ : ∃ tasks,
      maintainTasksFor store.tasks ⟨row.id, (row.val.updateName name).slid⟩ = .ok tasks :=
    ⟨_, rfl⟩
  refine ⟨tasks, htasks, ?_⟩
  simp only [Store.perform, hget, onNameUpdatedEvent, Phase.isExecuted, transition_eq, bind,
    Except.bind, pure, Except.pure, Except.mapError, if_true, Bool.false_eq_true, if_false, htasks]

/-- **Everything a committed step can have done**, and the constraints it met. -/
theorem perform_cases (hen : store.isEnabled action = true)
    (h : store.perform framework action = .ok store') :
    (∃ name, action = .create name ∧ (create name).fitsColumns = true ∧
      store' = { store with objects := store.objects.insert (create name) }) ∨
    ∃ row object, row ∈ store.objects.rows ∧ object.fitsColumns = true ∧
      store'.objects = (store.objects.modify row.id fun _ => object) ∧
      ((∃ notes, action = .setNotes row.id notes ∧ object = row.val.setNotes notes ∧
          store'.tasks = store.tasks) ∨
        (∃ name, action = .updateName row.id name ∧ object = (row.val.updateName name).slid ∧
          maintainTasksFor store.tasks ⟨row.id, object⟩ = .ok store'.tasks) ∨
        (action = .tryToTransition row.id ∧ object = row.val.slid ∧
          store'.tasks = store.tasks)) := by
  cases action with
  | create name =>
    obtain ⟨_, hcheck, rfl⟩ := map_eq_ok_iff.mp h
    exact Or.inl ⟨name, rfl, (Store.checkConstraints_eq_ok_iff.mp hcheck).1, rfl⟩
  | updateName object name =>
    simp only [Store.isEnabled, Bool.and_eq_true] at hen
    obtain ⟨row, hget⟩ := Option.isSome_iff_exists.mp hen.1.1
    obtain ⟨hrow, rfl⟩ := Table.get?_eq_some_iff.mp hget
    obtain ⟨tasks, htasks, hwrite⟩ := Store.perform_updateName hrow name
    rw [hwrite] at h
    obtain ⟨hfits, -, rfl⟩ := Store.write_eq_ok_iff.mp h
    exact Or.inr ⟨row, _, hrow, hfits, rfl, Or.inr (Or.inl ⟨name, rfl, rfl, htasks⟩)⟩
  | setNotes object notes =>
    obtain ⟨row, hget⟩ := Option.isSome_iff_exists.mp hen
    obtain ⟨hrow, rfl⟩ := Table.get?_eq_some_iff.mp hget
    simp only [Store.perform, hget] at h
    obtain ⟨hfits, -, rfl⟩ := Store.write_eq_ok_iff.mp h
    exact Or.inr ⟨row, _, hrow, hfits, rfl, Or.inl ⟨notes, rfl, rfl, rfl⟩⟩
  | tryToTransition object =>
    obtain ⟨row, hget⟩ := Option.isSome_iff_exists.mp hen
    obtain ⟨hrow, rfl⟩ := Table.get?_eq_some_iff.mp hget
    simp only [Store.perform, hget, transition_eq, bind, Except.bind] at h
    obtain ⟨hfits, -, rfl⟩ := Store.write_eq_ok_iff.mp h
    exact Or.inr ⟨row, _, hrow, hfits, rfl, Or.inr (Or.inr ⟨rfl, rfl, rfl⟩)⟩

/-! ## The tasks follow the states -/

/-- Each object has one task if its state calls for a task, and none otherwise. -/
def TasksFollow (store : Store) : Prop :=
  ∀ row ∈ store.objects.rows, ∀ s, row.val.state = some s →
    if s.hasTaskFor.isSome then ∃ task, findByObject store.tasks row.id = [task]
    else findByObject store.tasks row.id = []

/-- No object is in `NEW`. -/
def NoNew (store : Store) : Prop :=
  ∀ row ∈ store.objects.rows, row.val.state ≠ some .NEW

/-- The step slides an object on which the slide ends in `NEW`. -/
def leadsToNew (step : Store × StoreAction) : Bool :=
  match step.2 with
  | .updateName object name =>
    (step.1.objects.get? object).any fun row => decide (row.val.updateName name).EndsNew
  | .tryToTransition object =>
    (step.1.objects.get? object).any fun row => decide row.val.EndsNew
  | _ => false

/-- No task outlives the step that creates it. -/
theorem tasks_eq_nil_of_perform (hen : store.isEnabled action = true)
    (h : store.perform framework action = .ok store') (hnil : store.tasks.rows = []) :
    store'.tasks.rows = [] := by
  rcases perform_cases hen h with ⟨name, -, -, rfl⟩ | ⟨row, object, -, -, -, hcase⟩
  · exact hnil
  · rcases hcase with ⟨notes, -, -, htasks⟩ | ⟨name, -, -, htasks⟩ | ⟨-, -, htasks⟩
    · rw [htasks]; exact hnil
    · rw [rows_maintainTasksFor htasks, hnil]; rfl
    · rw [htasks]; exact hnil

theorem tasksFollow_iff (hnil : store.tasks.rows = []) : TasksFollow store ↔ NoNew store := by
  have hnone : ∀ id, findByObject store.tasks id = [] := by
    intro id
    rw [findByObject, Table.select, hnil]
    rfl
  constructor
  · intro h row hrow hs
    have hone := h row hrow .NEW hs
    rw [hnone] at hone
    exact absurd hone (by simp [SimpleState.hasTaskFor])
  · intro h row hrow s hs
    have hrole : s.hasTaskFor.isSome = false := by
      cases s with
      | NEW => exact absurd hs (h row hrow)
      | _ => rfl
    rw [hrole, if_neg (by simp)]
    exact hnone row.id

/-- Writing one object brings one into `NEW` exactly if that one is. -/
theorem noNew_modify {row : Row SimpleObject} {object : SimpleObject} {tasks : Table SimpleTask}
    (hrow : row ∈ store.objects.rows) (h : NoNew store) :
    NoNew ⟨store.objects.modify row.id fun _ => object, tasks⟩ ↔ object.state ≠ some .NEW := by
  unfold NoNew
  rw [Table.rows_modify, List.forall_mem_map]
  constructor
  · intro hall
    simpa using hall row hrow
  · intro hobject r hr
    split
    · exact hobject
    · exact h r hr

/-- **One step** from where no object is in `NEW`. -/
theorem noNew_perform (hen : store.isEnabled action = true)
    (h : store.perform framework action = .ok store') (hnew : NoNew store) :
    NoNew store' ↔ leadsToNew (store, action) = false := by
  rcases perform_cases hen h with ⟨name, rfl, -, rfl⟩ | ⟨row, object, hrow, -, hobjects, hcase⟩
  · refine iff_of_true (Table.forall_mem_insert_iff.mpr ⟨hnew, ?_⟩) rfl
    simp [create]
  · have hget : store.objects.get? row.id = some row := Table.get?_eq_some_iff.mpr ⟨hrow, rfl⟩
    have hstore : store' = ⟨store.objects.modify row.id fun _ => object, store'.tasks⟩ := by
      rw [← hobjects]
    rw [hstore, noNew_modify hrow hnew]
    rcases hcase with ⟨notes, rfl, rfl, -⟩ | ⟨name, rfl, rfl, -⟩ | ⟨rfl, rfl, -⟩
    · exact iff_of_true (hnew row hrow) rfl
    · simp [leadsToNew, hget, slid, settled_eq_NEW_iff]
    · simp [leadsToNew, hget, slid, settled_eq_NEW_iff]

/-- **When the tasks follow the states**: in every configuration of a run, exactly if no step of it
slides an object into `NEW`. -/
theorem tasksFollow_iff_of_run (h : Run (SimpleObjectSystem framework) .empty tr store) :
    (∀ s ∈ visited tr store, TasksFollow s) ↔ ∀ step ∈ tr, leadsToNew step = false := by
  have hinv : store.tasks.rows = [] ∧ (∀ s ∈ visited tr store, s.tasks.rows = []) ∧
      ((∀ s ∈ visited tr store, NoNew s) ↔ ∀ step ∈ tr, leadsToNew step = false) := by
    refine h.keepTrace (P := fun tr store => store.tasks.rows = [] ∧
      (∀ s ∈ visited tr store, s.tasks.rows = []) ∧
      ((∀ s ∈ visited tr store, NoNew s) ↔ ∀ step ∈ tr, leadsToNew step = false)) ?_ ?_
    · intro tr store action store' ⟨hnil, hvisited, hiff⟩ hen hok
      have hnil' := tasks_eq_nil_of_perform hen hok hnil
      refine ⟨hnil', forall_visited_concat.mpr ⟨hvisited, hnil'⟩, ?_⟩
      rw [forall_visited_concat, List.forall_mem_append, List.forall_mem_singleton, ← hiff]
      refine and_congr_right fun hnew => ?_
      exact noNew_perform hen hok (hnew store (by simp [visited]))
    · simp [visited, Store.empty, NoNew]
  rw [← hinv.2.2]
  exact forall₂_congr fun s hs => tasksFollow_iff (hinv.2.1 s hs)

/-- An object whose name is updated while it is short. -/
def shortName : List StoreAction :=
  [.create (.ofAscii ['F', 'o', 'o']), .updateName 0 (.ofAscii ['B', 'a', 'r'])]

/-- A new object lacks the task that its state calls for. -/
theorem not_tasksFollow_of_shortName :
    ¬ ∀ (store : Store) (tr : Trace Store StoreAction),
      Run (SimpleObjectSystem .isis) .empty tr store → TasksFollow store := by
  intro h
  have hrun := run_exec (S := SimpleObjectSystem .isis) (s := .empty) (l := shortName) (by decide)
  have hone := h _ _ hrun ⟨0, ⟨.ofAscii ['B', 'a', 'r'], none, some .NEW⟩⟩ (by decide) .NEW rfl
  obtain ⟨task, hone⟩ := hone
  have hlength : (findByObject _ _).length = 1 := congrArg List.length hone
  exact absurd hlength (by decide)

/-- An object is discarded, and another one completed by a long name. -/
def discardedAndCompleted : List StoreAction :=
  [.create (.ofAscii ['F', 'o', 'o']), .setNotes 0 (some discardWord),
    .updateName 0 (.ofAscii ['B', 'a', 'r']), .tryToTransition 0,
    .create (discardWord ++ reviveWord), .tryToTransition 1]

theorem tasksFollow_of_discardedAndCompleted :
    TasksFollow
      ((exec (SimpleObjectSystem .isis) .empty discardedAndCompleted).get (by decide)).2 :=
  (tasksFollow_iff_of_run (run_exec (by decide))).mpr (by decide) _
    (List.mem_append_right _ (List.mem_singleton.mpr rfl))

end SimpleObject

end WorkflowSketch
