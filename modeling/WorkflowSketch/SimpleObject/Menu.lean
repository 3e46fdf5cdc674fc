import WorkflowSketch.SimpleObject.Task

/-!
# The menu of simple objects (`SimpleObjects.java`), and deleting one (`SimpleObject.java`)

The queries of the menu, and everything a user can do: create, edit and slide an object, perform a
task, and delete an object. `delete` itself removes the object only; its tasks are removed by the
subscriber, before the body of the action and once more after it.

* `TypesafeQuery`: what `findByNameExact` relies on of the query it builds. Like `Framework`, it is
  a parameter, and the results hold for any.
* `Store.Consistent`: the constraints that the annotations declare, on all that is stored.
  `consistent_of_userRun`: they hold in every run from where they do.

Results, in every store that is reached from a consistent one:

* **`findByNameExact_of_userRun`**: the name finds the one object that has it.
* **`failure_of_userRun`**: which actions fail, and with what.
* **`delete_of_userRun`**: deleting an object always goes through, takes its tasks along and
  nothing else, and frees its name.
-/

namespace WorkflowSketch

open Lib Lib.Transact

/-- `String.indexOf`: where `t` first occurs in `s`, and `-1` if it does not. -/
def JavaString.indexOf (s t : JavaString) : Int :=
  match s.tails.findIdx? fun rest => t.isPrefixOf rest with
  | some i => i
  | none => -1

/-- `TypesafeQuery`, as far as `findByNameExact` relies on it; `ε` are its exceptions. -/
structure TypesafeQuery (ε : Type*) where
  /-- The one instance that the filter lets through: null if there is none. -/
  executeUnique : List (Row SimpleObject) → Except ε (Option (Row SimpleObject))
  executeUnique_nil : executeUnique [] = .ok none
  executeUnique_singleton : ∀ object, executeUnique [object] = .ok (some object)

theorem JavaString.indexOf_ne_iff {s t : JavaString} : s.indexOf t ≠ -1 ↔ t <:+: s := by
  have hnone : s.tails.findIdx? (fun rest => t.isPrefixOf rest) = none ↔ ¬ t <:+: s := by
    rw [List.findIdx?_eq_none_iff, List.infix_iff_prefix_suffix]
    simp only [List.mem_tails, List.isPrefixOf_iff_prefix, Bool.eq_false_iff, ne_eq, not_exists,
      not_and]
    exact forall_congr' fun rest => ⟨fun h hp hs => h hs hp, fun h hs hp => h hp hs⟩
  unfold JavaString.indexOf
  cases hfind : s.tails.findIdx? fun rest => t.isPrefixOf rest with
  | none => simpa using hnone.mp hfind
  | some i =>
    refine iff_of_true (by simp only [ne_eq]; omega) (not_not.mp fun h => ?_)
    rw [hnone.mpr h] at hfind
    exact absurd hfind (by simp)

namespace SimpleObjects

/-- `listAll`: all instances. -/
def listAll (objects : Table SimpleObject) : List (Row SimpleObject) := objects.rows

/-- `findByName`: `name.indexOf(:name) != -1`. -/
def findByName (objects : Table SimpleObject) (name : JavaString) : List (Row SimpleObject) :=
  objects.select fun object => object.name.indexOf name != -1

/-- `findByNameExact`: `name == :name`. -/
def findByNameExact {ε : Type*} (typesafeQuery : TypesafeQuery ε) (objects : Table SimpleObject)
    (name : JavaString) : Except ε (Option (Row SimpleObject)) :=
  typesafeQuery.executeUnique (objects.select fun object => object.name == name)

end SimpleObjects

namespace SimpleObject

open SimpleTaskRepository SimpleTaskService SimpleObjects

/-! ## Deleting an object -/

/-- `SimpleObject.DeleteEvent`; its source is the object the action is called on. -/
structure DeleteEvent where
  eventPhase : Phase
  deriving DecidableEq, Repr

/-- `SimpleSubscriber.onDeleteEvent`, on its source and the store of tasks. -/
def onDeleteEvent (e : DeleteEvent) (object : Nat) (tasks : Table SimpleTask) : Table SimpleTask :=
  if e.eventPhase.isExecutingOrLater then
    tasks.deleteEach (findByObject tasks object) fun _ => true
  else tasks

section Framework

variable {ε : Type*} (framework : Framework ε)

/-- `repositoryService.remove`: the tasks refer to their object, which no null may replace. -/
def Store.remove (store : Store) (object : Nat) : Except ε Store :=
  if (findByObject store.tasks object).isEmpty then
    .ok { store with objects := store.objects.delete object }
  else .error framework.referenced

/-- `SimpleObject.delete`, with the events around it. -/
def Store.delete (store : Store) (object : Nat) : Except ε Store := do
  let store := { store with tasks := onDeleteEvent ⟨.EXECUTING⟩ object store.tasks }
  let store ← store.remove framework object
  return { store with tasks := onDeleteEvent ⟨.EXECUTED⟩ object store.tasks }

/-- What a user does. -/
inductive UserAction where
  | onObjects (action : StoreAction)
  | delete (object : Nat)
  | perform (task : Nat)
  deriving DecidableEq, Repr

namespace UserAction

/-- The action is offered: on an object or a task, if that is stored. -/
def isEnabled (store : Store) : UserAction → Bool
  | onObjects action => store.isEnabled action
  | delete object => (store.objects.get? object).isSome
  | perform task => (store.tasks.get? task).isSome

/-- The action with its events, and what the datastore makes of it. -/
def act (store : Store) : UserAction → Except ε Store
  | onObjects action => store.perform framework action
  | delete object => store.delete framework object
  | perform task =>
    match store.tasks.get? task with
    | none => .ok store
    | some row => row.val.perform framework store

end UserAction

/-- **All objects, with their tasks.** -/
def SimpleObjectUserSystem : System Store UserAction ε where
  enabled := UserAction.isEnabled
  perform := UserAction.act framework

end Framework

/-! ## What a step can do -/

variable {ε : Type*} {framework : Framework ε} {store store' s₀ : Store} {action : UserAction}
  {tr : Trace Store UserAction}

theorem Store.isUnique_iff {id : Nat} {name : JavaString} :
    store.isUnique id name = true ↔ ∀ row ∈ store.objects.rows, row.val.name = name →
      row.id = id := by
  simp only [Store.isUnique, List.all_eq_true, Bool.or_eq_true, beq_iff_eq, bne_iff_ne]
  exact forall₂_congr fun row _ => by rw [or_iff_not_imp_right, not_not]

/-- The tasks of the object are removed in both phases. -/
theorem rows_onDeleteEvent {e : DeleteEvent} (he : e.eventPhase.isExecutingOrLater = true)
    (object : Nat) (tasks : Table SimpleTask) :
    (onDeleteEvent e object tasks).rows =
      tasks.rows.filter fun task => task.val.simpleObject != object := by
  rw [onDeleteEvent, if_pos he, findByObject, Table.rows_deleteEach_select]
  refine List.filter_congr fun task _ => ?_
  rw [Bool.and_true]
  rfl

/-- **Deleting an object** goes through, since its tasks are removed before its body runs. -/
theorem Store.delete_eq (framework : Framework ε) (store : Store) (object : Nat) :
    ∃ tasks : Table SimpleTask,
      store.delete framework object = .ok ⟨store.objects.delete object, tasks⟩ ∧
      tasks.rows = store.tasks.rows.filter fun task => task.val.simpleObject != object := by
  have hbefore := rows_onDeleteEvent (e := ⟨.EXECUTING⟩) rfl object store.tasks
  have hnone : findByObject (onDeleteEvent ⟨.EXECUTING⟩ object store.tasks) object = [] := by
    rw [findByObject, Table.select, hbefore, List.filter_filter]
    exact List.filter_eq_nil_iff.mpr fun task _ => by simp
  refine ⟨onDeleteEvent ⟨.EXECUTED⟩ object (onDeleteEvent ⟨.EXECUTING⟩ object store.tasks), ?_, ?_⟩
  · simp only [Store.delete, Store.remove, hnone, List.isEmpty_nil, if_true, bind, Except.bind,
      pure, Except.pure]
  · rw [rows_onDeleteEvent rfl, hbefore, List.filter_filter]
    exact List.filter_congr fun task _ => Bool.and_self _

/-- An action on a stored object writes it back, slid unless only its notes are edited. -/
theorem Store.perform_eq_write {action : StoreAction} (hen : store.isEnabled action = true)
    (hcreate : ∀ name, action ≠ .create name) :
    ∃ row ∈ store.objects.rows, ∃ object tasks,
      store.perform framework action = store.write framework ⟨row.id, object⟩ tasks ∧
      ((∃ notes, action = .setNotes row.id notes ∧ object = row.val.setNotes notes ∧
          tasks = store.tasks) ∨
        (∃ name, action = .updateName row.id name ∧ name.length ≤ 40 ∧
          object = (row.val.updateName name).slid ∧ tasks.rows =
            store.tasks.rows.filter fun task => task.val.simpleObject != row.id) ∨
        (action = .tryToTransition row.id ∧ object = row.val.slid ∧ tasks = store.tasks)) := by
  cases action with
  | create name => exact absurd rfl (hcreate name)
  | updateName object name =>
    simp only [Store.isEnabled, Bool.and_eq_true, decide_eq_true_eq] at hen
    obtain ⟨row, hget⟩ := Option.isSome_iff_exists.mp hen.1.1
    obtain ⟨hrow, rfl⟩ := Table.get?_eq_some_iff.mp hget
    obtain ⟨tasks, htasks, hwrite⟩ := Store.perform_updateName hrow name
    have hrows := rows_maintainTasksFor htasks
    exact ⟨row, hrow, _, tasks, hwrite, Or.inr (Or.inl ⟨name, rfl, hen.2, rfl, hrows⟩)⟩
  | setNotes object notes =>
    obtain ⟨row, hget⟩ := Option.isSome_iff_exists.mp hen
    obtain ⟨hrow, rfl⟩ := Table.get?_eq_some_iff.mp hget
    exact ⟨row, hrow, _, _, by simp only [Store.perform, hget], Or.inl ⟨notes, rfl, rfl, rfl⟩⟩
  | tryToTransition object =>
    obtain ⟨row, hget⟩ := Option.isSome_iff_exists.mp hen
    obtain ⟨hrow, rfl⟩ := Table.get?_eq_some_iff.mp hget
    exact ⟨row, hrow, _, _,
      by simp only [Store.perform, hget, transition_eq, bind, Except.bind, Except.mapError],
      Or.inr (Or.inr ⟨rfl, rfl, rfl⟩)⟩

/-! ## The declared constraints -/

/-- The declared constraints: the columns hold the strings, no two objects have the same name
(`SimpleObject_name_UNQ`), and the object of a task is stored. -/
structure Store.Consistent (store : Store) : Prop where
  fits : ∀ row ∈ store.objects.rows, row.val.fitsColumns = true
  names : store.objects.IsKey SimpleObject.name
  attached : ∀ task ∈ store.tasks.rows, task.val.simpleObject ∈ store.objects.rows.map Row.id

theorem consistent_empty : Store.empty.Consistent where
  fits _ hrow := absurd hrow List.not_mem_nil
  names := Table.isKey_empty
  attached _ htask := absurd htask List.not_mem_nil

instance (store : Store) : Decidable store.Consistent :=
  decidable_of_iff ((∀ row ∈ store.objects.rows, row.val.fitsColumns = true) ∧
      (∀ r ∈ store.objects.rows, ∀ s ∈ store.objects.rows, r.val.name = s.val.name → r = s) ∧
      ∀ task ∈ store.tasks.rows, task.val.simpleObject ∈ store.objects.rows.map Row.id)
    ⟨fun h => ⟨h.1, h.2.1, h.2.2⟩, fun h => ⟨h.1, h.2, h.3⟩⟩

/-- Two new objects with their tasks, one of which is there twice. -/
def withTasks : Store where
  objects := (Table.empty.insert ⟨.ofAscii ['F', 'o', 'o'], none, some .NEW⟩).insert
    ⟨.ofAscii ['B', 'a'], none, some .NEW⟩
  tasks := ((Table.empty.insert ⟨0⟩).insert ⟨0⟩).insert ⟨1⟩

/-- What the body of `perform` amounts to: the wrapped `updateName` of a stored object. -/
theorem act_perform (hc : store.Consistent) {id : Nat}
    (hen : (UserAction.perform id).isEnabled store = true) :
    ∃ task ∈ store.tasks.rows, task.id = id ∧
      ∃ row ∈ store.objects.rows, row.id = task.val.simpleObject ∧
        (UserAction.perform id).act framework store =
          wrappedUpdateName framework store row.id (row.val.name ++ performedSuffix) := by
  obtain ⟨task, htask⟩ := Option.isSome_iff_exists.mp hen
  obtain ⟨hmem, hid⟩ := Table.get?_eq_some_iff.mp htask
  obtain ⟨row, hrow, hrid⟩ := List.mem_map.mp (hc.attached task hmem)
  have hget : store.objects.get? task.val.simpleObject = some row :=
    Table.get?_eq_some_iff.mpr ⟨hrow, hrid⟩
  exact ⟨task, hmem, hid, row, hrow, hrid, by
    simp only [UserAction.act, htask, SimpleTask.perform, hget]⟩

/-- **Everything a committed step can be**: a deletion, or an action on the objects, performed
directly or through a task. -/
theorem act_cases (hc : store.Consistent) (hen : action.isEnabled store = true)
    (h : action.act framework store = .ok store') :
    (∃ row ∈ store.objects.rows, action = .delete row.id ∧
      store'.objects = store.objects.delete row.id ∧ store'.tasks.rows =
        store.tasks.rows.filter fun task => task.val.simpleObject != row.id) ∨
    ∃ storeAction, store.isEnabled storeAction = true ∧
      store.perform framework storeAction = .ok store' ∧
      (action = .onObjects storeAction ∨
        ∃ task ∈ store.tasks.rows, ∃ row ∈ store.objects.rows,
          row.id = task.val.simpleObject ∧ action = .perform task.id ∧
          storeAction = .updateName row.id (row.val.name ++ performedSuffix)) := by
  cases action with
  | onObjects storeAction =>
    exact Or.inr ⟨storeAction, hen, h, Or.inl rfl⟩
  | delete object =>
    obtain ⟨row, hget⟩ := Option.isSome_iff_exists.mp hen
    obtain ⟨hrow, rfl⟩ := Table.get?_eq_some_iff.mp hget
    obtain ⟨tasks, hdelete, htasks⟩ := store.delete_eq framework row.id
    rw [UserAction.act, hdelete] at h
    cases h
    exact Or.inl ⟨row, hrow, rfl, rfl, htasks⟩
  | perform id =>
    obtain ⟨task, htask, rfl, row, hrow, hrid, hact⟩ := act_perform hc hen
    rw [hact] at h
    obtain ⟨hvalid, hlength, hok⟩ := wrappedUpdateName_eq_ok_iff.mp h
    refine Or.inr ⟨_, ?_, hok, Or.inr ⟨task, htask, row, hrow, hrid, rfl, rfl⟩⟩
    have hget : store.objects.get? row.id = some row := Table.get?_eq_some_iff.mpr ⟨hrow, rfl⟩
    simp only [Store.isEnabled, hget, hvalid, Option.isSome_some, Option.isNone_none,
      decide_eq_true hlength, Bool.and_self]

/-- The task service only removes tasks. -/
theorem tasks_subset_of_perform {action : StoreAction} (hen : store.isEnabled action = true)
    (h : store.perform framework action = .ok store') :
    ∀ task ∈ store'.tasks.rows, task ∈ store.tasks.rows := by
  rcases perform_cases hen h with ⟨name, -, -, rfl⟩ | ⟨row, object, -, -, -, hcase⟩
  · exact fun _ htask => htask
  · rcases hcase with ⟨-, -, -, htasks⟩ | ⟨-, -, -, htasks⟩ | ⟨-, -, htasks⟩
    · rw [htasks]; exact fun _ htask => htask
    · rw [rows_maintainTasksFor htasks]; exact fun _ htask => (List.mem_filter.mp htask).1
    · rw [htasks]; exact fun _ htask => htask

/-- **Every action on the objects keeps the constraints.** -/
theorem Store.Consistent.perform (hc : store.Consistent) {action : StoreAction}
    (hen : store.isEnabled action = true) (h : store.perform framework action = .ok store') :
    store'.Consistent := by
  have htasks := tasks_subset_of_perform hen h
  by_cases hcreate : ∃ name, action = .create name
  · obtain ⟨name, rfl⟩ := hcreate
    obtain ⟨_, hcheck, rfl⟩ := map_eq_ok_iff.mp h
    obtain ⟨hfits, hunique⟩ := Store.checkConstraints_eq_ok_iff.mp hcheck
    refine ⟨Table.forall_mem_insert_iff.mpr ⟨hc.fits, hfits⟩,
      Table.isKey_insert_iff.mpr ⟨hc.names, fun row hrow hname => ?_⟩, fun task htask => ?_⟩
    · have hid := Store.isUnique_iff.mp hunique row hrow hname
      exact absurd hid (Nat.ne_of_lt (store.objects.ids_lt row hrow))
    · rw [Table.rows_insert, List.map_append]
      exact List.mem_append_left _ (hc.attached task htask)
  · obtain ⟨row, hrow, object, tasks, hwrite, -⟩ :=
      Store.perform_eq_write hen fun name hname => hcreate ⟨name, hname⟩
    obtain ⟨hfits, hunique, rfl⟩ := Store.write_eq_ok_iff.mp (hwrite ▸ h)
    refine ⟨fun r hr => ?_, hc.names.modify fun r hr hne hname => ?_, fun task htask => ?_⟩
    · rw [Table.rows_modify] at hr
      obtain ⟨r₀, hr₀, rfl⟩ := List.mem_map.mp hr
      split
      · exact hfits
      · exact hc.fits r₀ hr₀
    · exact hne (Store.isUnique_iff.mp hunique r hr hname)
    · rw [Table.ids_modify]
      exact hc.attached task (htasks task htask)

/-- **Every step keeps the constraints.** -/
theorem Store.Consistent.act (hc : store.Consistent) (hen : action.isEnabled store = true)
    (h : action.act framework store = .ok store') : store'.Consistent := by
  rcases act_cases hc hen h with ⟨row, hrow, -, hobjects, htasks⟩ | ⟨_, hen', hok, -⟩
  · refine ⟨fun r hr => ?_, hobjects ▸ hc.names.delete row.id, fun task htask => ?_⟩
    · rw [hobjects] at hr
      exact hc.fits r (Table.mem_delete_iff.mp hr).1
    · rw [htasks, List.mem_filter, bne_iff_ne] at htask
      obtain ⟨r, hr, hid⟩ := List.mem_map.mp (hc.attached task htask.1)
      rw [hobjects, ← hid]
      exact List.mem_map_of_mem (Table.mem_delete_iff.mpr ⟨hr, hid ▸ htask.2⟩)
  · exact hc.perform hen' hok

theorem consistent_of_userRun (h₀ : s₀.Consistent)
    (h : Run (SimpleObjectUserSystem framework) s₀ tr store) :
    store.Consistent :=
  h.keep (fun _ _ _ hc hen hok => Store.Consistent.act hc hen hok) h₀

/-! ## Looking up by name -/

/-- **The name finds the one object that has it**, in every store reached: the query for it never
finds several, and the object is also listed under every part of its name. -/
theorem findByNameExact_of_userRun {δ : Type*} (typesafeQuery : TypesafeQuery δ)
    (h₀ : s₀.Consistent) (h : Run (SimpleObjectUserSystem framework) s₀ tr store)
    (name : JavaString) :
    ∃ found, findByNameExact typesafeQuery store.objects name = .ok found ∧
      (∀ row, found = some row ↔ row ∈ listAll store.objects ∧ row.val.name = name) ∧
      ∀ part, part <:+: name → ∀ row ∈ found, row ∈ findByName store.objects part := by
  have hc := consistent_of_userRun h₀ h
  have hselect := hc.names.select_eq name
  have hmem : ∀ row, (store.objects.rows.find? fun r => r.val.name == name) = some row ↔
      row ∈ listAll store.objects ∧ row.val.name = name := by
    intro row
    have hin : row ∈ (store.objects.select fun r => r.name == name) ↔
        row ∈ listAll store.objects ∧ row.val.name = name := by
      rw [Table.mem_select, beq_iff_eq]
      rfl
    rw [← hin, hselect, Option.mem_toList]
  refine ⟨store.objects.rows.find? fun r => r.val.name == name, ?_, hmem,
    fun part hpart row hrow => ?_⟩
  · rw [findByNameExact, hselect]
    cases store.objects.rows.find? fun r => r.val.name == name with
    | none => exact typesafeQuery.executeUnique_nil
    | some row => exact typesafeQuery.executeUnique_singleton row
  · obtain ⟨hin, hname⟩ := (hmem row).mp hrow
    rw [findByName, Table.mem_select, bne_iff_ne, JavaString.indexOf_ne_iff, hname]
    exact ⟨hin, hpart⟩

/-- A query whose exceptions say nothing. -/
def plainQuery : TypesafeQuery Unit where
  executeUnique
    | [] => .ok none
    | [object] => .ok (some object)
    | _ :: _ :: _ => .error ()
  executeUnique_nil := rfl
  executeUnique_singleton _ := rfl

/-- A task is performed, which renames its object; another object takes the name. -/
def renamed : List UserAction := [.perform 0, .onObjects (.create (.ofAscii ['F', 'o', 'o']))]

theorem findByNameExact_of_renamed :
    ∃ found, findByNameExact plainQuery
        ((exec (SimpleObjectUserSystem .isis) withTasks renamed).get (by decide)).2.objects
        (.ofAscii ['F', 'o', 'o']) = .ok found ∧
      found = some ⟨2, .create (.ofAscii ['F', 'o', 'o'])⟩ := by
  obtain ⟨found, hfound, hiff, -⟩ := findByNameExact_of_userRun plainQuery (by decide)
    (run_exec (S := SimpleObjectUserSystem .isis) (s := withTasks) (l := renamed) (by decide))
    (.ofAscii ['F', 'o', 'o'])
  exact ⟨found, hfound, (hiff _).mpr (by decide)⟩

/-! ## What fails -/

/-- What a user's action throws, if it does. -/
def UserAction.failure (framework : Framework ε) (store : Store) : UserAction → Option ε
  | onObjects (.create name) =>
    if 40 < name.length then some framework.tooLong
    else if ∀ row ∈ store.objects.rows, row.val.name ≠ name then none
    else some framework.notUnique
  | onObjects (.updateName object name) =>
    if ∀ row ∈ store.objects.rows, row.val.name = name → row.id = object then none
    else some framework.notUnique
  | onObjects (.setNotes _ notes) =>
    if ∀ text ∈ notes, text.length ≤ 4000 then none else some framework.tooLong
  | onObjects (.tryToTransition _) => none
  | delete _ => none
  | perform task =>
    (store.tasks.get? task).bind fun task =>
      match store.objects.get? task.val.simpleObject with
      | none => some (framework.runtimeException .nullPointerException)
      | some row =>
        if (validate0UpdateName row.val.name).isSome ∨ 31 < row.val.name.length then
          some framework.invalid
        else if ∀ r ∈ store.objects.rows,
            r.val.name = row.val.name ++ performedSuffix → r.id = row.id then none
        else some framework.notUnique

theorem fitsColumns_iff {object : SimpleObject} : object.fitsColumns = true ↔
    object.name.length ≤ 40 ∧ ∀ text ∈ object.notes, text.length ≤ 4000 := by
  unfold fitsColumns
  rw [Bool.and_eq_true, decide_eq_true_eq]
  cases object.notes <;> simp

/-- Which of the declared constraints is violated. -/
theorem Store.checkConstraints_eq_error_iff {object : Row SimpleObject} {x : ε} :
    store.checkConstraints framework object = .error x ↔
      if object.val.fitsColumns = true then
        store.isUnique object.id object.val.name = false ∧ x = framework.notUnique
      else x = framework.tooLong := by
  unfold Store.checkConstraints
  cases object.val.fitsColumns <;> cases store.isUnique object.id object.val.name <;>
    simp [eq_comm]

/-- Where the columns hold the object, only its name can be refused. -/
theorem Store.write_eq_error_iff {id : Nat} {object : SimpleObject} {tasks : Table SimpleTask}
    (hfits : object.fitsColumns = true) {x : ε} :
    store.write framework ⟨id, object⟩ tasks = .error x ↔
      (¬ ∀ row ∈ store.objects.rows, row.val.name = object.name → row.id = id) ∧
        x = framework.notUnique := by
  rw [← Store.isUnique_iff, Store.write, map_eq_error_iff, Store.checkConstraints_eq_error_iff,
    if_pos hfits, Bool.not_eq_true]

/-- When a creation fails. The identity of the new object is that of no stored one. -/
theorem create_eq_error_iff {name : JavaString} {x : ε} :
    store.perform framework (.create name) = .error x ↔
      (UserAction.onObjects (.create name)).failure framework store = some x := by
  have hunique : store.isUnique store.objects.nextId name = true ↔
      ∀ row ∈ store.objects.rows, row.val.name ≠ name := by
    rw [Store.isUnique_iff]
    refine forall₂_congr fun row hrow => imp_congr_right fun _ => ?_
    exact iff_of_false (Nat.ne_of_lt (store.objects.ids_lt row hrow)) id
  have hfits : (create name).fitsColumns = true ↔ name.length ≤ 40 := by
    simp [fitsColumns_iff, create]
  have hcheck : store.perform framework (.create name) = .error x ↔
      store.checkConstraints framework ⟨store.objects.nextId, create name⟩ = .error x :=
    map_eq_error_iff
  rw [hcheck, Store.checkConstraints_eq_error_iff, UserAction.failure]
  by_cases hlength : 40 < name.length
  · rw [if_neg (mt hfits.mp (Nat.not_le.mpr hlength)), if_pos hlength]
    simp [eq_comm]
  · rw [if_pos (hfits.mpr (Nat.not_lt.mp hlength)), if_neg hlength, ← Bool.not_eq_true]
    by_cases hfree : ∀ row ∈ store.objects.rows, row.val.name ≠ name
    · rw [if_pos hfree]
      exact iff_of_false (fun h => h.1 (hunique.mpr hfree)) (by simp)
    · rw [if_neg hfree]
      exact (and_iff_right (mt hunique.mp hfree)).trans (by simp [eq_comm])

/-- **When an action on the objects fails.** -/
theorem perform_eq_error_iff (hc : store.Consistent) {action : StoreAction}
    (hen : store.isEnabled action = true) {x : ε} :
    store.perform framework action = .error x ↔
      (UserAction.onObjects action).failure framework store = some x := by
  by_cases hcreate : ∃ name, action = .create name
  · obtain ⟨name, rfl⟩ := hcreate
    exact create_eq_error_iff
  · obtain ⟨row, hrow, object, tasks, hwrite, hcase⟩ :=
      Store.perform_eq_write hen fun name hname => hcreate ⟨name, hname⟩
    obtain ⟨hname, hnotes⟩ := fitsColumns_iff.mp (hc.fits row hrow)
    have hown : ∀ r ∈ store.objects.rows, r.val.name = row.val.name → r.id = row.id :=
      fun r hr heq => congrArg Row.id (hc.names r hr row hrow heq)
    rw [hwrite]
    rcases hcase with ⟨notes, rfl, rfl, -⟩ | ⟨name, rfl, hlength, rfl, -⟩ | ⟨rfl, rfl, -⟩
    · have hfits : (row.val.setNotes notes).fitsColumns = true ↔
          ∀ text ∈ notes, text.length ≤ 4000 :=
        fitsColumns_iff.trans (and_iff_right hname)
      by_cases htext : ∀ text ∈ notes, text.length ≤ 4000
      · rw [Store.write_eq_error_iff (hfits.mpr htext), UserAction.failure, if_pos htext]
        exact iff_of_false (fun h => h.1 hown) (by simp)
      · rw [UserAction.failure, if_neg htext, Store.write, map_eq_error_iff,
          Store.checkConstraints_eq_error_iff, if_neg (mt hfits.mp htext)]
        simp [eq_comm]
    · have hfits : (row.val.updateName name).slid.fitsColumns = true :=
        fitsColumns_iff.mpr ⟨hlength, hnotes⟩
      rw [Store.write_eq_error_iff hfits, UserAction.failure]
      by_cases hfree : ∀ r ∈ store.objects.rows, r.val.name = name → r.id = row.id
      · rw [if_pos hfree]
        exact iff_of_false (fun h => h.1 hfree) (by simp)
      · rw [if_neg hfree]
        exact (and_iff_right hfree).trans (by simp [eq_comm])
    · have hfits : row.val.slid.fitsColumns = true := fitsColumns_iff.mpr ⟨hname, hnotes⟩
      rw [Store.write_eq_error_iff hfits, UserAction.failure]
      exact iff_of_false (fun h => h.1 hown) (by simp)

/-- How a wrapped call fails: its arguments are refused, or the call itself fails. -/
theorem wrappedUpdateName_eq_error_iff {id : Nat} {name : JavaString} {x : ε} :
    wrappedUpdateName framework store id name = .error x ↔
      if (validate0UpdateName name).isSome ∨ 40 < name.length then x = framework.invalid
      else store.perform framework (.updateName id name) = .error x := by
  unfold wrappedUpdateName
  cases validate0UpdateName name with
  | some reason => simp [eq_comm]
  | none =>
    by_cases hlength : name.length ≤ 40
    · simp [hlength]
    · simp [hlength, eq_comm]

theorem length_performed {object : SimpleObject} :
    40 < (object.name ++ performedSuffix).length ↔ 31 < object.name.length := by
  rw [List.length_append]
  exact ⟨fun h => Nat.lt_of_add_lt_add_right (n := 9) h, fun h => Nat.add_lt_add_right h 9⟩

/-- The renaming that a task calls is offered, if validation lets the name pass. -/
theorem isEnabled_performed {row : Row SimpleObject} (hrow : row ∈ store.objects.rows)
    (hvalid : ¬ (validate0UpdateName row.val.name).isSome = true)
    (hshort : ¬ 31 < row.val.name.length) :
    store.isEnabled (.updateName row.id (row.val.name ++ performedSuffix)) = true := by
  have hget : store.objects.get? row.id = some row := Table.get?_eq_some_iff.mpr ⟨hrow, rfl⟩
  simp only [Store.isEnabled, hget, validate_append_suffix, Option.isSome_some, Bool.true_and,
    Bool.and_eq_true, decide_eq_true_eq]
  exact ⟨by simpa using hvalid, Nat.not_lt.mp (mt length_performed.mp hshort)⟩

/-- How performing a task fails. -/
theorem perform_task_eq_error_iff (hc : store.Consistent) {id : Nat}
    (hen : (UserAction.perform id).isEnabled store = true) {x : ε} :
    (UserAction.perform id).act framework store = .error x ↔
      (UserAction.perform id).failure framework store = some x := by
  obtain ⟨task, htask, rfl, row, hrow, hrid, hact⟩ := act_perform hc hen
  have htaskGet : store.tasks.get? task.id = some task := Table.get?_eq_some_iff.mpr ⟨htask, rfl⟩
  have hget : store.objects.get? task.val.simpleObject = some row :=
    Table.get?_eq_some_iff.mpr ⟨hrow, hrid⟩
  have hcases : (validate0UpdateName row.val.name).isSome = true ∨
      40 < (row.val.name ++ performedSuffix).length ↔
        (validate0UpdateName row.val.name).isSome = true ∨ 31 < row.val.name.length :=
    or_congr_right length_performed
  rw [hact, wrappedUpdateName_eq_error_iff, validate_append_suffix, UserAction.failure, htaskGet,
    Option.bind_some, hget]
  dsimp only
  by_cases hinvalid : (validate0UpdateName row.val.name).isSome = true ∨ 31 < row.val.name.length
  · rw [if_pos (hcases.mpr hinvalid), if_pos hinvalid]
    simp [eq_comm]
  · rw [if_neg (mt hcases.mp hinvalid), if_neg hinvalid]
    obtain ⟨hvalid, hshort⟩ := not_or.mp hinvalid
    rw [perform_eq_error_iff hc (isEnabled_performed hrow hvalid hshort), UserAction.failure]

/-- **Which actions fail, and with what**, in every store reached. Sliding and deleting never do. -/
theorem failure_of_userRun (h₀ : s₀.Consistent)
    (h : Run (SimpleObjectUserSystem framework) s₀ tr store)
    (hen : action.isEnabled store = true) (x : ε) :
    action.act framework store = .error x ↔ action.failure framework store = some x := by
  have hc := consistent_of_userRun h₀ h
  cases action with
  | onObjects action => exact perform_eq_error_iff hc hen
  | delete object =>
    obtain ⟨tasks, hdelete, -⟩ := store.delete_eq framework object
    simp [UserAction.act, hdelete, UserAction.failure]
  | perform id => exact perform_task_eq_error_iff hc hen

/-- The name is taken again, by the object created last. -/
theorem failure_of_renamed :
    (UserAction.onObjects (.updateName 1 (.ofAscii ['F', 'o', 'o']))).act .isis
        ((exec (SimpleObjectUserSystem .isis) withTasks renamed).get (by decide)).2 =
      .error (.runtimeException .jdoDataStoreException) :=
  (failure_of_userRun (by decide) (run_exec (by decide)) (by decide) _).mpr (by decide)

/-! ## Deleting -/

/-- **Deleting an object**, in any store reached: it goes through, takes the tasks of the object
along and nothing else, and leaves the name for another object. -/
theorem delete_of_userRun {δ : Type*} (typesafeQuery : TypesafeQuery δ) (h₀ : s₀.Consistent)
    (h : Run (SimpleObjectUserSystem framework) s₀ tr store) {row : Row SimpleObject}
    (hrow : row ∈ store.objects.rows) :
    ∃ store', (UserAction.delete row.id).act framework store = .ok store' ∧
      store'.objects.rows = store.objects.rows.filter (fun r => r.id != row.id) ∧
      store'.tasks.rows =
        store.tasks.rows.filter (fun task => task.val.simpleObject != row.id) ∧
      findByNameExact typesafeQuery store'.objects row.val.name = .ok none ∧
      ∃ store'', (UserAction.onObjects (.create row.val.name)).act framework store' =
        .ok store'' := by
  have hc := consistent_of_userRun h₀ h
  obtain ⟨tasks, hdelete, htasks⟩ := store.delete_eq framework row.id
  have hfree : ∀ r ∈ (store.objects.delete row.id).rows, r.val.name ≠ row.val.name := by
    intro r hr hname
    obtain ⟨hr, hid⟩ := Table.mem_delete_iff.mp hr
    exact hid (congrArg Row.id (hc.names r hr row hrow hname))
  refine ⟨_, hdelete, List.filter_congr fun r _ => rfl, htasks, ?_, ?_⟩
  · have hnone : ((store.objects.delete row.id).select fun r => r.name == row.val.name) = [] :=
      List.filter_eq_nil_iff.mpr fun r hr => by simpa using hfree r hr
    rw [findByNameExact, hnone, typesafeQuery.executeUnique_nil]
  · cases hcreate : Store.perform framework ⟨store.objects.delete row.id, tasks⟩
        (.create row.val.name) with
    | ok store'' => exact ⟨store'', hcreate⟩
    | error x =>
      have hfailure := create_eq_error_iff.mp hcreate
      rw [UserAction.failure, if_neg (Nat.not_lt.mpr (fitsColumns_iff.mp (hc.fits row hrow)).1),
        if_pos hfree] at hfailure
      exact absurd hfailure (by simp)

theorem delete_of_renamed :
    ∃ store', (UserAction.delete 1).act .isis
        ((exec (SimpleObjectUserSystem .isis) withTasks renamed).get (by decide)).2 = .ok store' ∧
      store'.tasks.rows = [] := by
  obtain ⟨store', hok, -, htasks, -⟩ := delete_of_userRun plainQuery
    (show withTasks.Consistent by decide) (run_exec (by decide))
    (show (⟨1, ⟨.ofAscii ['B', 'a'], none, some .NEW⟩⟩ : Row SimpleObject) ∈
      ((exec (SimpleObjectUserSystem .isis) withTasks renamed).get (by decide)).2.objects.rows by
        decide)
  exact ⟨store', hok, htasks.trans (by decide)⟩

end SimpleObject

end WorkflowSketch
