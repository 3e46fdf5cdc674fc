import WorkflowSketch.SimpleObject.Store

/-!
# Performing a task (`SimpleTask.java`)

`SimpleTask.perform` lengthens the name of its object through the framework's wrapper, which checks
the arguments of `updateName` first. The slide that follows is meant to end in `COMPLETED`.

* `inv_of_run`: a new object has a short name, so the lengthened one fits its column.
* **`perform_completes_iff_of_run`**: exactly when the object of a performed task is completed.
-/

namespace WorkflowSketch

open Lib Lib.Transact

variable {ε : Type*} (framework : Framework ε)

/-- `wrapperFactory.wrap(object).updateName(name)`: `validate0UpdateName` and `maxLength` first. -/
def SimpleObject.wrappedUpdateName (store : Store) (object : Nat) (name : JavaString) :
    Except ε Store :=
  if (validate0UpdateName name).isNone && decide (name.length ≤ 40) then
    store.perform framework (.updateName object name)
  else .error framework.invalid

/-- What `SimpleTask.perform` appends to the name. -/
def performedSuffix : JavaString := .ofAscii ['1', '2', '3', '4', '5', '6', '7', '8', '9']

/-- `SimpleTask.perform`, which reads the name of its object. -/
def SimpleTask.perform (task : SimpleTask) (store : SimpleObject.Store) :
    Except ε SimpleObject.Store :=
  match store.objects.get? task.simpleObject with
  | none => .error (framework.runtimeException .nullPointerException)
  | some row =>
    SimpleObject.wrappedUpdateName framework store row.id (row.val.name ++ performedSuffix)

namespace SimpleObject

variable {framework} {store store' : Store} {tr : Trace Store StoreAction} {action : StoreAction}
  {object : SimpleObject}

/-! ## New objects have short names -/

/-- The stored objects fit the columns, and a new one has a name too short to complete it. -/
def Store.Inv (store : Store) : Prop :=
  ∀ row ∈ store.objects.rows, row.val.fitsColumns = true ∧
    (row.val.state = some .NEW → row.val.name.length ≤ 10)

/-- The slide leaves an object new only if its name is short. -/
theorem length_le_of_slid (h : object.slid.state = some .NEW) : object.slid.name.length ≤ 10 :=
  (settled_eq_NEW_iff.mp (Option.some.inj h)).1

theorem Store.Inv.perform (hinv : store.Inv) (hen : store.isEnabled action = true)
    (h : store.perform framework action = .ok store') : store'.Inv := by
  rcases perform_cases hen h with
    ⟨name, -, hfits, rfl⟩ | ⟨row, object, hrow, hfits, hobjects, hcase⟩
  · refine Table.forall_mem_insert_iff.mpr ⟨hinv, hfits, fun hs => ?_⟩
    exact absurd hs (by simp [SimpleObject.create])
  · have hshort : object.state = some .NEW → object.name.length ≤ 10 := by
      rcases hcase with ⟨notes, -, rfl, -⟩ | ⟨name, -, rfl, -⟩ | ⟨-, rfl, -⟩
      · exact (hinv row hrow).2
      · exact length_le_of_slid
      · exact length_le_of_slid
    intro r hr
    rw [hobjects, Table.rows_modify] at hr
    obtain ⟨r₀, hr₀, rfl⟩ := List.mem_map.mp hr
    split
    · exact ⟨hfits, hshort⟩
    · exact hinv r₀ hr₀

/-- **New objects have short names**, and all fit the columns, in every store reached. -/
theorem inv_of_run (h : Run (SimpleObjectSystem framework) .empty tr store) : store.Inv :=
  h.keep (fun _ _ _ hinv hen hok => Store.Inv.perform hinv hen hok)
    fun _ hrow => absurd hrow List.not_mem_nil

/-! ## Performing -/

/-- The suffix has no exclamation mark. -/
theorem validate_append_suffix (name : JavaString) :
    validate0UpdateName (name ++ performedSuffix) = validate0UpdateName name := by
  have hmark : JavaString.ofAscii ['!'] = [33] := rfl
  have hnone : (33 : UInt16) ∉ performedSuffix := by decide
  simp [validate0UpdateName, JavaString.contains, hmark, List.singleton_infix_iff, hnone]

/-- A new object is completed by a longer name exactly if that is long enough. -/
theorem settled_updateName (hs : object.state = some .NEW) (name : JavaString) :
    (object.updateName name).settled = .COMPLETED ↔ 10 < name.length := by
  simp only [settled, updateName, hs, settledFromNew]
  split
  · rename_i hlength
    exact iff_of_true rfl hlength
  · rename_i hlength
    refine iff_of_false ?_ hlength
    split <;> simp

/-- Whether a wrapped call goes through, and what it leaves. -/
theorem wrappedUpdateName_eq_ok_iff {id : Nat} {name : JavaString} :
    wrappedUpdateName framework store id name = .ok store' ↔
      validate0UpdateName name = none ∧ name.length ≤ 40 ∧
        store.perform framework (.updateName id name) = .ok store' := by
  unfold wrappedUpdateName
  split
  · rename_i hvalid
    obtain ⟨hnone, hlength⟩ := Bool.and_eq_true_iff.mp hvalid
    simp only [Option.isNone_iff_eq_none, decide_eq_true_eq] at hnone hlength
    simp only [hnone, hlength, true_and]
  · rename_i hinvalid
    simp only [Bool.and_eq_true, Option.isNone_iff_eq_none, decide_eq_true_eq, not_and] at hinvalid
    refine iff_of_false (by simp) ?_
    rintro ⟨hnone, hlength, -⟩
    exact hinvalid hnone hlength

/-- When performing a task completes its object. -/
theorem perform_completes_iff (hinv : store.Inv) {row : Row SimpleObject}
    (hrow : row ∈ store.objects.rows) (hs : row.val.state = some .NEW) {task : SimpleTask}
    (htask : task.simpleObject = row.id) :
    (∃ store' object, task.perform framework store = .ok store' ∧
      ⟨row.id, object⟩ ∈ store'.objects.rows ∧ object.state = some .COMPLETED) ↔
      2 ≤ row.val.name.length ∧ validate0UpdateName row.val.name = none ∧
        store.isUnique row.id (row.val.name ++ performedSuffix) = true := by
  obtain ⟨hfits, hshort⟩ := hinv row hrow
  have hlength : (row.val.name ++ performedSuffix).length = row.val.name.length + 9 :=
    List.length_append
  have hlong : row.val.name.length + 9 ≤ 40 := by
    have := hshort hs
    omega
  have hget : store.objects.get? task.simpleObject = some row :=
    Table.get?_eq_some_iff.mpr ⟨hrow, htask.symm⟩
  obtain ⟨tasks, -, hwrite⟩ := Store.perform_updateName hrow (row.val.name ++ performedSuffix)
  have hfits' : (row.val.updateName (row.val.name ++ performedSuffix)).slid.fitsColumns = true := by
    refine Bool.and_eq_true_iff.mpr ⟨?_, (Bool.and_eq_true_iff.mp hfits).2⟩
    exact decide_eq_true (hlength ▸ hlong)
  have hok : ∀ store', task.perform framework store = .ok store' ↔
      validate0UpdateName row.val.name = none ∧
        store.isUnique row.id (row.val.name ++ performedSuffix) = true ∧
        store' = ⟨store.objects.modify row.id fun _ =>
          (row.val.updateName (row.val.name ++ performedSuffix)).slid, tasks⟩ := by
    intro store'
    rw [SimpleTask.perform, hget]
    dsimp only
    rw [wrappedUpdateName_eq_ok_iff, validate_append_suffix, hlength, hwrite, Store.write_eq_ok_iff]
    simp only [hlong, hfits', true_and]
    rfl
  have hcompleted : (row.val.updateName (row.val.name ++ performedSuffix)).settled = .COMPLETED ↔
      2 ≤ row.val.name.length := by
    rw [settled_updateName hs, hlength]
    omega
  constructor
  · rintro ⟨store', object, hperform, hmem, hobject⟩
    obtain ⟨hvalid, hunique, rfl⟩ := (hok _).mp hperform
    obtain ⟨-, -, -, rfl⟩ := Table.mem_modify_iff.mp hmem
    exact ⟨hcompleted.mp (Option.some.inj hobject), hvalid, hunique⟩
  · rintro ⟨htwo, hvalid, hunique⟩
    exact ⟨_, _, (hok _).mpr ⟨hvalid, hunique, rfl⟩,
      Table.mem_modify_iff.mpr ⟨row, hrow, rfl, rfl⟩, congrArg some (hcompleted.mpr htwo)⟩

/-- **When performing a task completes its object**, in every store reached: the name has two
characters at least and no exclamation mark, and no other object has the name it is given. -/
theorem perform_completes_iff_of_run (h : Run (SimpleObjectSystem framework) .empty tr store)
    {row : Row SimpleObject} (hrow : row ∈ store.objects.rows) (hs : row.val.state = some .NEW)
    {task : SimpleTask} (htask : task.simpleObject = row.id) :
    (∃ store' object, task.perform framework store = .ok store' ∧
      ⟨row.id, object⟩ ∈ store'.objects.rows ∧ object.state = some .COMPLETED) ↔
      2 ≤ row.val.name.length ∧ validate0UpdateName row.val.name = none ∧
        store.isUnique row.id (row.val.name ++ performedSuffix) = true :=
  perform_completes_iff (inv_of_run h) hrow hs htask

/-- An object with a name of one character, brought into `NEW`. -/
def oneLetter : List StoreAction := [.create (.ofAscii ['A']), .tryToTransition 0]

/-- Ten characters are not more than ten: the object stays new. -/
theorem not_perform_completes_of_oneLetter :
    ¬ ∀ (store : Store) (tr : Trace Store StoreAction) (row : Row SimpleObject) (task : SimpleTask),
      Run (SimpleObjectSystem .isis) .empty tr store → (∀ step ∈ tr, step.2 ≠ .create []) →
      row ∈ store.objects.rows → row.val.state = some .NEW → task.simpleObject = row.id →
        ∃ store' object, task.perform .isis store = .ok store' ∧
          ⟨row.id, object⟩ ∈ store'.objects.rows ∧ object.state = some .COMPLETED := by
  intro h
  have hrun := run_exec (S := SimpleObjectSystem .isis) (s := .empty) (l := oneLetter) (by decide)
  have hrow : (⟨0, ⟨.ofAscii ['A'], none, some .NEW⟩⟩ : Row SimpleObject) ∈
      ((exec (SimpleObjectSystem .isis) .empty oneLetter).get (by decide)).2.objects.rows := by
    decide
  have hone := h _ _ _ ⟨0⟩ hrun (by decide) hrow rfl rfl
  exact absurd ((perform_completes_iff (inv_of_run hrun) hrow rfl rfl).mp hone).1 (by decide)

/-- An object whose name has two characters. -/
def twoLetters : List StoreAction := [.create (.ofAscii ['F', 'o']), .tryToTransition 0]

theorem perform_completes_of_twoLetters :
    ∃ store' object, SimpleTask.perform .isis ⟨0⟩
        ((exec (SimpleObjectSystem .isis) .empty twoLetters).get (by decide)).2 = .ok store' ∧
      ⟨0, object⟩ ∈ store'.objects.rows ∧ object.state = some .COMPLETED :=
  (perform_completes_iff_of_run (run_exec (by decide))
    (show (⟨0, ⟨.ofAscii ['F', 'o'], none, some .NEW⟩⟩ : Row SimpleObject) ∈
      ((exec (SimpleObjectSystem .isis) .empty twoLetters).get (by decide)).2.objects.rows by
        decide)
    rfl rfl).mpr (by decide)

end SimpleObject

end WorkflowSketch
