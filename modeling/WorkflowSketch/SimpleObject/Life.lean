import WorkflowSketch.SimpleObject.Menu

/-!
# What becomes of an object, and of its tasks

A run may edit, slide and rename an object in any order, through its tasks or directly, so that
little can be said of the object in the end. `Becomes` is all there is to say.

* **`becomes_iff`**: what an object can become in a run. A completed one stays completed, and an
  exclamation mark in its name stays there, or goes for good.
* **`stored_iff`**: what can be stored in a run from nothing.
* **`tasks_of_userRun`**: a task is kept until the first step on its object that has an event, and
  none is added; so of the tasks of an object one at most is ever performed.
-/

namespace WorkflowSketch

open Lib Lib.Transact

namespace SimpleObject

open SimpleTaskRepository SimpleTaskService

variable {ε : Type*} {framework : Framework ε} {store store' s₀ : Store} {action : UserAction}
  {tr : Trace Store UserAction} {o o' o'' : SimpleObject}

/-! ## What a slide leads to -/

/-- A slide, with renaming before and after it, can lead from the one object to the other. -/
def SlidesInto (o o' : SimpleObject) : Prop :=
  match o'.state with
  | some .NEW => o.state ≠ some .COMPLETED ∧ o'.name.length ≤ 10
  | some .COMPLETED =>
    o.state = some .COMPLETED ∨ validate0UpdateName o'.name = none ∨ 10 < o'.name.length
  | some .DISCARDED =>
    o.state ≠ some .COMPLETED ∧
      (o.state = some .DISCARDED ∨ validate0UpdateName o'.name = none ∨ o'.name.length ≤ 10)
  | _ => False

/-- The one object can become the other: it is edited only, or slides. A name that would be refused
is one it had from the start. -/
def Becomes (o o' : SimpleObject) : Prop :=
  (o'.name = o.name ∧ o'.state = o.state) ∨
    ((validate0UpdateName o'.name ≠ none → o'.name = o.name) ∧ SlidesInto o o')

instance (o o' : SimpleObject) : Decidable (SlidesInto o o') := by
  unfold SlidesInto
  split <;> infer_instance

instance (o o' : SimpleObject) : Decidable (Becomes o o') :=
  inferInstanceAs (Decidable (_ ∨ _))

theorem Becomes.refl (o : SimpleObject) : Becomes o o := Or.inl ⟨rfl, rfl⟩

/-- A completed object stays completed. -/
theorem Becomes.completed (h : Becomes o o') (hs : o.state = some .COMPLETED) :
    o'.state = some .COMPLETED := by
  rcases h with ⟨-, hstate⟩ | ⟨-, hinto⟩
  · exact hstate.trans hs
  · unfold SlidesInto at hinto
    split at hinto
    · exact absurd hs hinto.1
    · assumption
    · exact absurd hs hinto.1
    · exact absurd hinto id

/-- **What an object can become, what that can become, and so on.** -/
theorem Becomes.trans (h : Becomes o o') (h' : Becomes o' o'') : Becomes o o'' := by
  rcases h' with ⟨hname', hstate'⟩ | ⟨hname', hinto'⟩
  · rcases h with ⟨hname, hstate⟩ | ⟨hname, hinto⟩
    · exact Or.inl ⟨hname'.trans hname, hstate'.trans hstate⟩
    · refine Or.inr ⟨fun hmark => ?_, ?_⟩
      · rw [hname'] at hmark ⊢
        exact hname hmark
      · unfold SlidesInto at hinto ⊢
        rw [hname', hstate']
        exact hinto
  · have hcompleted : o'.state ≠ some .COMPLETED → o.state ≠ some .COMPLETED :=
      mt (Becomes.completed h)
    refine Or.inr ⟨fun hmark => ?_, ?_⟩
    · rcases h with ⟨hname, -⟩ | ⟨hname, -⟩
      · exact (hname' hmark).trans hname
      · have hsame := hname' hmark
        rw [hsame] at hmark ⊢
        exact hname hmark
    · unfold SlidesInto at hinto' ⊢
      split at hinto'
      · exact ⟨hcompleted hinto'.1, hinto'.2⟩
      · rcases hinto' with hs | hvalid | hlength
        · -- completed before: the name is that of then, or one that is not refused
          by_cases hmark : validate0UpdateName o''.name = none
          · exact Or.inr (Or.inl hmark)
          · rcases h with ⟨-, hstate⟩ | ⟨-, hinto⟩
            · exact Or.inl (hstate ▸ hs)
            · unfold SlidesInto at hinto
              rw [hs] at hinto
              rw [hname' hmark]
              exact hinto
        · exact Or.inr (Or.inl hvalid)
        · exact Or.inr (Or.inr hlength)
      · obtain ⟨hs, hcase⟩ := hinto'
        refine ⟨hcompleted hs, ?_⟩
        rcases hcase with hdiscarded | hvalid | hlength
        · by_cases hmark : validate0UpdateName o''.name = none
          · exact Or.inr (Or.inl hmark)
          · rcases h with ⟨-, hstate⟩ | ⟨-, hinto⟩
            · exact Or.inl (hstate ▸ hdiscarded)
            · unfold SlidesInto at hinto
              rw [hdiscarded] at hinto
              rw [hname' hmark]
              exact hinto.2
        · exact Or.inr (Or.inl hvalid)
        · exact Or.inr (Or.inr hlength)
      · exact absurd hinto' id

theorem settledFromNew_eq_COMPLETED_iff : o.settledFromNew = .COMPLETED ↔ 10 < o.name.length := by
  unfold settledFromNew
  by_cases hlength : o.name.length > 10
  · simp [hlength]
  · cases o.notesContain discardWord <;> simp [hlength]

theorem length_le_of_settledFromNew (h : o.settledFromNew = .DISCARDED) : o.name.length ≤ 10 := by
  by_contra hlength
  rw [settledFromNew_eq_COMPLETED_iff.mpr (Nat.not_le.mp hlength)] at h
  exact absurd h (by simp)

/-- **A slide**, whatever the name and the notes are. -/
theorem slidesInto_slid (o : SimpleObject) : SlidesInto o o.slid := by
  have hstate : o.slid.state = some o.settled := rfl
  unfold SlidesInto
  rw [hstate]
  cases hs : o.settled with
  | INIT => exact absurd hs settled_ne_INIT
  | NEW =>
    obtain ⟨hlength, -, hcompleted, -⟩ := settled_eq_NEW_iff.mp hs
    exact ⟨hcompleted, hlength⟩
  | COMPLETED =>
    unfold settled at hs
    split at hs
    · exact Or.inl ‹_›
    · split at hs
      · exact Or.inr (Or.inr (settledFromNew_eq_COMPLETED_iff.mp hs))
      · exact absurd hs (by simp)
    · exact Or.inr (Or.inr (settledFromNew_eq_COMPLETED_iff.mp hs))
  | DISCARDED =>
    have hcompleted : o.state ≠ some .COMPLETED := by
      intro hcompleted
      rw [settled, hcompleted] at hs
      exact absurd hs (by simp)
    refine ⟨hcompleted, ?_⟩
    unfold settled at hs
    split at hs
    · exact absurd ‹_› hcompleted
    · exact Or.inl ‹_›
    · exact Or.inr (Or.inr (length_le_of_settledFromNew hs))

theorem becomes_slid (o : SimpleObject) : Becomes o o.slid :=
  Or.inr ⟨fun _ => rfl, slidesInto_slid o⟩

theorem becomes_setNotes (o : SimpleObject) (notes : Option JavaString) :
    Becomes o (o.setNotes notes) := Or.inl ⟨rfl, rfl⟩

/-- A renaming slides the object under its new name, which is not one to refuse. -/
theorem becomes_updateName {name : JavaString} (h : validate0UpdateName name = none) :
    Becomes o (o.updateName name).slid := by
  refine Or.inr ⟨fun hmark => absurd h hmark, ?_⟩
  have hinto := slidesInto_slid (o.updateName name)
  unfold SlidesInto at hinto ⊢
  exact hinto

/-! ## In a run -/

/-- **What a step makes of the stored objects**: each is a new one, or one that was stored and can
become it. -/
theorem objects_of_act (hc : store.Consistent) (hen : action.isEnabled store = true)
    (h : action.act framework store = .ok store') :
    store.objects.nextId ≤ store'.objects.nextId ∧ ∀ row' ∈ store'.objects.rows,
      (row'.id = store.objects.nextId ∧ ∃ name, row'.val = create name) ∨
        ∃ row ∈ store.objects.rows, row.id = row'.id ∧ Becomes row.val row'.val := by
  rcases act_cases hc hen h with ⟨row, hrow, -, hobjects, -⟩ | ⟨storeAction, hen', hok, -⟩
  · rw [hobjects]
    refine ⟨le_refl _, fun row' hrow' => Or.inr ?_⟩
    exact ⟨row', (Table.mem_delete_iff.mp hrow').1, rfl, Becomes.refl _⟩
  · have hvalid : ∀ id name, storeAction = .updateName id name →
        validate0UpdateName name = none := by
      rintro id name rfl
      simp only [Store.isEnabled, Bool.and_eq_true] at hen'
      exact Option.isNone_iff_eq_none.mp hen'.1.2
    rcases perform_cases hen' hok with ⟨name, -, -, rfl⟩ | ⟨row, object, hrow, -, hobjects, hcase⟩
    · refine ⟨Nat.le_succ _, Table.forall_mem_insert_iff.mpr ⟨fun row' hrow' => ?_, ?_⟩⟩
      · exact Or.inr ⟨row', hrow', rfl, Becomes.refl _⟩
      · exact Or.inl ⟨rfl, name, rfl⟩
    · have hbecomes : Becomes row.val object := by
        rcases hcase with ⟨notes, -, rfl, -⟩ | ⟨name, hname, rfl, -⟩ | ⟨-, rfl, -⟩
        · exact becomes_setNotes row.val notes
        · exact becomes_updateName (hvalid _ _ hname)
        · exact becomes_slid row.val
      rw [hobjects]
      refine ⟨le_refl _, fun row' hrow' => Or.inr ?_⟩
      rw [Table.rows_modify] at hrow'
      obtain ⟨r, hr, rfl⟩ := List.mem_map.mp hrow'
      refine ⟨r, hr, ?_⟩
      by_cases hid : r.id = row.id
      · obtain rfl := Table.eq_of_id hr hrow hid
        rw [if_pos rfl]
        exact ⟨rfl, hbecomes⟩
      · rw [if_neg hid]
        exact ⟨rfl, Becomes.refl _⟩

/-- The object is the only one stored, and has no task. -/
def IsOnly (store : Store) (row : Row SimpleObject) : Prop :=
  store.objects.rows = [row] ∧ store.tasks.rows = []

/-- Wherever the one object is the only one stored, a run makes it the other. -/
def CanBecome (framework : Framework ε) (o o' : SimpleObject) : Prop :=
  ∀ id store, IsOnly store ⟨id, o⟩ → ∃ tr store',
    Run (SimpleObjectUserSystem framework) store tr store' ∧ IsOnly store' ⟨id, o'⟩

theorem CanBecome.trans (h : CanBecome framework o o') (h' : CanBecome framework o' o'') :
    CanBecome framework o o'' := by
  intro id store honly
  obtain ⟨tr, store', hrun, honly'⟩ := h id store honly
  obtain ⟨tr', store'', hrun', honly''⟩ := h' id store' honly'
  exact ⟨tr ++ tr', store'', hrun.trans hrun', honly''⟩

/-- The name of the only object is never taken. -/
theorem IsOnly.write {id : Nat} {tasks : Table SimpleTask} (honly : IsOnly store ⟨id, o⟩)
    (action : StoreAction) (hen : store.isEnabled action = true)
    (hperform : store.perform framework action = store.write framework ⟨id, o'⟩ tasks)
    (hfits : o'.fitsColumns = true) (htasks : tasks.rows = []) :
    ∃ tr store', Run (SimpleObjectUserSystem framework) store tr store' ∧
      IsOnly store' ⟨id, o'⟩ := by
  have hunique : store.isUnique id o'.name = true := by
    rw [Store.isUnique_iff, honly.1]
    simp
  have hen' : (SimpleObjectUserSystem framework).enabled store (.onObjects action) = true := hen
  have hok : (SimpleObjectUserSystem framework).perform store (.onObjects action) =
      .ok ⟨store.objects.modify id fun _ => o', tasks⟩ :=
    hperform.trans (Store.write_eq_ok_iff.mpr ⟨hfits, hunique, rfl⟩)
  refine ⟨_, _, Run.single hen' hok, ?_, htasks⟩
  rw [Table.rows_modify, honly.1, List.map_singleton, if_pos rfl]

theorem IsOnly.get? {id : Nat} (honly : IsOnly store ⟨id, o⟩) :
    store.objects.get? id = some ⟨id, o⟩ :=
  Table.get?_eq_some_iff.mpr ⟨honly.1 ▸ List.mem_singleton_self _, rfl⟩

theorem canBecome_setNotes {notes : Option JavaString}
    (hfits : (o.setNotes notes).fitsColumns = true) : CanBecome framework o (o.setNotes notes) := by
  intro id store honly
  have hget := honly.get?
  refine honly.write (.setNotes id notes) ?_ ?_ hfits honly.2
  · simp only [Store.isEnabled, hget, Option.isSome_some]
  · simp only [Store.perform, hget]

theorem canBecome_slid (hfits : o.fitsColumns = true) : CanBecome framework o o.slid := by
  intro id store honly
  have hget := honly.get?
  refine honly.write (.tryToTransition id) ?_ ?_ hfits honly.2
  · simp only [Store.isEnabled, hget, Option.isSome_some]
  · simp only [Store.perform, hget, transition_eq, bind, Except.bind, Except.mapError]

/-- Under a name that would not be refused, or the one it has. -/
theorem canBecome_renamed {name : JavaString}
    (hname : validate0UpdateName name ≠ none → name = o.name)
    (hfits : (o.updateName name).fitsColumns = true) :
    CanBecome framework o (o.updateName name).slid := by
  by_cases hvalid : validate0UpdateName name = none
  · intro id store honly
    have hget := honly.get?
    have hlength : name.length ≤ 40 := (fitsColumns_iff.mp hfits).1
    have hrow : (⟨id, o⟩ : Row SimpleObject) ∈ store.objects.rows :=
      honly.1 ▸ List.mem_singleton_self _
    obtain ⟨tasks, htasks, hwrite⟩ := Store.perform_updateName hrow name
    refine honly.write (.updateName id name) ?_ hwrite hfits ?_
    · simp only [Store.isEnabled, hget, hvalid, Option.isSome_some, Option.isNone_none,
        decide_eq_true hlength, Bool.and_self]
    · rw [rows_maintainTasksFor htasks, honly.2]
      rfl
  · obtain rfl := hname hvalid
    exact canBecome_slid hfits

/-- A slide under the last name and some notes, and the last notes after it. -/
theorem canBecome_through (notes : Option JavaString) {s : SimpleState}
    (ho : o.fitsColumns = true) (ho' : o'.fitsColumns = true)
    (hnotes : ∀ text ∈ notes, text.length ≤ 4000)
    (hname : validate0UpdateName o'.name ≠ none → o'.name = o.name)
    (hsettled : settled ⟨o'.name, notes, o.state⟩ = s) (hs : o'.state = some s) :
    CanBecome framework o o' := by
  obtain ⟨hlength, -⟩ := fitsColumns_iff.mp ho
  obtain ⟨hlength', -⟩ := fitsColumns_iff.mp ho'
  have hedited : CanBecome framework o (o.setNotes notes) :=
    canBecome_setNotes (fitsColumns_iff.mpr ⟨hlength, hnotes⟩)
  have hslid : CanBecome framework (o.setNotes notes)
      ((o.setNotes notes).updateName o'.name).slid :=
    canBecome_renamed hname (fitsColumns_iff.mpr ⟨hlength', hnotes⟩)
  have hlast : o' = (((o.setNotes notes).updateName o'.name).slid).setNotes o'.notes := by
    have hstate : ((o.setNotes notes).updateName o'.name).slid.state = o'.state :=
      (congrArg some hsettled).trans hs.symm
    rw [setNotes, hstate]
    rfl
  refine (hedited.trans hslid).trans ?_
  rw [hlast]
  exact canBecome_setNotes (hlast ▸ ho')

/-- Revived notes complete an object of a long name from every state. -/
theorem settled_of_long {name : JavaString} (h : 10 < name.length) (state : Option SimpleState) :
    settled ⟨name, some reviveWord, state⟩ = .COMPLETED := by
  have hrevived : isRevived ⟨name, some reviveWord, state⟩ = true := by
    show (reviveWord.contains reviveWord && !reviveWord.contains discardWord) = true
    decide
  have hnew : settledFromNew ⟨name, some reviveWord, state⟩ = .COMPLETED :=
    settledFromNew_eq_COMPLETED_iff.mpr h
  unfold settled
  split
  · rfl
  · rw [if_pos hrevived, hnew]
  · exact hnew

/-- Discarding notes discard an object of a short name from every state but one. -/
theorem settled_of_short {name : JavaString} (h : name.length ≤ 10) {state : Option SimpleState}
    (hs : state ≠ some .COMPLETED) : settled ⟨name, some discardWord, state⟩ = .DISCARDED := by
  have hdiscard : notesContain ⟨name, some discardWord, state⟩ discardWord = true := by
    show discardWord.contains discardWord = true
    decide
  have hnew : settledFromNew ⟨name, some discardWord, state⟩ = .DISCARDED := by
    rw [settledFromNew, if_neg (Nat.not_lt.mpr h), if_pos hdiscard]
  unfold settled
  split
  · exact absurd ‹_› hs
  · rw [hnew, ite_self]
  · exact hnew

/-- A name long enough for a completion, and accepted. -/
def longName : JavaString := performedSuffix ++ performedSuffix

/-- **What an object can become it is brought to**: revived or discarded first, and through another
name where its last one does not lead there. -/
theorem canBecome_of_becomes (h : Becomes o o') (ho : o.fitsColumns = true)
    (ho' : o'.fitsColumns = true) : CanBecome framework o o' := by
  rcases h with ⟨hname, hstate⟩ | ⟨hname, hinto⟩
  · have hlast : o' = o.setNotes o'.notes := by
      rw [setNotes, ← hname, ← hstate]
    rw [hlast]
    exact canBecome_setNotes (hlast ▸ ho')
  · have hrevive : ∀ text ∈ some reviveWord, text.length ≤ 4000 := by
      simp [reviveWord, JavaString.ofAscii]
    have hdiscard : ∀ text ∈ some discardWord, text.length ≤ 4000 := by
      simp [discardWord, JavaString.ofAscii]
    unfold SlidesInto at hinto
    split at hinto
    · rename_i hs
      refine canBecome_through (some reviveWord) ho ho' hrevive hname (settled_eq_NEW_iff.mpr ?_) hs
      refine ⟨hinto.2, ?_, hinto.1, fun _ => ?_⟩
      · show reviveWord.contains discardWord = false
        decide
      · show reviveWord.contains reviveWord = true
        decide
    · rename_i hs
      rcases hinto with hcompleted | hvalid | hlength
      · exact canBecome_through none ho ho' (by simp) hname
          (by rw [settled, hcompleted]) hs
      · have hlong : CanBecome framework o ⟨longName, none, some .COMPLETED⟩ :=
          canBecome_through (some reviveWord) ho (by decide) hrevive
            (fun hmark => absurd (by decide) hmark) (settled_of_long (by decide) _) rfl
        have hshort : CanBecome framework ⟨longName, none, some .COMPLETED⟩ o' :=
          canBecome_through none (by decide) ho' (by simp)
            (fun hmark => absurd hvalid hmark) rfl hs
        exact hlong.trans hshort
      · exact canBecome_through (some reviveWord) ho ho' hrevive hname
          (settled_of_long hlength _) hs
    · rename_i hs
      obtain ⟨hcompleted, hdiscarded | hvalid | hlength⟩ := hinto
      · exact canBecome_through none ho ho' (by simp) hname
          (by rw [settled, hdiscarded]; rfl) hs
      · have hshort : CanBecome framework o ⟨[], none, some .DISCARDED⟩ :=
          canBecome_through (some discardWord) ho (by decide) hdiscard
            (fun hmark => absurd (by decide) hmark) (settled_of_short (by decide) hcompleted) rfl
        have hlong : CanBecome framework ⟨[], none, some .DISCARDED⟩ o' :=
          canBecome_through none (by decide) ho' (by simp)
            (fun hmark => absurd hvalid hmark) rfl hs
        exact hshort.trans hlong
      · exact canBecome_through (some discardWord) ho ho' hdiscard hname
          (settled_of_short hlength hcompleted) hs
    · exact absurd hinto id

/-- A store of one object. -/
def Store.only (o : SimpleObject) : Store := ⟨Table.empty.insert o, Table.empty⟩

/-- What a new object becomes it could have become under the name it has then. -/
theorem becomes_create {name : JavaString} (h : Becomes (create name) o) :
    Becomes (create o.name) o := by
  rcases h with ⟨-, hstate⟩ | ⟨-, hinto⟩
  · exact Or.inl ⟨rfl, hstate⟩
  · refine Or.inr ⟨fun _ => rfl, ?_⟩
    unfold SlidesInto at hinto ⊢
    exact hinto

/-- **What can be stored** in a run from nothing: what an object of that name can become. -/
theorem stored_iff (framework : Framework ε) {o : SimpleObject} :
    (∃ tr store id, Run (SimpleObjectUserSystem framework) .empty tr store ∧
      ⟨id, o⟩ ∈ store.objects.rows) ↔
      o.fitsColumns = true ∧ Becomes (create o.name) o := by
  constructor
  · rintro ⟨tr, store, id, hrun, hrow⟩
    have hinv : store.Consistent ∧ ∀ row ∈ store.objects.rows, ∃ name,
        Becomes (create name) row.val := by
      refine hrun.keep (P := fun store => store.Consistent ∧ ∀ row ∈ store.objects.rows, ∃ name,
        Becomes (create name) row.val) ?_ ⟨consistent_empty, fun _ h => absurd h List.not_mem_nil⟩
      intro s a s' ⟨hc, hall⟩ hen hok
      refine ⟨hc.act hen hok, fun row' hrow' => ?_⟩
      rcases (objects_of_act hc hen hok).2 row' hrow' with ⟨-, name, hnew⟩ | ⟨row, hrow, -, hnext⟩
      · exact ⟨name, hnew ▸ Becomes.refl _⟩
      · obtain ⟨name, hbefore⟩ := hall row hrow
        exact ⟨name, hbefore.trans hnext⟩
    obtain ⟨name, hname⟩ := hinv.2 _ hrow
    exact ⟨hinv.1.fits _ hrow, becomes_create hname⟩
  · rintro ⟨ho, h⟩
    have hfits : (create o.name).fitsColumns = true :=
      fitsColumns_iff.mpr ⟨(fitsColumns_iff.mp ho).1, by simp [create]⟩
    have hen : (SimpleObjectUserSystem framework).enabled .empty (.onObjects (.create o.name)) =
        true := rfl
    have hok : (SimpleObjectUserSystem framework).perform .empty (.onObjects (.create o.name)) =
        .ok (Store.only (create o.name)) :=
      map_eq_ok_iff.mpr ⟨(), Store.checkConstraints_eq_ok_iff.mpr ⟨hfits, rfl⟩, rfl⟩
    obtain ⟨tr, store, hrun, hrows, -⟩ :=
      canBecome_of_becomes h hfits ho 0 (.only (create o.name)) ⟨rfl, rfl⟩
    exact ⟨_, store, 0, (Run.single hen hok).trans hrun, hrows ▸ List.mem_singleton_self _⟩

/-! ## The tasks -/

/-- The object whose tasks a step takes away: one that is renamed, also by a task, or deleted. -/
def takesTasksOf (step : Store × UserAction) : Option Nat :=
  match step.2 with
  | .onObjects (.updateName object _) => some object
  | .onObjects _ => none
  | .delete object => some object
  | .perform task => (step.1.tasks.get? task).map fun row => row.val.simpleObject

/-- The object whose task a step performs. -/
def performsTaskOf (step : Store × UserAction) : Option Nat :=
  match step.2 with
  | .perform _ => takesTasksOf step
  | _ => none

/-- **A step takes all tasks of one object, or none**, and adds none. -/
theorem tasks_of_act (hc : store.Consistent) (hen : action.isEnabled store = true)
    (h : action.act framework store = .ok store') :
    store'.tasks.rows = store.tasks.rows.filter fun task =>
      takesTasksOf (store, action) != some task.val.simpleObject := by
  have hone : ∀ object, (store.tasks.rows.filter fun task => task.val.simpleObject != object) =
      store.tasks.rows.filter fun task => some object != some task.val.simpleObject := by
    intro object
    refine List.filter_congr fun task _ => ?_
    rw [Bool.eq_iff_iff, bne_iff_ne, bne_iff_ne, ne_eq, ne_eq, Option.some.injEq, eq_comm]
  have hnone : store.tasks.rows =
      store.tasks.rows.filter fun task => none != some task.val.simpleObject :=
    (List.filter_eq_self.mpr fun _ _ => rfl).symm
  rcases act_cases hc hen h with ⟨row, hrow, rfl, -, htasks⟩ | ⟨storeAction, hen', hok, haction⟩
  · exact htasks.trans (hone row.id)
  · have hsame : takesTasksOf (store, action) = takesTasksOf (store, .onObjects storeAction) := by
      rcases haction with rfl | ⟨task, htask, row, -, hid, rfl, rfl⟩
      · rfl
      · have hget : store.tasks.get? task.id = some task :=
          Table.get?_eq_some_iff.mpr ⟨htask, rfl⟩
        show (store.tasks.get? task.id).map (fun task => task.val.simpleObject) = some row.id
        rw [hget, hid]
        rfl
    rw [hsame]
    rcases perform_cases hen' hok with ⟨name, rfl, -, rfl⟩ | ⟨row, object, -, -, -, hcase⟩
    · exact hnone
    · rcases hcase with ⟨notes, rfl, -, htasks⟩ | ⟨name, rfl, -, htasks⟩ | ⟨rfl, -, htasks⟩
      · rw [htasks]; exact hnone
      · exact (rows_maintainTasksFor htasks).trans (hone row.id)
      · rw [htasks]; exact hnone

/-- A performed task is stored when it is. -/
theorem exists_of_performsTaskOf {object : Nat}
    (h : performsTaskOf (store, action) = some object) :
    takesTasksOf (store, action) = some object ∧
      ∃ task ∈ store.tasks.rows, task.val.simpleObject = object := by
  cases action with
  | perform id =>
    refine ⟨h, ?_⟩
    obtain ⟨task, hget, hobject⟩ := Option.map_eq_some_iff.mp h
    exact ⟨task, (Table.get?_eq_some_iff.mp hget).1, hobject⟩
  | _ => exact absurd h (by simp [performsTaskOf])

/-- **What is left of the tasks**: after a run, those of the objects that no step of it renamed or
deleted; and no object has had two of its tasks performed. -/
theorem tasks_of_userRun (h₀ : s₀.Consistent)
    (h : Run (SimpleObjectUserSystem framework) s₀ tr store) :
    store.tasks.rows = (s₀.tasks.rows.filter fun task =>
        tr.all fun step => takesTasksOf step != some task.val.simpleObject) ∧
      (tr.filterMap performsTaskOf).Nodup := by
  have hinv : store.Consistent ∧ store.tasks.rows = (s₀.tasks.rows.filter fun task =>
        tr.all fun step => takesTasksOf step != some task.val.simpleObject) ∧
      (tr.filterMap performsTaskOf).Nodup := by
    refine h.keepTrace (P := fun tr store => store.Consistent ∧
      store.tasks.rows = (s₀.tasks.rows.filter fun task =>
        tr.all fun step => takesTasksOf step != some task.val.simpleObject) ∧
      (tr.filterMap performsTaskOf).Nodup) ?_ ⟨h₀, by simp, List.nodup_nil⟩
    intro tr s a s' ⟨hc, hrows, hnodup⟩ hen hok
    refine ⟨hc.act hen hok, ?_, ?_⟩
    · rw [tasks_of_act hc hen hok, hrows, List.filter_filter]
      refine List.filter_congr fun task _ => ?_
      rw [List.all_append, Bool.and_comm, List.all_cons, List.all_nil, Bool.and_true]
    · rw [List.filterMap_append]
      cases hperforms : performsTaskOf (s, a) with
      | none => simpa [hperforms] using hnodup
      | some object =>
        -- a task of the object was still stored, so no step before has taken them
        obtain ⟨-, task, htask, rfl⟩ := exists_of_performsTaskOf hperforms
        rw [hrows, List.mem_filter, List.all_eq_true] at htask
        have hfresh : task.val.simpleObject ∉ tr.filterMap performsTaskOf := by
          intro hmem
          obtain ⟨step, hstep, hperformed⟩ := List.mem_filterMap.mp hmem
          have htakes := (exists_of_performsTaskOf hperformed).1
          have hkept := htask.2 step hstep
          rw [htakes] at hkept
          exact absurd hkept (by simp)
        have hlast : [(s, a)].filterMap performsTaskOf = [task.val.simpleObject] := by
          simp [hperforms]
        rw [hlast]
        exact hnodup.append (List.nodup_singleton _) (List.disjoint_singleton.mpr hfresh)
  exact hinv.2

/-- One of two tasks is performed, and both are gone. -/
theorem tasks_of_renamed :
    ((exec (SimpleObjectUserSystem .isis) withTasks renamed).get (by decide)).2.tasks.rows =
      [⟨2, ⟨1⟩⟩] :=
  (tasks_of_userRun (show withTasks.Consistent by decide) (run_exec (by decide))).1.trans
    (by decide)

end SimpleObject

end WorkflowSketch
