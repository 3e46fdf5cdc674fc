import WorkflowSketch.SimpleInvoice.History

/-!
# Who a task is assigned to (`determineActorIfAny`, `findOrCreate`)

The person that `complete` is called with is attached to the task of whatever state the slide ends
in, a task found is reused with the assignee it has, and `deleteState` leaves the tasks alone.

* `mem_of_maintainTasksFor`: without an actor, the tasks afterwards were there or are new.
* `AssigneesFollow`: what the assignees say about the history, with or without a state.
* **`assignees_of_run`**: an administrator's task has no assignee, a manager's the person that the
  last `complete` was called with.
-/

namespace WorkflowSketch

open Lib Lib.Transact

namespace SimpleInvoice

open SimpleInvoiceTaskRepository SimpleInvoiceTaskService

variable {action : Action} {config c₀ c c' : Config} {tr : Trace Config Action}
  {tasks tasks' : Table SimpleInvoiceTask} {row : Row SimpleInvoice} {s : SimpleInvoiceState}

/-! ## Events with and without an actor -/

/-- Without an actor, a task afterwards was there before, or was created for the state. -/
theorem mem_of_maintainTasksFor (hs : row.val.invoiceState = some s)
    (h : maintainTasksFor tasks row none = .ok tasks') {r : Row SimpleInvoiceTask}
    (hr : r ∈ findByInvoice tasks' row.id) :
    r ∈ findByInvoice tasks row.id ∨ ∃ role, survivingRole s = some role ∧
      findByInvoiceAndRole tasks row.id role = [] ∧
      r = (SimpleInvoiceTaskRepository.create tasks row.id role).2 := by
  rw [findByInvoice_maintainTasksFor hs h] at hr
  split at hr
  · exact absurd hr List.not_mem_nil
  · rename_i role hrole
    unfold foundOrCreated at hr
    split at hr
    · rename_i hnone
      exact Or.inr ⟨role, hrole, hnone, by simpa [assignFirst] using hr⟩
    · rename_i found hfound
      have hfirst : assignFirst none (findByInvoiceAndRole tasks row.id role) =
          findByInvoiceAndRole tasks row.id role := by
        cases findByInvoiceAndRole tasks row.id role <;> rfl
      rw [hfirst, findByInvoiceAndRole_eq] at hr
      exact Or.inl (List.mem_filter.mp hr).1

/-- Only `complete` carries an actor. -/
theorem determineActorIfAny_of_not_isComplete {arguments : List (Option Person)}
    (h : action.updatedArguments = some arguments) (hcomplete : action.isComplete = false) :
    determineActorIfAny ⟨.EXECUTED, arguments⟩ = none := by
  cases action with
  | complete assignNextTaskTo now => exact absurd hcomplete (by simp [Action.isComplete])
  | _ => cases h <;> rfl

/-- A completion leads away from `NEW`. -/
theorem state_of_complete {invoice invoice' : SimpleInvoice} {person : Option Person}
    {now : LocalDate} (hw : invoice'.WellFormed)
    (hout : outcome (.complete person now) invoice = .ok invoice') :
    invoice'.invoiceState ≠ some .NEW := by
  intro hs
  have hc := (hw.fits .NEW hs).1
  rw [outcome_eq_body hout] at hc
  exact absurd hc (Option.some_ne_none now)

/-! ## The invariant -/

/-- What the tasks of an invoice and their assignees say about its history. -/
structure AssigneesFollow (tr : Trace Config Action) (c : Config) : Prop where
  administrator : ∀ task ∈ findByInvoice c.tasks c.invoice.id,
    task.val.assignedToRole = some .ADMINISTRATOR → task.val.assignedTo = none
  manager : ∀ task ∈ findByInvoice c.tasks c.invoice.id,
    task.val.assignedToRole = some .MANAGER →
      ∃ before now, last? Action.isComplete tr =
        some (before, .complete task.val.assignedTo now)
  /-- A completed invoice that awaits the manager keeps his task, also without a state. -/
  awaits : c.invoice.val.completedOn ≠ none → c.invoice.val.approvedByManagerOn = none →
    ∃ task ∈ findByInvoice c.tasks c.invoice.id, task.val.assignedToRole = some .MANAGER

/-- Only in `COMPLETED` a completed invoice awaits the manager. -/
theorem state_of_awaiting {invoice : SimpleInvoice} (hw : invoice.WellFormed)
    (hs : invoice.invoiceState = some s) (hc : invoice.completedOn ≠ none)
    (hm : invoice.approvedByManagerOn = none) : s = .COMPLETED := by
  have hfits := hw.fits s hs
  cases s with
  | INIT => exact absurd hfits (by simp [Fits])
  | NEW => exact absurd hfits.1 hc
  | COMPLETED => rfl
  | APPROVED_BY_MANAGER => exact absurd hm hfits.2.2.1
  | PAYABLE => exact absurd hm hfits.2.2.1
  | PAID => exact absurd hm hfits.2.2.1
  | DISCARDED => exact absurd (hw.completed_or_discarded.resolve_left hc) hfits

/-- What an invoice awaited before a step that does not complete it, if it awaits the manager. -/
theorem awaiting_of_outcome {invoice invoice' : SimpleInvoice}
    (hout : outcome action invoice = .ok invoice') (hcomplete : action.isComplete = false)
    (hc : invoice'.completedOn ≠ none) (hm : invoice'.approvedByManagerOn = none) :
    invoice.completedOn ≠ none ∧ invoice.approvedByManagerOn = none := by
  refine ⟨completedOn_of_outcome hout hcomplete hc, ?_⟩
  have hkept := approvedByManagerOn_of_outcome hout
  split at hkept
  · exact absurd hm hkept
  · exact hkept ▸ hm

/-- The tasks that a completion leaves are for the manager, and the person it was called with. -/
theorem assignee_of_complete {person : Option Person} {now : LocalDate} (hrest : config.Resting)
    (hen : (Action.complete person now).isEnabled config.invoice.val = true)
    (hid : row.id = config.invoice.id) (hs : row.val.invoiceState = some s) (hne : s ≠ .NEW)
    (hmaintain : maintainTasksFor config.tasks row person = .ok tasks') :
    ∀ task ∈ findByInvoice tasks' row.id,
      task.val.assignedToRole = some .MANAGER ∧ task.val.assignedTo = person := by
  obtain ⟨before, hone, hbefore⟩ := hrest.tasksFit .NEW (isEnabled_complete.mp hen).1
  intro task htask
  rw [findByInvoice_maintainTasksFor hs hmaintain] at htask
  cases s with
  | COMPLETED =>
    have hnone : findByInvoiceAndRole config.tasks row.id .MANAGER = [] := by
      rw [findByInvoiceAndRole_eq, hid, hone]
      simp [hbefore]
    have hnew : task ∈ assignFirst person (foundOrCreated config.tasks row.id .MANAGER) := htask
    rw [foundOrCreated, hnone, assignFirst, List.mem_singleton] at hnew
    rw [hnew]
    cases person <;> exact ⟨rfl, rfl⟩
  | NEW => exact absurd rfl hne
  | _ => exact absurd htask List.not_mem_nil

/-- An invoice at rest in a state has the task it awaits. -/
theorem Config.Resting.awaits (hrest : c.Resting) (hs : c.invoice.val.invoiceState = some s)
    (hc : c.invoice.val.completedOn ≠ none) (hm : c.invoice.val.approvedByManagerOn = none) :
    ∃ task ∈ findByInvoice c.tasks c.invoice.id, task.val.assignedToRole = some .MANAGER := by
  obtain rfl := state_of_awaiting hrest.wellFormed hs hc hm
  obtain ⟨task, hone, htask⟩ := hrest.tasksFit .COMPLETED hs
  exact ⟨task, by rw [hone]; exact List.mem_singleton_self task, htask⟩

/-- A completion gives the manager's task to the person it was called with. -/
theorem AssigneesFollow.complete {person : Option Person} {now : LocalDate} (hrest : c.Resting)
    (hen : (Action.complete person now).isEnabled c.invoice.val = true)
    (hok : perform c (.complete person now) = .ok c') :
    AssigneesFollow (tr ++ [(c, .complete person now)]) c' := by
  have hrest' := hrest.perform hen hok
  obtain ⟨hout, hid, htasks⟩ := perform_cases hrest.wellFormed hen hok
  rcases htasks with ⟨hsilent, -⟩ | ⟨arguments, s, harg, hs, hmaintain⟩
  · exact absurd hsilent (by simp [Action.updatedArguments])
  · have hactor : determineActorIfAny ⟨.EXECUTED, arguments⟩ = person := by
      cases harg
      cases person <;> rfl
    have hne : s ≠ .NEW := fun h =>
      state_of_complete hrest'.wellFormed hout (hs.trans (congrArg some h))
    have hnew := assignee_of_complete hrest hen hid hs hne (hactor ▸ hmaintain)
    refine ⟨fun task htask hrole => ?_, fun task htask _ => ⟨c, now, ?_⟩, hrest'.awaits hs⟩
    · rw [(hnew task htask).1] at hrole
      exact absurd hrole (by simp)
    · rw [last?_concat, (hnew task htask).2]
      rfl

/-- Any other step leaves the assignees as they are. -/
theorem AssigneesFollow.other (hf : AssigneesFollow tr c) (hrest : c.Resting)
    (hen : action.isEnabled c.invoice.val = true) (hok : perform c action = .ok c')
    (hcomplete : action.isComplete = false) : AssigneesFollow (tr ++ [(c, action)]) c' := by
  have hrest' := hrest.perform hen hok
  obtain ⟨hout, hid, htasks⟩ := perform_cases hrest.wellFormed hen hok
  have hlast : last? Action.isComplete (tr ++ [(c, action)]) = last? Action.isComplete tr := by
    rw [last?_concat, hcomplete]
    rfl
  rcases htasks with ⟨-, htasks⟩ | ⟨arguments, s, harg, hs, hmaintain⟩
  · refine ⟨?_, ?_, fun hc hm => ?_⟩
    · rw [htasks, hid]
      exact hf.administrator
    · rw [htasks, hid, hlast]
      exact hf.manager
    · rw [htasks, hid]
      obtain ⟨hc, hm⟩ := awaiting_of_outcome hout hcomplete hc hm
      exact hf.awaits hc hm
  · rw [determineActorIfAny_of_not_isComplete harg hcomplete] at hmaintain
    refine ⟨fun task htask hrole => ?_, fun task htask hrole => ?_, hrest'.awaits hs⟩
    · rcases mem_of_maintainTasksFor hs hmaintain htask with hbefore | ⟨role, -, -, rfl⟩
      · exact hf.administrator task (hid ▸ hbefore) hrole
      · rfl
    · rw [hlast]
      rcases mem_of_maintainTasksFor hs hmaintain htask with hbefore | ⟨role, hsurvive, hnone, rfl⟩
      · exact hf.manager task (hid ▸ hbefore) hrole
      · -- no manager's task is created: an invoice that awaits the manager has kept his task
        obtain rfl : role = .MANAGER := by simpa [SimpleInvoiceTaskRepository.create] using hrole
        obtain rfl : s = .COMPLETED :=
          survivingRole_inj s .COMPLETED (by simp [hsurvive]) (hsurvive.trans rfl)
        obtain ⟨hc, -, hm⟩ := hrest'.wellFormed.fits .COMPLETED hs
        obtain ⟨hc, hm⟩ := awaiting_of_outcome hout hcomplete hc hm
        obtain ⟨task, htask, hmanager⟩ := hf.awaits hc hm
        rw [findByInvoiceAndRole_eq, hid, List.filter_eq_nil_iff] at hnone
        exact absurd hmanager (by simpa using hnone task htask)

/-- **What the assignees say about the history**, in every configuration reached. -/
theorem assigneesFollow_of_run (h₀ : c₀.IsCreated) (h : Run SimpleInvoiceWorkFlow c₀ tr c) :
    AssigneesFollow tr c := by
  have hboth : c.Resting ∧ AssigneesFollow tr c := by
    refine h.keepTrace (P := fun tr c => c.Resting ∧ AssigneesFollow tr c) ?_ ⟨h₀.resting, ?_⟩
    · intro tr c action c' ⟨hrest, hf⟩ hen hok
      refine ⟨hrest.perform hen hok, ?_⟩
      cases hcomplete : action.isComplete with
      | false => exact hf.other hrest hen hok hcomplete
      | true =>
        cases action with
        | complete person now => exact AssigneesFollow.complete hrest hen hok
        | _ => exact absurd hcomplete (by simp [Action.isComplete])
    · obtain ⟨⟨invoiceNumber, hval⟩, hnone⟩ := h₀
      refine ⟨?_, ?_, fun hc => absurd ?_ hc⟩
      · simp [hnone]
      · simp [hnone]
      · rw [hval]
        rfl
  exact hboth.2

/-! ## The assignees of a run -/

/-- The argument of `complete` is null or one of `choices0Complete`. -/
def Action.isChosen : Action → Bool
  | .complete (some person) _ => choices0Complete.contains person
  | _ => true

/-- **Who the tasks of an invoice are assigned to**: nobody for an administrator's task; for a
manager's, the person the last `complete` was called with, who then is a manager. An event without
an actor changes the assignee of no task. -/
theorem assignees_of_run (h₀ : c₀.IsCreated) (h : Run SimpleInvoiceWorkFlow c₀ tr c)
    (hchosen : ∀ step ∈ tr, step.2.isChosen = true) {task : Row SimpleInvoiceTask}
    (htask : task ∈ findByInvoice c.tasks c.invoice.id) :
    (task.val.assignedToRole = some .ADMINISTRATOR → task.val.assignedTo = none) ∧
    (task.val.assignedToRole = some .MANAGER →
      (∃ before now, last? Action.isComplete tr =
        some (before, .complete task.val.assignedTo now)) ∧
      ∀ person, task.val.assignedTo = some person → .MANAGER ∈ person.hasRoles) ∧
    ∀ action arguments c', SimpleInvoiceWorkFlow.enabled c action = true →
      perform c action = .ok c' → action.updatedArguments = some arguments →
      determineActorIfAny ⟨.EXECUTED, arguments⟩ = none →
      ∀ task' ∈ findByInvoice c'.tasks c.invoice.id, task'.id = task.id → task' = task := by
  have hf := assigneesFollow_of_run h₀ h
  have hw := (resting_of_run h₀ h).wellFormed
  refine ⟨hf.administrator task htask, fun hrole => ?_, ?_⟩
  · obtain ⟨before, now, hlast⟩ := hf.manager task htask hrole
    refine ⟨⟨before, now, hlast⟩, fun person hperson => ?_⟩
    rw [hperson] at hlast
    have hchoice := List.contains_iff_mem.mp (hchosen _ (mem_of_last? hlast).1)
    simpa [choices0Complete] using (List.mem_filter.mp hchoice).2
  · intro action arguments c' hen hok harg hactor task' htask' hsame
    obtain ⟨-, hid, htasks⟩ := perform_cases hw hen hok
    rcases htasks with ⟨hsilent, -⟩ | ⟨arguments', s, harg', hs, hmaintain⟩
    · rw [hsilent] at harg
      exact absurd harg (by simp)
    · obtain rfl : arguments = arguments' := Option.some.inj (harg.symm.trans harg')
      rw [hactor] at hmaintain
      have hrow := (Table.mem_select.mp htask).1
      rcases mem_of_maintainTasksFor hs hmaintain (hid ▸ htask') with hbefore | ⟨role, -, -, rfl⟩
      · exact Table.eq_of_id (Table.mem_select.mp hbefore).1 hrow hsame
      · have hlt := c.tasks.ids_lt task hrow
        rw [← hsame] at hlt
        exact absurd hlt (Nat.lt_irrefl _)

/-- A completed invoice that is started from scratch. -/
def reinitialisedCompletion : List Action :=
  [.initializeState, .setAmount (some ⟨500, 0⟩), .setInvoiceType (some .CAPEX),
    .complete (some .OSCAR) ⟨1⟩, .deleteState, .initializeState]

theorem assignees_of_reinitialisedCompletion :
    ∃ before now, last? Action.isComplete
        ((exec SimpleInvoiceWorkFlow .fresh reinitialisedCompletion).get (by decide)).1 =
      some (before, .complete (some .OSCAR) now) :=
  ((assignees_of_run Config.fresh_isCreated (run_exec (l := reinitialisedCompletion) (by decide))
    (by decide) (show (⟨1, 0, some .MANAGER, some .OSCAR⟩ : Row SimpleInvoiceTask) ∈ findByInvoice
      ((exec SimpleInvoiceWorkFlow .fresh reinitialisedCompletion).get (by decide)).2.tasks 0 by
        decide)).2.1 rfl).1

end SimpleInvoice

end WorkflowSketch
