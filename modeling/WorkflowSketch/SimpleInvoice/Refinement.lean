import WorkflowSketch.Lib.Simulate
import WorkflowSketch.SimpleInvoice.Interleaving

/-!
# The workflow without its machinery

A user sees the data and the state of an invoice and its tasks. The source gets there by events in
phases, a slide along the guards and two passes over a store of tasks. Here it is said directly.

* `View.perform`: what an action makes of what is seen, by the table `outcome`. `complete`,
  `approveAsManager` and an `initializeState` without a state lead to the state that the data calls
  for; `initializeState` in a state stays there; `approveAsCountryLeader` leads to `PAYABLE`, or to
  `PAID` if there is a payment; `pay`, `discard` and `reject` lead to `PAID`, `DISCARDED` and `NEW`.
  The tasks are those for the role that has to act on the state, if there is such a role.
* **`view_of_exec`**: of whatever list of actions is attempted, a user sees just that.
-/

namespace WorkflowSketch

open Lib Lib.FirstRepeat Lib.Transact

namespace SimpleInvoice

open SimpleInvoiceTaskRepository SimpleInvoiceTaskService

variable {invoice : SimpleInvoice} {action : Action} {config config' : Config}
  {x : RuntimeException}

/-! ## What a step throws -/

theorem classify_error (h : invoice.classify = .error x) : x = .nullPointerException := by
  unfold classify at h
  split at h
  · exact absurd h (by simp)
  · split at h
    · exact absurd h (by simp)
    · split at h
      · exact absurd h (by simp)
      · split at h
        · exact (Except.error.inj h).symm
        · split at h <;> exact absurd h (by simp)

theorem reclassified_eq_error_iff :
    invoice.reclassified = .error x ↔ x = .nullPointerException ∧ invoice.completedOn ≠ none ∧
      invoice.rejectedOn = none ∧ invoice.approvedByManagerOn ≠ none ∧ invoice.amount = none := by
  cases hout : invoice.reclassified with
  | ok invoice' =>
    have hdata := reclassified_isOk_iff.mp ⟨invoice', hout⟩
    exact iff_of_false (by simp) fun h => hdata h.2
  | error y =>
    have hy := classify_error (map_eq_error_iff.mp hout)
    have hthrows : ¬ ∃ invoice', invoice.reclassified = .ok invoice' := by simp [hout]
    have hdata := not_not.mp (mt reclassified_isOk_iff.mpr hthrows)
    simp [hy, hdata, eq_comm]

/-- **A step throws what its outcome throws.** -/
theorem perform_eq_error_iff (hw : config.invoice.val.WellFormed)
    (hen : action.isEnabled config.invoice.val = true) :
    SimpleInvoice.perform config action = .error x ↔
      outcome action config.invoice.val = .error x := by
  cases harg : action.updatedArguments with
  | none => simp [SimpleInvoice.perform, harg, outcome_of_silent harg, pure, Except.pure]
  | some arguments =>
    rw [← settle_body hw hen harg, perform_eq harg]
    cases settle (action.body config.invoice.val).next
        (config.invoice.val.invoiceState.getD .INIT) with
    | error y => simp [Except.map]
    | ok s =>
      dsimp only
      rw [maintainTasksFor_eq rfl]
      simp [Except.map]

/-! ## What a user sees -/

/-- An invoice with its tasks, by role and assignee. -/
structure View where
  invoice : SimpleInvoice
  tasks : List (Option Role × Option Person)
  deriving DecidableEq

/-- What a user sees of a configuration. -/
def Config.view (config : Config) : View :=
  ⟨config.invoice.val, taskView config.tasks config.invoice.id⟩

/-- The person an action names for the next task. -/
def Action.actor : Action → Option Person
  | .complete assignNextTaskTo _ => assignNextTaskTo
  | _ => none

/-- What an action is to do: to the invoice, by the table `outcome`, and to its tasks if the action
has an event. -/
def View.perform (view : View) (action : Action) : Except RuntimeException View :=
  (outcome action view.invoice).map fun invoice =>
    { invoice := invoice
      tasks :=
        if action.updatedArguments.isSome then
          invoice.invoiceState.elim view.tasks fun s => maintainedView s action.actor view.tasks
        else view.tasks }

/-- A state stays although an amount raised by then calls for a second approval. -/
example : View.perform
    ⟨{ create "I-123" with
        invoiceState := some .PAYABLE, amount := some ⟨20000, 0⟩, completedOn := some ⟨1⟩,
        approvedByManagerOn := some ⟨2⟩ }, []⟩ .initializeState =
    .ok ⟨{ create "I-123" with
        invoiceState := some .PAYABLE, amount := some ⟨20000, 0⟩, completedOn := some ⟨1⟩,
        approvedByManagerOn := some ⟨2⟩ }, []⟩ := by
  decide

/-- **The workflow, as a user sees it.** -/
def SimpleInvoiceView : System View Action RuntimeException where
  enabled view action := action.isEnabled view.invoice
  perform := View.perform

theorem determineActorIfAny_eq {arguments : List (Option Person)}
    (h : action.updatedArguments = some arguments) :
    determineActorIfAny ⟨.EXECUTED, arguments⟩ = action.actor := by
  cases action with
  | complete assignNextTaskTo now => cases h; cases assignNextTaskTo <;> rfl
  | _ => cases h <;> rfl

/-- **One step, as a user sees it.** -/
theorem view_of_perform (hrest : config.Resting)
    (hen : action.isEnabled config.invoice.val = true)
    (hok : SimpleInvoice.perform config action = .ok config') :
    config.view.perform action = .ok config'.view := by
  obtain ⟨hout, hid, htasks⟩ := perform_cases hrest.wellFormed hen hok
  have hview : config.view.invoice = config.invoice.val := rfl
  unfold View.perform
  rw [hview, hout]
  rcases htasks with ⟨hsilent, htasks⟩ | ⟨arguments, s, harg, hs, hmaintain⟩
  · simp [Except.map, hsilent, Config.view, htasks, hid]
  · have htask := taskView_maintainTasksFor hs hmaintain
    rw [determineActorIfAny_eq harg, hid] at htask
    simp [Except.map, harg, hs, Config.view, htask, hid]

theorem view_bisimulation :
    Bisimulation SimpleInvoiceWorkFlow SimpleInvoiceView Eq
      (fun config view => config.Resting ∧ config.view = view) where
  enabled := by
    rintro config _ action _ ⟨-, rfl⟩ rfl
    rfl
  ok := by
    rintro config config' _ action _ ⟨hrest, rfl⟩ rfl hen hok
    exact ⟨config'.view, view_of_perform hrest hen hok, hrest.perform hen hok, rfl⟩
  error := by
    rintro config _ action _ x ⟨hrest, rfl⟩ rfl hen herror
    have hout := (perform_eq_error_iff hrest.wellFormed hen).mp herror
    exact ⟨x, map_eq_error_iff.mpr hout⟩

/-- **What a user sees**: from a created invoice on, whatever actions are attempted, they are
offered, committed and rolled back as they are to be, and between any two of them and in the end the
invoice and its tasks are what they are to be. -/
theorem view_of_exec (h₀ : config.IsCreated) (l : List Action) :
    (exec SimpleInvoiceWorkFlow config l).map
        (fun r => (r.1.map fun step => (step.1.view, step.2), r.2.view)) =
      exec SimpleInvoiceView config.view l := by
  have hrel := view_bisimulation.exec ⟨h₀.resting, rfl⟩ (List.forall₂_refl l)
  generalize exec SimpleInvoiceWorkFlow config l = r at hrel ⊢
  generalize exec SimpleInvoiceView config.view l = r' at hrel ⊢
  cases hrel with
  | none => rfl
  | @some r r' hend =>
    obtain ⟨⟨-, hview⟩, hmatch⟩ := hend
    rw [Option.map_some, hview]
    have htrace : r.1.map (fun step => (step.1.view, step.2)) = r'.1 := by
      rw [← List.forall₂_eq_eq_eq, List.forall₂_map_left_iff]
      exact hmatch.imp fun p q hpq => Prod.ext hpq.1.2 hpq.2
    rw [htrace]

/-- An invoice that is approved: a user sees it payable, without tasks. -/
theorem view_of_approval :
    (exec SimpleInvoiceView Config.fresh.view approval).map (fun r => r.2.tasks) = some [] := by
  rw [← view_of_exec Config.fresh_isCreated approval]
  decide

end SimpleInvoice

end WorkflowSketch
