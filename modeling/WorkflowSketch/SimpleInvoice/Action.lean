import WorkflowSketch.Lib.Transact
import WorkflowSketch.SimpleInvoice.Resting
import WorkflowSketch.SimpleInvoice.Task

/-!
# Acting on an invoice (`SimpleInvoice.java`, `SimpleInvoiceWorkFlowSubscriber.java`)

One invoice next to the store of tasks, and everything a user can do to it: the actions, each when
its `hide…` and `disable…` methods allow it, and the edits of the type and the amount, at any time.

* The framework publishes an action's domain event around its body; the subscriber reacts to the
  executed phase by a slide and by maintaining the tasks. `deleteState` and the edits publish no
  `Updated`.
* `SimpleInvoiceWorkFlow` is the transactional system these make: an action whose handling throws
  is rolled back.

Results:

* **`settle_body`**: from a well-formed invoice, where the slide after an action ends, in closed
  form (`outcome`).
* **`perform_cases`**: everything that a committed step can have done. The invariants of the
  workflow are read off it.
* **`select_perform`**: a step leaves the tasks of other invoices alone.
* **`perform_isOk_iff`**: the one way in which the handling of an event fails.
-/

namespace WorkflowSketch

open Lib Lib.FirstRepeat Lib.Transact

namespace SimpleInvoice

/-! ## The actions -/

/-- An action of the menu with its arguments, or an edit of a property; `now` is what
`clockService.now()` answers while the action runs. -/
inductive Action where
  | initializeState
  | deleteState
  | setInvoiceType (invoiceType : Option SimpleInvoiceType)
  | setAmount (amount : Option BigDecimal)
  | complete (assignNextTaskTo : Option Person) (now : LocalDate)
  | approveAsManager (now : LocalDate)
  | approveAsCountryLeader (now : LocalDate)
  | pay (now : LocalDate)
  | discard (now : LocalDate)
  | reject (now : LocalDate)
  deriving DecidableEq, Repr

namespace Action

/-- The action's method, or the setter behind the edit. -/
def body : Action → SimpleInvoice → SimpleInvoice
  | initializeState, invoice => invoice.initializeState
  | deleteState, invoice => invoice.deleteState
  | setInvoiceType invoiceType, invoice => invoice.setInvoiceType invoiceType
  | setAmount amount, invoice => invoice.setAmount amount
  | complete _ now, invoice => invoice.complete now
  | approveAsManager now, invoice => invoice.approveAsManager now
  | approveAsCountryLeader now, invoice => invoice.approveAsCountryLeader now
  | pay now, invoice => invoice.pay now
  | discard now, invoice => invoice.discard now
  | reject now, invoice => invoice.reject now

/-- The action is visible and enabled: its `hide…` and `disable…` methods, where it has them. -/
def isEnabled : Action → SimpleInvoice → Bool
  | initializeState, _ => true
  | deleteState, _ => true
  | setInvoiceType _, _ => true
  | setAmount _, _ => true
  | complete _ _, invoice => !invoice.hideComplete && invoice.disableComplete.isNone
  | approveAsManager _, invoice => !invoice.hideApproveAsManager
  | approveAsCountryLeader _, invoice => !invoice.hideApproveAsCountryLeader
  | pay _, invoice => !invoice.hidePay
  | discard _, invoice => !invoice.hideDiscard
  | reject _, invoice => !invoice.hideReject

/-- The arguments of the `Updated` event the action publishes, if it publishes one. -/
def updatedArguments : Action → Option (List (Option Person))
  | initializeState => some []
  | deleteState => none
  | setInvoiceType _ => none
  | setAmount _ => none
  | complete assignNextTaskTo _ => some [assignNextTaskTo]
  | approveAsManager _ => some []
  | approveAsCountryLeader _ => some []
  | pay _ => some []
  | discard _ => some []
  | reject _ => some []

end Action

/-! ## The subscriber -/

/-- `SimpleInvoice.Updated`; its source is the invoice the action is called on. -/
structure Updated where
  eventPhase : Phase
  arguments : List (Option Person)
  deriving DecidableEq, Repr

/-- An invoice, next to the store of the tasks of all invoices. -/
structure Config where
  invoice : Row SimpleInvoice
  tasks : Table SimpleInvoiceTask

/-- Write the invoice. -/
def Config.update (config : Config) (f : SimpleInvoice → SimpleInvoice) : Config :=
  { config with invoice := ⟨config.invoice.id, f config.invoice.val⟩ }

/-- `SimpleInvoiceWorkFlowSubscriber.determineActorIfAny`. -/
def determineActorIfAny (e : Updated) : Option Person :=
  match e.arguments with
  | some person :: _ => some person
  | _ => none

/-- `SimpleInvoiceWorkFlowSubscriber.onUpdatedEvent`. -/
def onUpdatedEvent (e : Updated) (config : Config) : Except RuntimeException Config :=
  if e.eventPhase.isExecuted then do
    let invoice ← SimpleInvoiceWorkFlowStateMachine.transition config.invoice.val
    let config := config.update fun _ => invoice
    let actor := determineActorIfAny e
    let tasks ← SimpleInvoiceTaskService.maintainTasksFor config.tasks config.invoice actor
    return { config with tasks := tasks }
  else return config

/-- The action, as the framework calls it: the body, and the event in its phases around it. -/
def perform (config : Config) (action : Action) : Except RuntimeException Config :=
  match action.updatedArguments with
  | none => return config.update action.body
  | some arguments => do
    let config ← onUpdatedEvent ⟨.EXECUTING, arguments⟩ config
    onUpdatedEvent ⟨.EXECUTED, arguments⟩ (config.update action.body)

/-- **The workflow of one invoice.** -/
def SimpleInvoiceWorkFlow : System Config Action RuntimeException where
  enabled config action := action.isEnabled config.invoice.val
  perform := perform

/-- The invoice was just created: no task refers to it yet. -/
def Config.IsCreated (config : Config) : Prop :=
  (∃ invoiceNumber, config.invoice.val = create invoiceNumber) ∧
    SimpleInvoiceTaskRepository.findByInvoice config.tasks config.invoice.id = []

/-- The first invoice of an empty store. -/
def Config.fresh : Config := ⟨⟨0, create "I-123"⟩, Table.empty⟩

theorem Config.fresh_isCreated : Config.fresh.IsCreated := ⟨⟨"I-123", rfl⟩, rfl⟩

/-- A history of an invoice below the threshold, completed and approved. -/
def approval : List Action :=
  [.initializeState, .setAmount (some ⟨500, 0⟩), .setInvoiceType (some .CAPEX),
    .complete (some .OSCAR) ⟨1⟩, .approveAsManager ⟨2⟩]

/-- The same, and paid. -/
def payment : List Action := approval ++ [.pay ⟨3⟩]

variable {config config' : Config} {invoice : SimpleInvoice} {action : Action}
  {arguments : List (Option Person)}

@[simp] theorem Config.update_invoice_val (f : SimpleInvoice → SimpleInvoice) :
    (config.update f).invoice.val = f config.invoice.val := rfl

@[simp] theorem Config.update_tasks (f : SimpleInvoice → SimpleInvoice) :
    (config.update f).tasks = config.tasks := rfl

/-- Before the executed phase the subscriber does nothing. -/
theorem onUpdatedEvent_of_not_isExecuted {e : Updated} (h : e.eventPhase.isExecuted = false) :
    onUpdatedEvent e config = .ok config := by
  unfold onUpdatedEvent
  rw [h]
  rfl

/-! ## The slide after an action -/

@[simp] theorem isEnabled_complete {assignNextTaskTo : Option Person} {now : LocalDate} :
    (Action.complete assignNextTaskTo now).isEnabled invoice = true ↔
      invoice.invoiceState = some .NEW ∧ invoice.amount ≠ none ∧ invoice.invoiceType ≠ none := by
  simp only [Action.isEnabled, hideComplete, disableComplete]
  split
  · rename_i hmissing
    rcases hmissing with ha | ht
    · simp [ha]
    · simp [ht]
  · rename_i hpresent
    rw [not_or] at hpresent
    simp [hpresent.1, hpresent.2]

@[simp] theorem isEnabled_approveAsManager {now : LocalDate} :
    (Action.approveAsManager now).isEnabled invoice = true ↔
      invoice.invoiceState = some .COMPLETED := by
  simp [Action.isEnabled, hideApproveAsManager]

@[simp] theorem isEnabled_approveAsCountryLeader {now : LocalDate} :
    (Action.approveAsCountryLeader now).isEnabled invoice = true ↔
      invoice.invoiceState = some .APPROVED_BY_MANAGER := by
  simp [Action.isEnabled, hideApproveAsCountryLeader]

@[simp] theorem isEnabled_pay {now : LocalDate} :
    (Action.pay now).isEnabled invoice = true ↔ invoice.invoiceState = some .PAYABLE := by
  simp [Action.isEnabled, hidePay]

@[simp] theorem isEnabled_discard {now : LocalDate} :
    (Action.discard now).isEnabled invoice = true ↔ invoice.invoiceState = some .NEW := by
  simp [Action.isEnabled, hideDiscard]

@[simp] theorem isEnabled_reject {now : LocalDate} :
    (Action.reject now).isEnabled invoice = true ↔
      invoice.invoiceState = some .COMPLETED ∨
        invoice.invoiceState = some .APPROVED_BY_MANAGER ∨
        invoice.invoiceState = some .PAYABLE := by
  simp only [Action.isEnabled, hideReject]
  cases invoice.invoiceState with
  | none => simp
  | some s => cases s <;> simp

/-- No action that publishes `Updated` writes the state itself. -/
theorem body_invoiceState (h : action.updatedArguments = some arguments) :
    (action.body invoice).invoiceState = invoice.invoiceState := by
  cases action <;> first | rfl | exact absurd h (by simp [Action.updatedArguments])

/-- Where the slide of the machine ends, in terms of `next`. -/
theorem transition_eq (invoice : SimpleInvoice) :
    SimpleInvoiceWorkFlowStateMachine.transition invoice =
      (settle invoice.next (invoice.invoiceState.getD .INIT)).map invoice.inState :=
  WorkFlow.transition_eq SimpleInvoiceWorkFlowStateMachine invoice

/-- **A handled action**: the slide decides whether it throws, and in which state it ends. -/
theorem perform_eq (h : action.updatedArguments = some arguments) :
    perform config action =
      match settle (action.body config.invoice.val).next
          (config.invoice.val.invoiceState.getD .INIT) with
      | .error x => .error x
      | .ok s =>
        let config := config.update fun invoice => (action.body invoice).inState s
        (SimpleInvoiceTaskService.maintainTasksFor config.tasks config.invoice
          (determineActorIfAny ⟨.EXECUTED, arguments⟩)).map
            fun tasks => { config with tasks := tasks } := by
  have hslide := transition_eq (action.body config.invoice.val)
  rw [body_invoiceState h] at hslide
  unfold perform
  rw [h]
  simp only [onUpdatedEvent_of_not_isExecuted (e := ⟨.EXECUTING, arguments⟩) rfl]
  simp only [onUpdatedEvent, Phase.isExecuted, bind, Except.bind, if_true,
    Config.update_invoice_val, hslide]
  cases settle (action.body config.invoice.val).next
    (config.invoice.val.invoiceState.getD .INIT) with
  | error x => rfl
  | ok s =>
    simp only [Except.map]
    rfl

/-! ## The outcome in closed form -/

/-- The invoice, in the state its data calls for. -/
def reclassified (invoice : SimpleInvoice) : Except RuntimeException SimpleInvoice :=
  invoice.classify.map invoice.inState

/-- What is to become of a well-formed invoice on which an enabled action is executed. -/
def outcome : Action → SimpleInvoice → Except RuntimeException SimpleInvoice
  | .initializeState, invoice =>
    if invoice.invoiceState = none then invoice.reclassified else .ok invoice
  | .deleteState, invoice => .ok invoice.deleteState
  | .setInvoiceType invoiceType, invoice => .ok (invoice.setInvoiceType invoiceType)
  | .setAmount amount, invoice => .ok (invoice.setAmount amount)
  | .complete _ now, invoice => (invoice.complete now).reclassified
  | .approveAsManager now, invoice => (invoice.approveAsManager now).reclassified
  | .approveAsCountryLeader now, invoice =>
    .ok ((invoice.approveAsCountryLeader now).inState
      (if invoice.paidOn = none then .PAYABLE else .PAID))
  | .pay now, invoice => .ok ((invoice.pay now).inState .PAID)
  | .discard now, invoice => .ok ((invoice.discard now).inState .DISCARDED)
  | .reject now, invoice => .ok ((invoice.reject now).inState .NEW)

/-- A rejection leads back to `NEW` from each state it is offered in. -/
theorem settle_reject {now : LocalDate} {s : SimpleInvoiceState}
    (hs : s = .COMPLETED ∨ s = .APPROVED_BY_MANAGER ∨ s = .PAYABLE)
    (hd : invoice.discardedOn = none) : settle (invoice.reject now).next s = .ok .NEW := by
  have hstep : (invoice.reject now).next s = .ok .NEW := by
    rcases hs with rfl | rfl | rfl
    · exact next_COMPLETED_of_rejected (by simp [reject])
    · simp [next_APPROVED_BY_MANAGER, reject]
    · simp [next_PAYABLE, reject]
  have hnew : (invoice.reject now).next .NEW = .ok .NEW := by simp [next_NEW, reject, hd]
  have hne : s ≠ .NEW := by rcases hs with rfl | rfl | rfl <;> simp
  exact settle_eq_ok_iff.mpr
    ⟨[s, .NEW], .cons hstep (.cons hnew (.nil _)), by simpa using hne, by simp⟩

/-- **The slide after an action**, from a well-formed invoice. -/
theorem settle_body (hw : invoice.WellFormed) (hen : action.isEnabled invoice = true)
    (h : action.updatedArguments = some arguments) :
    (settle (action.body invoice).next (invoice.invoiceState.getD .INIT)).map
      (action.body invoice).inState = outcome action invoice := by
  cases action with
  | deleteState => exact absurd h (by simp [Action.updatedArguments])
  | setInvoiceType invoiceType => exact absurd h (by simp [Action.updatedArguments])
  | setAmount amount => exact absurd h (by simp [Action.updatedArguments])
  | initializeState =>
    cases hs : invoice.invoiceState with
    | none =>
      simp only [outcome, hs, Option.getD_none, if_true, reclassified]
      exact congrArg _ settle_INIT
    | some s =>
      have hstable : invoice.next s = .ok s := (hw.fits s hs).stable
      simp only [outcome, hs, Option.getD_some, reduceCtorEq, if_false, Action.body,
        initializeState, settle_of_fixed hstable, Except.map, inState]
      rw [← hs]
  | complete assignNextTaskTo now =>
    rw [(isEnabled_complete.mp hen).1]
    exact congrArg _ settle_NEW
  | approveAsManager now =>
    have hs := isEnabled_approveAsManager.mp hen
    obtain ⟨hc, hr, -⟩ := hw.fits .COMPLETED hs
    rw [hs]
    exact congrArg _ (settle_COMPLETED hc hr)
  | approveAsCountryLeader now =>
    have hs := isEnabled_approveAsCountryLeader.mp hen
    have hr : (invoice.approveAsCountryLeader now).rejectedOn = none :=
      (hw.fits .APPROVED_BY_MANAGER hs).2.1
    rw [hs]
    exact congrArg _ (settle_APPROVED_BY_MANAGER hr)
  | pay now =>
    have hs := isEnabled_pay.mp hen
    have hr : (invoice.pay now).rejectedOn = none := (hw.fits .PAYABLE hs).2.1
    rw [hs]
    exact congrArg _ (settle_PAYABLE hr)
  | discard now =>
    have hs := isEnabled_discard.mp hen
    have hclassify : (invoice.discard now).classify = .ok .DISCARDED := by
      simp [classify, discard, (hw.fits .NEW hs).1]
    rw [hs]
    exact congrArg _ (settle_NEW.trans hclassify)
  | reject now =>
    obtain ⟨s, hs, hrejectable⟩ : ∃ s, invoice.invoiceState = some s ∧
        (s = .COMPLETED ∨ s = .APPROVED_BY_MANAGER ∨ s = .PAYABLE) := by
      rcases isEnabled_reject.mp hen with hs | hs | hs
      · exact ⟨_, hs, by simp⟩
      · exact ⟨_, hs, by simp⟩
      · exact ⟨_, hs, by simp⟩
    have hc : invoice.completedOn ≠ none := by
      have hfits := hw.fits s hs
      rcases hrejectable with rfl | rfl | rfl <;> exact hfits.1
    have hd : invoice.discardedOn = none := hw.completed_or_discarded.resolve_left hc
    rw [hs]
    exact congrArg _ (settle_reject hrejectable hd)

/-! ## What a step can do -/

/-- An action that publishes no `Updated` event has its body as outcome. -/
theorem outcome_of_silent (h : action.updatedArguments = none) :
    outcome action invoice = .ok (action.body invoice) := by
  cases action <;> first | rfl | exact absurd h (by simp [Action.updatedArguments])

/-- A committed step on any invoice: the body alone, or the body, the slide and the tasks. -/
theorem perform_eq_ok (h : perform config action = .ok config') :
    (action.updatedArguments = none ∧ config' = config.update action.body) ∨
      ∃ arguments s, action.updatedArguments = some arguments ∧
        settle (action.body config.invoice.val).next (config.invoice.val.invoiceState.getD .INIT) =
          .ok s ∧
        config'.invoice = ⟨config.invoice.id, (action.body config.invoice.val).inState s⟩ ∧
        SimpleInvoiceTaskService.maintainTasksFor config.tasks config'.invoice
          (determineActorIfAny ⟨.EXECUTED, arguments⟩) = .ok config'.tasks := by
  cases harg : action.updatedArguments with
  | none =>
    simp only [perform, harg] at h
    cases h
    exact Or.inl ⟨rfl, rfl⟩
  | some arguments =>
    rw [perform_eq harg] at h
    cases hsettle : settle (action.body config.invoice.val).next
        (config.invoice.val.invoiceState.getD .INIT) with
    | error x => rw [hsettle] at h; exact absurd h (by simp)
    | ok s =>
      rw [hsettle] at h
      dsimp only at h
      cases htasks : SimpleInvoiceTaskService.maintainTasksFor config.tasks
          (config.update fun invoice => (action.body invoice).inState s).invoice
          (determineActorIfAny ⟨.EXECUTED, arguments⟩) with
      | error x => rw [Config.update_tasks, htasks] at h; exact absurd h (by simp [Except.map])
      | ok tasks =>
        rw [Config.update_tasks, htasks] at h
        cases h
        exact Or.inr ⟨arguments, s, rfl, rfl, rfl, htasks⟩

/-- **A step leaves the tasks of other invoices alone.** -/
theorem select_perform {p : SimpleInvoiceTask → Bool} (h : perform config action = .ok config')
    (hp : ∀ task, task.invoice = config.invoice.id → p task = false) :
    config'.tasks.select p = config.tasks.select p := by
  rcases perform_eq_ok h with ⟨-, rfl⟩ | ⟨arguments, s, -, -, hinvoice, hmaintain⟩
  · rfl
  · rw [hinvoice] at hmaintain
    exact SimpleInvoiceTaskService.select_maintainTasksFor rfl hmaintain hp

/-- **Everything a committed step can have done**, from a well-formed invoice. The tasks are touched
by the handling of an event only. -/
theorem perform_cases (hw : config.invoice.val.WellFormed)
    (hen : action.isEnabled config.invoice.val = true) (h : perform config action = .ok config') :
    outcome action config.invoice.val = .ok config'.invoice.val ∧
      config'.invoice.id = config.invoice.id ∧
      ((action.updatedArguments = none ∧ config'.tasks = config.tasks) ∨
        ∃ arguments s, action.updatedArguments = some arguments ∧
          config'.invoice.val.invoiceState = some s ∧
          SimpleInvoiceTaskService.maintainTasksFor config.tasks config'.invoice
            (determineActorIfAny ⟨.EXECUTED, arguments⟩) = .ok config'.tasks) := by
  rcases perform_eq_ok h with ⟨harg, rfl⟩ | ⟨arguments, s, harg, hsettle, hinvoice, hmaintain⟩
  · exact ⟨outcome_of_silent harg, rfl, Or.inl ⟨harg, rfl⟩⟩
  · have hslide := settle_body hw hen harg
    rw [hsettle] at hslide
    refine ⟨?_, ?_, Or.inr ⟨arguments, s, harg, ?_, hmaintain⟩⟩
    · rw [hinvoice]
      exact hslide.symm
    · rw [hinvoice]
    · rw [hinvoice]
      rfl

/-- **The one way in which a step fails**: its outcome is the exception of a guard. -/
theorem perform_isOk_iff (hw : config.invoice.val.WellFormed)
    (hen : action.isEnabled config.invoice.val = true) :
    (∃ config', perform config action = .ok config') ↔
      ∃ invoice, outcome action config.invoice.val = .ok invoice := by
  cases harg : action.updatedArguments with
  | none => simp [perform, harg, outcome_of_silent harg, pure, Except.pure]
  | some arguments =>
    rw [← settle_body hw hen harg, perform_eq harg]
    cases settle (action.body config.invoice.val).next
        (config.invoice.val.invoiceState.getD .INIT) with
    | error x => simp [Except.map]
    | ok s =>
      dsimp only
      rw [SimpleInvoiceTaskService.maintainTasksFor_eq rfl]
      simp [Except.map]

end SimpleInvoice

end WorkflowSketch
