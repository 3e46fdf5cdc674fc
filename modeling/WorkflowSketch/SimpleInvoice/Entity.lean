import WorkflowSketch.Lib.BigDecimal
import WorkflowSketch.WorkFlow

/-!
# The invoice (`SimpleInvoice.java`, `SimpleInvoiceState.java`)

The invoice's data and the bodies of its actions, its states with their guards and targets, and
the state machine they make (`SimpleInvoiceWorkFlowStateMachine.java`).

* A nullable field is an `Option`. A date is the number of its day; nothing here compares dates.
* `clockService.now()` is a value the caller passes in: the framework's clock, never null.
* `hide…` and `disable…` are the framework's visibility and enablement hooks; `disableComplete`
  returns the reason as the source words it.
* `COMPLETED_PAYABLE` reads the amount without a null check, so that guard can throw; its sibling
  `COMPLETED_APPBYMAN` checks.
-/

namespace WorkflowSketch

open Lib

/-- `org.joda.time.LocalDate`, by day number. -/
structure LocalDate where
  day : Int
  deriving DecidableEq, Repr

/-- `Role`. -/
inductive Role where
  | ADMINISTRATOR | MANAGER | COUNTRY_LEADER | TREASURER
  deriving DecidableEq, Repr

/-- `Person`. -/
inductive Person where
  | JEANNE | AMBROISE | OSCAR | PASCAL | CATHERINE
  deriving DecidableEq, Repr

/-- `Person.hasRoles`. -/
def Person.hasRoles : Person → List Role
  | .JEANNE => [.ADMINISTRATOR]
  | .AMBROISE => [.MANAGER]
  | .OSCAR => [.MANAGER]
  | .PASCAL => [.COUNTRY_LEADER]
  | .CATHERINE => [.TREASURER, .ADMINISTRATOR]

/-- `SimpleInvoiceType`. -/
inductive SimpleInvoiceType where
  | CAPEX | EXPENSE
  deriving DecidableEq, Repr

/-- `SimpleInvoiceState`. -/
inductive SimpleInvoiceState where
  | INIT | NEW | COMPLETED | APPROVED_BY_MANAGER | PAYABLE | PAID | DISCARDED
  deriving DecidableEq, Repr

instance : Fintype SimpleInvoiceState where
  elems := {.INIT, .NEW, .COMPLETED, .APPROVED_BY_MANAGER, .PAYABLE, .PAID, .DISCARDED}
  complete := by intro s; cases s <;> decide

/-- `SimpleInvoice`, without its datastore identity. -/
structure SimpleInvoice where
  invoiceNumber : String
  invoiceState : Option SimpleInvoiceState
  invoiceType : Option SimpleInvoiceType
  amount : Option BigDecimal
  completedOn : Option LocalDate
  approvedByManagerOn : Option LocalDate
  approvedByCountryLeaderOn : Option LocalDate
  paidOn : Option LocalDate
  discardedOn : Option LocalDate
  rejectedOn : Option LocalDate
  deriving DecidableEq, Repr

instance : WithWorkFlow SimpleInvoice SimpleInvoiceState where
  getWorkFlowState invoice := invoice.invoiceState
  setWorkFlowState invoice state := { invoice with invoiceState := state }
  get_set _ _ := rfl
  set_get _ := rfl
  set_set _ _ _ := rfl

namespace SimpleInvoice

/-- The invoice `SimpleInvoiceRepository.create` stores: a number and nothing else. -/
def create (invoiceNumber : String) : SimpleInvoice where
  invoiceNumber := invoiceNumber
  invoiceState := none
  invoiceType := none
  amount := none
  completedOn := none
  approvedByManagerOn := none
  approvedByCountryLeaderOn := none
  paidOn := none
  discardedOn := none
  rejectedOn := none

/-! ## The actions -/

/-- `initializeState` writes nothing; its event lets the state machine run. -/
def initializeState (invoice : SimpleInvoice) : SimpleInvoice := invoice

/-- `deleteState`, which publishes no `Updated` event. -/
def deleteState (invoice : SimpleInvoice) : SimpleInvoice := { invoice with invoiceState := none }

/-- An edit of the type (`Editing.ENABLED`), also to null. -/
def setInvoiceType (invoice : SimpleInvoice) (invoiceType : Option SimpleInvoiceType) :
    SimpleInvoice := { invoice with invoiceType := invoiceType }

/-- An edit of the amount (`Editing.ENABLED`), also to null. -/
def setAmount (invoice : SimpleInvoice) (amount : Option BigDecimal) : SimpleInvoice :=
  { invoice with amount := amount }

/-- `complete`; its argument is only read off the event. -/
def complete (invoice : SimpleInvoice) (now : LocalDate) : SimpleInvoice :=
  { invoice with completedOn := some now, rejectedOn := none }

/-- `choices0Complete`: the managers, in the order of `Person.values()`. -/
def choices0Complete : List Person :=
  [.JEANNE, .AMBROISE, .OSCAR, .PASCAL, .CATHERINE].filter fun x => x.hasRoles.contains .MANAGER

/-- `disableComplete`: the reason to refuse a completion, if there is one. -/
def disableComplete (invoice : SimpleInvoice) : Option String :=
  if invoice.amount = none ∨ invoice.invoiceType = none then
    some "Amount and type are required to complete"
  else none

/-- `hideComplete`: only a new invoice is completed. -/
def hideComplete (invoice : SimpleInvoice) : Bool := invoice.invoiceState != some .NEW

/-- `approveAsManager` sets the date of the approval, over an earlier one if there is one. -/
def approveAsManager (invoice : SimpleInvoice) (now : LocalDate) : SimpleInvoice :=
  { invoice with approvedByManagerOn := some now }

/-- `hideApproveAsManager`: only a completed invoice is approved by a manager. -/
def hideApproveAsManager (invoice : SimpleInvoice) : Bool :=
  invoice.invoiceState != some .COMPLETED

/-- `approveAsCountryLeader`: the second approval, of large amounts. -/
def approveAsCountryLeader (invoice : SimpleInvoice) (now : LocalDate) : SimpleInvoice :=
  { invoice with approvedByCountryLeaderOn := some now }

/-- `hideApproveAsCountryLeader`: only after the approval by a manager. -/
def hideApproveAsCountryLeader (invoice : SimpleInvoice) : Bool :=
  invoice.invoiceState != some .APPROVED_BY_MANAGER

/-- `pay` sets the date of the payment; the amount is not read. -/
def pay (invoice : SimpleInvoice) (now : LocalDate) : SimpleInvoice :=
  { invoice with paidOn := some now }

/-- `hidePay`: only a payable invoice is paid. -/
def hidePay (invoice : SimpleInvoice) : Bool := invoice.invoiceState != some .PAYABLE

/-- `discard` sets the date of the discarding; nothing ever clears it. -/
def discard (invoice : SimpleInvoice) (now : LocalDate) : SimpleInvoice :=
  { invoice with discardedOn := some now }

/-- `hideDiscard`: only a new invoice is discarded. -/
def hideDiscard (invoice : SimpleInvoice) : Bool := invoice.invoiceState != some .NEW

/-- `reject` clears the completion only: the dates of both approvals stay. -/
def reject (invoice : SimpleInvoice) (now : LocalDate) : SimpleInvoice :=
  { invoice with rejectedOn := some now, completedOn := none }

/-- `hideReject`: an invoice is rejected after its completion and before its payment. -/
def hideReject (invoice : SimpleInvoice) : Bool :=
  match invoice.invoiceState with
  | none => true
  | some state =>
    !([.COMPLETED, .APPROVED_BY_MANAGER, .PAYABLE] : List SimpleInvoiceState).contains state

end SimpleInvoice

/-! ## The guards (`SimpleInvoiceGuard`) -/

/-- `SimpleInvoiceState.SimpleInvoiceGuard`. -/
inductive SimpleInvoiceGuard where
  | ALWAYS | NEW_COMPLETED | COMPLETED_PAYABLE | COMPLETED_APPBYMAN | APPBYMAN_PAYABLE
  | PAYABLE_PAID | REJECT | DISCARD
  deriving DecidableEq, Repr

/-- `new BigDecimal("10000.00")`. -/
def approvalThreshold : BigDecimal := ⟨1000000, 2⟩

/-- `SimpleInvoiceGuard.isSatisfiedFor`. -/
def SimpleInvoiceGuard.isSatisfiedFor :
    SimpleInvoiceGuard → SimpleInvoice → Except RuntimeException Bool
  | .ALWAYS, _ => .ok true
  | .NEW_COMPLETED, invoice => .ok invoice.completedOn.isSome
  | .COMPLETED_PAYABLE, invoice =>
    if invoice.rejectedOn.isSome then .ok false
    else if invoice.approvedByManagerOn.isSome then
      match invoice.amount with
      | none => .error .nullPointerException
      | some amount => .ok (amount.compareTo approvalThreshold < 0)
    else .ok false
  | .COMPLETED_APPBYMAN, invoice =>
    if invoice.rejectedOn.isSome then .ok false
    else if invoice.approvedByManagerOn.isSome then
      match invoice.amount with
      | none => .ok false
      | some amount => .ok (amount.compareTo approvalThreshold ≥ 0)
    else .ok false
  | .APPBYMAN_PAYABLE, invoice =>
    if invoice.rejectedOn.isSome then .ok false
    else .ok invoice.approvedByCountryLeaderOn.isSome
  | .PAYABLE_PAID, invoice =>
    if invoice.rejectedOn.isSome then .ok false else .ok invoice.paidOn.isSome
  | .REJECT, invoice => .ok invoice.rejectedOn.isSome
  | .DISCARD, invoice => .ok invoice.discardedOn.isSome

/-! ## The states -/

namespace SimpleInvoiceState

/-- `SimpleInvoiceState.canTransitionTo`, as the enumeration writes it. -/
def targetsAndGuards : SimpleInvoiceState → List (SimpleInvoiceState × SimpleInvoiceGuard)
  | INIT => [(NEW, .ALWAYS)]
  | NEW => [(COMPLETED, .NEW_COMPLETED), (DISCARDED, .DISCARD)]
  | COMPLETED =>
    [(NEW, .REJECT), (APPROVED_BY_MANAGER, .COMPLETED_APPBYMAN), (PAYABLE, .COMPLETED_PAYABLE)]
  | APPROVED_BY_MANAGER => [(PAYABLE, .APPBYMAN_PAYABLE), (NEW, .REJECT)]
  | PAYABLE => [(PAID, .PAYABLE_PAID), (NEW, .REJECT)]
  | PAID => []
  | DISCARDED => []

/-- `SimpleInvoiceState.canTransitionTo`, with each guard as a function of the invoice. -/
def canTransitionTo (state : SimpleInvoiceState) :
    List (TargetAndGuard SimpleInvoice SimpleInvoiceState) :=
  state.targetsAndGuards.map fun tg => ⟨tg.1, tg.2.isSatisfiedFor⟩

/-- `SimpleInvoiceState.hasTaskFor`. -/
def hasTaskFor : SimpleInvoiceState → Option Role
  | INIT => none
  | NEW => some .ADMINISTRATOR
  | COMPLETED => some .MANAGER
  | APPROVED_BY_MANAGER => some .COUNTRY_LEADER
  | PAYABLE => some .TREASURER
  | PAID => none
  | DISCARDED => none

end SimpleInvoiceState

/-- `SimpleInvoiceWorkFlowStateMachine`. -/
def SimpleInvoiceWorkFlowStateMachine : WorkFlow SimpleInvoice SimpleInvoiceState where
  initial := .INIT
  canTransitionTo := SimpleInvoiceState.canTransitionTo

namespace SimpleInvoiceWorkFlowStateMachine

/-- `simpleInvoiceStateMachine.transition`. -/
def transition (invoice : SimpleInvoice) : Except RuntimeException SimpleInvoice :=
  WorkFlow.transition SimpleInvoiceWorkFlowStateMachine invoice

/-- A first approved invoice below the threshold slides from scratch to `PAYABLE`
(`SimpleInvoiceWorkFlowStateMachine_Test.reinitialise_works`). -/
example :
    transition
        { SimpleInvoice.create "I-123" with
          amount := some ⟨999999, 2⟩, completedOn := some ⟨0⟩, approvedByManagerOn := some ⟨0⟩ } =
      .ok
        { SimpleInvoice.create "I-123" with
          invoiceState := some .PAYABLE, amount := some ⟨999999, 2⟩, completedOn := some ⟨0⟩,
          approvedByManagerOn := some ⟨0⟩ } := by
  decide

end SimpleInvoiceWorkFlowStateMachine

end WorkflowSketch
