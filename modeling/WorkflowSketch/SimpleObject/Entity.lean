import Mathlib.Data.List.Infix
import WorkflowSketch.SimpleInvoice.Entity

/-!
# The simple object (`SimpleObject.java`, `SimpleState.java`)

The second workflow of the module: an object with a name and notes, its states, and the state
machine they make (`SimpleWorkFlowStateMachine.java`).

* A Java string is the list of its UTF-16 code units, since `length()` counts those; `contains` is
  being an infix.
* `WorkFlowState` is what `List<WorkFlowState>` ranges over: the states of both enumerations. Two
  states of different enumerations are never equal, although the compiler accepts the comparison.
-/

namespace WorkflowSketch

/-- `java.lang.String`, by UTF-16 code unit. -/
abbrev JavaString := List UInt16

namespace JavaString

/-- A literal of ASCII characters. -/
def ofAscii (s : List Char) : JavaString := s.map fun c => c.toNat.toUInt16

/-- `String.contains`. -/
def contains (s t : JavaString) : Bool := decide (t <:+: s)

end JavaString

/-- `SimpleState`. -/
inductive SimpleState where
  | INIT | NEW | COMPLETED | DISCARDED
  deriving DecidableEq, Repr

instance : Fintype SimpleState where
  elems := {.INIT, .NEW, .COMPLETED, .DISCARDED}
  complete := by intro s; cases s <;> decide

/-- `WorkFlowState`: a state of one of the two enumerations that implement it. -/
inductive WorkFlowState where
  | simpleState (state : SimpleState)
  | simpleInvoiceState (state : SimpleInvoiceState)
  deriving DecidableEq, Repr

/-- `SimpleRole`. -/
inductive SimpleRole where
  | A_SIMPLE_ROLE
  deriving DecidableEq, Repr

/-- `SimpleObject`, without its datastore identity. -/
structure SimpleObject where
  name : JavaString
  notes : Option JavaString
  state : Option SimpleState
  deriving DecidableEq, Repr

instance : WithWorkFlow SimpleObject SimpleState where
  getWorkFlowState object := object.state
  setWorkFlowState object state := { object with state := state }
  get_set _ _ := rfl
  set_get _ := rfl
  set_set _ _ _ := rfl

namespace SimpleObject

/-- `new SimpleObject(name)`. -/
def create (name : JavaString) : SimpleObject := { name := name, notes := none, state := none }

/-- `updateName`; the event around it lets the state machine run. -/
def updateName (object : SimpleObject) (name : JavaString) : SimpleObject :=
  { object with name := name }

/-- `validate0UpdateName`: the reason to refuse the name, if there is one. -/
def validate0UpdateName (name : JavaString) : Option String :=
  if name.contains (.ofAscii ['!']) then some "Exclamation mark is not allowed" else none

/-- An edit of the notes (`Editing.ENABLED`), also to null; it has no event. -/
def setNotes (object : SimpleObject) (notes : Option JavaString) : SimpleObject :=
  { object with notes := notes }

/-- The notes are not null and contain the word. -/
def notesContain (object : SimpleObject) (word : JavaString) : Bool :=
  object.notes.any fun notes => notes.contains word

end SimpleObject

/-- The word that discards an object. -/
def discardWord : JavaString := .ofAscii ['d', 'i', 's', 'c', 'a', 'r', 'd']

/-- The word that revives a discarded object. -/
def reviveWord : JavaString := .ofAscii ['r', 'e', 'v', 'i', 'v', 'e']

/-- `SimpleState.SimpleGuard`. -/
inductive SimpleGuard where
  | ALWAYS | NEW_COMPLETED | DISCARDED_NEW | DISCARD
  deriving DecidableEq, Repr

/-- `SimpleGuard.isSatisfiedFor`; the name is never null. -/
def SimpleGuard.isSatisfiedFor : SimpleGuard → SimpleObject → Except RuntimeException Bool
  | .ALWAYS, _ => .ok true
  | .NEW_COMPLETED, object => .ok (object.name.length > 10)
  | .DISCARDED_NEW, object =>
    .ok (object.notesContain reviveWord && !object.notesContain discardWord)
  | .DISCARD, object => .ok (object.notesContain discardWord)

namespace SimpleState

/-- `SimpleState.canTransitionTo`, as the enumeration writes it. -/
def targetsAndGuards : SimpleState → List (SimpleState × SimpleGuard)
  | INIT => [(NEW, .ALWAYS)]
  | NEW => [(COMPLETED, .NEW_COMPLETED), (DISCARDED, .DISCARD)]
  | COMPLETED => []
  | DISCARDED => [(NEW, .DISCARDED_NEW)]

/-- `SimpleState.canTransitionTo`, with each guard as a function of the object. -/
def canTransitionTo (state : SimpleState) : List (TargetAndGuard SimpleObject SimpleState) :=
  state.targetsAndGuards.map fun tg => ⟨tg.1, tg.2.isSatisfiedFor⟩

/-- `SimpleState.hasTaskFor`. -/
def hasTaskFor : SimpleState → Option SimpleRole
  | INIT => none
  | NEW => some .A_SIMPLE_ROLE
  | COMPLETED => none
  | DISCARDED => none

end SimpleState

/-- `SimpleWorkFlowStateMachine`. -/
def SimpleWorkFlowStateMachine : WorkFlow SimpleObject SimpleState where
  initial := .INIT
  canTransitionTo := SimpleState.canTransitionTo

namespace SimpleWorkFlowStateMachine

/-- `simpleWorkFlowStateMachine.transition`. -/
def transition (object : SimpleObject) : Except RuntimeException SimpleObject :=
  WorkFlow.transition SimpleWorkFlowStateMachine object

/-- Revived notes bring a discarded object back to `NEW`. -/
example : transition ⟨.ofAscii ['F', 'o', 'o'], some reviveWord, some .DISCARDED⟩ =
    .ok ⟨.ofAscii ['F', 'o', 'o'], some reviveWord, some .NEW⟩ := by
  decide

end SimpleWorkFlowStateMachine

end WorkflowSketch
