import WorkflowSketch.Lib.FirstRepeat

/-!
# The workflow state machine (`WorkFlowStateMachineAbstract`)

Model of the interfaces of `domainapp.modules.simple.dom` and of
`WorkFlowStateMachineAbstract.java`, generic in the entity and in its states.

* An entity is any type with a nullable workflow state (`WithWorkFlow`); `none` is `null`. The
  class carries the laws of a getter and a setter over one field.
* A guard reads the entity and may throw, so it returns `Except RuntimeException Bool`. Guards are
  pure: `isSatisfiedFor` takes a `final` entity and no guard of the repository writes to it.
* `transitionLoop` is the `while` loop of `transition`, with an explicit fuel; `none` is "not yet
  ended". On a finite state type `transition` is the loop with as much fuel as there are states,
  which is always enough, so there it is a total function.
* An exception thrown by a guard leaves `transition` by the same exception.

**`transition_eq`** connects the loop to the library: `transition` settles the step function
`next`, which reads everything but the state from the entity it started with.
-/

namespace WorkflowSketch

open Lib.FirstRepeat

/-- The exception the modelled code throws, and two that JDO throws for the datastore. -/
inductive RuntimeException where
  | nullPointerException
  | jdoFatalUserException
  | jdoDataStoreException
  deriving DecidableEq, Repr

/-- How a call through `WrapperFactory.wrap` fails: the member is hidden or disabled, its arguments
are refused, or the call itself throws. -/
inductive WrappedException where
  | hiddenException
  | disabledException
  | invalidException
  | runtimeException (x : RuntimeException)
  deriving DecidableEq, Repr

section Except

variable {α β ε δ : Type*} {f : α → β} {x : Except ε α}

theorem mapError_eq_ok_iff {g : ε → δ} {a : α} : x.mapError g = .ok a ↔ x = .ok a := by
  cases x <;> simp [Except.mapError]

theorem mapError_eq_error_iff {g : ε → δ} {e : δ} :
    x.mapError g = .error e ↔ ∃ y, x = .error y ∧ e = g y := by
  cases x <;> simp [Except.mapError, eq_comm]

theorem map_eq_ok_iff {b : β} : x.map f = .ok b ↔ ∃ a, x = .ok a ∧ f a = b := by
  cases x <;> simp [Except.map]

theorem map_eq_error_iff {e : ε} : x.map f = .error e ↔ x = .error e := by
  cases x <;> simp [Except.map]

end Except

/-- `AbstractDomainEvent.Phase`: the framework publishes an event in each of them in turn. -/
inductive Phase where
  | HIDE | DISABLE | VALIDATE | EXECUTING | EXECUTED
  deriving DecidableEq, Repr

/-- `Phase.isExecuted`: the body of the action has run. -/
def Phase.isExecuted : Phase → Bool
  | .EXECUTED => true
  | _ => false

/-- `Phase.isExecutingOrLater`: the action was accepted, and its body is about to run or has run. -/
def Phase.isExecutingOrLater : Phase → Bool
  | .EXECUTING | .EXECUTED => true
  | _ => false

/-- `WithWorkFlow`: an entity of type `ε` with a nullable state in `σ`. -/
class WithWorkFlow (ε : Type*) (σ : outParam Type*) where
  getWorkFlowState : ε → Option σ
  setWorkFlowState : ε → Option σ → ε
  get_set : ∀ e s, getWorkFlowState (setWorkFlowState e s) = s
  set_get : ∀ e, setWorkFlowState e (getWorkFlowState e) = e
  set_set : ∀ e s t, setWorkFlowState (setWorkFlowState e s) t = setWorkFlowState e t

open WithWorkFlow

/-- `TargetAndGuard`, with `Guard.isSatisfiedFor` as the guard. -/
structure TargetAndGuard (ε σ : Type*) where
  target : σ
  guard : ε → Except RuntimeException Bool

/-- What a concrete state machine adds to the abstract one: the state `initialise` sets, and
`WorkFlowState.canTransitionTo` of its states. -/
structure WorkFlow (ε σ : Type*) where
  initial : σ
  canTransitionTo : σ → List (TargetAndGuard ε σ)

namespace WorkFlow

variable {ε σ : Type*} [WithWorkFlow ε σ] (W : WorkFlow ε σ)

/-- `initialise`. -/
def initialise (e : ε) : ε := setWorkFlowState e (some W.initial)

/-- The loop of `transitionToNext`: the target of the first satisfied guard, else `current`. -/
def firstSatisfied (e : ε) (current : σ) :
    List (TargetAndGuard ε σ) → Except RuntimeException σ
  | [] => .ok current
  | targetAndGuard :: rest =>
    match targetAndGuard.guard e with
    | .ok true => .ok targetAndGuard.target
    | .ok false => firstSatisfied e current rest
    | .error x => .error x

omit [WithWorkFlow ε σ] in
/-- **The first satisfied guard** has only unsatisfied ones before it; without one, `current`. -/
theorem firstSatisfied_eq_ok_iff {e : ε} {current s : σ} {l : List (TargetAndGuard ε σ)} :
    firstSatisfied e current l = .ok s ↔
      (∃ before targetAndGuard after, l = before ++ targetAndGuard :: after ∧
        (∀ earlier ∈ before, earlier.guard e = .ok false) ∧
        targetAndGuard.guard e = .ok true ∧ targetAndGuard.target = s) ∨
      (s = current ∧ ∀ targetAndGuard ∈ l, targetAndGuard.guard e = .ok false) := by
  induction l with
  | nil => simp [firstSatisfied, eq_comm]
  | cons tg l ih =>
    simp only [firstSatisfied]
    constructor
    · intro h
      split at h
      · rename_i hg
        exact Or.inl ⟨[], tg, l, rfl, by simp, hg, by simpa using h⟩
      · rename_i hg
        rcases ih.mp h with ⟨before, tg', after, rfl, hbefore, htg', hs⟩ | ⟨hs, hall⟩
        · exact Or.inl ⟨tg :: before, tg', after, rfl,
            List.forall_mem_cons.mpr ⟨hg, hbefore⟩, htg', hs⟩
        · exact Or.inr ⟨hs, List.forall_mem_cons.mpr ⟨hg, hall⟩⟩
      · exact absurd h (by simp)
    · rintro (⟨before, tg', after, hl, hbefore, htg', rfl⟩ | ⟨hs, hall⟩)
      · cases before with
        | nil =>
          obtain ⟨rfl, -⟩ := List.cons.inj hl
          rw [htg']
        | cons tg'' before =>
          obtain ⟨rfl, rfl⟩ := List.cons.inj hl
          obtain ⟨hg, hbefore⟩ := List.forall_mem_cons.mp hbefore
          rw [hg]
          exact ih.mpr (Or.inl ⟨before, tg', after, rfl, hbefore, htg', rfl⟩)
      · obtain ⟨hg, hall⟩ := List.forall_mem_cons.mp hall
        rw [hg]
        exact ih.mpr (Or.inr ⟨hs, hall⟩)

omit [WithWorkFlow ε σ] in
/-- A step stays, or takes a target whose guard is satisfied. -/
theorem target_of_firstSatisfied {e : ε} {current s : σ} {l : List (TargetAndGuard ε σ)}
    (h : firstSatisfied e current l = .ok s) :
    s = current ∨ ∃ targetAndGuard ∈ l,
      targetAndGuard.target = s ∧ targetAndGuard.guard e = .ok true := by
  rcases firstSatisfied_eq_ok_iff.mp h with ⟨before, tg, after, rfl, -, hg, hs⟩ | ⟨hs, -⟩
  · exact Or.inr ⟨tg, by simp, hs, hg⟩
  · exact Or.inl hs

/-- `transitionToNext`: a null state has no `canTransitionTo`. -/
def transitionToNext (e : ε) : Except RuntimeException σ :=
  match getWorkFlowState e with
  | none => .error .nullPointerException
  | some s => firstSatisfied e s (W.canTransitionTo s)

/-- The first statement of `transition`: initialise an entity without a state. -/
def initialiseIfNull (e : ε) : ε :=
  match getWorkFlowState e with
  | none => W.initialise e
  | some _ => e

/-- One step of the slide from state `s`, on the data of `e`. -/
def next (e : ε) (s : σ) : Except RuntimeException σ :=
  W.transitionToNext (setWorkFlowState e (some s))

theorem next_eq (e : ε) (s : σ) :
    W.next e s = firstSatisfied (setWorkFlowState e (some s)) s (W.canTransitionTo s) := by
  unfold next transitionToNext
  rw [get_set]

/-- Guards that read only the data of the entity see it in whatever state it is. -/
theorem next_eq_of_data {e : ε} {s : σ} (h : ∀ targetAndGuard ∈ W.canTransitionTo s,
    targetAndGuard.guard (setWorkFlowState e (some s)) = targetAndGuard.guard e) :
    W.next e s = firstSatisfied e s (W.canTransitionTo s) := by
  rw [next_eq]
  generalize W.canTransitionTo s = l at h
  induction l with
  | nil => rfl
  | cons tg l ih =>
    simp only [firstSatisfied, h tg List.mem_cons_self]
    rw [ih fun tg' htg' => h tg' (List.mem_cons_of_mem tg htg')]

/-- The slide's steps do not read the state the entity was in. -/
theorem next_set (e : ε) (s : Option σ) : W.next (setWorkFlowState e s) = W.next e := by
  funext t
  unfold next
  rw [set_set]

/-- The state the slide starts from. -/
def slideStart (e : ε) : σ := (getWorkFlowState e).getD W.initial

theorem initialiseIfNull_eq (e : ε) :
    W.initialiseIfNull e = setWorkFlowState e (some (W.slideStart e)) := by
  cases h : getWorkFlowState e with
  | none => simp only [initialiseIfNull, slideStart, initialise, h, Option.getD_none]
  | some s =>
    simp only [initialiseIfNull, slideStart, h, Option.getD_some]
    rw [← h, set_get]

section Loop

variable [DecidableEq σ]

/-- The `while` loop of `transition`, for at most `fuel` iterations. -/
def transitionLoop : Nat → List (Option σ) → ε → Option (Except RuntimeException ε)
  | 0, statesVisited, e => if getWorkFlowState e ∈ statesVisited then some (.ok e) else none
  | fuel + 1, statesVisited, e =>
    if getWorkFlowState e ∈ statesVisited then some (.ok e)
    else match W.transitionToNext e with
      | .ok nextState =>
        transitionLoop fuel (statesVisited ++ [getWorkFlowState e])
          (setWorkFlowState e (some nextState))
      | .error x => some (.error x)

/-- **The `while` loop iterates `next` until a state repeats**, and only ever writes the state. -/
theorem transitionLoop_eq (fuel : Nat) (visited : List σ) {e : ε} {s : σ}
    (hs : getWorkFlowState e = some s) :
    W.transitionLoop fuel (visited.map some) e =
      (firstRepeat (W.next e) fuel visited s).map
        (Except.map fun t => setWorkFlowState e (some t)) := by
  have hself : setWorkFlowState e (some s) = e := by rw [← hs]; exact set_get e
  have hmem : some s ∈ visited.map some ↔ s ∈ visited :=
    List.mem_map_of_injective (Option.some_injective σ)
  induction fuel generalizing visited e s with
  | zero =>
    simp only [transitionLoop, firstRepeat, hs, hmem]
    split
    · simp only [Option.map_some, Except.map, hself]
    · rfl
  | succ fuel ih =>
    simp only [transitionLoop, firstRepeat, hs, hmem]
    split
    · simp only [Option.map_some, Except.map, hself]
    · have hnext : W.next e s = W.transitionToNext e := by unfold next; rw [hself]
      rw [hnext]
      cases W.transitionToNext e with
      | error x => rfl
      | ok t =>
        have hget : getWorkFlowState (setWorkFlowState e (some t)) = some t := get_set e (some t)
        have hstep := ih (visited ++ [s]) hget (by rw [set_set])
          (List.mem_map_of_injective (Option.some_injective σ))
        rw [List.map_append, List.map_singleton, next_set] at hstep
        simp only [hstep, set_set]

/-- The loop on an initialised entity, in terms of `next`. -/
theorem transitionLoop_initialised (fuel : Nat) (e : ε) :
    W.transitionLoop fuel [] (W.initialiseIfNull e) =
      (firstRepeat (W.next e) fuel [] (W.slideStart e)).map
        (Except.map fun t => setWorkFlowState e (some t)) := by
  have hloop := W.transitionLoop_eq fuel [] (get_set e (some (W.slideStart e)))
  rw [List.map_nil, next_set] at hloop
  rw [initialiseIfNull_eq, hloop]
  simp only [set_set]

end Loop

section Finite

variable [Fintype σ] [DecidableEq σ]

theorem transitionLoop_isSome (e : ε) :
    (W.transitionLoop (Fintype.card σ) [] (W.initialiseIfNull e)).isSome := by
  rw [transitionLoop_initialised, firstRepeat_eq_settle]
  rfl

/-- **`transition`** on finitely many states. -/
def transition (e : ε) : Except RuntimeException ε :=
  (W.transitionLoop (Fintype.card σ) [] (W.initialiseIfNull e)).get (W.transitionLoop_isSome e)

/-- **`transition` settles the slide** from the entity's state, or from the initial state when it
has none, and writes nothing but the state. -/
theorem transition_eq (e : ε) :
    W.transition e =
      (settle (W.next e) (W.slideStart e)).map fun t => setWorkFlowState e (some t) := by
  unfold transition
  rw [← Option.some_inj, Option.some_get, transitionLoop_initialised, firstRepeat_eq_settle]
  rfl

end Finite

end WorkFlow

end WorkflowSketch
