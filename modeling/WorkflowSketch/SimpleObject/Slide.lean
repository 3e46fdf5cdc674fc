import WorkflowSketch.SimpleObject.Entity

/-!
# The slide of a simple object, in closed form

The workflow graph has the cycle `NEW`, `DISCARDED`, `NEW`, but no notes satisfy both guards on it.

* **`transition_eq`**: the slide never throws and ends in `settled`.
* **`transition_eq_of_state`**: from every start state, where it ends, which is a stable state.
-/

namespace WorkflowSketch

open Lib.FirstRepeat

namespace SimpleObject

/-- One step of the slide from state `s` on the object's data. -/
def next (object : SimpleObject) (s : SimpleState) : Except RuntimeException SimpleState :=
  WorkFlow.next SimpleWorkFlowStateMachine object s

/-- The state that the data of a new object calls for. -/
def settledFromNew (object : SimpleObject) : SimpleState :=
  if object.name.length > 10 then .COMPLETED
  else if object.notesContain discardWord then .DISCARDED
  else .NEW

/-- The notes revive a discarded object. -/
def isRevived (object : SimpleObject) : Bool :=
  object.notesContain reviveWord && !object.notesContain discardWord

/-- Where the slide ends. -/
def settled (object : SimpleObject) : SimpleState :=
  match object.state with
  | some .COMPLETED => .COMPLETED
  | some .DISCARDED => if object.isRevived then object.settledFromNew else .DISCARDED
  | _ => object.settledFromNew

variable {object : SimpleObject}

/-! ## One step -/

theorem next_eq (s : SimpleState) :
    object.next s = WorkFlow.firstSatisfied object s s.canTransitionTo := by
  refine WorkFlow.next_eq_of_data _ fun targetAndGuard hmem => ?_
  obtain ⟨⟨target, guard⟩, -, rfl⟩ := List.mem_map.mp hmem
  cases guard <;> rfl

theorem next_INIT : object.next .INIT = .ok .NEW := rfl

theorem next_NEW : object.next .NEW = .ok object.settledFromNew := by
  rw [next_eq]
  simp only [SimpleState.canTransitionTo, SimpleState.targetsAndGuards, List.map_cons,
    List.map_nil, WorkFlow.firstSatisfied, SimpleGuard.isSatisfiedFor, settledFromNew]
  by_cases hlength : object.name.length > 10
  · simp [hlength]
  · cases hdiscard : object.notesContain discardWord <;> simp [hlength]

theorem next_COMPLETED : object.next .COMPLETED = .ok .COMPLETED := rfl

theorem next_DISCARDED :
    object.next .DISCARDED = .ok (if object.isRevived then .NEW else .DISCARDED) := by
  have hguard : SimpleGuard.DISCARDED_NEW.isSatisfiedFor object = .ok object.isRevived := rfl
  rw [next_eq]
  by_cases hrevived : object.isRevived = true
  · simp [SimpleState.canTransitionTo, SimpleState.targetsAndGuards, WorkFlow.firstSatisfied,
      hguard, hrevived]
  · simp [SimpleState.canTransitionTo, SimpleState.targetsAndGuards, WorkFlow.firstSatisfied,
      hguard, hrevived]

/-- No step leads back to `INIT`. -/
theorem next_ne_INIT {s t : SimpleState} (hs : s ≠ .INIT) (h : object.next s = .ok t) :
    t ≠ .INIT := by
  cases s with
  | INIT => exact absurd rfl hs
  | NEW => rw [next_NEW] at h; cases h; unfold settledFromNew; split_ifs <;> simp
  | COMPLETED => rw [next_COMPLETED] at h; cases h; simp
  | DISCARDED => rw [next_DISCARDED] at h; cases h; split_ifs <;> simp

/-! ## The slide -/

theorem settle_COMPLETED : settle object.next .COMPLETED = .ok .COMPLETED :=
  settle_of_fixed next_COMPLETED

/-- From `NEW` one step is enough: the state it leads to is stable. -/
theorem settle_NEW : settle object.next .NEW = .ok object.settledFromNew := by
  have hstep : object.next .NEW = .ok object.settledFromNew := next_NEW
  have hstable : object.next object.settledFromNew = .ok object.settledFromNew := by
    by_cases hlength : object.name.length > 10
    · simp [settledFromNew, hlength, next_COMPLETED]
    · by_cases hdiscard : object.notesContain discardWord = true
      · simp [settledFromNew, hlength, hdiscard, next_DISCARDED, isRevived]
      · simp [next_NEW, settledFromNew, hlength, hdiscard]
  by_cases hnew : object.settledFromNew = .NEW
  · rw [hnew] at hstep ⊢
    exact settle_of_fixed hstep
  · exact settle_eq_ok_iff.mpr ⟨[.NEW, object.settledFromNew],
      .cons hstep (.cons hstable (.nil _)), by simpa using Ne.symm hnew, by simp⟩

theorem settle_INIT : settle object.next .INIT = .ok object.settledFromNew := by
  have hnew : settle object.next .INIT = settle object.next .NEW :=
    settle_step (P := (· ≠ .INIT)) (fun _ _ hs h => next_ne_INIT hs h) next_INIT (by simp)
      (by simp)
  rw [hnew, settle_NEW]

theorem settle_DISCARDED :
    settle object.next .DISCARDED =
      .ok (if object.isRevived then object.settledFromNew else .DISCARDED) := by
  have hstep : object.next .DISCARDED = .ok (if object.isRevived then .NEW else .DISCARDED) :=
    next_DISCARDED
  by_cases hrevived : object.isRevived = true
  · rw [if_pos hrevived] at hstep ⊢
    -- notes that revive do not discard
    have hdiscard : object.notesContain discardWord = false := by
      simpa using (Bool.and_eq_true_iff.mp hrevived).2
    have hkeep : ∀ s t, s ≠ SimpleState.DISCARDED → object.next s = .ok t →
        t ≠ SimpleState.DISCARDED := by
      intro s t hs h
      cases s with
      | INIT => cases h; simp
      | NEW =>
        rw [next_NEW] at h; cases h
        by_cases hlength : object.name.length > 10 <;> simp [settledFromNew, hlength, hdiscard]
      | COMPLETED => cases h; simp
      | DISCARDED => exact absurd rfl hs
    rw [settle_step hkeep hstep (by simp) (by simp), settle_NEW]
  · rw [if_neg hrevived] at hstep ⊢
    exact settle_of_fixed hstep

/-- The object, in the state the slide leads it to. -/
def slid (object : SimpleObject) : SimpleObject := { object with state := some object.settled }

/-- **Where the slide ends**: it never throws, and never stops on the cycle of the graph. -/
theorem transition_eq (object : SimpleObject) :
    SimpleWorkFlowStateMachine.transition object = .ok object.slid := by
  have hslide : SimpleWorkFlowStateMachine.transition object =
      (settle object.next (object.state.getD .INIT)).map
        fun s => { object with state := some s } :=
    WorkFlow.transition_eq SimpleWorkFlowStateMachine object
  rw [hslide]
  unfold slid settled
  cases object.state with
  | none => simp [settle_INIT, Except.map]
  | some s =>
    cases s with
    | INIT => simp [settle_INIT, Except.map]
    | NEW => simp [settle_NEW, Except.map]
    | COMPLETED => simp [settle_COMPLETED, Except.map]
    | DISCARDED => simp [settle_DISCARDED, Except.map]

/-- When the slide ends in `NEW`. -/
def EndsNew (object : SimpleObject) : Prop :=
  object.name.length ≤ 10 ∧ object.notesContain discardWord = false ∧
    object.state ≠ some .COMPLETED ∧
    (object.state = some .DISCARDED → object.notesContain reviveWord = true)

instance (object : SimpleObject) : Decidable object.EndsNew :=
  inferInstanceAs (Decidable (_ ∧ _ ∧ _ ∧ (_ → _)))

theorem settledFromNew_eq_NEW_iff : object.settledFromNew = .NEW ↔
    object.name.length ≤ 10 ∧ object.notesContain discardWord = false := by
  unfold settledFromNew
  by_cases hlength : object.name.length > 10
  · simp [hlength]
  · cases hdiscard : object.notesContain discardWord <;> simp [hlength, Nat.not_lt.mp hlength]

/-- **When the slide ends in `NEW`.** -/
theorem settled_eq_NEW_iff : object.settled = .NEW ↔ object.EndsNew := by
  unfold settled EndsNew
  cases hs : object.state with
  | none => simp [settledFromNew_eq_NEW_iff]
  | some s =>
    cases s with
    | INIT => simp [settledFromNew_eq_NEW_iff]
    | NEW => simp [settledFromNew_eq_NEW_iff]
    | COMPLETED => simp
    | DISCARDED =>
      cases hrevive : object.notesContain reviveWord with
      | false => simp [isRevived, hrevive]
      | true =>
        cases hdiscard : object.notesContain discardWord with
        | false => simp [isRevived, hrevive, hdiscard, settledFromNew_eq_NEW_iff]
        | true => simp [isRevived, hrevive, hdiscard]

/-! ## Stability -/

theorem settledFromNew_ne_INIT : object.settledFromNew ≠ .INIT := by
  unfold settledFromNew
  split_ifs <;> simp

theorem settled_ne_INIT : object.settled ≠ .INIT := by
  unfold settled
  split
  · simp
  · split
    · exact settledFromNew_ne_INIT
    · simp
  · exact settledFromNew_ne_INIT

/-- Notes that revive do not discard: where the slide ends in `DISCARDED` it is not to leave it. -/
theorem isRevived_of_settled (h : object.settled = .DISCARDED) : object.isRevived = false := by
  cases hrevived : object.isRevived with
  | false => rfl
  | true =>
    have hdiscard : object.notesContain discardWord = false := by
      simpa using (Bool.and_eq_true_iff.mp hrevived).2
    have hne : object.settledFromNew ≠ .DISCARDED := by
      simp only [settledFromNew, hdiscard, Bool.false_eq_true, if_false]
      split <;> simp
    unfold settled at h
    split at h
    · exact absurd h (by simp)
    · rw [if_pos hrevived] at h
      exact absurd h hne
    · exact absurd h hne

/-- **The slide ends in a stable state**: none of its guards is satisfied. -/
theorem unsatisfied_settled :
    ∀ tg ∈ object.settled.targetsAndGuards, tg.2.isSatisfiedFor object = .ok false := by
  cases hs : object.settled with
  | INIT => exact absurd hs settled_ne_INIT
  | NEW =>
    obtain ⟨hlength, hdiscard, -⟩ := settled_eq_NEW_iff.mp hs
    simp [SimpleState.targetsAndGuards, SimpleGuard.isSatisfiedFor, hdiscard, hlength]
  | COMPLETED => simp [SimpleState.targetsAndGuards]
  | DISCARDED =>
    have hguard : SimpleGuard.DISCARDED_NEW.isSatisfiedFor object = .ok object.isRevived := rfl
    simp [SimpleState.targetsAndGuards, hguard, isRevived_of_settled hs]

/-- **`transition` in closed form**, from every state: it ends in a stable state, so never on the
cycle of `NEW` and `DISCARDED`, whatever the notes. -/
theorem transition_eq_of_state (object : SimpleObject) :
    ∃ s, SimpleWorkFlowStateMachine.transition object = .ok { object with state := some s } ∧
      (∀ targetAndGuard ∈ s.canTransitionTo,
        targetAndGuard.guard { object with state := some s } = .ok false) ∧
      (object.state = some .COMPLETED → s = .COMPLETED) ∧
      (object.state ∈ [none, some .INIT, some .NEW] →
        s = if object.name.length > 10 then .COMPLETED
          else if object.notesContain discardWord then .DISCARDED
          else .NEW) ∧
      (object.state = some .DISCARDED →
        s = if object.notesContain reviveWord ∧ ¬ object.notesContain discardWord then
            object.settledFromNew
          else .DISCARDED) := by
  refine ⟨object.settled, transition_eq object, fun targetAndGuard hmem => ?_, fun hs => ?_,
    fun hs => ?_, fun hs => ?_⟩
  · obtain ⟨tg, htg, rfl⟩ := List.mem_map.mp hmem
    have hguard : tg.2.isSatisfiedFor { object with state := some object.settled } =
        tg.2.isSatisfiedFor object := by
      cases tg.2 <;> rfl
    exact hguard.trans (unsatisfied_settled tg htg)
  · simp [settled, hs]
  · simp only [List.mem_cons, List.not_mem_nil, or_false] at hs
    rcases hs with hs | hs | hs <;> simp [settled, hs, settledFromNew]
  · simp [settled, hs, isRevived]

end SimpleObject

end WorkflowSketch
