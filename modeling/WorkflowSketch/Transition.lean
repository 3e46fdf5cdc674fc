import Mathlib.Data.Set.Card
import Mathlib.Logic.Relation
import WorkflowSketch.SimpleInvoice.Entity

/-!
# `transition` on any workflow (`WorkFlowStateMachineAbstract.java`)

Nothing here depends on the states of a workflow or on its graph, cycles included. The states may
be infinitely many, as long as finitely many of them are reachable from the start through
`canTransitionTo`; the guards may be anything that answers on the entity.

* `Takes`: the step to the target of the first satisfied guard.
* **`transition_of_finite`**: the loop ends after at most as many iterations as there are reachable
  states, in a stable state or on a cycle of such steps.
* **`transition_idempotent`**: a second `transition` changes nothing. On a cycle it starts where
  the first one stopped, at the first state it came back to.
* **`transition_perm`**: the order of the targets does not matter where at most one guard decides.
-/

namespace WorkflowSketch

open Lib.FirstRepeat WithWorkFlow

namespace WorkFlow

variable {ε σ : Type*} (W : WorkFlow ε σ)

/-- `t` is a target of `s`, whatever its guard says. -/
def HasTarget (s t : σ) : Prop :=
  ∃ targetAndGuard ∈ W.canTransitionTo s, targetAndGuard.target = t

/-- The states reachable through `canTransitionTo`. -/
def reachable (s : σ) : Set σ := {t | Relation.ReflTransGen W.HasTarget s t}

variable [WithWorkFlow ε σ]

/-- Every guard answers on the entity, whatever state it is in. -/
def GuardsAnswer (e : ε) : Prop :=
  ∀ s, ∀ targetAndGuard ∈ W.canTransitionTo s,
    ∃ b, targetAndGuard.guard (setWorkFlowState e (some s)) = .ok b

/-- The step from `s` to the target of the first guard in the list that is satisfied. -/
def Takes (e : ε) (s t : σ) : Prop :=
  ∃ before targetAndGuard after, W.canTransitionTo s = before ++ targetAndGuard :: after ∧
    (∀ earlier ∈ before, earlier.guard (setWorkFlowState e (some s)) = .ok false) ∧
    targetAndGuard.guard (setWorkFlowState e (some s)) = .ok true ∧ targetAndGuard.target = t

variable {W} {e : ε} {s t : σ} {l : List σ}

/-! ## One step -/

/-- A step takes the first target whose guard is satisfied, or stays where none is. -/
theorem next_eq_ok_iff :
    W.next e s = .ok t ↔ W.Takes e s t ∨ (t = s ∧ ∀ targetAndGuard ∈ W.canTransitionTo s,
      targetAndGuard.guard (setWorkFlowState e (some s)) = .ok false) := by
  rw [next_eq, firstSatisfied_eq_ok_iff]
  rfl

theorem Takes.hasTarget (h : W.Takes e s t) : W.HasTarget s t := by
  obtain ⟨before, targetAndGuard, after, hl, -, -, ht⟩ := h
  exact ⟨targetAndGuard, by simp [hl], ht⟩

/-- Where every guard answers, so does the step. -/
theorem GuardsAnswer.next (h : W.GuardsAnswer e) (s : σ) : ∃ t, W.next e s = .ok t := by
  rw [next_eq]
  have hs := h s
  generalize W.canTransitionTo s = l at hs
  induction l with
  | nil => exact ⟨s, rfl⟩
  | cons tg l ih =>
    obtain ⟨⟨b, hb⟩, hl⟩ := List.forall_mem_cons.mp hs
    simp only [firstSatisfied, hb]
    cases b with
    | true => exact ⟨tg.target, rfl⟩
    | false => exact ih hl

theorem mem_reachable_of_next {start : σ} (hs : s ∈ W.reachable start) (h : W.next e s = .ok t) :
    t ∈ W.reachable start := by
  rcases next_eq_ok_iff.mp h with htakes | ⟨rfl, -⟩
  · exact Relation.ReflTransGen.tail hs htakes.hasTarget
  · exact hs

/-! ## The whole slide -/

/-- Along a path of the slide the entity takes targets only, but for a last step that stays. -/
theorem takes_of_path (h : Path (W.next e) s l t) : Relation.ReflTransGen (W.Takes e) s t := by
  induction h with
  | nil => exact Relation.ReflTransGen.refl
  | cons hstep _ ih =>
    rcases next_eq_ok_iff.mp hstep with htakes | ⟨rfl, -⟩
    · exact Relation.ReflTransGen.head htakes ih
    · exact ih

/-- A path back to its start stays there, or goes round a cycle. -/
theorem stable_or_cycle_of_path (h : Path (W.next e) t (t :: l) t) :
    W.next e t = .ok t ∨ Relation.TransGen (W.Takes e) t t := by
  cases h with
  | cons hstep hrest =>
    rcases next_eq_ok_iff.mp hstep with htakes | ⟨rfl, -⟩
    · exact Or.inr (Relation.TransGen.head' htakes (takes_of_path hrest))
    · exact Or.inl hstep

section Loop

variable [DecidableEq σ]

/-- **The slide**, if finitely many states are reachable from its start: a path over distinct
reachable states back to one of them. -/
theorem exists_slide (hfin : (W.reachable (W.slideStart e)).Finite) (hguards : W.GuardsAnswer e) :
    ∃ statesVisited t, Path (W.next e) (W.slideStart e) statesVisited t ∧ statesVisited.Nodup ∧
      t ∈ statesVisited ∧ statesVisited.length ≤ (W.reachable (W.slideStart e)).ncard := by
  rw [Set.ncard_eq_toFinset_card _ hfin]
  refine exists_path_of_finset (fun s hs => ?_)
    (hfin.mem_toFinset.mpr Relation.ReflTransGen.refl)
  obtain ⟨t, ht⟩ := hguards.next s
  exact ⟨t, hfin.mem_toFinset.mpr (mem_reachable_of_next (hfin.mem_toFinset.mp hs) ht), ht⟩

/-- How long the loop runs on a slide, and what it leaves. -/
theorem transitionLoop_of_path (hp : Path (W.next e) (W.slideStart e) l t) (hn : l.Nodup)
    (ht : t ∈ l) (fuel : Nat) :
    W.transitionLoop fuel [] (W.initialiseIfNull e) =
      if l.length ≤ fuel then some (.ok (setWorkFlowState e (some t))) else none := by
  rw [transitionLoop_initialised, firstRepeat_of_path hp hn (by simp) (by simpa using ht)]
  split <;> rfl

/-- **`transition` on any workflow** with finitely many reachable states: the number of iterations
and the states they expand, and where they lead. -/
theorem transition_of_finite (hfin : (W.reachable (W.slideStart e)).Finite)
    (hguards : W.GuardsAnswer e) :
    ∃ statesVisited t,
      statesVisited.length ≤ (W.reachable (W.slideStart e)).ncard ∧
      (∀ fuel, W.transitionLoop fuel [] (W.initialiseIfNull e) =
        if statesVisited.length ≤ fuel then some (.ok (setWorkFlowState e (some t))) else none) ∧
      statesVisited.Nodup ∧
      Path (W.next e) (W.slideStart e) statesVisited t ∧
      Relation.ReflTransGen (W.Takes e) (W.slideStart e) t ∧
      (W.transitionToNext (setWorkFlowState e (some t)) = .ok t ∨
        Relation.TransGen (W.Takes e) t t) := by
  obtain ⟨statesVisited, t, hp, hn, ht, hlength⟩ := exists_slide hfin hguards
  obtain ⟨l₁, l₂, -, hcycle⟩ := hp.cycle ht
  exact ⟨statesVisited, t, hlength, transitionLoop_of_path hp hn ht, hn, hp, takes_of_path hp,
    stable_or_cycle_of_path hcycle⟩

/-- An invoice rejected before it was completed once more, without `setRejectedOn(null)`. -/
def lingeringRejection : SimpleInvoice :=
  { SimpleInvoice.create "I-123" with completedOn := some ⟨1⟩, rejectedOn := some ⟨0⟩ }

theorem transition_of_lingeringRejection :
    ∃ statesVisited t,
      statesVisited.length ≤ (SimpleInvoiceWorkFlowStateMachine.reachable .INIT).ncard ∧
      (∀ fuel, SimpleInvoiceWorkFlowStateMachine.transitionLoop fuel []
          (SimpleInvoiceWorkFlowStateMachine.initialiseIfNull lingeringRejection) =
        if statesVisited.length ≤ fuel then
          some (.ok (setWorkFlowState lingeringRejection (some t)))
        else none) ∧
      statesVisited.Nodup ∧
      Path (SimpleInvoiceWorkFlowStateMachine.next lingeringRejection) .INIT statesVisited t ∧
      Relation.ReflTransGen (SimpleInvoiceWorkFlowStateMachine.Takes lingeringRejection) .INIT t ∧
      (SimpleInvoiceWorkFlowStateMachine.transitionToNext
          (setWorkFlowState lingeringRejection (some t)) = .ok t ∨
        Relation.TransGen (SimpleInvoiceWorkFlowStateMachine.Takes lingeringRejection) t t) :=
  transition_of_finite (W := SimpleInvoiceWorkFlowStateMachine) (e := lingeringRejection)
    (Set.toFinite _) (by unfold GuardsAnswer; decide)

/-! ## Once more -/

variable {e' e₁ e₂ : ε}

/-- `transition` ends on `e` and leaves `e'`. -/
def TransitionsTo (W : WorkFlow ε σ) (e e' : ε) : Prop :=
  ∃ fuel, W.transitionLoop fuel [] (W.initialiseIfNull e) = some (.ok e')

theorem transitionsTo_iff :
    W.TransitionsTo e e' ↔ ∃ l t, Path (W.next e) (W.slideStart e) l t ∧ l.Nodup ∧ t ∈ l ∧
      setWorkFlowState e (some t) = e' := by
  constructor
  · rintro ⟨fuel, h⟩
    rw [transitionLoop_initialised, Option.map_eq_some_iff] at h
    obtain ⟨r, hr, hmap⟩ := h
    obtain ⟨t, rfl, hset⟩ := map_eq_ok_iff.mp hmap
    obtain ⟨l, hp, hn, -, ht, -⟩ := firstRepeat_eq_ok_iff.mp hr
    exact ⟨l, t, hp, hn, by simpa using ht, hset⟩
  · rintro ⟨l, t, hp, hn, ht, rfl⟩
    exact ⟨l.length, by rw [transitionLoop_of_path hp hn ht, if_pos (le_refl _)]⟩

/-- `transition` leaves one entity at most. -/
theorem TransitionsTo.unique (h₁ : W.TransitionsTo e e₁) (h₂ : W.TransitionsTo e e₂) :
    e₁ = e₂ := by
  obtain ⟨l₁, t₁, hp₁, hn₁, ht₁, rfl⟩ := transitionsTo_iff.mp h₁
  obtain ⟨l₂, t₂, hp₂, hn₂, ht₂, rfl⟩ := transitionsTo_iff.mp h₂
  have hloop₁ := transitionLoop_of_path hp₁ hn₁ ht₁ (max l₁.length l₂.length)
  have hloop₂ := transitionLoop_of_path hp₂ hn₂ ht₂ (max l₁.length l₂.length)
  rw [if_pos (le_max_left _ _)] at hloop₁
  rw [if_pos (le_max_right _ _)] at hloop₂
  simpa using hloop₁.symm.trans hloop₂

/-- **A second `transition` changes nothing**: it starts at the state the first one came back to,
and the path from there leads back to it again. -/
theorem TransitionsTo.again (h : W.TransitionsTo e e') : W.TransitionsTo e' e' := by
  obtain ⟨l, t, hp, hn, ht, rfl⟩ := transitionsTo_iff.mp h
  obtain ⟨l₁, l₂, rfl, hcycle⟩ := hp.cycle ht
  have hstart : W.slideStart (setWorkFlowState e (some t)) = t := by simp [slideStart, get_set]
  refine transitionsTo_iff.mpr ⟨t :: l₂, t, ?_, ?_, List.mem_cons_self, set_set e _ _⟩
  · rw [next_set, hstart]
    exact hcycle
  · exact hn.sublist (List.sublist_append_right l₁ _)

/-- **`transition` is idempotent** on any workflow with finitely many reachable states: both calls
end, in one way, and the second leaves what the first left. -/
theorem transition_idempotent (hfin : (W.reachable (W.slideStart e)).Finite)
    (hguards : W.GuardsAnswer e) :
    ∃ e', (∀ e₁, W.TransitionsTo e e₁ ↔ e₁ = e') ∧ ∀ e₂, W.TransitionsTo e' e₂ ↔ e₂ = e' := by
  obtain ⟨l, t, hp, hn, ht, -⟩ := exists_slide hfin hguards
  have hfirst : W.TransitionsTo e (setWorkFlowState e (some t)) :=
    transitionsTo_iff.mpr ⟨l, t, hp, hn, ht, rfl⟩
  have hsecond := hfirst.again
  exact ⟨_, fun e₁ => ⟨fun h => h.unique hfirst, fun h => h ▸ hfirst⟩,
    fun e₂ => ⟨fun h => h.unique hsecond, fun h => h ▸ hsecond⟩⟩

theorem transition_idempotent_of_lingeringRejection :
    ∃ e', (∀ e₁, SimpleInvoiceWorkFlowStateMachine.TransitionsTo lingeringRejection e₁ ↔ e₁ = e') ∧
      ∀ e₂, SimpleInvoiceWorkFlowStateMachine.TransitionsTo e' e₂ ↔ e₂ = e' :=
  transition_idempotent (Set.toFinite _) (by unfold GuardsAnswer; decide)

end Loop

/-! ## On finitely many states -/

section Finite

variable [Fintype σ] [DecidableEq σ] {e' : ε}

/-- On finitely many states `transition` is the function that the loop computes. -/
theorem transitionsTo_iff_transition : W.TransitionsTo e e' ↔ W.transition e = .ok e' := by
  rw [transitionsTo_iff, transition_eq]
  constructor
  · rintro ⟨l, t, hp, hn, ht, rfl⟩
    rw [settle_eq_ok_iff.mpr ⟨l, hp, hn, ht⟩]
    rfl
  · intro h
    obtain ⟨t, hsettle, hset⟩ := map_eq_ok_iff.mp h
    obtain ⟨l, hp, hn, ht⟩ := settle_eq_ok_iff.mp hsettle
    exact ⟨l, t, hp, hn, ht, hset⟩

/-- A second `transition` changes nothing, also where the guards of other entities throw. -/
theorem transition_again (h : W.transition e = .ok e') : W.transition e' = .ok e' :=
  transitionsTo_iff_transition.mp (transitionsTo_iff_transition.mpr h).again

/-! ## The order of the targets -/

omit [Fintype σ] [DecidableEq σ] [WithWorkFlow ε σ] in
/-- Guards that are not satisfied may as well not be there. -/
theorem firstSatisfied_filter (e : ε) (current : σ) (l : List (TargetAndGuard ε σ)) :
    firstSatisfied e current (l.filter fun targetAndGuard =>
      targetAndGuard.guard e != .ok false) = firstSatisfied e current l := by
  induction l with
  | nil => rfl
  | cons tg l ih =>
    cases hg : tg.guard e with
    | error x => simp [firstSatisfied, hg]
    | ok b => cases b <;> simp [firstSatisfied, hg, ih]

omit [Fintype σ] [DecidableEq σ] [WithWorkFlow ε σ] in
/-- **The order does not matter** where one guard at most is satisfied or throws. -/
theorem firstSatisfied_perm {e : ε} {current : σ} {l l' : List (TargetAndGuard ε σ)}
    (h : l.Perm l') (hone : l.countP (fun targetAndGuard =>
      targetAndGuard.guard e != .ok false) ≤ 1) :
    firstSatisfied e current l = firstSatisfied e current l' := by
  have hfilter := h.filter fun targetAndGuard => targetAndGuard.guard e != .ok false
  rw [← firstSatisfied_filter e current l, ← firstSatisfied_filter e current l']
  rw [List.countP_eq_length_filter] at hone
  congr 1
  rcases Nat.le_one_iff_eq_zero_or_eq_one.mp hone with hzero | hone
  · rw [List.eq_nil_of_length_eq_zero hzero] at hfilter ⊢
    exact hfilter.nil_eq
  · obtain ⟨tg, htg⟩ := List.length_eq_one_iff.mp hone
    rw [htg] at hfilter ⊢
    exact hfilter.singleton_eq

/-- **`transition` with the targets of every state in another order**, on an entity on which one
guard of a state at most is satisfied or throws. -/
theorem transition_perm {W' : WorkFlow ε σ} (hinitial : W'.initial = W.initial)
    (hperm : ∀ s, (W.canTransitionTo s).Perm (W'.canTransitionTo s))
    (hone : ∀ s, (W.canTransitionTo s).countP (fun targetAndGuard =>
      targetAndGuard.guard (setWorkFlowState e (some s)) != .ok false) ≤ 1) :
    W'.transition e = W.transition e := by
  have hnext : W'.next e = W.next e := by
    funext s
    rw [next_eq, next_eq, firstSatisfied_perm (hperm s) (hone s)]
  rw [transition_eq, transition_eq, hnext, slideStart, slideStart, hinitial]

end Finite

end WorkFlow

end WorkflowSketch
