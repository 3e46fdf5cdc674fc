import WorkflowSketch.Lib.Recurrent
import WorkflowSketch.Transition

/-!
# Where `transition` ends, also when guards throw (`WorkFlowStateMachineAbstract.java`)

A guard may throw, as that of a second approval does on an invoice without an amount. It is only
asked where the slide gets to, and only if no guard before it is satisfied.

* `Recurs`: the slide stays in the state, or comes back to it.
* **`transition_iff_of_finite`**: on any workflow with finitely many reachable states the loop ends,
  whatever the guards do: with the exception that the slide leads to, or in the first state that it
  comes back to.
-/

namespace WorkflowSketch

open Lib.FirstRepeat WithWorkFlow

namespace WorkFlow

variable {ε σ : Type*} (W : WorkFlow ε σ) [WithWorkFlow ε σ]

/-- The slide stays in the state, or comes back to it. -/
def Recurs (e : ε) (s : σ) : Prop :=
  W.next e s = .ok s ∨ Relation.TransGen (W.Takes e) s s

/-- The slide gets from one state to the other through states that it does not come back to. -/
def Approaches (e : ε) : σ → σ → Prop :=
  Relation.ReflTransGen fun s t => ¬ W.Recurs e s ∧ W.Takes e s t

variable {W} {e e' : ε} {s t : σ}

theorem next_of_takes (h : W.Takes e s t) : W.next e s = .ok t := next_eq_ok_iff.mpr (Or.inl h)

theorem path_of_takes (h : Relation.ReflTransGen (W.Takes e) s t) :
    ∃ l, Path (W.next e) s l t := by
  induction h using Relation.ReflTransGen.head_induction_on with
  | refl => exact ⟨[], Path.nil t⟩
  | head hstep _ ih =>
    obtain ⟨l, hp⟩ := ih
    exact ⟨_, Path.cons (next_of_takes hstep) hp⟩

theorem recurrent_iff : Recurrent (W.next e) s ↔ W.Recurs e s := by
  constructor
  · rintro ⟨l, hcycle⟩
    exact stable_or_cycle_of_path hcycle
  · rintro (hstable | hcycle)
    · exact ⟨[], Path.cons hstable (Path.nil s)⟩
    · obtain ⟨t, hstep, hback⟩ := Relation.TransGen.head'_iff.mp hcycle
      obtain ⟨l, hp⟩ := path_of_takes hback
      exact ⟨l, Path.cons (next_of_takes hstep) hp⟩

/-- Before the first state that the slide comes back to, it does not stay anywhere. -/
theorem approaches_iff :
    (∃ l, Path (W.next e) s l t ∧ ∀ a ∈ l, ¬ Recurrent (W.next e) a) ↔ W.Approaches e s t := by
  constructor
  · rintro ⟨l, hp, hnot⟩
    induction hp with
    | nil => exact Relation.ReflTransGen.refl
    | cons hstep _ ih =>
      obtain ⟨hfirst, hrest⟩ := List.forall_mem_cons.mp hnot
      rw [recurrent_iff] at hfirst
      rcases next_eq_ok_iff.mp hstep with htakes | ⟨rfl, -⟩
      · exact Relation.ReflTransGen.head ⟨hfirst, htakes⟩ (ih hrest)
      · exact absurd (Or.inl hstep) hfirst
  · intro h
    induction h using Relation.ReflTransGen.head_induction_on with
    | refl => exact ⟨[], Path.nil t, by simp⟩
    | head hstep _ ih =>
      obtain ⟨hnot, htakes⟩ := hstep
      obtain ⟨l, hp, hl⟩ := ih
      rw [← recurrent_iff] at hnot
      exact ⟨_, Path.cons (next_of_takes htakes) hp, List.forall_mem_cons.mpr ⟨hnot, hl⟩⟩

/-- The slide stays among the reachable states. -/
theorem next_mem_toFinset (hfin : (W.reachable (W.slideStart e)).Finite) :
    ∀ s ∈ hfin.toFinset, ∀ t, W.next e s = .ok t → t ∈ hfin.toFinset :=
  fun _ hs _ ht => hfin.mem_toFinset.mpr (mem_reachable_of_next (hfin.mem_toFinset.mp hs) ht)

theorem slideStart_mem_toFinset (hfin : (W.reachable (W.slideStart e)).Finite) :
    W.slideStart e ∈ hfin.toFinset := hfin.mem_toFinset.mpr Relation.ReflTransGen.refl

variable [DecidableEq σ]

/-- **Where the loop ends**, with enough fuel. -/
theorem firstRepeat_iff_approaches (hfin : (W.reachable (W.slideStart e)).Finite) {fuel : Nat}
    (hfuel : hfin.toFinset.card ≤ fuel) {t : σ} :
    firstRepeat (W.next e) fuel [] (W.slideStart e) = some (.ok t) ↔
      W.Approaches e (W.slideStart e) t ∧ W.Recurs e t := by
  rw [firstRepeat_eq_ok_iff_recurrent (next_mem_toFinset hfin) (slideStart_mem_toFinset hfin) hfuel,
    ← approaches_iff, ← recurrent_iff]
  exact ⟨fun ⟨l, hp, hnot, hrec⟩ => ⟨⟨l, hp, hnot⟩, hrec⟩,
    fun ⟨⟨l, hp, hnot⟩, hrec⟩ => ⟨l, hp, hnot, hrec⟩⟩

/-- **What it throws**, with enough fuel. -/
theorem firstRepeat_iff_takes (hfin : (W.reachable (W.slideStart e)).Finite) {fuel : Nat}
    (hfuel : hfin.toFinset.card ≤ fuel) {x : RuntimeException} :
    firstRepeat (W.next e) fuel [] (W.slideStart e) = some (.error x) ↔
      ∃ s, Relation.ReflTransGen (W.Takes e) (W.slideStart e) s ∧ W.next e s = .error x := by
  rw [firstRepeat_eq_error_iff_path (next_mem_toFinset hfin) (slideStart_mem_toFinset hfin) hfuel]
  constructor
  · rintro ⟨l, s, hp, hs⟩
    exact ⟨s, takes_of_path hp, hs⟩
  · rintro ⟨s, htakes, hs⟩
    obtain ⟨l, hp⟩ := path_of_takes htakes
    exact ⟨l, s, hp, hs⟩

/-- More than enough fuel makes no difference. -/
theorem exists_firstRepeat (hfin : (W.reachable (W.slideStart e)).Finite) :
    ∃ r, ∀ fuel, hfin.toFinset.card ≤ fuel →
      firstRepeat (W.next e) fuel [] (W.slideStart e) = some r := by
  have hsome : (firstRepeat (W.next e) hfin.toFinset.card [] (W.slideStart e)).isSome :=
    firstRepeat_isSome (next_mem_toFinset hfin) (slideStart_mem_toFinset hfin) (by simp)
      List.nodup_nil (by simp)
  obtain ⟨r, hr⟩ := Option.isSome_iff_exists.mp hsome
  refine ⟨r, fun fuel hfuel => ?_⟩
  cases r with
  | ok t =>
    exact (firstRepeat_iff_approaches hfin hfuel).mpr
      ((firstRepeat_iff_approaches hfin (le_refl _)).mp hr)
  | error x =>
    exact (firstRepeat_iff_takes hfin hfuel).mpr ((firstRepeat_iff_takes hfin (le_refl _)).mp hr)

/-- **Where `transition` ends**, on any workflow with finitely many reachable states and any guards:
it throws exactly what is thrown in a state that the slide gets to, and otherwise leaves the entity
in the first state that the slide comes back to. -/
theorem transition_iff_of_finite (hfin : (W.reachable (W.slideStart e)).Finite) :
    ∃ result : Except RuntimeException ε,
      (∀ fuel, (W.reachable (W.slideStart e)).ncard ≤ fuel →
        W.transitionLoop fuel [] (W.initialiseIfNull e) = some result) ∧
      (∀ x, result = .error x ↔ ∃ s, Relation.ReflTransGen (W.Takes e) (W.slideStart e) s ∧
        W.next e s = .error x) ∧
      ∀ e', result = .ok e' ↔ ∃ t, W.Approaches e (W.slideStart e) t ∧ W.Recurs e t ∧
        setWorkFlowState e (some t) = e' := by
  rw [Set.ncard_eq_toFinset_card _ hfin]
  obtain ⟨r, hall⟩ := exists_firstRepeat hfin
  have hr := hall _ (le_refl _)
  refine ⟨r.map fun t => setWorkFlowState e (some t), fun fuel hfuel => ?_, fun x => ?_,
    fun e' => ?_⟩
  · rw [transitionLoop_initialised, hall fuel hfuel]
    rfl
  · rw [map_eq_error_iff, ← firstRepeat_iff_takes hfin (le_refl _), hr, Option.some.injEq]
  · rw [map_eq_ok_iff]
    refine exists_congr fun t => ?_
    rw [← and_assoc, ← firstRepeat_iff_approaches hfin (le_refl _), hr, Option.some.injEq]

/-- An invoice approved without an amount, which the machine never asked for. -/
def approvedWithoutAmount : SimpleInvoice :=
  { SimpleInvoice.create "I-123" with
    completedOn := some ⟨1⟩, approvedByManagerOn := some ⟨2⟩ }

example : SimpleInvoiceWorkFlowStateMachine.transition approvedWithoutAmount =
    .error .nullPointerException := by
  decide

theorem transition_iff_of_approvedWithoutAmount :
    ∃ result : Except RuntimeException SimpleInvoice,
      (∀ fuel, (SimpleInvoiceWorkFlowStateMachine.reachable .INIT).ncard ≤ fuel →
        SimpleInvoiceWorkFlowStateMachine.transitionLoop fuel []
          (SimpleInvoiceWorkFlowStateMachine.initialiseIfNull approvedWithoutAmount) =
            some result) ∧
      (∀ x, result = .error x ↔ ∃ s, Relation.ReflTransGen
          (SimpleInvoiceWorkFlowStateMachine.Takes approvedWithoutAmount) .INIT s ∧
        SimpleInvoiceWorkFlowStateMachine.next approvedWithoutAmount s = .error x) ∧
      ∀ e', result = .ok e' ↔ ∃ t,
        SimpleInvoiceWorkFlowStateMachine.Approaches approvedWithoutAmount .INIT t ∧
        SimpleInvoiceWorkFlowStateMachine.Recurs approvedWithoutAmount t ∧
        setWorkFlowState approvedWithoutAmount (some t) = e' :=
  transition_iff_of_finite (W := SimpleInvoiceWorkFlowStateMachine) (e := approvedWithoutAmount)
    (Set.toFinite _)

end WorkFlow

end WorkflowSketch
