import WorkflowSketch.Lib.Transact

/-!
# Interleaved components

A system `S` whose steps each belong to one of several components, and a system `T` of one
component alone. Which component a step belongs to may depend on the steps before it, through a
counter (an identity handed out by the steps so far).

* `project`: the steps of one component in a list of steps, as steps of that component alone.
* `Components`: the components do not interfere, step by step.
* **`Components.execState_project`**: in any interleaving a component ends as it does alone.
* **`Components.isSome_execState_iff`**: an interleaving is offered iff every component alone is.
-/

namespace Lib.Transact

variable {σ τ α β ε δ ν ι : Type*}

/-- The steps of one component in a list of steps. -/
def project (own : ν → α → Option β) (next : ν → α → ν) : ν → List α → List β
  | _, [] => []
  | n, a :: l => (own n a).toList ++ project own next (next n a) l

/-- `R i n s t` relates the whole system in state `s`, with counter `n`, to its component `i` alone
in state `t`. Steps of the component do the same alone, those of the others do nothing to it. -/
structure Components (S : System σ α ε) (T : System τ β δ) (own : ι → ν → α → Option β)
    (next : ν → α → ν) (R : ι → ν → σ → τ → Prop) : Prop where
  owner : ∀ n a, ∃ i b, own i n a = some b
  enabled : ∀ {i n s t a b}, R i n s t → own i n a = some b → T.enabled t b = S.enabled s a
  step : ∀ {i n s t a b}, R i n s t → S.enabled s a = true → own i n a = some b →
    R i (next n a) (S.attempt s a) (T.attempt t b)
  skip : ∀ {i n s t a}, R i n s t → S.enabled s a = true → own i n a = none →
    R i (next n a) (S.attempt s a) t

namespace Components

variable {S : System σ α ε} {T : System τ β δ} {own : ι → ν → α → Option β} {next : ν → α → ν}
  {R : ι → ν → σ → τ → Prop} {i : ι} {n : ν} {s s' : σ} {t : τ} {l : List α}

/-- **A component ends as it does alone.** -/
theorem execState_project (h : Components S T own next R) (hR : R i n s t)
    (hs : execState S s l = some s') :
    ∃ n' t', execState T t (project (own i) next n l) = some t' ∧ R i n' s' t' := by
  induction l generalizing n s t with
  | nil =>
    obtain rfl : s = s' := Option.some.inj hs
    exact ⟨n, t, rfl, hR⟩
  | cons a l ih =>
    rw [execState_cons] at hs
    split at hs
    · rename_i hen
      cases hown : own i n a with
      | none =>
        simpa only [project, hown, Option.toList_none, List.nil_append]
          using ih (h.skip hR hen hown) hs
      | some b =>
        have hen' : T.enabled t b = true := (h.enabled hR hown).trans hen
        simpa only [project, hown, Option.toList_some, List.singleton_append, execState_cons,
          if_pos hen'] using ih (h.step hR hen hown) hs
    · exact absurd hs (by simp)

/-- **An interleaving is offered iff every component alone is.** -/
theorem isSome_execState_iff (h : Components S T own next R) {t : ι → τ}
    (hR : ∀ i, R i n s (t i)) :
    (execState S s l).isSome = true ↔
      ∀ i, (execState T (t i) (project (own i) next n l)).isSome = true := by
  constructor
  · intro hs i
    obtain ⟨s', hs⟩ := Option.isSome_iff_exists.mp hs
    obtain ⟨n', t', ht, -⟩ := h.execState_project (hR i) hs
    exact Option.isSome_iff_exists.mpr ⟨t', ht⟩
  · intro ht
    induction l generalizing n s t with
    | nil => rfl
    | cons a l ih =>
      -- the component that owns the step offers it, hence the system does
      obtain ⟨i, b, hown⟩ := h.owner n a
      have hen : S.enabled s a = true := by
        rw [← h.enabled (hR i) hown]
        by_contra hen
        have hi := ht i
        simp [project, hown, execState_cons, hen] at hi
      rw [execState_cons, if_pos hen]
      refine ih (t := fun j => ((own j n a).map (T.attempt (t j))).getD (t j))
        (n := next n a) (fun j => ?_) (fun j => ?_)
      · cases hj : own j n a with
        | none => exact h.skip (hR j) hen hj
        | some c => exact h.step (hR j) hen hj
      · have hj := ht j
        cases hown : own j n a with
        | none => simpa [project, hown] using hj
        | some c =>
          have hen' : T.enabled (t j) c = true := (h.enabled (hR j) hown).trans hen
          simpa [project, hown, execState_cons, hen'] using hj

end Components

end Lib.Transact
