import Mathlib.Data.List.Induction

/-!
# Runs of transactional steps

A `System` offers steps in a state (`enabled`) and performs them (`perform`). A step that throws
is rolled back: the state it started from is kept. `Run S s tr t` says that a run from `s` reaches
`t`; the trace `tr` lists the steps that were committed, each with the state it was taken in, so
that a property of the history can speak about the states before the steps as well.

* `Run.keepTrace`, `Run.keep`: what every committed step keeps holds at the end of a run.
* `Run.trans`: runs compose.
* `last?`, `since`: the last step of a kind in a trace, and what came after it.
* `lastWritten`, **`Run.read_eq`**: what was written last is what is there.
* `exec` attempts a list of steps in order; `run_of_exec` reads its result as a run, `execState` is
  the state it ends in.
-/

namespace Lib.Transact

variable {σ α ε : Type*}

/-- A system of transactional steps over the states `σ`. -/
structure System (σ α ε : Type*) where
  /-- Whether the step is offered in the state. -/
  enabled : σ → α → Bool
  /-- The step's effect, or the exception it throws. -/
  perform : σ → α → Except ε σ

/-- The committed steps of a run, each with the state it was taken in. -/
abbrev Trace (σ α : Type*) := List (σ × α)

/-- A run from `s₀`: offered steps are committed, or throw and are rolled back. -/
inductive Run (S : System σ α ε) (s₀ : σ) : Trace σ α → σ → Prop
  | start : Run S s₀ [] s₀
  | commit {tr : Trace σ α} {s s' : σ} {a : α} : Run S s₀ tr s → S.enabled s a = true →
      S.perform s a = .ok s' → Run S s₀ (tr ++ [(s, a)]) s'
  | rollback {tr : Trace σ α} {s : σ} {a : α} {e : ε} : Run S s₀ tr s → S.enabled s a = true →
      S.perform s a = .error e → Run S s₀ tr s

variable {S : System σ α ε} {s₀ s t u : σ} {tr tr₁ tr₂ : Trace σ α} {a : α}

/-- **The history rule**: what every committed step keeps of the trace and the state together. -/
theorem Run.keepTrace {P : Trace σ α → σ → Prop} (hP : ∀ tr s a s', P tr s →
    S.enabled s a = true → S.perform s a = .ok s' → P (tr ++ [(s, a)]) s')
    (h : Run S s₀ tr s) (h₀ : P [] s₀) : P tr s := by
  induction h with
  | start => exact h₀
  | commit _ hen hok ih => exact hP _ _ _ _ ih hen hok
  | rollback _ _ _ ih => exact ih

/-- **The invariant rule**: what every committed step keeps holds at the end of a run. -/
theorem Run.keep {P : σ → Prop} (hP : ∀ s a s', P s → S.enabled s a = true →
    S.perform s a = .ok s' → P s') (h : Run S s₀ tr s) (h₀ : P s₀) : P s :=
  h.keepTrace (P := fun _ => P) (fun _ s a s' => hP s a s') h₀

theorem Run.trans (h₁ : Run S s tr₁ t) (h₂ : Run S t tr₂ u) : Run S s (tr₁ ++ tr₂) u := by
  induction h₂ with
  | start => rw [List.append_nil]; exact h₁
  | commit _ hen hok ih => rw [← List.append_assoc]; exact Run.commit ih hen hok
  | rollback _ hen herr ih => exact Run.rollback ih hen herr

/-- A run of one committed step. -/
theorem Run.single (hen : S.enabled s a = true) (hok : S.perform s a = .ok t) :
    Run S s [(s, a)] t :=
  Run.commit Run.start hen hok

/-! ## The states of a run -/

/-- The states of a run, the last one included. -/
def visited (tr : Trace σ α) (s : σ) : List σ := tr.map Prod.fst ++ [s]

theorem forall_visited_concat {P : σ → Prop} :
    (∀ u ∈ visited (tr ++ [(s, a)]) t, P u) ↔ (∀ u ∈ visited tr s, P u) ∧ P t := by
  simp only [visited, List.map_append, List.map_cons, List.map_nil, List.forall_mem_append,
    List.forall_mem_singleton]

/-! ## The last step of a kind -/

/-- The last step of the kind `p`, with the state it was taken in. -/
def last? (p : α → Bool) (tr : Trace σ α) : Option (σ × α) := tr.reverse.find? fun step => p step.2

/-- The steps since the last one of the kind `p`, latest first. -/
def since (p : α → Bool) (tr : Trace σ α) : Trace σ α :=
  tr.reverse.takeWhile fun step => !p step.2

variable {p : α → Bool}

theorem last?_concat : last? p (tr ++ [(s, a)]) = if p a then some (s, a) else last? p tr := by
  unfold last?
  rw [List.reverse_append, List.reverse_singleton, List.singleton_append, List.find?_cons]
  cases p a <;> rfl

theorem since_concat : since p (tr ++ [(s, a)]) = if p a then [] else (s, a) :: since p tr := by
  unfold since
  rw [List.reverse_append, List.reverse_singleton, List.singleton_append, List.takeWhile_cons]
  cases p a <;> rfl

/-- The last step of a kind is a step of the trace, and of that kind. -/
theorem mem_of_last? {step : σ × α} (h : last? p tr = some step) :
    step ∈ tr ∧ p step.2 = true := by
  have hp := List.find?_some (p := fun step : σ × α => p step.2) h
  exact ⟨List.mem_reverse.mp (List.mem_of_find?_eq_some h), hp⟩

/-! ## The last write -/

variable {β : Type*} {w : α → Option β}

/-- What the last of the actions that write has written. -/
def lastWritten (w : α → Option β) (l : List α) : Option β := (l.filterMap w).getLast?

theorem lastWritten_concat {l : List α} :
    lastWritten w (l ++ [a]) = (w a).or (lastWritten w l) := by
  unfold lastWritten
  rw [List.filterMap_append]
  cases h : w a <;> simp [h]

/-- **The last-write rule**: what every step writes, or leaves as it is, is what was written last,
or was there from the start. -/
theorem Run.read_eq {r : σ → β} (hw : ∀ s a s', S.enabled s a = true → S.perform s a = .ok s' →
    r s' = (w a).getD (r s)) (h : Run S s₀ tr s) :
    r s = (lastWritten w (tr.map Prod.snd)).getD (r s₀) := by
  refine h.keepTrace (P := fun tr s => r s = (lastWritten w (tr.map Prod.snd)).getD (r s₀)) ?_ rfl
  intro tr s a s' ih hen hok
  rw [hw s a s' hen hok, ih, List.map_append, List.map_singleton, lastWritten_concat]
  cases w a <;> rfl

/-- The last step of the kind that writes. -/
theorem lastWritten_of_last? (hp : ∀ a, p a = (w a).isSome) {step : σ × α}
    (h : last? p tr = some step) : lastWritten w (tr.map Prod.snd) = w step.2 := by
  induction tr using List.reverseRecOn with
  | nil => exact absurd h (by simp [last?])
  | append_singleton tr last ih =>
    rw [last?_concat, hp] at h
    rw [List.map_append, List.map_singleton, lastWritten_concat]
    cases hwrite : w last.2 with
    | none =>
      rw [hwrite] at h
      exact ih h
    | some b =>
      rw [hwrite] at h
      obtain rfl := Option.some.inj h
      exact hwrite.symm

/-! ## Executing a list of steps -/

/-- Attempt the steps in order, rolling back those that throw; `none` when a step is not offered
in the state it is attempted in. -/
def exec (S : System σ α ε) : σ → List α → Option (Trace σ α × σ)
  | s, [] => some ([], s)
  | s, a :: l =>
    if S.enabled s a then
      match S.perform s a with
      | .ok s' => (exec S s' l).map fun r => ((s, a) :: r.1, r.2)
      | .error _ => exec S s l
    else none

theorem run_of_exec {l : List α} {r : Trace σ α × σ} (h : exec S s l = some r) :
    Run S s r.1 r.2 := by
  induction l generalizing s r with
  | nil =>
    obtain rfl : ([], s) = r := by simpa [exec] using h
    exact Run.start
  | cons a l ih =>
    simp only [exec] at h
    split at h
    · rename_i hen
      cases hp : S.perform s a with
      | ok s' =>
        rw [hp] at h
        obtain ⟨r', hr', rfl⟩ := Option.map_eq_some_iff.mp h
        exact (Run.single hen hp).trans (ih hr')
      | error e =>
        rw [hp] at h
        exact (Run.rollback Run.start hen hp).trans (ih h)
    · exact absurd h (by simp)

/-- The run of an execution that goes through. -/
theorem run_exec {l : List α} (h : (exec S s l).isSome = true) :
    Run S s ((exec S s l).get h).1 ((exec S s l).get h).2 :=
  run_of_exec (Option.some_get h).symm

/-- The state after attempting a step: that it was taken in, when it throws. -/
def System.attempt (S : System σ α ε) (s : σ) (a : α) : σ :=
  match S.perform s a with
  | .ok s' => s'
  | .error _ => s

/-- The state an execution ends in. -/
def execState (S : System σ α ε) (s : σ) (l : List α) : Option σ := (exec S s l).map Prod.snd

theorem System.attempt_of_ok (h : S.perform s a = .ok t) : S.attempt s a = t := by
  rw [attempt, h]

theorem System.attempt_of_error {e : ε} (h : S.perform s a = .error e) : S.attempt s a = s := by
  rw [attempt, h]

theorem execState_cons {l : List α} :
    execState S s (a :: l) = if S.enabled s a then execState S (S.attempt s a) l else none := by
  unfold execState
  rw [exec]
  split
  · cases h : S.perform s a with
    | ok s' => rw [System.attempt_of_ok h, Option.map_map]; rfl
    | error e => rw [System.attempt_of_error h]
  · rfl

end Lib.Transact
