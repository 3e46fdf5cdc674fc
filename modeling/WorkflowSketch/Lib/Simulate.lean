import Mathlib.Data.List.Forall2
import WorkflowSketch.Lib.Transact

/-!
# Relating the runs of two systems

* `Simulation`: every committed step of `S` is a step of `T`, under a label that may depend on the
  state, or no step at all. **`Simulation.run`**: then every run of `S` is one of `T`, over the
  labelled steps, in related states; over the same states it is the same run (`run_eq`), and can be
  followed by another simulation (`comp`).
* `Bisimulation`: related steps are offered alike and end alike, also where they throw.
  **`Bisimulation.exec`**: then so do related lists of steps.
* `Run.exists_entry`: how a run got into a condition that did not hold at its start.
* `Run.exists_of_progress`: a run to a goal, from steps that come closer to it.
-/

namespace Lib.Transact

variable {σ τ υ α β γ ε δ ζ : Type*} {S : System σ α ε} {T : System τ β δ} {U : System υ γ ζ}

/-! ## Simulation -/

/-- The steps of a trace that have a label, as steps of their label. -/
def labelled (label : σ → α → Option β) (tr : Trace σ α) : Trace σ β :=
  tr.filterMap fun step => (label step.1 step.2).map (Prod.mk step.1)

/-- The committed steps of `S` are those of `T` that they are labelled with; the others leave the
related states related. -/
structure Simulation (S : System σ α ε) (T : System τ β δ) (label : σ → α → Option β)
    (R : σ → τ → Prop) : Prop where
  step : ∀ {s s' t a b}, R s t → S.enabled s a = true → S.perform s a = .ok s' →
    label s a = some b → T.enabled t b = true ∧ ∃ t', T.perform t b = .ok t' ∧ R s' t'
  skip : ∀ {s s' t a}, R s t → S.enabled s a = true → S.perform s a = .ok s' →
    label s a = none → R s' t

variable {label : σ → α → Option β} {R : σ → τ → Prop} {s₀ s : σ} {t₀ : τ} {tr : Trace σ α}

theorem labelled_concat {a : α} :
    labelled label (tr ++ [(s, a)]) =
      labelled label tr ++ ((label s a).map (Prod.mk s)).toList := by
  unfold labelled
  rw [List.filterMap_append]
  cases h : label s a <;> simp [h]

/-- What is observed at the labels is observed, in the same order, at the steps they label. -/
theorem sublist_filterMap_labelled {γ : Type*} {f : β → Option γ} {g : α → Option γ}
    (h : ∀ {s a b}, label s a = some b → f b = g a) :
    (((labelled label tr).map Prod.snd).filterMap f).Sublist ((tr.map Prod.snd).filterMap g) := by
  induction tr with
  | nil => exact List.Sublist.slnil
  | cons step tr ih =>
    have hrest := ih.trans (List.Sublist.filterMap g (List.sublist_cons_self step.2 _))
    unfold labelled at hrest ih ⊢
    cases hlabel : label step.1 step.2 with
    | none => simpa [hlabel] using hrest
    | some b =>
      rw [List.filterMap_cons_some (by rw [hlabel]; rfl), List.map_cons, List.map_cons]
      cases hf : f b with
      | none => rw [List.filterMap_cons_none hf]; exact hrest
      | some c =>
        rw [List.filterMap_cons_some hf, List.filterMap_cons_some ((h hlabel).symm.trans hf)]
        exact ih.cons_cons c

/-- Traces that agree step by step have the same steps. -/
theorem map_snd_eq_of_forall₂ {tr : Trace σ β} {tr' : Trace τ β}
    (h : List.Forall₂ (fun p q => R p.1 q.1 ∧ p.2 = q.2) tr tr') :
    tr'.map Prod.snd = tr.map Prod.snd := by
  induction h with
  | nil => rfl
  | cons hpq _ ih => rw [List.map_cons, List.map_cons, hpq.2, ih]

/-- **A run of `S` is a run of `T`**, step by step in related states. -/
theorem Simulation.run (h : Simulation S T label R) (hR : R s₀ t₀) (hrun : Run S s₀ tr s) :
    ∃ tr' t, Run T t₀ tr' t ∧ R s t ∧
      List.Forall₂ (fun p q => R p.1 q.1 ∧ p.2 = q.2) (labelled label tr) tr' := by
  induction hrun with
  | start => exact ⟨[], t₀, Run.start, hR, List.Forall₂.nil⟩
  | rollback _ _ _ ih => exact ih
  | @commit tr s s' a _ hen hok ih =>
    obtain ⟨tr', t, hrun', hRst, hmatch⟩ := ih
    rw [labelled_concat]
    cases hlabel : label s a with
    | none =>
      refine ⟨tr', t, hrun', h.skip hRst hen hok hlabel, ?_⟩
      simpa using hmatch
    | some b =>
      obtain ⟨hen', t', hok', hR'⟩ := h.step hRst hen hok hlabel
      exact ⟨tr' ++ [(t, b)], t', Run.commit hrun' hen' hok', hR',
        List.rel_append hmatch (List.Forall₂.cons ⟨hRst, rfl⟩ List.Forall₂.nil)⟩

/-- **A simulation over the same states** takes the run itself to the other system. -/
theorem Simulation.run_eq {T : System σ β δ} (h : Simulation S T label Eq)
    (hrun : Run S s₀ tr s) : Run T s₀ (labelled label tr) s := by
  obtain ⟨tr', t, hrun', rfl, hmatch⟩ := h.run rfl hrun
  have heq : labelled label tr = tr' := by
    rw [← List.forall₂_eq_eq_eq]
    exact hmatch.imp fun p q hpq => Prod.ext hpq.1 hpq.2
  rwa [heq]

/-- A simulation over the same states, followed by another one. -/
theorem Simulation.comp {T : System σ β δ} {label' : σ → β → Option γ} {R : σ → υ → Prop}
    (h : Simulation S T label Eq) (h' : Simulation T U label' R) :
    Simulation S U (fun s a => (label s a).bind (label' s)) R where
  step := by
    intro s s' u a c hR hen hok hlabel
    obtain ⟨b, hb, hc⟩ := Option.bind_eq_some_iff.mp hlabel
    obtain ⟨hen', t', hok', rfl⟩ := h.step rfl hen hok hb
    exact h'.step hR hen' hok' hc
  skip := by
    intro s s' u a hR hen hok hlabel
    cases hb : label s a with
    | none =>
      obtain rfl := h.skip rfl hen hok hb
      exact hR
    | some b =>
      rw [hb, Option.bind_some] at hlabel
      obtain ⟨hen', t', hok', rfl⟩ := h.step rfl hen hok hb
      exact h'.skip hR hen' hok' hlabel

/-! ## Bisimulation -/

/-- In related states, related steps are offered alike, and end in related states or throw both. -/
structure Bisimulation (S : System σ α ε) (T : System τ β δ) (Q : α → β → Prop)
    (R : σ → τ → Prop) : Prop where
  enabled : ∀ {s t a b}, R s t → Q a b → S.enabled s a = T.enabled t b
  ok : ∀ {s s' t a b}, R s t → Q a b → S.enabled s a = true → S.perform s a = .ok s' →
    ∃ t', T.perform t b = .ok t' ∧ R s' t'
  error : ∀ {s t a b x}, R s t → Q a b → S.enabled s a = true → S.perform s a = .error x →
    ∃ y, T.perform t b = .error y

/-- **Related lists of steps** are offered alike, commit related steps, and end in related
states. -/
theorem Bisimulation.exec {Q : α → β → Prop} {s : σ} {t : τ} {l : List α} {l' : List β}
    (h : Bisimulation S T Q R) (hR : R s t) (hQ : List.Forall₂ Q l l') :
    Option.Rel (fun r r' => R r.2 r'.2 ∧
      List.Forall₂ (fun p q => R p.1 q.1 ∧ Q p.2 q.2) r.1 r'.1)
      (exec S s l) (exec T t l') := by
  induction hQ generalizing s t with
  | nil => exact Option.Rel.some ⟨hR, List.Forall₂.nil⟩
  | @cons a b l l' hab _ ih =>
    unfold Lib.Transact.exec
    rw [← h.enabled hR hab]
    by_cases hen : S.enabled s a = true
    · rw [if_pos hen, if_pos hen]
      cases hp : S.perform s a with
      | error x =>
        obtain ⟨y, hy⟩ := h.error hR hab hen hp
        rw [hy]
        exact ih hR
      | ok s' =>
        obtain ⟨t', ht', hR'⟩ := h.ok hR hab hen hp
        rw [ht']
        have hrest := ih hR'
        dsimp only
        generalize Lib.Transact.exec S s' l = r at hrest ⊢
        generalize Lib.Transact.exec T t' l' = r' at hrest ⊢
        cases hrest with
        | none => exact Option.Rel.none
        | some hend =>
          exact Option.Rel.some ⟨hend.1, List.Forall₂.cons ⟨hR, hab⟩ hend.2⟩
    · rw [if_neg hen, if_neg hen]
      exact Option.Rel.none

/-! ## Getting somewhere -/

/-- The step by which a run last entered a condition that did not hold at its start. -/
theorem Run.exists_entry {P : σ → Prop} (h : Run S s₀ tr s) (h₀ : ¬ P s₀) (hs : P s) :
    ∃ tr₁ s₁ a s₂ tr₂, Run S s₀ tr₁ s₁ ∧ ¬ P s₁ ∧ S.enabled s₁ a = true ∧
      S.perform s₁ a = .ok s₂ ∧ P s₂ ∧ Run S s₂ tr₂ s ∧ tr = tr₁ ++ (s₁, a) :: tr₂ := by
  induction h with
  | start => exact absurd hs h₀
  | rollback h hen herror ih =>
    obtain ⟨tr₁, s₁, a, s₂, tr₂, h₁, hs₁, hen₁, hok₁, hs₂, h₂, rfl⟩ := ih hs
    exact ⟨tr₁, s₁, a, s₂, tr₂, h₁, hs₁, hen₁, hok₁, hs₂, Run.rollback h₂ hen herror, rfl⟩
  | @commit tr s s' a h hen hok ih =>
    by_cases hbefore : P s
    · obtain ⟨tr₁, s₁, b, s₂, tr₂, h₁, hs₁, hen₁, hok₁, hs₂, h₂, rfl⟩ := ih hbefore
      exact ⟨tr₁, s₁, b, s₂, tr₂ ++ [(s, a)], h₁, hs₁, hen₁, hok₁, hs₂,
        Run.commit h₂ hen hok, by simp⟩
    · exact ⟨tr, s, a, s', [], h, hbefore, hen, hok, hs, Run.start, rfl⟩

/-- **The progress rule**: where some step of a kind comes closer to the goal, a run of such steps
gets there, in as many steps at most as it was away. -/
theorem Run.exists_of_progress {I G : σ → Prop} {K : α → Prop} (distance : σ → Nat)
    (hstep : ∀ s, I s → ¬ G s → ∃ a s', K a ∧ S.enabled s a = true ∧
      S.perform s a = .ok s' ∧ I s' ∧ distance s' < distance s) (hI : I s) :
    ∃ tr t, Run S s tr t ∧ I t ∧ G t ∧ tr.length ≤ distance s ∧ ∀ step ∈ tr, K step.2 := by
  induction hn : distance s using Nat.strongRecOn generalizing s with
  | _ n ih =>
    by_cases hgoal : G s
    · exact ⟨[], s, Run.start, hI, hgoal, Nat.zero_le _, by simp⟩
    · obtain ⟨a, s', hkind, hen, hok, hI', hcloser⟩ := hstep s hI hgoal
      obtain ⟨tr, t, hrun, hIt, hgoalt, hlength, hkinds⟩ := ih _ (hn ▸ hcloser) hI' rfl
      refine ⟨(s, a) :: tr, t, (Run.single hen hok).trans hrun, hIt, hgoalt, ?_, ?_⟩
      · rw [List.length_cons]
        omega
      · exact List.forall_mem_cons.mpr ⟨hkind, hkinds⟩

end Lib.Transact
