import Mathlib.Data.Finset.Card
import WorkflowSketch.Lib.FirstRepeat

/-!
# Where an iteration comes to recur

A value is recurrent under a step function that may fail if some steps lead from it back to it: it
is a fixed point, or lies on a cycle. What `firstRepeat` returns does not depend on the list it
keeps: it is the first recurrent value on the way, and it fails where the way ends in a failing one.

* `Path.nodup_of_first`: the way to a value, up to the first time it is reached, repeats nothing.
* **`firstRepeat_eq_ok_iff_recurrent`**, **`firstRepeat_eq_error_iff_path`**: the outcome of the
  loop on a finite closed set, without the list.
-/

namespace Lib.FirstRepeat

variable {α ε : Type*} {f : α → Except ε α} {x y z a : α} {l l₁ l₂ : List α}

/-- Some steps lead from the value back to it. -/
def Recurrent (f : α → Except ε α) (x : α) : Prop := ∃ l, Path f x (x :: l) x

theorem Path.append (h₁ : Path f x l₁ y) (h₂ : Path f y l₂ z) : Path f x (l₁ ++ l₂) z := by
  induction h₁ with
  | nil => exact h₂
  | cons hf _ ih => exact Path.cons hf (ih h₂)

/-! ## The first time -/

/-- Steps are functions: there is one way to reach a value for the first time. -/
theorem Path.unique_of_first (h₁ : Path f x l₁ y) (hy₁ : y ∉ l₁) (h₂ : Path f x l₂ y)
    (hy₂ : y ∉ l₂) : l₁ = l₂ := by
  induction h₁ generalizing l₂ with
  | nil =>
    cases h₂ with
    | nil => rfl
    | cons => exact absurd List.mem_cons_self hy₂
  | @cons x w y l₁ hf _ ih =>
    cases h₂ with
    | nil => exact absurd List.mem_cons_self hy₁
    | @cons _ w' _ l₂ hf' h₂ =>
      obtain rfl : w = w' := Except.ok.inj (hf.symm.trans hf')
      rw [ih (List.not_mem_of_not_mem_cons hy₁) h₂ (List.not_mem_of_not_mem_cons hy₂)]

/-- **The way to a value repeats nothing** before it is reached. -/
theorem Path.nodup_of_first (h : Path f x l y) (hy : y ∉ l) : (l ++ [y]).Nodup := by
  induction h with
  | nil => exact List.nodup_singleton _
  | @cons x w y l hf h ih =>
    refine List.nodup_cons.mpr ⟨fun hmem => ?_, ih (List.not_mem_of_not_mem_cons hy)⟩
    rcases List.mem_append.mp hmem with hxl | hxy
    · -- the way on from the second `x` would be as long as the one from the first
      obtain ⟨l₁, l₂, rfl⟩ := List.append_of_mem hxl
      have hsecond := h.cut.2
      have hyl₂ : y ∉ x :: l₂ :=
        fun hmem => hy (List.mem_cons_of_mem x (List.mem_append_right _ hmem))
      have hsame := (Path.cons hf h).unique_of_first hy hsecond hyl₂
      have hlength := congrArg List.length hsame
      simp only [List.length_cons, List.length_append] at hlength
      omega
    · rw [List.mem_singleton.mp hxy] at hy
      exact hy List.mem_cons_self

/-- What is reached is reached for a first time. -/
theorem Path.exists_first (h : Path f x l y) : ∃ l', Path f x l' y ∧ y ∉ l' := by
  classical
  induction h with
  | nil x => exact ⟨[], Path.nil x, List.not_mem_nil⟩
  | @cons x w y l hf _ ih =>
    obtain ⟨l', h', hy⟩ := ih
    by_cases hxy : x = y
    · subst hxy
      exact ⟨[], Path.nil x, List.not_mem_nil⟩
    · refine ⟨x :: l', Path.cons hf h', fun hmem => ?_⟩
      rcases List.mem_cons.mp hmem with rfl | hmem
      · exact hxy rfl
      · exact hy hmem

/-! ## Recurrence -/

/-- The values on the way are left for the next one, or the last. -/
theorem Path.mem_of_step (h : Path f x l y) {b : α} (ha : a ∈ l) (hf : f a = .ok b) :
    b ∈ l ∨ b = y := by
  induction h with
  | nil => exact absurd ha List.not_mem_nil
  | @cons x w y l hstep hrest ih =>
    rcases List.mem_cons.mp ha with rfl | ha
    · obtain rfl : w = b := Except.ok.inj (hstep.symm.trans hf)
      cases hrest with
      | nil => exact Or.inr rfl
      | cons => exact Or.inl (List.mem_cons_of_mem _ List.mem_cons_self)
    · exact (ih ha).imp (List.mem_cons_of_mem x) id

/-- What a cycle passes through is recurrent. -/
theorem recurrent_of_mem (h : Path f x (x :: l) x) (ha : a ∈ x :: l) : Recurrent f a := by
  obtain ⟨l₁, l₂, hl⟩ := List.append_of_mem ha
  rw [hl] at h
  obtain ⟨hto, hfrom⟩ := h.cut
  exact ⟨l₂ ++ l₁, hfrom.append hto⟩

/-- From what a recurrent value leads to there is a way back. -/
theorem Recurrent.back (ha : Recurrent f a) (h : Path f a l y) : ∃ l', Path f y l' a := by
  induction h with
  | nil x => exact ⟨[], Path.nil x⟩
  | @cons a w y l hf _ ih =>
    obtain ⟨k, hcycle⟩ := ha
    cases hcycle with
    | @cons _ w' _ _ hf' hback =>
      obtain rfl : w = w' := Except.ok.inj (hf.symm.trans hf')
      have hw : Recurrent f w := by
        cases hback with
        | nil => exact ⟨[], Path.cons hf (Path.nil _)⟩
        | @cons _ _ _ k hstep hrest =>
          exact ⟨k ++ [a], Path.cons hstep (hrest.append (Path.cons hf (Path.nil w)))⟩
      obtain ⟨l', hyw⟩ := ih hw
      exact ⟨l' ++ k, hyw.append hback⟩

/-- **The first recurrent value** is the first one to be repeated. -/
theorem exists_repeat_iff :
    (∃ l, Path f x l y ∧ l.Nodup ∧ y ∈ l) ↔
      ∃ l, Path f x l y ∧ (∀ a ∈ l, ¬ Recurrent f a) ∧ Recurrent f y := by
  constructor
  · rintro ⟨l, hp, hn, hy⟩
    obtain ⟨l₁, l₂, rfl⟩ := List.append_of_mem hy
    obtain ⟨hto, hcycle⟩ := hp.cut
    refine ⟨l₁, hto, fun a ha hrec => ?_, l₂, hcycle⟩
    -- the cycle is closed, so a recurrent value that leads to it is on it
    obtain ⟨k₁, k₂, rfl⟩ := List.append_of_mem ha
    obtain ⟨l', hback⟩ := hrec.back hto.cut.2
    have hon : a ∈ y :: l₂ := by
      refine hback.keep (P := (· ∈ y :: l₂)) (fun b c hb hbc => ?_) List.mem_cons_self
      rcases hcycle.mem_of_step hb hbc with hc | rfl
      · exact hc
      · exact List.mem_cons_self
    exact List.disjoint_of_nodup_append hn ha hon
  · rintro ⟨l, hp, hnot, k, hcycle⟩
    cases hcycle with
    | @cons _ w _ _ hf hback =>
      obtain ⟨k', hfirst, hyk⟩ := hback.exists_first
      have hcycle' : Path f y (y :: k') y := Path.cons hf hfirst
      have hyl : y ∉ l := fun hy => hnot y hy ⟨k', hcycle'⟩
      refine ⟨l ++ y :: k', hp.append hcycle', ?_, by simp⟩
      refine (List.nodup_append.mp (hp.nodup_of_first hyl)).1.append ?_ fun a ha hak => ?_
      · exact (List.perm_append_singleton y k').nodup_iff.mp (hfirst.nodup_of_first hyk)
      · exact hnot a ha (recurrent_of_mem hcycle' hak)

/-! ## The loop -/

section Loop

variable [DecidableEq α] {R : Finset α} {fuel : Nat}

theorem length_le_card (hl : l.Nodup) (h : ∀ a ∈ l, a ∈ R) : l.length ≤ R.card := by
  rw [← List.toFinset_card_of_nodup hl]
  exact Finset.card_le_card fun a ha => h a (List.mem_toFinset.mp ha)

/-- **The loop returns the first recurrent value**, on a finite set closed under `f`. -/
theorem firstRepeat_eq_ok_iff_recurrent (hR : ∀ a ∈ R, ∀ b, f a = .ok b → b ∈ R) (hx : x ∈ R)
    (hfuel : R.card ≤ fuel) :
    firstRepeat f fuel [] x = some (.ok y) ↔
      ∃ l, Path f x l y ∧ (∀ a ∈ l, ¬ Recurrent f a) ∧ Recurrent f y := by
  rw [firstRepeat_eq_ok_iff, ← exists_repeat_iff]
  constructor
  · rintro ⟨l, hp, hn, -, hy, -⟩
    exact ⟨l, hp, hn, by simpa using hy⟩
  · rintro ⟨l, hp, hn, hy⟩
    have hmem := hp.forall_mem (P := (· ∈ R)) (fun a b ha hab => hR a ha b hab) hx
    exact ⟨l, hp, hn, by simp, by simpa using hy, (length_le_card hn hmem).trans hfuel⟩

/-- **The loop fails where a failing value is reached**, on a finite set closed under `f`. -/
theorem firstRepeat_eq_error_iff_path (hR : ∀ a ∈ R, ∀ b, f a = .ok b → b ∈ R) (hx : x ∈ R)
    (hfuel : R.card ≤ fuel) {e : ε} :
    firstRepeat f fuel [] x = some (.error e) ↔ ∃ l z, Path f x l z ∧ f z = .error e := by
  rw [firstRepeat_eq_error_iff]
  constructor
  · rintro ⟨l, z, hp, -, -, hz, -⟩
    exact ⟨l, z, hp, hz⟩
  · rintro ⟨l, z, hp, hz⟩
    obtain ⟨l', hfirst, hzl⟩ := hp.exists_first
    have hn := hfirst.nodup_of_first hzl
    have hmem : ∀ a ∈ l' ++ [z], a ∈ R := by
      refine List.forall_mem_append.mpr ⟨?_, List.forall_mem_singleton.mpr ?_⟩
      · exact hfirst.forall_mem (P := (· ∈ R)) (fun a b ha hab => hR a ha b hab) hx
      · exact hfirst.keep (P := (· ∈ R)) (fun a b ha hab => hR a ha b hab) hx
    have hlength := length_le_card hn hmem
    rw [List.length_append, List.length_singleton] at hlength
    exact ⟨l', z, hfirst, hn, by simp, hz, by omega⟩

end Loop

end Lib.FirstRepeat
