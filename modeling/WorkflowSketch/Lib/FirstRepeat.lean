import Mathlib.Data.Fintype.Card

/-!
# Iterating a step function until a value repeats

`firstRepeat f` iterates a step function `f : α → Except ε α` from a start value, remembering
every value it expands, and stops at the first value it has expanded before, or at the first
step that fails. Lean needs termination, so there is a `fuel` argument; `none` means it ran out.

* `Path f x l y`: expanding the values of `l`, in order, leads from `x` to `y`.
* **`firstRepeat_eq_ok_iff`**, **`firstRepeat_eq_error_iff`**: the loop's outcome in terms of
  paths without repetition.
* **`firstRepeat_isSome`**: on a finite set closed under `f`, as much fuel as the set has
  elements suffices. `settle` is the loop on a finite type, where that makes it total.
* **`firstRepeat_of_path`**: how many iterations the loop takes; `Path.cycle`: where it stops lies
  on a cycle.
* **`settle_step`**, **`settle_of_rank`**: a step that cannot be undone does not change where
  the loop ends; under a ranking that every step either leaves or increases, no step can.
-/

namespace Lib.FirstRepeat

variable {α ε : Type*}

/-- Expanding the values of `l`, in order, leads from `x` to `y`. -/
inductive Path (f : α → Except ε α) : α → List α → α → Prop
  | nil (x : α) : Path f x [] x
  | cons {x w y : α} {l : List α} : f x = .ok w → Path f w l y → Path f x (x :: l) y

variable {f : α → Except ε α} {x y z : α} {l : List α}

/-- What every step keeps holds of every value expanded along a path. -/
theorem Path.forall_mem {P : α → Prop} (hP : ∀ a b, P a → f a = .ok b → P b) (h : Path f x l y)
    (hx : P x) : ∀ a ∈ l, P a := by
  induction h with
  | nil => exact fun a ha => absurd ha List.not_mem_nil
  | cons hf _ ih =>
    intro a ha
    rcases List.mem_cons.mp ha with rfl | ha
    · exact hx
    · exact ih (hP _ _ hx hf) a ha

/-- What every step keeps holds at the end of a path. -/
theorem Path.keep {P : α → Prop} (hP : ∀ a b, P a → f a = .ok b → P b) (h : Path f x l y)
    (hx : P x) : P y := by
  induction h with
  | nil => exact hx
  | cons hf _ ih => exact ih (hP _ _ hx hf)

/-- A path, cut at a value it expands. -/
theorem Path.cut {l₁ l₂ : List α} (h : Path f x (l₁ ++ z :: l₂) y) :
    Path f x l₁ z ∧ Path f z (z :: l₂) y := by
  induction l₁ generalizing x with
  | nil =>
    cases h with
    | cons hf h => exact ⟨Path.nil z, Path.cons hf h⟩
  | cons a l₁ ih =>
    cases h with
    | cons hf h =>
      obtain ⟨h₁, h₂⟩ := ih h
      exact ⟨Path.cons hf h₁, h₂⟩

/-- **A path back to a value it has expanded** ends in a cycle of values it has expanded. -/
theorem Path.cycle (h : Path f x l y) (hy : y ∈ l) :
    ∃ l₁ l₂, l = l₁ ++ y :: l₂ ∧ Path f y (y :: l₂) y := by
  obtain ⟨l₁, l₂, rfl⟩ := List.append_of_mem hy
  exact ⟨l₁, l₂, rfl, h.cut.2⟩

/-! ## The loop -/

section Loop

variable [DecidableEq α]

/-- Iterate `f` from `x` until the current value is one already expanded (`visited`). -/
def firstRepeat (f : α → Except ε α) : Nat → List α → α → Option (Except ε α)
  | 0, visited, x => if x ∈ visited then some (.ok x) else none
  | fuel + 1, visited, x =>
    if x ∈ visited then some (.ok x)
    else match f x with
      | .ok w => firstRepeat f fuel (visited ++ [x]) w
      | .error e => some (.error e)

/-- **The loop returns `y`** iff a path of fresh, distinct values within the fuel leads to `y`,
and `y` is on it or was visited before. -/
theorem firstRepeat_eq_ok_iff {fuel : Nat} {visited : List α} :
    firstRepeat f fuel visited x = some (.ok y) ↔
      ∃ l, Path f x l y ∧ l.Nodup ∧ (∀ a ∈ l, a ∉ visited) ∧ y ∈ visited ++ l ∧
        l.length ≤ fuel := by
  induction fuel generalizing visited x with
  | zero =>
    simp only [firstRepeat]
    constructor
    · intro h
      split at h
      · rename_i hx
        obtain rfl : x = y := by simpa using h
        exact ⟨[], Path.nil x, List.nodup_nil, by simp, by simpa using hx, le_refl _⟩
      · exact absurd h (by simp)
    · rintro ⟨l, hp, -, -, hy, hl⟩
      obtain rfl : l = [] := List.length_eq_zero_iff.mp (Nat.le_zero.mp hl)
      cases hp
      rw [if_pos (by simpa using hy)]
  | succ fuel ih =>
    simp only [firstRepeat]
    by_cases hx : x ∈ visited
    · rw [if_pos hx]
      constructor
      · intro h
        obtain rfl : x = y := by simpa using h
        exact ⟨[], Path.nil x, List.nodup_nil, by simp, by simpa using hx, Nat.zero_le _⟩
      · rintro ⟨l, hp, -, hfresh, -, -⟩
        cases hp with
        | nil => rfl
        | cons _ _ => exact absurd hx (hfresh x List.mem_cons_self)
    · rw [if_neg hx]
      cases hf : f x with
      | error e =>
        refine ⟨fun h => absurd h (by simp), ?_⟩
        rintro ⟨l, hp, -, -, hy, -⟩
        cases hp with
        | nil => exact absurd (by simpa using hy) hx
        | cons hf' _ => rw [hf] at hf'; exact absurd hf' (by simp)
      | ok w =>
        simp only [ih]
        constructor
        · rintro ⟨l, hp, hn, hfresh, hy, hl⟩
          refine ⟨x :: l, Path.cons hf hp, List.nodup_cons.mpr ⟨fun hxl => ?_, hn⟩, fun a ha => ?_,
            by simpa using hy, by simpa using hl⟩
          · exact hfresh x hxl (by simp)
          · rcases List.mem_cons.mp ha with rfl | ha
            · exact hx
            · exact fun hv => hfresh a ha (List.mem_append_left _ hv)
        · rintro ⟨l, hp, hn, hfresh, hy, hl⟩
          cases hp with
          | nil => exact absurd (by simpa using hy) hx
          | @cons _ w' _ l hf' hp =>
            rw [hf] at hf'
            obtain rfl : w = w' := by simpa using hf'
            obtain ⟨hxl, hn⟩ := List.nodup_cons.mp hn
            refine ⟨l, hp, hn, fun a ha => ?_, by simpa using hy, by simpa using hl⟩
            rw [List.mem_append, List.mem_singleton, not_or]
            exact ⟨hfresh a (List.mem_cons_of_mem x ha), fun e => hxl (e ▸ ha)⟩

/-- **The loop fails with `e`** iff a path of fresh, distinct values within the fuel leads to a
fresh value on which `f` fails with `e`. -/
theorem firstRepeat_eq_error_iff {fuel : Nat} {visited : List α} {e : ε} :
    firstRepeat f fuel visited x = some (.error e) ↔
      ∃ l z, Path f x l z ∧ (l ++ [z]).Nodup ∧ (∀ a ∈ l ++ [z], a ∉ visited) ∧
        f z = .error e ∧ l.length < fuel := by
  induction fuel generalizing visited x with
  | zero =>
    simp only [firstRepeat]
    constructor
    · intro h
      split at h <;> simp at h
    · rintro ⟨l, z, -, -, -, -, hl⟩
      exact absurd hl (Nat.not_lt_zero _)
  | succ fuel ih =>
    simp only [firstRepeat]
    by_cases hx : x ∈ visited
    · rw [if_pos hx]
      refine ⟨fun h => absurd h (by simp), ?_⟩
      rintro ⟨l, z, hp, -, hfresh, -, -⟩
      cases hp with
      | nil => exact absurd hx (hfresh x (by simp))
      | cons _ _ => exact absurd hx (hfresh x (by simp))
    · rw [if_neg hx]
      cases hf : f x with
      | error e' =>
        constructor
        · intro h
          obtain rfl : e' = e := by simpa using h
          exact ⟨[], x, Path.nil x, by simp, by simpa using hx, hf, Nat.succ_pos _⟩
        · rintro ⟨l, z, hp, -, -, hz, -⟩
          cases hp with
          | nil => rw [hf] at hz; simpa using hz
          | cons hf' _ => rw [hf] at hf'; exact absurd hf' (by simp)
      | ok w =>
        simp only [ih]
        constructor
        · rintro ⟨l, z, hp, hn, hfresh, hz, hl⟩
          refine ⟨x :: l, z, Path.cons hf hp, List.nodup_cons.mpr ⟨fun hxl => ?_, hn⟩,
            fun a ha => ?_, hz, by simpa using hl⟩
          · exact hfresh x hxl (by simp)
          · rcases List.mem_cons.mp ha with rfl | ha
            · exact hx
            · exact fun hv => hfresh a ha (List.mem_append_left _ hv)
        · rintro ⟨l, z, hp, hn, hfresh, hz, hl⟩
          cases hp with
          | nil => rw [hf] at hz; exact absurd hz (by simp)
          | @cons _ w' _ l hf' hp =>
            rw [hf] at hf'
            obtain rfl : w = w' := by simpa using hf'
            obtain ⟨hxl, hn⟩ := List.nodup_cons.mp hn
            refine ⟨l, z, hp, hn, fun a ha => ?_, hz, by simpa using hl⟩
            rw [List.mem_append, List.mem_singleton, not_or]
            exact ⟨hfresh a (List.mem_cons_of_mem x ha), fun e => hxl (e ▸ ha)⟩

/-- **How long the loop runs**: along a path of fresh, distinct values that leads back to one of
them, for as many iterations as there are values on it. -/
theorem firstRepeat_of_path {fuel : Nat} {visited : List α} (hp : Path f x l y) (hn : l.Nodup)
    (hfresh : ∀ a ∈ l, a ∉ visited) (hy : y ∈ visited ++ l) :
    firstRepeat f fuel visited x = if l.length ≤ fuel then some (.ok y) else none := by
  induction hp generalizing fuel visited with
  | nil x =>
    have hx : x ∈ visited := by simpa using hy
    cases fuel <;> simp [firstRepeat, hx]
  | @cons x w y l hf hp ih =>
    have hx : x ∉ visited := hfresh x List.mem_cons_self
    obtain ⟨hxl, hn⟩ := List.nodup_cons.mp hn
    cases fuel with
    | zero => simp [firstRepeat, hx]
    | succ fuel =>
      have hfresh' : ∀ a ∈ l, a ∉ visited ++ [x] := by
        intro a ha
        rw [List.mem_append, List.mem_singleton, not_or]
        exact ⟨hfresh a (List.mem_cons_of_mem x ha), fun e => hxl (e ▸ ha)⟩
      have hrest : firstRepeat f fuel (visited ++ [x]) w = _ := ih hn hfresh' (by simpa using hy)
      simp only [firstRepeat, hx, if_false, hf, hrest, List.length_cons, Nat.add_le_add_iff_right]

/-- **Enough fuel.** On a finite set closed under `f` the loop does not run out of fuel when the
fuel and the values visited make up the whole set. -/
theorem firstRepeat_isSome {R : Finset α} (hR : ∀ a ∈ R, ∀ b, f a = .ok b → b ∈ R) {fuel : Nat}
    {visited : List α} (hx : x ∈ R) (hv : ∀ a ∈ visited, a ∈ R) (hn : visited.Nodup)
    (hcard : R.card ≤ visited.length + fuel) : (firstRepeat f fuel visited x).isSome := by
  induction fuel generalizing visited x with
  | zero =>
    -- `visited` is a duplicate-free list of `R.card` members of `R`, so it holds all of them
    have hsub : visited.toFinset ⊆ R := fun a ha => hv a (List.mem_toFinset.mp ha)
    have heq : visited.toFinset = R :=
      Finset.eq_of_subset_of_card_le hsub (by rw [List.toFinset_card_of_nodup hn]; exact hcard)
    have hmem : x ∈ visited := List.mem_toFinset.mp (heq ▸ hx)
    simp [firstRepeat, hmem]
  | succ fuel ih =>
    simp only [firstRepeat]
    split
    · rfl
    · rename_i hxv
      cases hf : f x with
      | error e => rfl
      | ok w =>
        refine ih (hR x hx w hf) (fun a ha => ?_) ?_ (by simp; omega)
        · rcases List.mem_append.mp ha with ha | ha
          · exact hv a ha
          · rw [List.mem_singleton.mp ha]; exact hx
        · exact List.Nodup.append hn (List.nodup_singleton x)
            (by simpa [List.disjoint_singleton] using hxv)

/-- **The path the loop takes**, on a finite set closed under `f` where `f` does not fail. -/
theorem exists_path_of_finset {R : Finset α} (hR : ∀ a ∈ R, ∃ b ∈ R, f a = .ok b) (hx : x ∈ R) :
    ∃ l y, Path f x l y ∧ l.Nodup ∧ y ∈ l ∧ l.length ≤ R.card := by
  have hclosed : ∀ a ∈ R, ∀ b, f a = .ok b → b ∈ R := by
    intro a ha b hb
    obtain ⟨c, hc, hac⟩ := hR a ha
    rw [hb] at hac
    obtain rfl : b = c := by simpa using hac
    exact hc
  have hsome : (firstRepeat f R.card [] x).isSome :=
    firstRepeat_isSome hclosed hx (by simp) List.nodup_nil (by simp)
  obtain ⟨r, hr⟩ := Option.isSome_iff_exists.mp hsome
  cases r with
  | ok y =>
    obtain ⟨l, hp, hn, -, hy, hl⟩ := firstRepeat_eq_ok_iff.mp hr
    exact ⟨l, y, hp, hn, by simpa using hy, hl⟩
  | error e =>
    obtain ⟨l, z, hp, -, -, hz, -⟩ := firstRepeat_eq_error_iff.mp hr
    obtain ⟨b, -, hb⟩ := hR z (hp.keep (P := (· ∈ R)) (fun a b ha hab => hclosed a ha b hab) hx)
    rw [hz] at hb
    exact absurd hb (by simp)

end Loop

/-! ## The loop on a finite type -/

section Settle

variable [Fintype α] [DecidableEq α]

theorem firstRepeat_isSome_of_fintype (f : α → Except ε α) (x : α) :
    (firstRepeat f (Fintype.card α) [] x).isSome :=
  firstRepeat_isSome (R := Finset.univ) (fun _ _ _ _ => Finset.mem_univ _) (Finset.mem_univ x)
    (fun _ _ => Finset.mem_univ _) List.nodup_nil (by simp [Finset.card_univ])

/-- The loop on a finite type, where it always ends. -/
def settle (f : α → Except ε α) (x : α) : Except ε α :=
  (firstRepeat f (Fintype.card α) [] x).get (firstRepeat_isSome_of_fintype f x)

theorem firstRepeat_eq_settle (f : α → Except ε α) (x : α) :
    firstRepeat f (Fintype.card α) [] x = some (settle f x) :=
  (Option.some_get _).symm

theorem settle_eq_ok_iff :
    settle f x = .ok y ↔ ∃ l, Path f x l y ∧ l.Nodup ∧ y ∈ l := by
  rw [← Option.some_inj, ← firstRepeat_eq_settle, firstRepeat_eq_ok_iff]
  constructor
  · rintro ⟨l, hp, hn, -, hy, -⟩
    exact ⟨l, hp, hn, by simpa using hy⟩
  · rintro ⟨l, hp, hn, hy⟩
    exact ⟨l, hp, hn, by simp, by simpa using hy, hn.length_le_card⟩

theorem settle_eq_error_iff {e : ε} :
    settle f x = .error e ↔ ∃ l z, Path f x l z ∧ (l ++ [z]).Nodup ∧ f z = .error e := by
  rw [← Option.some_inj, ← firstRepeat_eq_settle, firstRepeat_eq_error_iff]
  constructor
  · rintro ⟨l, z, hp, hn, -, hz, -⟩
    exact ⟨l, z, hp, hn, hz⟩
  · rintro ⟨l, z, hp, hn, hz⟩
    have hlen := hn.length_le_card
    rw [List.length_append, List.length_singleton] at hlen
    exact ⟨l, z, hp, hn, by simp, hz, by omega⟩

/-- A fixed point settles where it is. -/
theorem settle_of_fixed (h : f x = .ok x) : settle f x = .ok x :=
  settle_eq_ok_iff.mpr ⟨[x], Path.cons h (Path.nil x), List.nodup_singleton x, by simp⟩

/-- A step that fails at once. -/
theorem settle_of_error {e : ε} (h : f x = .error e) : settle f x = .error e :=
  settle_eq_error_iff.mpr ⟨[], x, Path.nil x, List.nodup_singleton x, h⟩

/-- **A step that cannot be undone** does not change where the loop ends: `P` holds from `y` on
and does not hold of `x`. -/
theorem settle_step {P : α → Prop} (hP : ∀ a b, P a → f a = .ok b → P b) (hf : f x = .ok y)
    (hy : P y) (hx : ¬ P x) : settle f x = settle f y := by
  cases h : settle f y with
  | ok z =>
    obtain ⟨l, hp, hn, hz⟩ := settle_eq_ok_iff.mp h
    have hxl : x ∉ l := fun hxl => hx (hp.forall_mem hP hy x hxl)
    exact settle_eq_ok_iff.mpr
      ⟨x :: l, Path.cons hf hp, List.nodup_cons.mpr ⟨hxl, hn⟩, List.mem_cons_of_mem x hz⟩
  | error e =>
    obtain ⟨l, z, hp, hn, hz⟩ := settle_eq_error_iff.mp h
    have hxl : x ∉ l ++ [z] := by
      rw [List.mem_append, List.mem_singleton, not_or]
      exact ⟨fun hxl => hx (hp.forall_mem hP hy x hxl), fun hxz => hx (hxz ▸ hp.keep hP hy)⟩
    exact settle_eq_error_iff.mpr ⟨x :: l, z, Path.cons hf hp, List.nodup_cons.mpr ⟨hxl, hn⟩, hz⟩

/-- **Under a ranking** that every step leaves or increases no step can be undone. -/
theorem settle_of_rank {rank : α → Nat} (hr : ∀ a b, f a = .ok b → b = a ∨ rank a < rank b)
    (hf : f x = .ok y) : settle f x = settle f y := by
  rcases hr x y hf with rfl | hlt
  · rfl
  · refine settle_step (P := fun a => rank y ≤ rank a) (fun a b ha hab => ?_) hf (le_refl _)
      (Nat.not_le.mpr hlt)
    rcases hr a b hab with rfl | hab
    · exact ha
    · exact ha.trans (Nat.le_of_lt hab)

end Settle

end Lib.FirstRepeat
