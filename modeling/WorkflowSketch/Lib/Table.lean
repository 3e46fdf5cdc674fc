import Mathlib.Data.List.Basic
import Mathlib.Data.List.Nodup

/-!
# Tables with generated identities

A `Table α` holds rows of `α` in insertion order, each under an identity generated when the row
was inserted (an auto-increment column). No two rows share an identity and every identity ever
generated is below the next one; both facts are fields, so no table without them can be built.

* `insert`, `modify`, `delete` write one row; `select` is a query: the matching rows, in order,
  as they are when it is evaluated.
* **`rows_deleteEach_select`**: deleting, one by one, those rows of a query's answer that satisfy
  a second condition removes exactly the rows satisfying both.
* `IsKey`: no two rows have the same key. **`isKey_insert_iff`**: an insertion keeps it so exactly
  if the key is new; **`IsKey.select_eq`**: a query for a key finds the one row that has it.
-/

namespace Lib

/-- A stored row: its identity and its value. -/
@[ext]
structure Row (α : Type*) where
  id : Nat
  val : α
  deriving DecidableEq, Repr

/-- Rows under generated identities. -/
structure Table (α : Type*) where
  rows : List (Row α)
  nextId : Nat
  ids_nodup : (rows.map Row.id).Nodup
  ids_lt : ∀ r ∈ rows, r.id < nextId

namespace Table

variable {α : Type*}

/-- No rows, and no identity given out yet. -/
def empty : Table α := ⟨[], 0, by simp, by simp⟩

/-- The rows whose value satisfies `p`, in order. -/
def select (t : Table α) (p : α → Bool) : List (Row α) := t.rows.filter fun r => p r.val

/-- The row with the given identity. -/
def get? (t : Table α) (id : Nat) : Option (Row α) := t.rows.find? fun r => r.id == id

/-- Store `a` under the next identity. -/
def insert (t : Table α) (a : α) : Table α where
  rows := t.rows ++ [⟨t.nextId, a⟩]
  nextId := t.nextId + 1
  ids_nodup := by
    rw [List.map_append, List.map_singleton]
    refine List.Nodup.append t.ids_nodup (List.nodup_singleton _) ?_
    rw [List.disjoint_singleton]
    intro h
    obtain ⟨r, hr, hid⟩ := List.mem_map.mp h
    exact absurd (hid ▸ t.ids_lt r hr) (Nat.lt_irrefl _)
  ids_lt := by
    intro r hr
    rcases List.mem_append.mp hr with hr | hr
    · exact Nat.lt_succ_of_lt (t.ids_lt r hr)
    · rw [List.mem_singleton.mp hr]; exact Nat.lt_succ_self _

/-- Replace the value of the row with the given identity. -/
def modify (t : Table α) (id : Nat) (f : α → α) : Table α where
  rows := t.rows.map fun r => if r.id = id then ⟨r.id, f r.val⟩ else r
  nextId := t.nextId
  ids_nodup := by
    have hids : ((t.rows.map fun r => if r.id = id then (⟨r.id, f r.val⟩ : Row α) else r).map
        Row.id) = t.rows.map Row.id := by
      rw [List.map_map]
      refine List.map_congr_left fun r _ => ?_
      by_cases h : r.id = id <;> simp [h]
    rw [hids]
    exact t.ids_nodup
  ids_lt := by
    intro r hr
    obtain ⟨r₀, hr₀, rfl⟩ := List.mem_map.mp hr
    have := t.ids_lt r₀ hr₀
    split
    · exact this
    · exact this

/-- Remove the row with the given identity. -/
def delete (t : Table α) (id : Nat) : Table α where
  rows := t.rows.filter fun r => !(r.id == id)
  nextId := t.nextId
  ids_nodup := t.ids_nodup.sublist (List.filter_sublist.map _)
  ids_lt := fun r hr => t.ids_lt r (List.mem_filter.mp hr).1

/-- Remove, one by one, those of the listed rows that satisfy `p`. -/
def deleteEach (t : Table α) (l : List (Row α)) (p : Row α → Bool) : Table α :=
  l.foldl (fun t r => if p r then t.delete r.id else t) t

/-! ## Lemmas -/

@[simp] theorem rows_empty : (empty : Table α).rows = [] := rfl

@[simp] theorem rows_insert (t : Table α) (a : α) :
    (t.insert a).rows = t.rows ++ [⟨t.nextId, a⟩] := rfl

@[simp] theorem rows_modify (t : Table α) (id : Nat) (f : α → α) :
    (t.modify id f).rows = t.rows.map fun r => if r.id = id then ⟨r.id, f r.val⟩ else r := rfl

theorem forall_mem_insert_iff {t : Table α} {a : α} {P : Row α → Prop} :
    (∀ r ∈ (t.insert a).rows, P r) ↔ (∀ r ∈ t.rows, P r) ∧ P ⟨t.nextId, a⟩ := by
  rw [rows_insert, List.forall_mem_append, List.forall_mem_singleton]

/-- The row a modification writes. -/
theorem mem_modify_iff {t : Table α} {id : Nat} {f : α → α} {a : α} :
    ⟨id, a⟩ ∈ (t.modify id f).rows ↔ ∃ r ∈ t.rows, r.id = id ∧ f r.val = a := by
  rw [rows_modify, List.mem_map]
  refine exists_congr fun r => and_congr_right fun _ => ?_
  by_cases hid : r.id = id
  · simp [hid]
  · simp only [hid, if_false, false_and, iff_false]
    rintro rfl
    exact hid rfl

/-- A modification keeps the identities. -/
theorem ids_modify (t : Table α) (id : Nat) (f : α → α) :
    (t.modify id f).rows.map Row.id = t.rows.map Row.id := by
  rw [rows_modify, List.map_map]
  refine List.map_congr_left fun r _ => ?_
  by_cases h : r.id = id <;> simp [h]

theorem mem_delete_iff {t : Table α} {id : Nat} {r : Row α} :
    r ∈ (t.delete id).rows ↔ r ∈ t.rows ∧ r.id ≠ id := by
  simp [delete]

/-- Modifying a row to what it is. -/
theorem rows_modify_eq_self {t : Table α} {id : Nat} {f : α → α}
    (h : ∀ r ∈ t.rows, r.id = id → f r.val = r.val) : (t.modify id f).rows = t.rows := by
  rw [rows_modify]
  refine (List.map_congr_left fun r hr => ?_).trans (List.map_id _)
  split
  · rename_i hid
    rw [h r hr hid]
    rfl
  · rfl

/-- Modifying the row just inserted. -/
theorem rows_insert_modify (t : Table α) (a : α) (f : α → α) :
    ((t.insert a).modify t.nextId f).rows = t.rows ++ [⟨t.nextId, f a⟩] := by
  rw [rows_modify, rows_insert, List.map_append, List.map_singleton, if_pos rfl]
  congr 1
  refine (List.map_congr_left fun r hr => ?_).trans (List.map_id _)
  exact if_neg (Nat.ne_of_lt (t.ids_lt r hr))

theorem mem_select {t : Table α} {p : α → Bool} {r : Row α} :
    r ∈ t.select p ↔ r ∈ t.rows ∧ p r.val = true := List.mem_filter

/-- Rows with one identity are one row. -/
theorem eq_of_id {t : Table α} {r s : Row α} (hr : r ∈ t.rows) (hs : s ∈ t.rows)
    (h : r.id = s.id) : r = s :=
  List.inj_on_of_nodup_map t.ids_nodup hr hs h

theorem nodup_select (t : Table α) (p : α → Bool) : (t.select p).Nodup :=
  t.ids_nodup.of_map.filter _

theorem select_insert (t : Table α) (a : α) (p : α → Bool) :
    (t.insert a).select p = t.select p ++ if p a then [⟨t.nextId, a⟩] else [] := by
  unfold select
  rw [rows_insert, List.filter_append]
  cases h : p a <;> simp [h]

theorem select_modify {t : Table α} {id : Nat} {f : α → α} {p : α → Bool}
    (h : ∀ r ∈ t.rows, r.id = id → p (f r.val) = p r.val) :
    (t.modify id f).select p =
      (t.select p).map fun r => if r.id = id then ⟨r.id, f r.val⟩ else r := by
  unfold select
  rw [rows_modify, List.filter_map]
  congr 1
  refine List.filter_congr fun r hr => ?_
  simp only [Function.comp_apply]
  split
  · rename_i hid; exact h r hr hid
  · rfl

/-- Modifying a row outside a query, which stays outside, does not change its answer. -/
theorem select_modify_of_not {t : Table α} {r : Row α} {f : α → α} {p : α → Bool}
    (hr : r ∈ t.rows) (h : p r.val = false) (hf : p (f r.val) = false) :
    (t.modify r.id f).select p = t.select p := by
  rw [select_modify fun s hs hid => by rw [eq_of_id hs hr hid, h, hf]]
  refine (List.map_congr_left fun s hs => ?_).trans (List.map_id _)
  obtain ⟨hs, hp⟩ := mem_select.mp hs
  refine if_neg fun hid => ?_
  rw [eq_of_id hs hr hid, h] at hp
  exact absurd hp (by simp)

/-- Modifying the first row of a query's answer, which stays in it, changes that row only. -/
theorem select_modify_head {t : Table α} {r : Row α} {rest : List (Row α)} {f : α → α}
    {p : α → Bool} (h : t.select p = r :: rest) (hf : p (f r.val) = true) :
    (t.modify r.id f).select p = ⟨r.id, f r.val⟩ :: rest := by
  obtain ⟨hr, hp⟩ := mem_select.mp (h ▸ List.mem_cons_self : r ∈ t.select p)
  have hrest : r ∉ rest := (List.nodup_cons.mp (h ▸ t.nodup_select p)).1
  rw [select_modify fun s hs hid => by rw [eq_of_id hs hr hid, hp, hf], h, List.map_cons,
    if_pos rfl]
  congr 1
  refine (List.map_congr_left fun s hs => ?_).trans (List.map_id _)
  refine if_neg fun hid => ?_
  have hs' := (mem_select.mp (h ▸ List.mem_cons_of_mem r hs : s ∈ t.select p)).1
  exact hrest (eq_of_id hs' hr hid ▸ hs)

theorem get?_eq_some_iff {t : Table α} {id : Nat} {r : Row α} :
    t.get? id = some r ↔ r ∈ t.rows ∧ r.id = id := by
  constructor
  · intro h
    exact ⟨List.mem_of_find?_eq_some h, by simpa using List.find?_some h⟩
  · rintro ⟨hr, rfl⟩
    cases h : t.get? r.id with
    | none => exact absurd (List.find?_eq_none.mp h r hr) (by simp)
    | some s =>
      have hs : s.id = r.id := by simpa using List.find?_some h
      rw [eq_of_id (List.mem_of_find?_eq_some h) hr hs]

theorem rows_deleteEach (t : Table α) (l : List (Row α)) (p : Row α → Bool) :
    (t.deleteEach l p).rows = t.rows.filter fun r => !l.any fun s => p s && r.id == s.id := by
  induction l generalizing t with
  | nil => simp [deleteEach]
  | cons s l ih =>
    have hstep : t.deleteEach (s :: l) p
        = (if p s then t.delete s.id else t).deleteEach l p := rfl
    rw [hstep, ih]
    by_cases hp : p s = true
    · rw [if_pos hp, delete, List.filter_filter]
      refine List.filter_congr fun r _ => ?_
      simp [hp, Bool.and_comm]
    · rw [if_neg hp]
      refine List.filter_congr fun r _ => ?_
      simp [hp]

/-- **Deleting through a query.** -/
theorem rows_deleteEach_select (t : Table α) (q : α → Bool) (p : Row α → Bool) :
    (t.deleteEach (t.select q) p).rows = t.rows.filter fun r => !(q r.val && p r) := by
  rw [rows_deleteEach]
  refine List.filter_congr fun r hr => ?_
  congr 1
  rw [Bool.eq_iff_iff, List.any_eq_true, Bool.and_eq_true]
  constructor
  · rintro ⟨s, hs, hps⟩
    obtain ⟨hs, hq⟩ := mem_select.mp hs
    rw [Bool.and_eq_true, beq_iff_eq] at hps
    obtain rfl := eq_of_id hr hs hps.2
    exact ⟨hq, hps.1⟩
  · rintro ⟨hq, hp⟩
    exact ⟨r, mem_select.mpr ⟨hr, hq⟩, by simp [hp]⟩

/-! ## Keys -/

variable {β : Type*} {t : Table α} {key : α → β} {a : α}

/-- No two rows have the same key. -/
def IsKey (t : Table α) (key : α → β) : Prop :=
  ∀ r ∈ t.rows, ∀ s ∈ t.rows, key r.val = key s.val → r = s

theorem isKey_empty : (empty : Table α).IsKey key :=
  fun _ hr => absurd hr List.not_mem_nil

/-- **An insertion keeps the keys distinct exactly if its own is new.** -/
theorem isKey_insert_iff :
    (t.insert a).IsKey key ↔ t.IsKey key ∧ ∀ r ∈ t.rows, key r.val ≠ key a := by
  have hnew : (⟨t.nextId, a⟩ : Row α) ∈ (t.insert a).rows :=
    List.mem_append_right _ List.mem_cons_self
  constructor
  · intro h
    refine ⟨fun r hr s hs => h r (List.mem_append_left _ hr) s (List.mem_append_left _ hs),
      fun r hr hkey => ?_⟩
    have hlt := t.ids_lt r hr
    rw [h r (List.mem_append_left _ hr) _ hnew hkey] at hlt
    exact absurd hlt (Nat.lt_irrefl _)
  · rintro ⟨h, hfresh⟩
    refine forall_mem_insert_iff.mpr ⟨fun r hr => ?_, ?_⟩
    · exact forall_mem_insert_iff.mpr ⟨h r hr, fun hkey => absurd hkey (hfresh r hr)⟩
    · exact forall_mem_insert_iff.mpr
        ⟨fun s hs hkey => absurd hkey.symm (hfresh s hs), fun _ => rfl⟩

/-- A modification keeps the keys distinct if the new key is that of no other row. -/
theorem IsKey.modify {id : Nat} (h : t.IsKey key)
    (ha : ∀ r ∈ t.rows, r.id ≠ id → key r.val ≠ key a) : (t.modify id fun _ => a).IsKey key := by
  intro r hr s hs hkey
  rw [rows_modify] at hr hs
  obtain ⟨r₀, hr₀, rfl⟩ := List.mem_map.mp hr
  obtain ⟨s₀, hs₀, rfl⟩ := List.mem_map.mp hs
  by_cases hrid : r₀.id = id <;> by_cases hsid : s₀.id = id
  · rw [eq_of_id hr₀ hs₀ (hrid.trans hsid.symm)]
  · rw [if_pos hrid, if_neg hsid] at hkey
    exact absurd hkey.symm (ha s₀ hs₀ hsid)
  · rw [if_neg hrid, if_pos hsid] at hkey
    exact absurd hkey (ha r₀ hr₀ hrid)
  · rw [if_neg hrid, if_neg hsid] at hkey
    rw [h r₀ hr₀ s₀ hs₀ hkey]

theorem IsKey.delete (h : t.IsKey key) (id : Nat) : (t.delete id).IsKey key :=
  fun r hr s hs => h r (mem_delete_iff.mp hr).1 s (mem_delete_iff.mp hs).1

/-- **A query for a key** answers with the first row that has it, which is the only one. -/
theorem IsKey.select_eq [BEq β] [LawfulBEq β] (h : t.IsKey key) (k : β) :
    (t.select fun a => key a == k) = (t.rows.find? fun r => key r.val == k).toList := by
  cases hfind : t.rows.find? fun r => key r.val == k with
  | none => exact List.filter_eq_nil_iff.mpr fun r hr => List.find?_eq_none.mp hfind r hr
  | some r =>
    have hk : key r.val = k := by simpa using List.find?_some hfind
    have hr : r ∈ t.select fun a => key a == k :=
      mem_select.mpr ⟨List.mem_of_find?_eq_some hfind, by simp [hk]⟩
    by_contra hne
    rcases ((t.nodup_select _).ne_singleton_iff r).mp hne with hnil | ⟨s, hs, hsr⟩
    · rw [hnil] at hr
      exact absurd hr List.not_mem_nil
    · obtain ⟨hs, hks⟩ := mem_select.mp hs
      exact hsr (h s hs r (mem_select.mp hr).1 ((eq_of_beq hks).trans hk.symm))

end Table

end Lib
