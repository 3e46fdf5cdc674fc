import Mathlib.Order.Defs.Unbundled
import WorkflowSketch.SimpleObject.Menu

/-!
# The order of the objects (`SimpleObject.compareTo`)

A `SimpleObject` is `Comparable`, by its name. That puts the stored objects in a total order only
because no two of them have the same name.

* `ComparisonChain`: what `compareTo` relies on of the chain it builds, the sign of the result.
* `JavaString.compareTo_neg_iff`, `compareTo_eq_zero_iff`: the comparison is the lexicographic one.
* **`compareTo_of_userRun`**: in every store reached `compareTo` is a strict total order, that of
  the names, and no two objects compare as equal.
-/

namespace WorkflowSketch

open Lib Lib.Transact

/-- `String.compareTo`: the difference of the first code units that differ, or of the lengths. -/
def JavaString.compareTo : JavaString → JavaString → Int
  | c :: s, d :: t => if c = d then compareTo s t else (c.toNat : Int) - d.toNat
  | s, t => (s.length : Int) - t.length

/-- `ComparisonChain`, as far as `compareTo` relies on it. -/
structure ComparisonChain where
  /-- `start().compare(left, right).result()`, from what `left.compareTo(right)` answers. -/
  result : Int → Int
  sign_result : ∀ comparison, (result comparison).sign = comparison.sign

/-- `compareTo`: a chain of one comparison. -/
def SimpleObject.compareTo (comparisonChain : ComparisonChain) (object other : SimpleObject) :
    Int :=
  comparisonChain.result (object.name.compareTo other.name)

namespace JavaString

theorem compareTo_neg_iff {s t : JavaString} : s.compareTo t < 0 ↔ s < t := by
  fun_induction compareTo s t with
  | case1 c s t ih =>
    rw [ih, List.cons_lt_cons_self]
  | case2 c s d t hne =>
    rw [List.cons_lt_cons_iff, UInt16.lt_iff_toNat_lt]
    simp only [hne, false_and, or_false]
    omega
  | case3 s t hshape =>
    cases s with
    | nil =>
      cases t with
      | nil => simp
      | cons d t => simp; omega
    | cons c s =>
      cases t with
      | nil => simp; omega
      | cons d t => exact absurd rfl (hshape c s d t rfl)

theorem compareTo_comm (s t : JavaString) : t.compareTo s = -s.compareTo t := by
  fun_induction compareTo s t with
  | case1 c s t ih => simpa [compareTo] using ih
  | case2 c s d t hne => simp [compareTo, Ne.symm hne]
  | case3 s t hshape =>
    cases s with
    | nil => cases t <;> simp [compareTo]
    | cons c s =>
      cases t with
      | nil => simp [compareTo]
      | cons d t => exact absurd rfl (hshape c s d t rfl)

theorem compareTo_eq_zero_iff {s t : JavaString} : s.compareTo t = 0 ↔ s = t := by
  have hcomm := compareTo_comm s t
  constructor
  · intro h
    have hst : ¬ s < t := compareTo_neg_iff.not.mp (by omega)
    have hts : ¬ t < s := compareTo_neg_iff.not.mp (by omega)
    exact Std.Trichotomous.trichotomous s t hst hts
  · rintro rfl
    omega

end JavaString

namespace SimpleObject

variable {ε : Type*} {framework : Framework ε} {s₀ store : Store} {tr : Trace Store UserAction}
  {comparisonChain : ComparisonChain} {object other : SimpleObject}

theorem sign_compareTo : (object.compareTo comparisonChain other).sign =
    (object.name.compareTo other.name).sign :=
  comparisonChain.sign_result _

theorem compareTo_neg_iff :
    object.compareTo comparisonChain other < 0 ↔ object.name < other.name := by
  rw [← Int.sign_neg_iff, sign_compareTo, Int.sign_neg_iff, JavaString.compareTo_neg_iff]

theorem compareTo_eq_zero_iff :
    object.compareTo comparisonChain other = 0 ↔ object.name = other.name := by
  rw [← Int.sign_eq_zero_iff_zero, sign_compareTo, Int.sign_eq_zero_iff_zero,
    JavaString.compareTo_eq_zero_iff]

/-- **The objects are comparable**: in every store reached `compareTo` is a strict total order on
what is stored, the lexicographic one of the names. It is consistent with equality, and its sign
changes when its arguments are exchanged. -/
theorem compareTo_of_userRun (comparisonChain : ComparisonChain) (h₀ : s₀.Consistent)
    (h : Run (SimpleObjectUserSystem framework) s₀ tr store) :
    IsStrictTotalOrder {row // row ∈ store.objects.rows}
        (fun row other => row.val.val.compareTo comparisonChain other.val.val < 0) ∧
      ∀ row ∈ store.objects.rows, ∀ other ∈ store.objects.rows,
        (row.val.compareTo comparisonChain other.val < 0 ↔ row.val.name < other.val.name) ∧
        (row.val.compareTo comparisonChain other.val = 0 ↔ row = other) ∧
        (other.val.compareTo comparisonChain row.val).sign =
          -(row.val.compareTo comparisonChain other.val).sign := by
  have hnames := (consistent_of_userRun h₀ h).names
  refine ⟨?_, fun row hrow other hother => ⟨compareTo_neg_iff, ?_, ?_⟩⟩
  · simp only [compareTo_neg_iff]
    exact
      { trichotomous := fun row other hlt hgt => Subtype.ext (hnames _ row.2 _ other.2
          (Std.Trichotomous.trichotomous _ _ hlt hgt))
        irrefl := fun row => List.lt_irrefl _
        trans := fun row other third => List.lt_trans }
  · rw [compareTo_eq_zero_iff]
    exact ⟨hnames row hrow other hother, fun heq => heq ▸ rfl⟩
  · rw [sign_compareTo, sign_compareTo, JavaString.compareTo_comm, Int.sign_neg]

/-- The chain answers -1, 0 or 1. -/
def ordinaryChain : ComparisonChain where
  result := Int.sign
  sign_result _ := Int.sign_sign

theorem compareTo_of_renamed :
    IsStrictTotalOrder
      {row // row ∈
        ((exec (SimpleObjectUserSystem .isis) withTasks renamed).get (by decide)).2.objects.rows}
      (fun row other => row.val.val.compareTo ordinaryChain other.val.val < 0) :=
  (compareTo_of_userRun ordinaryChain (by decide)
    (run_exec (S := SimpleObjectUserSystem .isis) (s := withTasks) (l := renamed) (by decide))).1

end SimpleObject

end WorkflowSketch
