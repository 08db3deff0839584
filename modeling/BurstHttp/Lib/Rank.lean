/-
Order statistics.

`x` has rank `r` among some items if at most `r` of them are less, and more than `r` are not
greater: it is then the item at index `r` (from zero) of the sorted items (`HasRank`).

* `hasRank_getElem` — the items of a sorted permutation have their indices as ranks;
* `HasRank.le` — items are ordered as their ranks.
-/
import Mathlib.Data.List.Sort
import Mathlib.Order.Defs.LinearOrder

namespace Rank

variable {α : Type}

structure HasRank [LinearOrder α] (items : List α) (r : ℕ) (x : α) : Prop where
  mem : x ∈ items
  below : items.countP (· < x) ≤ r
  above : r < items.countP (· ≤ x)

/-- A property that holds of a front of a list holds at the indices below their number. -/
theorem lt_countP_iff {l : List α} {p : α → Bool} (hfront : l.Pairwise fun a b => p b → p a)
    {i : ℕ} {x : α} (hx : l[i]? = some x) : i < l.countP p ↔ p x = true := by
  induction l generalizing i with
  | nil => cases hx
  | cons a l ih =>
    obtain ⟨hfirst, hrest⟩ := List.pairwise_cons.mp hfront
    by_cases ha : p a = true
    · rw [List.countP_cons_of_pos ha]
      cases i with
      | zero =>
        obtain rfl := Option.some.inj hx
        simp [ha]
      | succ i =>
        rw [Nat.add_lt_add_iff_right]
        exact ih hrest hx
    · -- it holds nowhere
      have hnone : ∀ b ∈ a :: l, ¬ p b = true := by
        rintro b hb hp
        rcases List.mem_cons.mp hb with rfl | hb
        · exact ha hp
        · exact ha (hfirst b hb hp)
      have hzero : (a :: l).countP p = 0 := List.countP_eq_zero.mpr hnone
      have hnot := hnone x (List.mem_of_getElem? hx)
      rw [hzero]
      simp [hnot]

variable [LinearOrder α]

theorem hasRank_getElem {items sorted : List α} (hperm : sorted.Perm items)
    (hsorted : sorted.Pairwise (· ≤ ·)) {r : ℕ} {x : α} (hx : sorted[r]? = some x) :
    HasRank items r x := by
  have hle : sorted.Pairwise fun a b => decide (b ≤ x) = true → decide (a ≤ x) = true :=
    hsorted.imp fun hab hb => decide_eq_true (hab.trans (of_decide_eq_true hb))
  have hlt : sorted.Pairwise fun a b => decide (b < x) = true → decide (a < x) = true :=
    hsorted.imp fun hab hb => decide_eq_true (hab.trans_lt (of_decide_eq_true hb))
  refine ⟨hperm.mem_iff.mp (List.mem_of_getElem? hx), ?_, ?_⟩
  · rw [← hperm.countP_eq]
    refine not_lt.mp fun hr => ?_
    exact absurd ((lt_countP_iff hlt hx).mp hr) (by simp)
  · rw [← hperm.countP_eq]
    exact (lt_countP_iff hle hx).mpr (by simp)

/-- Items are ordered as their ranks. -/
theorem HasRank.le {items : List α} {r r' : ℕ} {x y : α} (hx : HasRank items r x)
    (hy : HasRank items r' y) (h : r ≤ r') : x ≤ y := by
  by_contra hlt
  -- what is at most `y` is less than `x`
  have hcount : items.countP (· ≤ y) ≤ items.countP (· < x) :=
    List.countP_mono_left fun a _ ha =>
      decide_eq_true ((of_decide_eq_true ha).trans_lt (not_le.mp hlt))
  have hbelow := hx.below
  have habove := hy.above
  omega

end Rank
