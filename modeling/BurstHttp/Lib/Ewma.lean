/-
A moving average of integers.

The weight of a sample is one over `2 ^ k`, and the difference to it is shifted, so that the
average is rounded down.  The value 0 says that there is no average yet.

* `next`, `average` — the update, and the average of a list of samples;
* `next_between` — an update goes from the old value towards the sample and not beyond it;
* `average_between` — so the average lies between the least and the greatest sample;
* `decay`, `decay_foldl` — it does not fall faster than by one part in `2 ^ k` with each sample.
-/
import Mathlib.Data.Int.Order.Basic
import Mathlib.Data.List.Induction
import Mathlib.Tactic.Linarith
import Mathlib.Tactic.Ring

namespace Ewma

/-- The average after one more sample. -/
def next (k : ℕ) (old x : ℤ) : ℤ := if old = 0 then x else old + (x - old) >>> k

def average (k : ℕ) (samples : List ℤ) : ℤ := samples.foldl (next k) 0

@[simp] theorem average_nil (k : ℕ) : average k [] = 0 := rfl

theorem average_append (k : ℕ) (l l' : List ℤ) :
    average k (l ++ l') = l'.foldl (next k) (average k l) :=
  List.foldl_append

theorem average_concat (k : ℕ) (l : List ℤ) (x : ℤ) :
    average k (l ++ [x]) = next k (average k l) x := by
  rw [average_append]
  rfl

/-! ### Bounds -/

/-- A shift takes a number towards zero, or to -1. -/
theorem shift_between (d : ℤ) (k : ℕ) : min d 0 ≤ d >>> k ∧ d >>> k ≤ max d 0 := by
  have hpow : (0 : ℤ) < 2 ^ k := pow_pos (by decide) k
  rw [Int.shiftRight_eq_div_pow, Nat.cast_pow, Nat.cast_ofNat]
  rcases le_or_gt 0 d with hd | hd
  · rw [min_eq_right hd, max_eq_left hd]
    exact ⟨Int.ediv_nonneg hd hpow.le, Int.ediv_le_self _ hd⟩
  · rw [min_eq_left hd.le, max_eq_right hd.le]
    refine ⟨Int.le_ediv_of_mul_le hpow ?_, (Int.ediv_neg_of_neg_of_pos hd hpow).le⟩
    have hone : (1 : ℤ) ≤ 2 ^ k := hpow
    nlinarith

/-- The update lies between the old value, if there is one, and the sample. -/
theorem next_between (k : ℕ) {old : ℤ} (hold : old ≠ 0) (x : ℤ) :
    min old x ≤ next k old x ∧ next k old x ≤ max old x := by
  obtain ⟨hlow, hhigh⟩ := shift_between (x - old) k
  rw [next, if_neg hold]
  omega

/-- Every bound of the samples is one of the average. -/
theorem average_between (k : ℕ) {samples : List ℤ} (hne : samples ≠ []) :
    (∃ x ∈ samples, x ≤ average k samples) ∧ ∃ y ∈ samples, average k samples ≤ y := by
  induction samples using List.reverseRecOn with
  | nil => exact absurd rfl hne
  | append_singleton l x ih =>
    rw [average_concat]
    have hlast : x ∈ l ++ [x] := List.mem_append_right _ (List.mem_singleton_self x)
    by_cases hold : average k l = 0
    · -- the sample is the first one, or the average has come down to zero
      rw [next, if_pos hold]
      exact ⟨⟨x, hlast, le_rfl⟩, x, hlast, le_rfl⟩
    · obtain ⟨hlow, hhigh⟩ := next_between k hold x
      have hl : l ≠ [] := by
        rintro rfl
        exact hold rfl
      obtain ⟨⟨lo, hlo, hlo'⟩, hi, hhi, hhi'⟩ := ih hl
      constructor
      · rcases min_le_iff.mp hlow with h | h
        · exact ⟨lo, List.mem_append_left _ hlo, hlo'.trans h⟩
        · exact ⟨x, hlast, h⟩
      · rcases le_max_iff.mp hhigh with h | h
        · exact ⟨hi, List.mem_append_left _ hhi, h.trans hhi'⟩
        · exact ⟨x, hlast, h⟩

/-- Samples in a range have their average there. -/
theorem average_mem_range (k : ℕ) {samples : List ℤ} {top : ℤ} (htop : 0 < top)
    (h : ∀ x ∈ samples, 0 ≤ x ∧ x < top) : 0 ≤ average k samples ∧ average k samples < top := by
  by_cases hne : samples = []
  · rw [hne]
    exact ⟨le_rfl, htop⟩
  · obtain ⟨⟨x, hx, hlow⟩, y, hy, hhigh⟩ := average_between k hne
    exact ⟨(h x hx).1.trans hlow, hhigh.trans_lt (h y hy).2⟩

/-! ### Decay -/

/-- How far the average can fall with one sample. -/
theorem decay (k : ℕ) {old x : ℤ} (hx : 0 ≤ x) :
    (2 ^ k - 1) * (old + (2 ^ k - 1)) ≤ 2 ^ k * (next k old x + (2 ^ k - 1)) := by
  have hpow : (0 : ℤ) < 2 ^ k := pow_pos (by decide) k
  unfold next
  split
  · rename_i hzero
    rw [hzero]
    nlinarith
  · rw [Int.shiftRight_eq_div_pow, Nat.cast_pow, Nat.cast_ofNat]
    have hquot := Int.emod_add_mul_ediv (x - old) (2 ^ k)
    have hrem := Int.emod_lt_of_pos (x - old) hpow
    nlinarith

theorem next_nonneg (k : ℕ) {old x : ℤ} (hold : 0 ≤ old) (hx : 0 ≤ x) : 0 ≤ next k old x := by
  by_cases h : old = 0
  · rw [next, if_pos h]
    exact hx
  · exact (le_min hold hx).trans (next_between k h x).1

/-- And with several. -/
theorem decay_foldl (k : ℕ) {old : ℤ} (hold : 0 ≤ old) {samples : List ℤ}
    (h : ∀ x ∈ samples, 0 ≤ x) :
    (2 ^ k - 1) ^ samples.length * (old + (2 ^ k - 1))
      ≤ (2 ^ k) ^ samples.length * (samples.foldl (next k) old + (2 ^ k - 1)) := by
  induction samples generalizing old with
  | nil => simp
  | cons x l ih =>
    have hpow : (1 : ℤ) ≤ 2 ^ k := one_le_pow₀ (by decide)
    have hx := h x List.mem_cons_self
    have hstep : (2 ^ k - 1) * (old + (2 ^ k - 1)) ≤ 2 ^ k * (next k old x + (2 ^ k - 1)) :=
      decay k hx
    have hrest := ih (next_nonneg k hold hx) fun y hy => h y (List.mem_cons_of_mem x hy)
    rw [List.foldl_cons, List.length_cons]
    calc (2 ^ k - 1) ^ (l.length + 1) * (old + (2 ^ k - 1))
        = (2 ^ k - 1) ^ l.length * ((2 ^ k - 1) * (old + (2 ^ k - 1))) := by ring
      _ ≤ (2 ^ k - 1) ^ l.length * (2 ^ k * (next k old x + (2 ^ k - 1))) :=
          mul_le_mul_of_nonneg_left hstep (pow_nonneg (by omega) _)
      _ = 2 ^ k * ((2 ^ k - 1) ^ l.length * (next k old x + (2 ^ k - 1))) := by ring
      _ ≤ 2 ^ k * ((2 ^ k) ^ l.length * (l.foldl (next k) (next k old x) + (2 ^ k - 1))) :=
          mul_le_mul_of_nonneg_left hrest (by omega)
      _ = (2 ^ k) ^ (l.length + 1) * (l.foldl (next k) (next k old x) + (2 ^ k - 1)) := by ring

end Ewma
