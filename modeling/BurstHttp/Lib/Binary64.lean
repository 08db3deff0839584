/-
Floating-point numbers of 64 bits.

The numbers are rationals with 53 significant bits, the infinities and NaN; the sign of a zero is
not kept.  The operations round to the nearest number, to the even one of two.

* `round` — the number for a rational;
* `ofInt`, `mul`, `add`, `half`, `lt` — what programs compute with;
* `toInt64` — the conversion to an integer of 64 bits, which has one result for all numbers that
  are out of range;
* `AtMost` — a bound, `round_atMost` — rounding keeps bounds that are numbers, and so do the
  operations (`mul_atMost`, `add_atMost`, `toInt64_le`).
-/
import Mathlib.Algebra.Order.Field.Power
import Mathlib.Data.Int.Log
import Mathlib.Data.Rat.Floor
import Mathlib.Tactic.Linarith
import Mathlib.Tactic.Positivity

inductive Binary64
  | nan
  | inf (neg : Bool)
  | fin (q : ℚ)
  deriving DecidableEq

namespace Binary64

/-- The nearest integer, and the even one of two. -/
def roundEven (q : ℚ) : ℤ :=
  let n := q.floor
  if q - n < 1 / 2 then n
  else if 1 / 2 < q - n then n + 1
  else if n % 2 = 0 then n
  else n + 1

/-- The place of the last of 53 bits, or of the least number. -/
def unit (q : ℚ) : ℤ := max (Int.log 2 |q| - 52) (-1074)

/-- The nearest number. -/
def round (q : ℚ) : Binary64 :=
  if q = 0 then .fin 0
  else
    let r : ℚ := roundEven (q * 2 ^ (-unit q)) * 2 ^ unit q
    if 2 ^ 1024 ≤ |r| then .inf (decide (q < 0)) else .fin r

def ofInt (n : ℤ) : Binary64 := round n

def mul : Binary64 → Binary64 → Binary64
  | .nan, _ | _, .nan => .nan
  | .fin a, .fin b => round (a * b)
  | .inf s, .inf t => .inf (s != t)
  | .inf s, .fin a | .fin a, .inf s => if a = 0 then .nan else .inf (s != decide (a < 0))

def add : Binary64 → Binary64 → Binary64
  | .nan, _ | _, .nan => .nan
  | .fin a, .fin b => round (a + b)
  | .inf s, .inf t => if s = t then .inf s else .nan
  | .inf s, .fin _ | .fin _, .inf s => .inf s

/-- Division by two. -/
def half (x : Binary64) : Binary64 := x.mul (.fin (1 / 2))

def lt : Binary64 → Binary64 → Bool
  | .nan, _ | _, .nan => false
  | .fin a, .fin b => a < b
  | .inf s, .inf t => s && !t
  | .inf s, .fin _ => s
  | .fin _, .inf t => !t

/-- The integer part, if it has 64 bits. -/
def toInt64 : Binary64 → ℤ
  | .fin q =>
    let n := q.num.tdiv q.den
    if -2 ^ 63 ≤ n ∧ n < 2 ^ 63 then n else -2 ^ 63
  | .nan | .inf _ => -2 ^ 63

/-! ### Bounds -/

theorem roundEven_le {q : ℚ} {n : ℤ} (h : q ≤ n) : roundEven q ≤ n := by
  have hfloor : (q.floor : ℚ) ≤ q := Rat.floor_le q
  have hle : q.floor ≤ n := by exact_mod_cast hfloor.trans h
  have hlt (hrest : 0 < q - q.floor) : q.floor + 1 ≤ n := by
    have hcast : (q.floor : ℚ) < n := by linarith
    exact_mod_cast hcast
  unfold roundEven
  dsimp only
  split_ifs with hlow hhigh heven
  · exact hle
  · exact hlt (by linarith)
  · exact hle
  · exact hlt (by linarith)

/-- A number that is not below `q` has no smaller places. -/
theorem exists_mul_unit {q : ℚ} (hq : 0 < q) {j : ℕ} {u : ℤ} (hj : j ≤ 2 ^ 53) (hu : -1074 ≤ u)
    (h : q ≤ j * 2 ^ u) : ∃ t : ℤ, (j * 2 ^ u : ℚ) = t * 2 ^ unit q := by
  by_cases hunit : unit q ≤ u
  · refine ⟨j * 2 ^ (u - unit q).toNat, ?_⟩
    push_cast
    rw [mul_assoc, ← zpow_natCast, ← zpow_add₀ two_ne_zero]
    congr 2
    omega
  · -- then it is `q`, and a power of two
    have hexp : unit q = Int.log 2 q - 52 := by
      unfold unit at hunit ⊢
      rw [abs_of_pos hq] at hunit ⊢
      omega
    have hlarge : (j * 2 ^ u : ℚ) ≤ 2 ^ Int.log 2 q :=
      calc (j * 2 ^ u : ℚ) ≤ 2 ^ 53 * 2 ^ u := by
            gcongr
            exact_mod_cast hj
        _ = 2 ^ (53 + u) := by rw [zpow_add₀ two_ne_zero]; rfl
        _ ≤ 2 ^ Int.log 2 q := zpow_le_zpow_right₀ one_le_two (by omega)
    have hlog : (2 : ℚ) ^ Int.log 2 q ≤ q := Int.zpow_log_le_self (b := 2) one_lt_two hq
    refine ⟨2 ^ 52, (hlarge.antisymm (hlog.trans h)).trans ?_⟩
    rw [hexp, zpow_sub₀ two_ne_zero]
    norm_num
    ring

/-- Not above `m`, if it is finite. -/
def AtMost (x : Binary64) (m : ℚ) : Prop := ∀ r, x = .fin r → r ≤ m

section Bounds

variable {x y : Binary64} {j : ℕ} {u : ℤ} {a b : ℚ}

theorem round_atMost {q : ℚ} (hj : j ≤ 2 ^ 53) (hu : -1074 ≤ u) (h : q ≤ j * 2 ^ u) :
    (round q).AtMost (j * 2 ^ u) := by
  intro r hr
  unfold round at hr
  split at hr
  · cases hr
    positivity
  case isFalse hne =>
  dsimp only at hr
  split at hr <;> cases hr
  rw [zpow_neg]
  have hpos : (0 : ℚ) < 2 ^ unit q := by positivity
  rcases lt_or_gt_of_ne hne with hneg | hq
  · have hle : roundEven (q * (2 ^ unit q)⁻¹) ≤ 0 := by
      refine roundEven_le ?_
      rw [Int.cast_zero]
      exact mul_nonpos_of_nonpos_of_nonneg hneg.le (by positivity)
    calc (roundEven (q * (2 ^ unit q)⁻¹) : ℚ) * 2 ^ unit q ≤ 0 :=
          mul_nonpos_of_nonpos_of_nonneg (by exact_mod_cast hle) hpos.le
      _ ≤ j * 2 ^ u := by positivity
  · obtain ⟨t, ht⟩ := exists_mul_unit hq hj hu h
    rw [ht] at h ⊢
    have hle : roundEven (q * (2 ^ unit q)⁻¹) ≤ t := roundEven_le ((mul_inv_le_iff₀ hpos).mpr h)
    gcongr

/-- Integers of 53 bits are numbers. -/
theorem ofInt_natCast (hj : j ≤ 2 ^ 53) : ofInt j = .fin j := by
  unfold ofInt round
  rw [Int.cast_natCast]
  split
  · simp_all
  case isFalse hne =>
  obtain ⟨t, ht⟩ := exists_mul_unit (q := j) (u := 0) (by positivity) hj (by omega) (by simp)
  rw [zpow_zero, mul_one] at ht
  have hr : (roundEven (j * 2 ^ (-unit j)) * 2 ^ unit j : ℚ) = j := by
    rw [zpow_neg]
    nth_rewrite 1 [ht]
    rw [mul_inv_cancel_right₀ (by positivity), show roundEven t = t by simp [roundEven], ← ht]
  have hlt : (j : ℚ) < 2 ^ 1024 :=
    calc (j : ℚ) ≤ 2 ^ 53 := by exact_mod_cast hj
      _ < 2 ^ 1024 := pow_lt_pow_right₀ one_lt_two (by omega)
  dsimp only
  rw [hr, abs_of_nonneg (Nat.cast_nonneg j), if_neg (not_le.mpr hlt)]

theorem mul_atMost (hj : j ≤ 2 ^ 53) (hu : -1074 ≤ u) (hx : x.AtMost a) {p : ℚ} (hp : 0 ≤ p)
    (h : a * p ≤ j * 2 ^ u) : (x.mul (.fin p)).AtMost (j * 2 ^ u) := by
  cases x with
  | fin q => exact round_atMost hj hu ((mul_le_mul_of_nonneg_right (hx q rfl) hp).trans h)
  | nan => exact fun r hr => by cases hr
  | inf s =>
    intro r hr
    simp only [mul] at hr
    split at hr <;> cases hr

theorem mul_swap (x y : Binary64) : x.mul y = y.mul x := by
  cases x <;> cases y <;> simp only [mul, mul_comm, bne_comm]

theorem add_atMost (hj : j ≤ 2 ^ 53) (hu : -1074 ≤ u) (hx : x.AtMost a) (hy : y.AtMost b)
    (h : a + b ≤ j * 2 ^ u) : (x.add y).AtMost (j * 2 ^ u) := by
  intro r hr
  cases x with
  | fin p =>
    cases y with
    | fin q => exact round_atMost hj hu ((add_le_add (hx p rfl) (hy q rfl)).trans h) r hr
    | nan | inf t => cases hr
  | nan => cases y <;> cases hr
  | inf s =>
    cases y with
    | inf t =>
      simp only [add] at hr
      split at hr <;> cases hr
    | nan | fin q => cases hr

theorem toInt64_le (hx : x.AtMost j) : x.toInt64 ≤ j := by
  cases x with
  | fin q =>
    have hnum : q.num ≤ j * q.den := by
      have hq : q ≤ (j : ℤ) := by exact_mod_cast hx q rfl
      rw [Rat.le_iff] at hq
      simpa using hq
    have htdiv : q.num.tdiv q.den ≤ j := by
      rcases Int.le_total 0 q.num with hpos | hneg
      · rw [Int.tdiv_eq_ediv_of_nonneg hpos]
        exact Int.ediv_le_of_le_mul (by exact_mod_cast q.den_pos) hnum
      · rw [← Int.neg_neg q.num, Int.neg_tdiv]
        have := Int.tdiv_nonneg (a := -q.num) (b := q.den) (by omega) (by omega)
        omega
    unfold toInt64
    dsimp only
    split <;> omega
  | nan | inf s =>
    show -2 ^ 63 ≤ (j : ℤ)
    omega

end Bounds

end Binary64
