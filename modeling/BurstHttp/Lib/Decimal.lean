/-
Decimal numerals as ASCII bytes.

* `digits n` — the digits of `n`, `digits_eq` — its equation: the last digit behind
  the digits of the tenth, and `digits_one` to `digits_four` — short numbers;
* `isDigit_of_mem`, `all_digits`, `notMem_digits` — they are digits, and `digits_ne_nil` —
  there is one;
* `value`, `value_digits` — the number that a list of digits stands for, and that
  `digits` undoes it; so `digits_injective`;
* `length_digits_le_iff` — how many digits a number has.
-/
import Mathlib.Algebra.Group.Nat.Defs
import Mathlib.Data.List.Basic
import Mathlib.Data.Nat.Init

namespace Decimal

def digit (d : ℕ) : UInt8 := UInt8.ofNat (48 + d)

def isDigit (b : UInt8) : Bool := decide (48 ≤ b.toNat ∧ b.toNat ≤ 57)

/-- The digits of `n` before those in `acc`; there are at most `fuel`. -/
def digitsAux : ℕ → ℕ → List UInt8 → List UInt8
  | 0, _, acc => acc
  | fuel + 1, n, acc =>
    if n < 10 then digit n :: acc else digitsAux fuel (n / 10) (digit (n % 10) :: acc)

def digits (n : ℕ) : List UInt8 := digitsAux (n + 1) n []

/-- The number that a list of digits stands for. -/
def value (l : List UInt8) : ℕ := l.foldl (fun v b => 10 * v + (b.toNat - 48)) 0

theorem digit_toNat {d : ℕ} (h : d < 10) : (digit d).toNat = 48 + d := by
  simp only [digit, UInt8.toNat_ofNat']
  omega

theorem isDigit_digit {d : ℕ} (h : d < 10) : isDigit (digit d) = true := by
  simp only [isDigit, digit_toNat h, decide_eq_true_eq]
  omega

/-- More fuel changes nothing, and what is behind the digits stays there. -/
theorem digitsAux_eq {fuel n : ℕ} (h : n < fuel) (acc : List UInt8) :
    digitsAux fuel n acc = digits n ++ acc := by
  induction n using Nat.strong_induction_on generalizing fuel acc with
  | _ n ih =>
    obtain ⟨fuel, rfl⟩ : ∃ k, fuel = k + 1 := ⟨fuel - 1, by omega⟩
    unfold digits
    simp only [digitsAux]
    split
    · rfl
    · have hlt : n / 10 < n := by omega
      rw [ih (n / 10) hlt (by omega), ih (n / 10) hlt (by omega)]
      simp

theorem digits_eq (n : ℕ) :
    digits n = if n < 10 then [digit n] else digits (n / 10) ++ [digit (n % 10)] := by
  conv_lhs => unfold digits
  simp only [digitsAux]
  split
  · rfl
  · exact digitsAux_eq (by omega) _

theorem digits_one {n : ℕ} (h : n < 10) : digits n = [digit n] := by
  rw [digits_eq, if_pos h]

theorem digits_two {n : ℕ} (h : 10 ≤ n) (h' : n < 100) :
    digits n = [digit (n / 10), digit (n % 10)] := by
  rw [digits_eq, if_neg (by omega), digits_one (by omega)]
  rfl

theorem digits_three {n : ℕ} (h : 100 ≤ n) (h' : n < 1000) :
    digits n = [digit (n / 100), digit (n / 10 % 10), digit (n % 10)] := by
  rw [digits_eq, if_neg (by omega), digits_two (by omega) (by omega), Nat.div_div_eq_div_mul]
  rfl

theorem digits_four {n : ℕ} (h : 1000 ≤ n) (h' : n < 10000) :
    digits n = [digit (n / 1000), digit (n / 100 % 10), digit (n / 10 % 10), digit (n % 10)] := by
  rw [digits_eq, if_neg (by omega), digits_three (by omega) (by omega), Nat.div_div_eq_div_mul,
    Nat.div_div_eq_div_mul]
  rfl

theorem isDigit_of_mem {n : ℕ} {b : UInt8} (h : b ∈ digits n) : isDigit b = true := by
  induction n using Nat.strong_induction_on with
  | _ n ih =>
    rw [digits_eq] at h
    split at h
    · rw [List.mem_singleton.mp h]
      exact isDigit_digit (by omega)
    · rcases List.mem_append.mp h with h | h
      · exact ih (n / 10) (by omega) h
      · rw [List.mem_singleton.mp h]
        exact isDigit_digit (by omega)

theorem all_digits (n : ℕ) : (digits n).all isDigit = true :=
  List.all_eq_true.mpr fun _ hb => isDigit_of_mem hb

theorem notMem_digits {b : UInt8} (hb : isDigit b = false) (n : ℕ) : b ∉ digits n := by
  intro hmem
  rw [isDigit_of_mem hmem] at hb
  cases hb

theorem digits_ne_nil (n : ℕ) : digits n ≠ [] := by
  rw [digits_eq]
  split <;> simp

theorem value_append_singleton (l : List UInt8) (b : UInt8) :
    value (l ++ [b]) = 10 * value l + (b.toNat - 48) := by
  simp [value, List.foldl_append]

theorem value_digits (n : ℕ) : value (digits n) = n := by
  induction n using Nat.strong_induction_on with
  | _ n ih =>
    rw [digits_eq]
    split
    · rename_i hn
      rw [← List.nil_append [digit n], value_append_singleton, digit_toNat hn]
      simp [value]
    · rw [value_append_singleton, ih (n / 10) (by omega), digit_toNat (by omega)]
      omega

theorem digits_injective : Function.Injective digits := by
  intro m n h
  rw [← value_digits m, ← value_digits n, h]

theorem length_digits_le_iff {n k : ℕ} (hk : 0 < k) : (digits n).length ≤ k ↔ n < 10 ^ k := by
  induction k generalizing n with
  | zero => omega
  | succ k ih =>
    rw [digits_eq]
    split
    · rename_i hn
      have hpow : 0 < 10 ^ k := Nat.pow_pos (by omega)
      rw [List.length_singleton, Nat.pow_succ]
      omega
    · rename_i hn
      rw [List.length_append, List.length_singleton, Nat.pow_succ]
      have hlen := List.length_pos_iff.mpr (digits_ne_nil (n / 10))
      rcases Nat.eq_zero_or_pos k with rfl | hpos
      · omega
      · have htenth := ih hpos (n := n / 10)
        omega

end Decimal
