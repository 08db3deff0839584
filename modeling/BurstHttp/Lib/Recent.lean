/-
A buffer of the latest items.

When the buffer is full its second half is copied over the first one, and the rest is cut off; so
it never holds more than its capacity, and always the latest items.

* `push` — one more item;
* `kept` — how many of `n` items a buffer of capacity `2 * h` still holds, and `kept_succ` — how
  that changes with one more;
* `foldl_push` — the buffer is the last `kept h n` of the `n` items, in order.
-/
import Mathlib.Data.List.Basic
import Mathlib.Data.List.Induction
import Mathlib.Order.Nat

namespace Recent

variable {α : Type}

/-- `copy(buf, buf[len(buf)/2:])` and `buf[:len(buf)/2]`. -/
def halve (buf : List α) : List α :=
  let upper := buf.drop (buf.length / 2)
  (upper ++ buf.drop upper.length).take (buf.length / 2)

def push (capacity : ℕ) (buf : List α) (x : α) : List α :=
  (if capacity ≤ buf.length then halve buf else buf) ++ [x]

/-- How many of `n` items are held. -/
def kept (h n : ℕ) : ℕ := if n ≤ 2 * h then n else h + 1 + (n - (2 * h + 1)) % h

theorem kept_le (h n : ℕ) : kept h n ≤ n := by
  unfold kept
  split
  · exact le_rfl
  · have hmod := Nat.mod_le (n - (2 * h + 1)) h
    omega

/-- The buffer is halved when it is full. -/
theorem kept_succ {h : ℕ} (hpos : 0 < h) (n : ℕ) :
    kept h (n + 1) = if 2 * h ≤ kept h n then h + 1 else kept h n + 1 := by
  rcases Nat.lt_trichotomy n (2 * h) with hlt | rfl | hgt
  · have hn : kept h n = n := if_pos hlt.le
    rw [hn, if_neg (by omega)]
    exact if_pos hlt
  · have hn : kept h (2 * h) = 2 * h := if_pos le_rfl
    rw [hn, if_pos le_rfl, kept, if_neg (by omega)]
    simp
  · -- one round after the other, each of `h` items
    obtain ⟨d, rfl⟩ : ∃ d, n = 2 * h + 1 + d := ⟨n - (2 * h + 1), by omega⟩
    have hn : kept h (2 * h + 1 + d) = h + 1 + d % h := by
      rw [kept, if_neg (by omega), Nat.add_sub_cancel_left]
    have hn' : kept h (2 * h + 1 + d + 1) = h + 1 + (d + 1) % h := by
      rw [kept, if_neg (by omega), Nat.add_assoc _ d, Nat.add_sub_cancel_left]
    have hlt := Nat.mod_lt d hpos
    rw [hn, hn', Nat.add_mod d 1 h]
    by_cases hone : h = 1
    · subst hone
      simp [Nat.mod_one]
    rw [Nat.mod_eq_of_lt (show 1 < h by omega)]
    split
    · have hlast : d % h + 1 = h := by omega
      rw [hlast, Nat.mod_self]
    · rw [Nat.mod_eq_of_lt (by omega)]
      omega

/-- A buffer of even length loses its first half. -/
theorem halve_eq {buf : List α} {h : ℕ} (hlen : buf.length = 2 * h) : halve buf = buf.drop h := by
  have hhalf : buf.length / 2 = h := by omega
  have hdrop : (buf.drop h).length = h := by
    rw [List.length_drop]
    omega
  simp only [halve, hhalf, hdrop]
  exact List.take_left' hdrop

/-- The buffer holds the latest items. -/
theorem foldl_push {h : ℕ} (hpos : 0 < h) (items : List α) :
    items.foldl (push (2 * h)) [] = items.drop (items.length - kept h items.length) := by
  induction items using List.reverseRecOn with
  | nil => rfl
  | append_singleton items x ih =>
    have hle := kept_le h items.length
    have hlen : (items.drop (items.length - kept h items.length)).length = kept h items.length := by
      rw [List.length_drop]
      omega
    have hcap : kept h items.length ≤ 2 * h := by
      unfold kept
      split
      · assumption
      · have hmod := Nat.mod_lt (items.length - (2 * h + 1)) hpos
        omega
    rw [List.foldl_append, List.foldl_cons, List.foldl_nil, ih, push, hlen, List.length_append,
      List.length_singleton, kept_succ hpos]
    split
    · -- full: the items of the second half stay
      rename_i hfull
      rw [halve_eq (hlen.trans (le_antisymm hcap hfull)), List.drop_drop,
        List.drop_append_of_le_length (by omega)]
      congr 2
      omega
    · rw [List.drop_append_of_le_length (by omega)]
      congr 2
      omega

end Recent
