/-
Token buckets over an ordered field.

A bucket holds at most `capacity` tokens and gains `rate` tokens in a unit of time; a
grant takes one token.

* `refill`, `take` — the two operations;
* `window` — how many of a list of times are in an interval;
* `Bounds` — what a bucket says about the times of its grants, kept by `refill`
  (`Bounds.refill`) and by `take` (`Bounds.take`);
* `Bounds.within` — in an interval of length `d` there are at most
  `capacity + rate * d` grants.
-/
import Mathlib.Algebra.Order.Field.Basic
import Mathlib.Tactic.Linarith

namespace TokenBucket

section

variable {K : Type} [LinearOrder K]

/-- How many of these times are between `a` and `c`. -/
def window (log : List K) (a c : K) : ℕ := log.countP fun t => a ≤ t ∧ t ≤ c

/-- How many of these times are not before `a`. -/
def since (log : List K) (a : K) : ℕ := log.countP fun t => a ≤ t

theorem window_le_since (log : List K) (a c : K) : window log a c ≤ since log a := by
  apply List.countP_mono_left
  intro t _ ht
  simp only [decide_eq_true_eq] at ht ⊢
  exact ht.1

theorem since_eq_zero {log : List K} {a b : K} (hlog : ∀ t ∈ log, t ≤ b) (hab : b < a) :
    since log a = 0 := by
  rw [since, List.countP_eq_zero]
  intro t ht
  simpa using (hlog t ht).trans_lt hab

theorem since_cons (t : K) (log : List K) (a : K) : since (t :: log) a ≤ since log a + 1 := by
  unfold since
  rw [List.countP_cons]
  split
  · exact le_rfl
  · exact Nat.le_succ _

theorem window_cons_of_lt {t c : K} (log : List K) (a : K) (h : c < t) :
    window (t :: log) a c = window log a c := by
  unfold window
  rw [List.countP_cons, if_neg, Nat.add_zero]
  simp [h]

end

end TokenBucket

structure TokenBucket (K : Type) [Field K] [LinearOrder K] [IsStrictOrderedRing K] where
  tokens : K
  capacity : K
  rate : K
  lastTick : K
  nonneg : 0 ≤ tokens
  le_capacity : tokens ≤ capacity
  rate_nonneg : 0 ≤ rate

namespace TokenBucket

variable {K : Type} [Field K] [LinearOrder K] [IsStrictOrderedRing K]

/-- What has come in since `lastTick` is added, as far as it fits. -/
def refill (b : TokenBucket K) (now : K) : TokenBucket K :=
  if h : b.lastTick < now then
    { b with
      lastTick := now
      tokens := min (b.tokens + (now - b.lastTick) * b.rate) b.capacity
      nonneg := by
        have helapsed : 0 ≤ (now - b.lastTick) * b.rate :=
          mul_nonneg (sub_nonneg.mpr h.le) b.rate_nonneg
        exact le_min (add_nonneg b.nonneg helapsed) (b.nonneg.trans b.le_capacity)
      le_capacity := min_le_right _ _ }
  else b

/-- One token is taken, if there is one. -/
def take (b : TokenBucket K) : Option (TokenBucket K) :=
  if h : 1 ≤ b.tokens then
    some
      { b with
        tokens := b.tokens - 1
        nonneg := sub_nonneg.mpr h
        le_capacity := (sub_le_self _ zero_le_one).trans b.le_capacity }
  else none

theorem lastTick_refill {b : TokenBucket K} {now : K} (h : b.lastTick ≤ now) :
    (b.refill now).lastTick = now := by
  unfold refill
  split
  case isTrue => rfl
  case isFalse hlt => exact le_antisymm h (not_lt.mp hlt)

@[simp] theorem capacity_refill (b : TokenBucket K) (now : K) :
    (b.refill now).capacity = b.capacity := by
  unfold refill
  split <;> rfl

@[simp] theorem rate_refill (b : TokenBucket K) (now : K) : (b.refill now).rate = b.rate := by
  unfold refill
  split <;> rfl

/-- What `take` does not change. -/
theorem of_take {b b' : TokenBucket K} (h : b.take = some b') :
    b'.lastTick = b.lastTick ∧ b'.capacity = b.capacity ∧ b'.rate = b.rate := by
  unfold take at h
  split at h <;> cases h
  exact ⟨rfl, rfl, rfl⟩

/-- What a bucket says about the times at which it has given tokens. -/
structure Bounds (b : TokenBucket K) (log : List K) : Prop where
  past : ∀ t ∈ log, t ≤ b.lastTick
  reserve : ∀ a ≤ b.lastTick,
    since log a + b.tokens ≤ b.capacity + b.rate * (b.lastTick - a)
  within : ∀ a c, a ≤ c → (window log a c : K) ≤ b.capacity + b.rate * (c - a)

variable {b b' : TokenBucket K} {log : List K}

/-- Nothing has been granted yet. -/
theorem Bounds.new (b : TokenBucket K) : b.Bounds [] where
  past := fun _ h => nomatch h
  reserve := by
    intro a ha
    have hrate := mul_nonneg b.rate_nonneg (sub_nonneg.mpr ha)
    have hle := b.le_capacity
    simp only [since, List.countP_nil, Nat.cast_zero]
    linarith
  within := by
    intro a c hac
    have hrate := mul_nonneg b.rate_nonneg (sub_nonneg.mpr hac)
    have hcap := b.nonneg.trans b.le_capacity
    simp only [window, List.countP_nil, Nat.cast_zero]
    linarith

theorem Bounds.refill (h : b.Bounds log) (now : K) : (b.refill now).Bounds log := by
  unfold TokenBucket.refill
  split
  case isFalse => exact h
  case isTrue hlt =>
    refine ⟨fun t ht => (h.past t ht).trans hlt.le, ?_, h.within⟩
    intro a ha
    dsimp only at ha ⊢
    rcases le_or_gt a b.lastTick with hold | hnew
    · -- what comes in since then is accounted for by the time that has passed
      have hreserve := h.reserve a hold
      have hmin := min_le_left (b.tokens + (now - b.lastTick) * b.rate) b.capacity
      linarith
    · -- nothing was granted since, and the bucket is not more than full
      rw [since_eq_zero h.past hnew, Nat.cast_zero]
      have hrate := mul_nonneg b.rate_nonneg (sub_nonneg.mpr ha)
      have hmin := min_le_right (b.tokens + (now - b.lastTick) * b.rate) b.capacity
      linarith

theorem Bounds.take (h : b.Bounds log) (htake : b.take = some b') :
    b'.Bounds (b.lastTick :: log) := by
  unfold TokenBucket.take at htake
  split at htake
  case isFalse => cases htake
  case isTrue hone =>
    cases htake
    have hreserve : ∀ a ≤ b.lastTick, (since (b.lastTick :: log) a : K) + (b.tokens - 1)
        ≤ b.capacity + b.rate * (b.lastTick - a) := by
      intro a ha
      have hcount : (since (b.lastTick :: log) a : K) ≤ since log a + 1 := by
        exact_mod_cast since_cons b.lastTick log a
      have hold := h.reserve a ha
      linarith
    have hpast : ∀ t ∈ b.lastTick :: log, t ≤ b.lastTick := by
      intro t ht
      rcases List.mem_cons.mp ht with rfl | ht
      · exact le_rfl
      · exact h.past t ht
    refine ⟨hpast, hreserve, ?_⟩
    intro a c hac
    dsimp only
    rcases lt_or_ge c b.lastTick with hbefore | hnow
    · -- the window is over
      rw [window_cons_of_lt log a hbefore]
      exact h.within a c hac
    · have hcount : (window (b.lastTick :: log) a c : K) ≤ since (b.lastTick :: log) a := by
        exact_mod_cast window_le_since _ a c
      rcases le_or_gt a b.lastTick with hold | hnew
      · have hres := hreserve a hold
        have hrate := mul_le_mul_of_nonneg_left (sub_le_sub_right hnow a) b.rate_nonneg
        linarith
      · rw [since_eq_zero hpast hnew, Nat.cast_zero] at hcount
        have hrate := mul_nonneg b.rate_nonneg (sub_nonneg.mpr hac)
        have hcap := b.nonneg.trans b.le_capacity
        linarith

end TokenBucket
