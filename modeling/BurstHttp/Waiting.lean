/-
How long a call waits between its attempts (client.go, `DoWithContext`; retry.go, `Backoff`,
`WaitAdaptive`).

* `Retryer.adaptiveDelay_le` — no delay is above `RetryMaxDelay`, in `float64`;
* `Dispatcher.timers` — the timers that a call starts;
* `waits_bounded` — they are at most `MaxRetries`, and together at most `MaxRetries` times that.
-/
import BurstHttp.Cancellation
import Mathlib.Algebra.Order.BigOperators.Group.List

namespace BurstHttp

open Binary64 (AtMost)

namespace Retryer

variable {r : Retryer} {m : ℕ} {p : ℚ}

theorem backoff_le (hm : r.maxDelay = m) (hexact : m ≤ 2 ^ 53) (hp : 0 ≤ p ∧ p ≤ 1)
    (attempt : ℕ) : r.backoff (.fin p) attempt ≤ m := by
  unfold backoff
  dsimp only
  rw [hm, Binary64.ofInt_natCast hexact]
  generalize (fun x : Binary64 => x.mul r.multiplier)^[attempt] (.ofInt r.baseDelay) = x
  have hcap : AtMost (if (Binary64.fin m).lt x then .fin m else x) m := by
    intro q hq
    split at hq
    · cases hq
      exact le_rfl
    · subst hq
      simp_all [Binary64.lt]
  generalize (if (Binary64.fin m).lt x then Binary64.fin m else x) = delay at hcap ⊢
  refine Binary64.toInt64_le ?_
  split
  · have hhalf : AtMost delay.half (m * 2 ^ (-1 : ℤ)) :=
      Binary64.mul_atMost hexact (by decide) hcap (by norm_num) (by norm_num)
    have hrand : AtMost ((Binary64.fin p).mul delay.half) (m * 2 ^ (-1 : ℤ)) := by
      rw [Binary64.mul_swap]
      exact Binary64.mul_atMost hexact (by decide) hhalf hp.1
        (mul_le_of_le_one_right (by positivity) hp.2)
    have hsum := Binary64.add_atMost (u := 0) hexact (by decide) hhalf hrand (by norm_num; linarith)
    simpa using hsum
  · exact hcap

theorem adaptiveDelay_le (hm : r.maxDelay = m) (hexact : m ≤ 2 ^ 53) (hp : 0 ≤ p ∧ p ≤ 1)
    (date : Bytes → Option ℤ) (attempt : ℕ) (status : ℤ) (hdr : Bytes) (err : Option GoErr) :
    r.adaptiveDelay (.fin p) date attempt status hdr err ≤ m := by
  have herror : r.errorDelay (.fin p) attempt err ≤ m := by
    unfold errorDelay
    split
    · omega
    · exact backoff_le hm hexact hp attempt
  unfold adaptiveDelay
  split
  · split
    · split <;> omega
    · exact herror
  · exact herror

end Retryer

namespace Dispatcher

/-- The timers that the loop starts (`loop`, `waitAdaptive`). -/
def loopTimers (c : Dispatcher) (env : CallEnv) (target : Pool.Target) :
    ℕ → ℕ → LoopState → List ℤ
  | 0, _, _ => []
  | k + 1, n, s =>
    let d := c.delay (env.attempts n) n s.last
    (if n = 0 ∨ d ≤ 0 then [] else [d]) ++
      match c.beforeRetry (env.attempts n) n s with
      | (some _, _) => []
      | (none, s) =>
        match c.attempt (env.attempts n) target n s with
        | (some _, _) => []
        | (none, s) => loopTimers c env target k (n + 1) s

/-- The timers that `DoWithContext` starts. -/
def timers (c : Dispatcher) (env : CallEnv) (req : ClientRequest) : List ℤ :=
  match c.prepare env req with
  | (.error _, _) => []
  | (.ok target, req) => c.loopTimers env target c.maxAttempts.toNat 0 ⟨req, none, .none, []⟩

variable {c : Dispatcher} {env : CallEnv}

theorem loopTimers_spec {m : ℤ} (hdelay : ∀ n last, c.delay (env.attempts n) n last ≤ m)
    (target : Pool.Target) (k n : ℕ) (s : LoopState) :
    (∀ d ∈ c.loopTimers env target k n s, 0 < d ∧ d ≤ m) ∧
      (c.loopTimers env target k n s).length ≤ if n = 0 then k - 1 else k := by
  -- only the first attempt has no timer
  induction k generalizing n s with
  | zero => simp [loopTimers]
  | succ k ih =>
    -- what follows the timer of this attempt
    have hrest : ∃ l, c.loopTimers env target (k + 1) n s =
        (if n = 0 ∨ c.delay (env.attempts n) n s.last ≤ 0 then []
          else [c.delay (env.attempts n) n s.last]) ++ l ∧
        (∀ d ∈ l, 0 < d ∧ d ≤ m) ∧ l.length ≤ k := by
      refine ⟨_, rfl, ?_⟩
      split
      · simp
      split
      · simp
      · exact ih (n + 1) _
    obtain ⟨l, hl, hbound, hlength⟩ := hrest
    have hd := hdelay n s.last
    rw [hl]
    split_ifs with hnone hzero hzero
    · exact ⟨hbound, hlength⟩
    · exact ⟨hbound, hlength.trans (Nat.le_succ k)⟩
    · exact absurd (.inl hzero) hnone
    · rw [not_or] at hnone
      refine ⟨fun d hmem => ?_, by simpa using hlength⟩
      rcases List.mem_cons.mp hmem with rfl | hmem
      · omega
      · exact hbound d hmem

/-- **Waiting.**  A call starts at most `MaxRetries` timers, none longer than `RetryMaxDelay`. -/
theorem waits_bounded (c : Dispatcher) (hmax : 0 ≤ c.retry.maxDelay ∧ c.retry.maxDelay ≤ 2 ^ 53)
    (env : CallEnv) (hrand : ∀ n, ∃ p, (env.attempts n).rand = .fin p ∧ 0 ≤ p ∧ p ≤ 1)
    (req : ClientRequest) :
    (∀ d ∈ c.timers env req, 0 < d ∧ d ≤ c.retry.maxDelay) ∧
      (c.timers env req).length ≤ c.retry.maxRetries.toNat ∧
      (c.timers env req).sum ≤ c.retry.maxRetries.toNat * c.retry.maxDelay := by
  have hdelay (n : ℕ) (last : LastRetry) :
      c.delay (env.attempts n) n last ≤ c.retry.maxDelay := by
    obtain ⟨p, hp, hunit⟩ := hrand n
    obtain ⟨m, hm⟩ := Int.eq_ofNat_of_zero_le hmax.1
    unfold delay retryer newRetryer
    rw [hp]
    split
    · exact (Retryer.adaptiveDelay_le hm (by omega) hunit ..).trans_eq hm.symm
    · exact hmax.1
  have hattempts : c.maxAttempts.toNat - 1 ≤ c.retry.maxRetries.toNat := by
    by_cases hwraps : c.retry.maxRetries = 2 ^ 63 - 1
    · rw [maxAttempts_wraps hwraps]
      omega
    · rw [maxAttempts_eq hwraps]
      omega
  have hspec : (∀ d ∈ c.timers env req, 0 < d ∧ d ≤ c.retry.maxDelay) ∧
      (c.timers env req).length ≤ c.maxAttempts.toNat - 1 := by
    unfold timers
    split
    · simp
    · exact loopTimers_spec hdelay _ _ 0 _
  have hlength := hspec.2.trans hattempts
  refine ⟨hspec.1, hlength, ?_⟩
  calc (c.timers env req).sum ≤ (c.timers env req).length • c.retry.maxDelay :=
        List.sum_le_card_nsmul _ _ fun d hd => (hspec.1 d hd).2
    _ ≤ c.retry.maxRetries.toNat * c.retry.maxDelay := by
        rw [nsmul_eq_mul]
        exact mul_le_mul_of_nonneg_right (by exact_mod_cast hlength) hmax.1

end Dispatcher

/-- Behind a 503 the first timer is one of 100 ms. -/
theorem waits_bounded_unavailable :
    (plainClient 3 (by decide)).timers
        (cancelledScript (.ok { blankResponse with statusCode := 503 })).toCallEnv plainRequest
      = [100 * millisecond] ∧ [100 * millisecond].sum ≤ 3 * (5 * second) := by
  have htimers : (plainClient 3 (by decide)).timers
      (cancelledScript (.ok { blankResponse with statusCode := 503 })).toCallEnv plainRequest
      = [100 * millisecond] := by decide +kernel
  exact ⟨htimers, htimers ▸ (Dispatcher.waits_bounded _ (by decide) _
    (fun _ => ⟨0, rfl, le_rfl, zero_le_one⟩) _).2.2⟩

end BurstHttp
