/-
When a request is tried again, and after what delay (retry.go; errors.go, `IsTimeout`,
`IsRetryable`).

A `time.Duration` is a number of nanoseconds in an `int64`.  The backoff is computed in
`float64` (`Binary64`); where it does not fit an `int64`, the conversion is that of amd64.
`rand` stands for `rand.Float64()`, and `date` for `time.Parse` of an HTTP-date followed by
`time.Until`.

* `newRetryer`, `Retryer.shouldRetry`, `Retryer.backoff`, `Retryer.adaptiveDelay`,
  `waitAdaptive` — the functions of the source;
* `adaptiveDelay_retryAfter` — the delay for a number of seconds in `Retry-After`;
* `retry_after_iff` — which of these numbers are honoured, and `retry_after_wraps` — one
  that is not.
-/
import BurstHttp.HeaderBytes
import BurstHttp.Lib.Binary64
import BurstHttp.Pool.Targets

namespace BurstHttp

/-! ### Kinds of errors -/

namespace GoErr

/-- `errors.Is` with one of the error values of the package. -/
def is (target : GoErr) : GoErr → Bool
  | .detailed _ _ err => is target err
  | err => err == target

/-- `errors.As(err, &detailedErr)` and `detailedErr.Type`. -/
def detailedType : GoErr → Option ErrorType
  | .detailed type _ _ => some type
  | _ => none

/-- `IsTimeout`. -/
def isTimeout (err : GoErr) : Bool :=
  is .timeout err || err.detailedType == some .timeout || err.isNetTimeout

/-- `IsRetryable`. -/
def isRetryable (err : GoErr) : Bool :=
  is .connectFailed err || is .writeFailed err || is .readFailed err || is .connectionClosed err
    || is .timeout err
    || err.detailedType == some .network || err.detailedType == some .timeout

/-- `isConnectionLevelError`. -/
def isConnectionLevel (err : GoErr) : Bool :=
  match err.detailedType with
  | some type => type == .network
  | none => is .connectFailed err || is .connectionClosed err

end GoErr

/-! ### The retryer -/

/-- `time.Second`. -/
def second : ℤ := 1000000000

/-- The fields of `Config` that `NewRetryer` reads; `MaxRetries` is an `int`. -/
structure RetryConfig where
  maxRetries : ℤ
  baseDelay : ℤ
  maxDelay : ℤ
  multiplier : Binary64
  jitter : Bool
  retryableStatus : List ℤ
  maxRetries_lt : maxRetries < 2 ^ 63

/-- `Retryer`. -/
structure Retryer where
  maxRetries : ℤ
  baseDelay : ℤ
  maxDelay : ℤ
  multiplier : Binary64
  jitter : Bool
  statusCodes : List ℤ
  maxRetries_pos : 0 < maxRetries

/-- `NewRetryer`; `none` is nil. -/
def newRetryer (cfg : RetryConfig) : Option Retryer :=
  if h : 0 < cfg.maxRetries then
    some
      { maxRetries := cfg.maxRetries
        baseDelay := cfg.baseDelay
        maxDelay := cfg.maxDelay
        multiplier := cfg.multiplier
        jitter := cfg.jitter
        statusCodes := cfg.retryableStatus
        maxRetries_pos := h }
  else none

/-- `parseRetryAfter`. -/
def parseRetryAfter (date : Bytes → Option ℤ) (s : Bytes) : Option ℤ :=
  match (Pool.atoi (trimSpace s)).filter (0 ≤ ·) with
  | some n => some (wrap64 (n * second))
  | none => (date (trimSpace s)).map (max 0)

/-- The end of `WaitAdaptive`: without a delay it returns at once, else the select of the
timer and the context ends as `select` says, by `ctx.Err()` or by the timer. -/
def waitAdaptive (delay : ℤ) (select : Option GoErr) : Option GoErr :=
  if delay ≤ 0 then none else select

namespace Retryer

/-- `Retryer.ShouldRetry`. -/
def shouldRetry (r : Retryer) (attempt : ℕ) (resp : Option Response) (err : Option GoErr) : Bool :=
  if r.maxRetries ≤ attempt then false
  else if err.any GoErr.isRetryable then true
  else resp.any fun resp => r.statusCodes.contains resp.statusCode

/-- `Retryer.Backoff`. -/
def backoff (r : Retryer) (rand : Binary64) (attempt : ℕ) : ℤ :=
  let delay := (·.mul r.multiplier)^[attempt] (.ofInt r.baseDelay)
  let maxDelay := Binary64.ofInt r.maxDelay
  let delay := if maxDelay.lt delay then maxDelay else delay
  let delay := if r.jitter then delay.half.add (rand.mul delay.half) else delay
  delay.toInt64

/-- `Retryer.adaptiveDelay` of a failure without a usable `Retry-After`. -/
def errorDelay (r : Retryer) (rand : Binary64) (attempt : ℕ) (err : Option GoErr) : ℤ :=
  if err.any fun err => err.isTimeout || err.isConnectionLevel then 0 else r.backoff rand attempt

/-- `Retryer.adaptiveDelay`. -/
def adaptiveDelay (r : Retryer) (rand : Binary64) (date : Bytes → Option ℤ) (attempt : ℕ)
    (statusCode : ℤ) (retryAfterHdr : Bytes) (err : Option GoErr) : ℤ :=
  if statusCode = 429 ∧ retryAfterHdr ≠ [] then
    match parseRetryAfter date retryAfterHdr with
    | some d => if r.maxDelay < d then r.maxDelay else d
    | none => r.errorDelay rand attempt err
  else r.errorDelay rand attempt err

end Retryer

/-! ### `Retry-After` in seconds -/

/-- A digit begins no space. -/
theorem dropRunes_digit {runes : List Bytes}
    (hrunes : ∀ w ∈ runes, w.head?.any (fun b => !Decimal.isDigit b) = true) {b : UInt8}
    (hb : Decimal.isDigit b = true) (s : Bytes) : dropRunes runes (b :: s) = b :: s := by
  have hnone : runes.find? (fun w => w.isPrefixOf (b :: s)) = none := by
    refine List.find?_eq_none.mpr fun w hw hfront => ?_
    have hhead := hrunes w hw
    rcases w with _ | ⟨a, w⟩
    · cases hhead
    · have hab : a = b := by
        simp only [List.isPrefixOf_cons_cons, Bool.and_eq_true, beq_iff_eq] at hfront
        exact hfront.1
      rw [hab] at hhead
      simp [hb] at hhead
  rw [dropRunes, hnone]

theorem trimSpace_of_digits {s : Bytes} (h : ∀ b ∈ s, Decimal.isDigit b = true) : trimSpace s = s := by
  have hfront : ∀ w ∈ spaceRunes, w.head?.any (fun b => !Decimal.isDigit b) = true := by decide
  have hback : ∀ w ∈ spaceRunes.map List.reverse, w.head?.any (fun b => !Decimal.isDigit b) = true := by
    decide
  rcases s with _ | ⟨b, s⟩
  · decide +kernel
  rw [trimSpace, dropRunes_digit hfront (h b (by simp))]
  obtain ⟨c, t, ht⟩ := List.exists_cons_of_ne_nil (show (b :: s).reverse ≠ [] by simp)
  have hc : Decimal.isDigit c = true := h c (by rw [← List.mem_reverse, ht]; simp)
  rw [ht, dropRunes_digit hback hc, ← ht, List.reverse_reverse]

theorem parseRetryAfter_digits (date : Bytes → Option ℤ) {n : ℕ} (h : n < 2 ^ 63) :
    parseRetryAfter date (Decimal.digits n) = some (wrap64 (n * second)) := by
  have hfilter : (some (n : ℤ)).filter (0 ≤ ·) = some (n : ℤ) := Option.filter_eq_some_iff.mpr ⟨rfl, by simp⟩
  rw [parseRetryAfter, trimSpace_of_digits fun b hb => Decimal.isDigit_of_mem hb,
    Pool.atoi_digits h, hfilter]

/-- The delay for a number of seconds: the product wraps before it is capped. -/
theorem adaptiveDelay_retryAfter (r : Retryer) (rand : Binary64) (date : Bytes → Option ℤ)
    (attempt : ℕ) {n : ℕ} (h : n < 2 ^ 63) (err : Option GoErr) :
    r.adaptiveDelay rand date attempt 429 (Decimal.digits n) err
      = min (wrap64 (n * second)) r.maxDelay := by
  rw [Retryer.adaptiveDelay, if_pos ⟨rfl, Decimal.digits_ne_nil n⟩, parseRetryAfter_digits date h]
  dsimp only
  split <;> omega

/-- A number of seconds in `Retry-After` is honoured, up to the largest delay, exactly if it
is a `time.Duration` or what is left of it by wrapping is not below the largest delay. -/
theorem retry_after_iff (r : Retryer) (hpos : 0 < r.maxDelay) (hmax : r.maxDelay < 2 ^ 63)
    (rand : Binary64) (date : Bytes → Option ℤ) (attempt : ℕ) {n : ℕ} (hn : n < 2 ^ 63) (err : Option GoErr) :
    r.adaptiveDelay rand date attempt 429 (Decimal.digits n) err = min (n * second) r.maxDelay ↔
      n * second < 2 ^ 63 ∨ r.maxDelay ≤ wrap64 (n * second) := by
  rw [adaptiveDelay_retryAfter r rand date attempt hn]
  have hsec : (0 : ℤ) ≤ n * second := by
    unfold second
    omega
  constructor
  · intro hsame
    by_contra hno
    omega
  · rintro (hfits | hlarge)
    · rw [wrap64_eq (by omega) hfits]
    · by_cases hfits : (n * second : ℤ) < 2 ^ 63
      · rw [wrap64_eq (by omega) hfits]
      · omega

/-- Three retries, and delays of 100 ms to 5 s. -/
def threeRetries : Retryer where
  maxRetries := 3
  baseDelay := 100 * millisecond
  maxDelay := 5 * second
  multiplier := .fin 2
  jitter := false
  statusCodes := [429, 502, 503, 504]
  maxRetries_pos := by decide

theorem retry_after_iff_two_minutes :
    threeRetries.adaptiveDelay (.fin 0) (fun _ => none) 0 429 (Decimal.digits 120) none
      = min (120 * second) (5 * second) :=
  (retry_after_iff threeRetries (by decide) (by decide) (.fin 0) (fun _ => none) 0 (by decide) none).mpr
    (.inl (by decide))

/-- A delay of 9223372037 seconds becomes negative, and there is no wait. -/
theorem retry_after_wraps :
    threeRetries.adaptiveDelay (.fin 0) (fun _ => none) 0 429 (Decimal.digits 9223372037) none
        = -9223372036709551616 ∧
      threeRetries.adaptiveDelay (.fin 0) (fun _ => none) 0 429 (Decimal.digits 9223372037) none
        ≠ min (9223372037 * second) threeRetries.maxDelay := by
  rw [adaptiveDelay_retryAfter _ _ _ _ (by decide)]
  decide

end BurstHttp
