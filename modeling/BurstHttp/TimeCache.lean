/-
The cached clock of a connection (connection.go).

Deadlines of 100 ms and more are computed from `cachedNow`, which is refreshed
by a dial and by every 128th completed request only.  `lastRefresh` reads the
value off the history of the connection; `run_cachedNow` says the cache holds
exactly that value, and `deadline_not_early_iff` that a deadline is late enough
exactly when the last refresh was not earlier than the request.
-/
import BurstHttp.Basic

namespace BurstHttp

/-- `time.Millisecond`, in nanoseconds. -/
def millisecond : ℤ := 1000000

/-- The clock fields of a `Connection`. -/
structure TimeCache where
  cachedNow : ℤ
  lastUsed : ℤ
  timeCounter : UInt32
  deriving DecidableEq, Repr

namespace TimeCache

/-- What `NewConnection` and a successful dial in `ensureConnection` store. -/
def dialed (now : ℤ) : TimeCache := ⟨now, now, 0⟩

/-- `Connection.updateTimeCache`, with `now` for `time.Now()`. -/
def updateTimeCache (c : TimeCache) (now : ℤ) : TimeCache :=
  let ctr := c.timeCounter + 1
  if ctr &&& 127 = 0 then ⟨now, now, ctr⟩ else ⟨c.cachedNow, c.cachedNow, ctr⟩

/-- The deadline code that `writeRequest`, `readResponse` and
`ResponseReader.run` share; `none` when no deadline is set. -/
def deadlineFor (c : TimeCache) (now timeout : ℤ) : Option ℤ :=
  if 0 < timeout then
    some (if timeout < 100 * millisecond then now + timeout else c.cachedNow + timeout)
  else none

/-- The write deadline of `Connection.writeRequest`. -/
def writeDeadline (c : TimeCache) (now timeout : ℤ) : Option ℤ := c.deadlineFor now timeout

/-- The read deadline of `Connection.readResponse`. -/
def readDeadline (c : TimeCache) (now timeout : ℤ) : Option ℤ := c.deadlineFor now timeout

/-- The read deadline of `ResponseReader.run`. -/
def pipelinedReadDeadline (c : TimeCache) (now timeout : ℤ) : Option ℤ := c.deadlineFor now timeout

end TimeCache

/-! ### Histories -/

/-- What touches the clock of a connection. -/
inductive ClockEvent
  | dial
  | complete
  deriving DecidableEq, Repr

/-- One event, at the clock reading `e.1`. -/
def TimeCache.step (c : TimeCache) (e : ℤ × ClockEvent) : TimeCache :=
  match e.2 with
  | .dial => .dialed e.1
  | .complete => c.updateTimeCache e.1

/-- The events of a connection, oldest first. -/
def TimeCache.run (c : TimeCache) (history : List (ℤ × ClockEvent)) : TimeCache :=
  history.foldl step c

/-- The clock reading of the last refresh: a dial, or a completion whose number
since the dial is a multiple of 128.  `r` is the last refresh before the
history and `k` the number of completions since the dial. -/
def lastRefresh (r : ℤ) (k : ℕ) : List (ℤ × ClockEvent) → ℤ
  | [] => r
  | (t, .dial) :: h => lastRefresh t 0 h
  | (t, .complete) :: h =>
    if 128 ∣ k + 1 then lastRefresh t (k + 1) h else lastRefresh r (k + 1) h

/-- The mask sees the completions since the dial, also after the counter has
wrapped. -/
theorem ofNat_and_127 (k : ℕ) : UInt32.ofNat k &&& 127 = 0 ↔ 128 ∣ k := by
  rw [← UInt32.toNat_inj, UInt32.toNat_and]
  have h : (127 : UInt32).toNat = 2 ^ 7 - 1 := rfl
  rw [h, Nat.and_two_pow_sub_one_eq_mod, UInt32.toNat_ofNat']
  rw [show (0 : UInt32).toNat = 0 from rfl]
  omega

/-- The cache after a run holds the last refresh. -/
theorem run_cachedNow (c : TimeCache) (k : ℕ) (hk : c.timeCounter = UInt32.ofNat k)
    (history : List (ℤ × ClockEvent)) :
    (c.run history).cachedNow = lastRefresh c.cachedNow k history := by
  induction history generalizing c k with
  | nil => rfl
  | cons e history ih =>
    obtain ⟨t, _ | _⟩ := e
    · exact ih (.dialed t) 0 rfl
    · have hctr : c.timeCounter + 1 = UInt32.ofNat (k + 1) := by
        rw [hk, UInt32.ofNat_add]
        rfl
      show ((c.updateTimeCache t).run history).cachedNow = _
      rw [lastRefresh]
      unfold TimeCache.updateTimeCache
      dsimp only
      rw [hctr]
      by_cases hdvd : 128 ∣ k + 1
      · rw [if_pos ((ofNat_and_127 _).mpr hdvd), if_pos hdvd]
        exact ih _ (k + 1) rfl
      · rw [if_neg fun h => hdvd ((ofNat_and_127 _).mp h), if_neg hdvd]
        exact ih _ (k + 1) rfl

/-- The time of the last use is never another one than the cached time. -/
theorem run_lastUsed {c : TimeCache} (hc : c.lastUsed = c.cachedNow)
    (history : List (ℤ × ClockEvent)) : (c.run history).lastUsed = (c.run history).cachedNow := by
  induction history generalizing c with
  | nil => exact hc
  | cons e history ih =>
    refine ih (c := c.step e) ?_
    obtain ⟨t, _ | _⟩ := e
    · rfl
    · unfold TimeCache.step TimeCache.updateTimeCache
      dsimp only
      split <;> rfl

/-! ### Deadlines -/

/-- Behind any history, the deadlines of a request that was issued at `t` with a
timeout of 100 ms or more are late enough exactly when the last refresh was not
earlier than `t`. -/
theorem deadline_not_early_iff (t₀ : ℤ) (history : List (ℤ × ClockEvent)) (t now timeout : ℤ)
    (h100 : 100 * millisecond ≤ timeout) :
    ((∃ d, ((TimeCache.dialed t₀).run history).writeDeadline now timeout = some d ∧
        t + timeout ≤ d) ∧
      (∃ d, ((TimeCache.dialed t₀).run history).readDeadline now timeout = some d ∧
        t + timeout ≤ d) ∧
      ∃ d, ((TimeCache.dialed t₀).run history).pipelinedReadDeadline now timeout = some d ∧
        t + timeout ≤ d) ↔
    t ≤ lastRefresh t₀ 0 history := by
  have hcached : ((TimeCache.dialed t₀).run history).cachedNow = lastRefresh t₀ 0 history :=
    run_cachedNow (.dialed t₀) 0 rfl history
  have hdeadline : ((TimeCache.dialed t₀).run history).deadlineFor now timeout
      = some (lastRefresh t₀ 0 history + timeout) := by
    rw [TimeCache.deadlineFor, if_pos (by unfold millisecond at h100; omega),
      if_neg (by omega), hcached]
  unfold TimeCache.writeDeadline TimeCache.readDeadline TimeCache.pipelinedReadDeadline
  rw [hdeadline]
  constructor
  · rintro ⟨⟨d, hd, hle⟩, -⟩
    rw [Option.some_inj] at hd
    omega
  · intro h
    exact ⟨⟨_, rfl, by omega⟩, ⟨_, rfl, by omega⟩, _, rfl, by omega⟩

/-- A request is completed in each of the first 128 milliseconds. -/
def completions : List (ℤ × ClockEvent) :=
  (List.range 128).map fun k => (((k : ℤ) + 1) * millisecond, .complete)

/-- The last of them refreshes the clock, and the deadlines of a request at that time are right. -/
theorem deadline_not_early_refreshed :
    ∃ d, ((TimeCache.dialed 0).run completions).writeDeadline (130 * millisecond)
        (100 * millisecond) = some d ∧ 128 * millisecond + 100 * millisecond ≤ d :=
  ((deadline_not_early_iff 0 completions (128 * millisecond) (130 * millisecond)
    (100 * millisecond) le_rfl).mpr (by decide +kernel)).1

/-- One minute after the dial, and after a completed request, a timeout of 30 s
has run out before the request is written. -/
theorem deadline_early_after_a_minute :
    ((TimeCache.dialed 0).run [(1000 * millisecond, .complete)]).writeDeadline
        (60000 * millisecond) (30000 * millisecond) = some (30000 * millisecond) ∧
      30000 * millisecond < 60000 * millisecond := by
  decide

end BurstHttp
