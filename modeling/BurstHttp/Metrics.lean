/-
The collector of the client (metrics.go, `BuiltinMetrics`).

Counters of requests by the class of their status, and a buffer of latencies that is halved when
it is full.  Two goroutines may call it at once: each counter is atomic and the buffer has a lock,
so a history is a list of calls.

* `BuiltinMetrics.recordResponse`, `BuiltinMetrics.snapshot` — the collector;
* `recordResponse_total`, `recordResponse_classes` — what a response is counted as;
* `latencies_run` — the latencies that are held are the last ones;
* `snapshot_percentiles` — and a snapshot reports their order statistics.
-/
import BurstHttp.Basic
import BurstHttp.Lib.Rank
import BurstHttp.Lib.Recent

namespace BurstHttp

inductive PoolEvent
  | connCreated
  | connClosed
  | connReused
  | connFailed
  deriving DecidableEq, Repr

/-- The counters of `BuiltinMetrics`. -/
structure Counters where
  requestsTotal : ℕ
  requestsOK : ℕ
  requestsError : ℕ
  requests1xx : ℕ
  requests3xx : ℕ
  requests4xx : ℕ
  requests5xx : ℕ
  retriesTotal : ℕ
  bytesWritten : ℤ
  bytesRead : ℤ
  connsCreated : ℕ
  connsClosed : ℕ
  connsReused : ℕ
  connsFailed : ℕ
  deriving DecidableEq, Repr

namespace Counters

def zero : Counters := ⟨0, 0, 0, 0, 0, 0, 0, 0, 0, 0, 0, 0, 0, 0⟩

/-- The `switch` of `RecordResponse`: a status below 100 that comes without an error, or with one
and is not 0, is in no class. -/
def recordStatus (m : Counters) (statusCode : ℤ) (err : Option GoErr) : Counters :=
  if err.isSome ∧ statusCode = 0 then { m with requestsError := m.requestsError + 1 }
  else if 100 ≤ statusCode ∧ statusCode < 200 then { m with requests1xx := m.requests1xx + 1 }
  else if 200 ≤ statusCode ∧ statusCode < 300 then { m with requestsOK := m.requestsOK + 1 }
  else if 300 ≤ statusCode ∧ statusCode < 400 then { m with requests3xx := m.requests3xx + 1 }
  else if 400 ≤ statusCode ∧ statusCode < 500 then { m with requests4xx := m.requests4xx + 1 }
  else if 500 ≤ statusCode then { m with requests5xx := m.requests5xx + 1 }
  else m

/-- `RecordResponse` without the latency. -/
def recordResponse (m : Counters) (statusCode : ℤ) (err : Option GoErr)
    (bytesWritten bytesRead : ℤ) : Counters :=
  { m with
    requestsTotal := m.requestsTotal + 1
    bytesWritten := wrap64 (m.bytesWritten + bytesWritten)
    bytesRead := wrap64 (m.bytesRead + bytesRead) }.recordStatus statusCode err

def recordPoolEvent (m : Counters) : PoolEvent → Counters
  | .connCreated => { m with connsCreated := m.connsCreated + 1 }
  | .connClosed => { m with connsClosed := m.connsClosed + 1 }
  | .connReused => { m with connsReused := m.connsReused + 1 }
  | .connFailed => { m with connsFailed := m.connsFailed + 1 }

def recordRetry (m : Counters) : Counters := { m with retriesTotal := m.retriesTotal + 1 }

/-- The error counter and the counters of the status classes, together. -/
def classes (m : Counters) : ℕ :=
  m.requestsError + m.requests1xx + m.requestsOK + m.requests3xx + m.requests4xx + m.requests5xx

/-- A response that one of them counts. -/
def Classed (statusCode : ℤ) (err : Option GoErr) : Prop :=
  err.isSome ∧ statusCode = 0 ∨ 100 ≤ statusCode

instance (statusCode : ℤ) (err : Option GoErr) : Decidable (Classed statusCode err) :=
  inferInstanceAs (Decidable (_ ∨ _))

theorem recordStatus_total (m : Counters) (statusCode : ℤ) (err : Option GoErr) :
    (m.recordStatus statusCode err).requestsTotal = m.requestsTotal := by
  unfold recordStatus
  split_ifs <;> rfl

theorem recordStatus_classes (m : Counters) (statusCode : ℤ) (err : Option GoErr) :
    (m.recordStatus statusCode err).classes
      = m.classes + if Classed statusCode err then 1 else 0 := by
  unfold recordStatus
  by_cases herr : err.isSome ∧ statusCode = 0
  · have hclass : Classed statusCode err := .inl herr
    rw [if_pos herr, if_pos hclass]
    simp only [classes]
    omega
  · have hclass : Classed statusCode err ↔ 100 ≤ statusCode :=
      ⟨fun h => h.resolve_left herr, .inr⟩
    rw [if_neg herr, if_congr hclass rfl rfl]
    split_ifs <;> simp only [classes] <;> omega

/-- Every response is counted once. -/
theorem recordResponse_total (m : Counters) (statusCode : ℤ) (err : Option GoErr)
    (written read : ℤ) :
    (m.recordResponse statusCode err written read).requestsTotal = m.requestsTotal + 1 :=
  recordStatus_total _ _ _

/-- And in one class, if it has one. -/
theorem recordResponse_classes (m : Counters) (statusCode : ℤ) (err : Option GoErr)
    (written read : ℤ) :
    (m.recordResponse statusCode err written read).classes
      = m.classes + if Classed statusCode err then 1 else 0 :=
  recordStatus_classes _ _ _

end Counters

/-- `BuiltinMetrics`; `toCounters` are its atomic fields. -/
structure BuiltinMetrics extends Counters where
  latencies : List ℤ
  maxSamples : ℕ

/-- `MetricsSnapshot`. -/
structure MetricsSnapshot extends Counters where
  latencyP50 : ℤ
  latencyP95 : ℤ
  latencyP99 : ℤ
  latencyAvg : ℤ
  latencyMin : ℤ
  latencyMax : ℤ

/-- `time.Since(start)`, which does not leave the range of a duration. -/
def since (now start : ℤ) : ℤ := max (-2 ^ 63) (min (2 ^ 63 - 1) (now - start))

namespace BuiltinMetrics

/-- `NewBuiltinMetrics`. -/
def new : BuiltinMetrics := ⟨.zero, [], 10000⟩

/-- `RecordResponse`; a zero `start` is `none`, and `now` is the clock. -/
def recordResponse (m : BuiltinMetrics) (statusCode : ℤ) (err : Option GoErr) (start : Option ℤ)
    (now bytesWritten bytesRead : ℤ) : BuiltinMetrics :=
  let m := { m with
    toCounters := m.toCounters.recordResponse statusCode err bytesWritten bytesRead }
  match start with
  | none => m
  | some start => { m with latencies := Recent.push m.maxSamples m.latencies (since now start) }

/-- `Snapshot`.  Nothing is an index out of range. -/
def snapshot (m : BuiltinMetrics) : Option MetricsSnapshot :=
  let n := m.latencies.length
  if 0 < n then do
    let sorted := m.latencies.mergeSort (· ≤ ·)
    let latencyMin ← sorted[0]?
    let latencyMax ← sorted[n - 1]?
    let latencyP50 ← sorted[n * 50 / 100]?
    let latencyP95 ← sorted[n * 95 / 100]?
    let p99Idx := if n ≤ n * 99 / 100 then n - 1 else n * 99 / 100
    let latencyP99 ← sorted[p99Idx]?
    let total := sorted.foldl (fun total d => wrap64 (total + d)) 0
    some
      { m.toCounters with
        latencyP50, latencyP95, latencyP99, latencyAvg := total.tdiv n, latencyMin, latencyMax }
  else
    some
      { m.toCounters with
        latencyP50 := 0, latencyP95 := 0, latencyP99 := 0, latencyAvg := 0, latencyMin := 0
        latencyMax := 0 }

/-- A call of the collector that changes it. -/
inductive Op
  | response (statusCode : ℤ) (err : Option GoErr) (start : Option ℤ) (now : ℤ)
      (bytesWritten bytesRead : ℤ)
  | poolEvent (event : PoolEvent)
  | retry

def step (m : BuiltinMetrics) : Op → BuiltinMetrics
  | .response statusCode err start now written read =>
    m.recordResponse statusCode err start now written read
  | .poolEvent event => { m with toCounters := m.toCounters.recordPoolEvent event }
  | .retry => { m with toCounters := m.toCounters.recordRetry }

/-- A new collector after a history of calls. -/
def run (ops : List Op) : BuiltinMetrics := ops.foldl step new

/-- The latency that a call records: there is one if it has a start. -/
def Op.sample : Op → Option ℤ
  | .response _ _ start now _ _ => start.map (since now)
  | _ => none

/-- All that a history records. -/
def samples (ops : List Op) : List ℤ := ops.filterMap Op.sample

/-! ### The latencies -/

theorem step_latencies (m : BuiltinMetrics) (op : Op) :
    (m.step op).maxSamples = m.maxSamples ∧
      (m.step op).latencies = op.sample.toList.foldl (Recent.push m.maxSamples) m.latencies := by
  cases op with
  | response statusCode err start now written read =>
    cases start with
    | none => exact ⟨rfl, rfl⟩
    | some start => exact ⟨rfl, rfl⟩
  | poolEvent event => exact ⟨rfl, rfl⟩
  | retry => exact ⟨rfl, rfl⟩

theorem foldl_step_latencies (m : BuiltinMetrics) (ops : List Op) :
    (ops.foldl step m).latencies
      = (samples ops).foldl (Recent.push m.maxSamples) m.latencies := by
  induction ops generalizing m with
  | nil => rfl
  | cons op ops ih =>
    obtain ⟨hmax, hlatencies⟩ := m.step_latencies op
    have hsamples : samples (op :: ops) = op.sample.toList ++ samples ops := by
      rw [samples, List.filterMap_cons]
      cases op.sample <;> rfl
    rw [List.foldl_cons, ih, hmax, hlatencies, hsamples, List.foldl_append]

/-- The latencies that are held are the last ones. -/
theorem latencies_run (ops : List Op) :
    (run ops).latencies
      = (samples ops).drop ((samples ops).length - Recent.kept 5000 (samples ops).length) := by
  rw [run, foldl_step_latencies]
  exact Recent.foldl_push (h := 5000) (by decide) _

/-! ### The snapshot -/

/-- The percentiles of a snapshot are the order statistics of what is held. -/
structure Reports (latencies : List ℤ) (snap : MetricsSnapshot) : Prop where
  min : Rank.HasRank latencies 0 snap.latencyMin
  p50 : Rank.HasRank latencies (latencies.length * 50 / 100) snap.latencyP50
  p95 : Rank.HasRank latencies (latencies.length * 95 / 100) snap.latencyP95
  p99 : Rank.HasRank latencies (latencies.length * 99 / 100) snap.latencyP99
  max : Rank.HasRank latencies (latencies.length - 1) snap.latencyMax

theorem snapshot_reports (m : BuiltinMetrics) (hpos : 0 < m.latencies.length) :
    ∃ snap, m.snapshot = some snap ∧ Reports m.latencies snap := by
  have hperm := List.mergeSort_perm m.latencies fun a b => decide (a ≤ b)
  have hsorted : (m.latencies.mergeSort fun a b => decide (a ≤ b)).Pairwise (· ≤ ·) :=
    List.pairwise_mergeSort' (· ≤ ·) m.latencies
  have hlen := hperm.length_eq
  have hat : ∀ r < m.latencies.length, ∃ x,
      (m.latencies.mergeSort fun a b => decide (a ≤ b))[r]? = some x ∧
        Rank.HasRank m.latencies r x := by
    intro r hr
    have hget := List.getElem?_eq_getElem (hlen.symm ▸ hr)
    exact ⟨_, hget, Rank.hasRank_getElem hperm hsorted hget⟩
  obtain ⟨min, hmin, hmin'⟩ := hat 0 hpos
  obtain ⟨p50, hp50, hp50'⟩ := hat (m.latencies.length * 50 / 100) (by omega)
  obtain ⟨p95, hp95, hp95'⟩ := hat (m.latencies.length * 95 / 100) (by omega)
  obtain ⟨p99, hp99, hp99'⟩ := hat (m.latencies.length * 99 / 100) (by omega)
  obtain ⟨max, hmax, hmax'⟩ := hat (m.latencies.length - 1) (by omega)
  have hindex : ¬ m.latencies.length ≤ m.latencies.length * 99 / 100 := by omega
  unfold snapshot
  simp only [if_pos hpos, if_neg hindex, hmin, hmax, hp50, hp95, hp99, Option.bind_eq_bind,
    Option.bind_some]
  exact ⟨_, rfl, hmin', hp50', hp95', hp99', hmax'⟩

/-- They are ordered as their ranks. -/
theorem Reports.ordered {latencies : List ℤ} {snap : MetricsSnapshot} (h : Reports latencies snap)
    (hpos : 0 < latencies.length) :
    snap.latencyMin ≤ snap.latencyP50 ∧ snap.latencyP50 ≤ snap.latencyP95 ∧
      snap.latencyP95 ≤ snap.latencyP99 ∧ snap.latencyP99 ≤ snap.latencyMax := by
  refine ⟨h.min.le h.p50 (Nat.zero_le _), h.p50.le h.p95 ?_, h.p95.le h.p99 ?_, h.p99.le h.max ?_⟩
  · omega
  · omega
  · omega

/-- Of the latencies that a history records, the last `k` are held, in order: all of them up to
10000, and then between 5001 and 10000.  A snapshot never leaves the range of its sorted copy, and
reports the order statistics with the ranks `k * 50 / 100`, `k * 95 / 100` and `k * 99 / 100`. -/
theorem snapshot_percentiles (ops : List Op) : ∃ k snap,
    k = (if (samples ops).length ≤ 10000 then (samples ops).length
      else 5001 + ((samples ops).length - 10001) % 5000) ∧
    (run ops).latencies = (samples ops).drop ((samples ops).length - k) ∧
    (run ops).latencies.length = k ∧
    (run ops).snapshot = some snap ∧
    (0 < k →
      k * 50 / 100 < k ∧ Rank.HasRank (run ops).latencies (k * 50 / 100) snap.latencyP50 ∧
      k * 95 / 100 < k ∧ Rank.HasRank (run ops).latencies (k * 95 / 100) snap.latencyP95 ∧
      k * 99 / 100 < k ∧ Rank.HasRank (run ops).latencies (k * 99 / 100) snap.latencyP99 ∧
      Rank.HasRank (run ops).latencies 0 snap.latencyMin ∧
      Rank.HasRank (run ops).latencies (k - 1) snap.latencyMax) ∧
    snap.latencyMin ≤ snap.latencyP50 ∧ snap.latencyP50 ≤ snap.latencyP95 ∧
      snap.latencyP95 ≤ snap.latencyP99 ∧ snap.latencyP99 ≤ snap.latencyMax := by
  have hlatencies := latencies_run ops
  have hlen : (run ops).latencies.length = Recent.kept 5000 (samples ops).length := by
    have hle := Recent.kept_le 5000 (samples ops).length
    rw [hlatencies, List.length_drop]
    omega
  have hkept : Recent.kept 5000 (samples ops).length
      = if (samples ops).length ≤ 10000 then (samples ops).length
        else 5001 + ((samples ops).length - 10001) % 5000 := rfl
  rcases Nat.eq_zero_or_pos (run ops).latencies.length with hzero | hpos
  · -- nothing was recorded
    have hsnap : (run ops).snapshot = _ := if_neg (by omega)
    refine ⟨Recent.kept 5000 _, _, hkept, hlatencies, hlen, hsnap, fun hk => ?_,
      le_rfl, le_rfl, le_rfl, le_rfl⟩
    omega
  · obtain ⟨snap, hsnap, hreports⟩ := (run ops).snapshot_reports hpos
    have hordered := hreports.ordered hpos
    refine ⟨Recent.kept 5000 _, snap, hkept, hlatencies, hlen, hsnap, fun hk => ?_, hordered⟩
    obtain ⟨hmin, hp50, hp95, hp99, hmax⟩ := hreports
    rw [hlen] at hp50 hp95 hp99 hmax
    exact ⟨by omega, hp50, by omega, hp95, by omega, hp99, hmin, hmax⟩

end BuiltinMetrics

end BurstHttp
