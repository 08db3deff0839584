/-
The health score of a connection.

`recordSuccess` and `recordError` count requests in windows of fifty and keep a moving average of
the latency; a completed window leaves a score behind.  `HealthScore` tells a new connection from
one with the score 0 by its average, which is 0 until a request has succeeded.

* `Tracks` — what the counters are after a history of calls;
* `run_tracks` — every history is split into completed windows and a current one;
* `latencyEWMA_between` — the average stays between the samples, and no update of it overflows;
* `score_iff` — the score is what the windows say, once the first one is complete: before, it is
  100 only while the average is 0.
-/
import BurstHttp.Connection
import BurstHttp.Lib.Ewma

namespace BurstHttp

/-- A call of `recordSuccess` or of `recordError`. -/
inductive HealthOp
  | success (elapsed : ℤ)
  | error
  deriving DecidableEq, Repr

namespace HealthOp

/-- The latencies that were recorded. -/
def durations (ops : List HealthOp) : List ℤ :=
  ops.filterMap fun
    | success elapsed => some elapsed
    | error => none

def errors (ops : List HealthOp) : ℕ := ops.count error

@[simp] theorem durations_append (l l' : List HealthOp) :
    durations (l ++ l') = durations l ++ durations l' :=
  List.filterMap_append

theorem length_durations_le (l : List HealthOp) : (durations l).length ≤ l.length :=
  List.length_filterMap_le _ l

/-- Durations are 64-bit numbers, and not negative. -/
def Valid (ops : List HealthOp) : Prop := ∀ x ∈ durations ops, 0 ≤ x ∧ x < 2 ^ 63

theorem Valid.left {l l' : List HealthOp} (h : Valid (l ++ l')) : Valid l := by
  intro x hx
  exact h x (by rw [durations_append]; exact List.mem_append_left _ hx)

theorem Valid.right {l l' : List HealthOp} (h : Valid (l ++ l')) : Valid l' := by
  intro x hx
  exact h x (by rw [durations_append]; exact List.mem_append_right _ hx)

/-- The moving average in nanoseconds that a history leaves. -/
def ewma (ops : List HealthOp) : ℤ := Ewma.average 3 (durations ops)

theorem ewma_success (ops : List HealthOp) (elapsed : ℤ) :
    ewma (ops ++ [success elapsed]) = Ewma.next 3 (ewma ops) elapsed := by
  rw [ewma, durations_append]
  exact Ewma.average_concat 3 _ _

theorem ewma_error (ops : List HealthOp) : ewma (ops ++ [error]) = ewma ops := by
  rw [ewma, durations_append]
  exact congrArg _ (List.append_nil _)

theorem ewma_range {ops : List HealthOp} (h : Valid ops) : 0 ≤ ewma ops ∧ ewma ops < 2 ^ 63 :=
  Ewma.average_mem_range 3 (by decide) h

/-- The score of a window with `e` errors that ends with an average of `m` milliseconds. -/
def windowScore (m e : ℤ) : ℤ :=
  max 0 (100 - min 60 (if 50 < m then (m - 50) / 10 else 0) - 40 * e / 50)

/-- What the windows of a history say: 100 until one is complete, and then the score of the last
complete one. -/
def windowsScore (ops : List HealthOp) : ℤ :=
  if ops.length < 50 then 100
  else
    let completed := ops.take (ops.length / 50 * 50)
    windowScore (ewma completed / 1000000) (errors (completed.drop (completed.length - 50)))

theorem windowsScore_append {completed current : List HealthOp} (hne : completed ≠ [])
    (haligned : 50 ∣ completed.length) (hlt : current.length < 50) :
    windowsScore (completed ++ current)
      = windowScore (ewma completed / 1000000)
          (errors (completed.drop (completed.length - 50))) := by
  have hpos : 0 < completed.length := List.length_pos_of_ne_nil hne
  have hlen : (completed ++ current).length = completed.length + current.length :=
    List.length_append
  have hwhole : (completed ++ current).length / 50 * 50 = completed.length := by omega
  rw [windowsScore, if_neg (by omega)]
  simp only [hwhole, List.take_left]

theorem windowScore_range {e : ℤ} (m : ℤ) (he : 0 ≤ e) :
    0 ≤ windowScore m e ∧ windowScore m e ≤ 100 := by
  unfold windowScore
  split <;> omega

/-- The score of a window is 0 only for a high latency. -/
theorem le_of_windowScore_eq_zero {m e : ℤ} (he : e ≤ 50) (h : windowScore m e = 0) :
    650 ≤ m := by
  unfold windowScore at h
  split at h <;> omega

/-- After such a window the average does not come down to 0 before the next one is complete. -/
theorem ewma_ne_zero {completed current : List HealthOp} (h : Valid (completed ++ current))
    (hlt : current.length < 50) (hhigh : 650 ≤ ewma completed / 1000000) :
    ewma (completed ++ current) ≠ 0 := by
  have hdecay := Ewma.decay_foldl 3 (ewma_range h.left).1 fun x hx => (h.right x hx).1
  have hlen := length_durations_le current
  have hpows : ∀ w < 50, (8 : ℤ) ^ w * 7 < 7 ^ w * 650000007 := by decide
  have hpow := hpows _ (hlen.trans_lt hlt)
  have hstart : (650000007 : ℤ) ≤ ewma completed + 7 := by omega
  have hmul : (7 : ℤ) ^ (durations current).length * 650000007
      ≤ 7 ^ (durations current).length * (ewma completed + 7) :=
    mul_le_mul_of_nonneg_left hstart (pow_nonneg (by decide) _)
  intro hzero
  rw [ewma, durations_append, Ewma.average_append, ← ewma] at hzero
  rw [hzero] at hdecay
  norm_num at hdecay
  omega

end HealthOp

namespace HealthStats

open HealthOp

/-- The counters of a new connection. -/
def new (depth : ℤ) : HealthStats := ⟨0, 0, 0, 0, depth, 0, 0⟩

/-- `Connection.HealthScore`. -/
def score (s : HealthStats) : ℤ :=
  if s.healthScore = 0 ∧ s.latencyEWMA = 0 then 100 else s.healthScore

def record (cfg : Config) (s : HealthStats) : HealthOp → HealthStats
  | .success elapsed => s.recordSuccess cfg elapsed
  | .error => s.recordError cfg

/-- The counters after a history of calls on a new connection. -/
def run (cfg : Config) (depth : ℤ) (ops : List HealthOp) : HealthStats :=
  ops.foldl (record cfg) (new depth)

theorem run_concat (cfg : Config) (depth : ℤ) (ops : List HealthOp) (op : HealthOp) :
    run cfg depth (ops ++ [op]) = record cfg (run cfg depth ops) op := by
  rw [run, List.foldl_append]
  rfl

/-! ### One call -/

/-- What the counters of a connection are after the calls `completed ++ current`, where the last
window begins with `current`. -/
structure Tracks (s : HealthStats) (completed current : List HealthOp) : Prop where
  latencyEWMA : s.latencyEWMA = ewma (completed ++ current)
  errorCount : s.errorCount = errors current
  totalWindow : s.totalWindow = current.length
  healthScore : s.healthScore =
    if completed = [] then 0
    else windowScore (ewma completed / 1000000) (errors (completed.drop (completed.length - 50)))
  aligned : 50 ∣ completed.length
  lt : current.length < 50

theorem Tracks.errors_lt {s : HealthStats} {completed current : List HealthOp}
    (h : s.Tracks completed current) : errors current < 50 :=
  List.count_le_length.trans_lt h.lt

theorem tracks_new (depth : ℤ) : (new depth).Tracks [] [] :=
  ⟨rfl, rfl, rfl, rfl, dvd_zero 50, by decide⟩

/-- The score that `advanceHealthWindow` computes. -/
theorem penalties_eq {lat e : ℤ} (hlat : 0 ≤ lat) (he : 0 ≤ e) (he' : e ≤ 50) :
    max (100 - (if 50 < lat.tdiv 1000000 then min ((lat.tdiv 1000000 - 50).tdiv 10) 60 else 0)
      - (if 0 < e then (wrap32 (40 * e)).tdiv 50 else 0)) 0 = windowScore (lat / 1000000) e := by
  have herr : (if 0 < e then (wrap32 (40 * e)).tdiv 50 else 0) = 40 * e / 50 := by
    have hwrap : wrap32 (40 * e) = 40 * e := by
      unfold wrap32
      rw [Int.bmod_eq_of_le] <;> norm_num <;> omega
    rw [hwrap, Int.tdiv_eq_ediv_of_nonneg (by omega)]
    split <;> omega
  rw [herr, Int.tdiv_eq_ediv_of_nonneg hlat, windowScore]
  split
  · rw [Int.tdiv_eq_ediv_of_nonneg (by omega)]
    omega
  · omega

/-- `advanceHealthWindow` counts a call, and completes the window with the fiftieth. -/
theorem Tracks.advance {s t : HealthStats} {completed current : List HealthOp} {op : HealthOp}
    (h : s.Tracks completed current) (hvalid : Valid (completed ++ current ++ [op]))
    (hewma : t.latencyEWMA = ewma (completed ++ current ++ [op]))
    (herrors : t.errorCount = errors (current ++ [op])) (htotal : t.totalWindow = s.totalWindow)
    (hscore : t.healthScore = s.healthScore) :
    t.advanceHealthWindow.Tracks completed (current ++ [op]) ∨
      t.advanceHealthWindow.Tracks (completed ++ current ++ [op]) [] := by
  have hlt := h.lt
  have hwrap : wrap32 (t.totalWindow + 1) = (current ++ [op]).length := by
    rw [htotal, h.totalWindow, List.length_append, List.length_singleton, wrap32,
      Int.bmod_eq_of_le] <;> push_cast <;> omega
  unfold advanceHealthWindow
  rw [hwrap, healthWindowSize]
  simp only
  split
  · -- the window goes on
    rename_i hmore
    exact .inl ⟨by rw [← List.append_assoc]; exact hewma, herrors, rfl,
      hscore.trans h.healthScore, h.aligned, by exact_mod_cast hmore⟩
  · rename_i hfull
    have hlen : (current ++ [op]).length = 50 := by
      rw [List.length_append, List.length_singleton] at hfull ⊢
      omega
    have hwindow : (completed ++ current ++ [op]).drop
        ((completed ++ current ++ [op]).length - 50) = current ++ [op] := by
      rw [List.append_assoc, List.length_append, hlen, Nat.add_sub_cancel, List.drop_left]
    have herrs : (errors (current ++ [op]) : ℤ) ≤ 50 := by
      exact_mod_cast hlen ▸ List.count_le_length
    refine .inr ⟨by rw [List.append_nil]; exact hewma, rfl, rfl, ?_, ?_, by decide⟩
    · have hne : completed ++ current ++ [op] ≠ [] := List.concat_ne_nil op _
      rw [hwindow, hewma, herrors]
      exact (penalties_eq (ewma_range hvalid).1 (Int.natCast_nonneg _) herrs).trans
        (if_neg hne).symm
    · rw [List.append_assoc, List.length_append, hlen]
      exact Nat.dvd_add h.aligned (Nat.dvd_refl 50)

/-- The update of the average, where it does not overflow. -/
theorem newEWMA_eq {old elapsed : ℤ} (hold : 0 ≤ old ∧ old < 2 ^ 63)
    (helapsed : 0 ≤ elapsed ∧ elapsed < 2 ^ 63) :
    (if old = 0 then elapsed else wrap64 (old + wrap64 (elapsed - old) >>> (3 : ℕ)))
      = Ewma.next 3 old elapsed := by
  unfold Ewma.next
  split
  · rfl
  · rename_i hne
    have hbetween := Ewma.shift_between (elapsed - old) 3
    rw [wrap64_eq (x := elapsed - old) (by omega) (by omega), wrap64_eq (by omega) (by omega)]

/-- Tuning the pipeline depth leaves the other counters alone. -/
theorem Tracks.tune {s : HealthStats} {completed current : List HealthOp}
    (h : s.Tracks completed current) (cfg : Config) (lat : ℤ) :
    (s.tunePipelineDepth cfg lat).Tracks completed current := by
  have hdepth (depth : ℤ) : { s with pipelineDepth := depth }.Tracks completed current :=
    ⟨h.latencyEWMA, h.errorCount, h.totalWindow, h.healthScore, h.aligned, h.lt⟩
  unfold tunePipelineDepth
  simp only
  split
  · exact hdepth _
  split
  · exact hdepth _
  · exact h

variable {cfg : Config}

theorem Tracks.record {s : HealthStats} {completed current : List HealthOp} {op : HealthOp}
    (h : s.Tracks completed current) (henabled : cfg.enableHealthScoring = true)
    (hvalid : Valid (completed ++ current ++ [op])) :
    (s.record cfg op).Tracks completed (current ++ [op]) ∨
      (s.record cfg op).Tracks (completed ++ current ++ [op]) [] := by
  cases op with
  | success elapsed =>
    have hnew : Ewma.next 3 s.latencyEWMA elapsed
        = ewma (completed ++ current ++ [.success elapsed]) := by
      rw [ewma_success, h.latencyEWMA]
    have helapsed : 0 ≤ elapsed ∧ elapsed < 2 ^ 63 :=
      hvalid.right elapsed (List.mem_singleton_self elapsed)
    have herrors : s.errorCount = errors (current ++ [.success elapsed]) := by
      rw [h.errorCount, errors, errors, List.count_append]
      rfl
    show (s.recordSuccess cfg elapsed).Tracks _ _ ∨ (s.recordSuccess cfg elapsed).Tracks _ _
    simp only [recordSuccess, henabled, Bool.not_true, Bool.false_eq_true, if_false,
      newEWMA_eq (h.latencyEWMA ▸ ewma_range hvalid.left) helapsed]
    have hadvance := h.advance (t := { s with latencyEWMA := Ewma.next 3 s.latencyEWMA elapsed })
      hvalid hnew herrors rfl rfl
    split
    · exact hadvance.imp (·.tune cfg _) (·.tune cfg _)
    · exact hadvance
  | error =>
    have hcount : wrap32 (s.errorCount + 1) = errors (current ++ [.error]) := by
      have hlt := h.errors_lt
      have hone : errors (current ++ [.error]) = errors current + 1 := by
        rw [errors, errors, List.count_append]
        rfl
      rw [h.errorCount, hone, wrap32, Int.bmod_eq_of_le] <;> push_cast <;> omega
    show (s.recordError cfg).Tracks _ _ ∨ (s.recordError cfg).Tracks _ _
    simp only [recordError, henabled, Bool.not_true, Bool.false_eq_true, if_false]
    exact h.advance (t := { s with errorCount := wrap32 (s.errorCount + 1) }) hvalid
      (h.latencyEWMA.trans (ewma_error _).symm) hcount rfl rfl

/-! ### Every history -/

theorem run_tracks (henabled : cfg.enableHealthScoring = true) (depth : ℤ) {ops : List HealthOp}
    (hvalid : Valid ops) :
    ∃ completed current,
      ops = completed ++ current ∧ (run cfg depth ops).Tracks completed current := by
  induction ops using List.reverseRecOn with
  | nil => exact ⟨[], [], rfl, tracks_new depth⟩
  | append_singleton ops op ih =>
    obtain ⟨completed, current, rfl, htracks⟩ := ih hvalid.left
    rw [run_concat]
    rcases htracks.record henabled hvalid with h | h
    · exact ⟨completed, current ++ [op], List.append_assoc _ _ _, h⟩
    · exact ⟨_, [], (List.append_nil _).symm, h⟩

theorem latencyEWMA_run (henabled : cfg.enableHealthScoring = true) (depth : ℤ)
    {ops : List HealthOp} (hvalid : Valid ops) : (run cfg depth ops).latencyEWMA = ewma ops := by
  obtain ⟨completed, current, rfl, htracks⟩ := run_tracks henabled depth hvalid
  exact htracks.latencyEWMA

/-- The average lies between the least and the greatest latency recorded so far.  No step of an
update leaves the range of 64 bits, and the update lies between the old average, if there is one,
and the sample. -/
theorem latencyEWMA_between (henabled : cfg.enableHealthScoring = true) (depth : ℤ)
    {ops : List HealthOp} (hvalid : Valid ops) :
    (durations ops ≠ [] →
      (∃ x ∈ durations ops, x ≤ (run cfg depth ops).latencyEWMA) ∧
        ∃ y ∈ durations ops, (run cfg depth ops).latencyEWMA ≤ y) ∧
    ∀ old elapsed new : ℤ, old = (run cfg depth ops).latencyEWMA →
      0 ≤ elapsed → elapsed < 2 ^ 63 →
      new = ((run cfg depth ops).recordSuccess cfg elapsed).latencyEWMA →
      (-2 ^ 63 ≤ elapsed - old ∧ elapsed - old < 2 ^ 63) ∧
      (-2 ^ 63 ≤ old + (elapsed - old) >>> (3 : ℕ) ∧
        old + (elapsed - old) >>> (3 : ℕ) < 2 ^ 63) ∧
      new = (if old = 0 then elapsed else old + (elapsed - old) >>> (3 : ℕ)) ∧
      (old ≠ 0 → min old elapsed ≤ new ∧ new ≤ max old elapsed) := by
  have hewma := latencyEWMA_run henabled depth hvalid
  have hrange := ewma_range hvalid
  constructor
  · intro hne
    rw [hewma]
    exact Ewma.average_between 3 hne
  · intro old elapsed new hold h0 h1 hnew
    have hnext : Valid (ops ++ [.success elapsed]) := by
      intro x hx
      rw [durations_append, List.mem_append] at hx
      rcases hx with hx | hx
      · exact hvalid x hx
      · rw [List.mem_singleton.mp hx]
        exact ⟨h0, h1⟩
    have hrun : new = Ewma.next 3 old elapsed := by
      rw [hold, hewma, ← ewma_success, ← latencyEWMA_run henabled depth hnext, run_concat]
      exact hnew
    have hshift := Ewma.shift_between (elapsed - old) 3
    rw [hewma] at hold
    refine ⟨by omega, by omega, hrun, ?_⟩
    intro hne
    rw [hrun]
    exact Ewma.next_between 3 hne elapsed

/-- A configuration with health scoring. -/
def scored : Config where
  enablePipelining := true
  maxRequestsPerConn := 0
  idleTimeout := 0
  readTimeout := 0
  writeTimeout := 0
  enableHealthScoring := true
  enablePipelineAutoTune := true
  maxPipelinedRequests := 10
  maxRespSize := 1024
  maxReqSize := 1024
  headerReadSize := 64
  bodyReadSize := 64
  maxRespSize_pos := by decide
  maxReqSize_pos := by decide
  headerReadSize_pos := by decide
  bodyReadSize_pos := by decide

/-- A slow request, and then failures to the end of the window. -/
def slowThenFailing : List HealthOp := .success 1000000000 :: List.replicate 49 .error

theorem scored_enabled : scored.enableHealthScoring = true := rfl

theorem slowThenFailing_valid : Valid slowThenFailing := by
  intro x hx
  rw [List.mem_singleton.mp hx]
  decide

/-- Of one second and one millisecond the average is a little less than a second. -/
theorem latencyEWMA_second_then_millisecond :
    (∃ y ∈ durations slowThenFailing, (run scored 10 slowThenFailing).latencyEWMA ≤ y) ∧
    min 1000000000 1000000 ≤
      ((run scored 10 slowThenFailing).recordSuccess scored 1000000).latencyEWMA := by
  obtain ⟨hsamples, hnext⟩ := latencyEWMA_between scored_enabled 10 slowThenFailing_valid
  have hold : (1000000000 : ℤ) = (run scored 10 slowThenFailing).latencyEWMA := by decide +kernel
  exact ⟨(hsamples (by decide)).2,
    ((hnext 1000000000 1000000 _ hold (by decide) (by decide) rfl).2.2.2 (by decide)).1⟩

/-- Before the first window is complete the score is 100 or 0. -/
theorem Tracks.score_first {s : HealthStats} {current : List HealthOp} (h : s.Tracks [] current) :
    s.score = if ewma current = 0 then 100 else 0 := by
  have hstored : s.healthScore = 0 := h.healthScore
  have hewma : s.latencyEWMA = ewma current := h.latencyEWMA
  rw [score, hstored, hewma]
  simp only [true_and]

/-- From then on it is the score of the last one. -/
theorem Tracks.score_later {s : HealthStats} {completed current : List HealthOp}
    (h : s.Tracks completed current) (hvalid : Valid (completed ++ current))
    (hne : completed ≠ []) : s.score = windowsScore (completed ++ current) := by
  have hstored := h.healthScore
  rw [if_neg hne] at hstored
  rw [windowsScore_append hne h.aligned h.lt, ← hstored, score]
  refine if_neg ?_
  rintro ⟨hzero, hfresh⟩
  -- a computed 0 is not taken for a new connection
  have herrors : errors (completed.drop (completed.length - 50)) ≤ 50 := by
    refine List.count_le_length.trans ?_
    rw [List.length_drop]
    omega
  have hhigh := le_of_windowScore_eq_zero (by exact_mod_cast herrors) (hstored.symm.trans hzero)
  exact ewma_ne_zero hvalid h.lt hhigh (h.latencyEWMA ▸ hfresh)

/-- The score of a connection is what its completed windows say, and in 0..100, once there is one.
Before that `HealthScore` is 100 just while the average is 0: the stored score is 0 from the start,
and no test tells it from a computed one when a request has succeeded. -/
theorem score_iff (henabled : cfg.enableHealthScoring = true) (depth : ℤ) {ops : List HealthOp}
    (hvalid : Valid ops) :
    ((run cfg depth ops).score = windowsScore ops ∧
      0 ≤ (run cfg depth ops).score ∧ (run cfg depth ops).score ≤ 100) ↔
    (50 ≤ ops.length ∨ ewma ops = 0) := by
  obtain ⟨completed, current, rfl, htracks⟩ := run_tracks henabled depth hvalid
  have hlt := htracks.lt
  by_cases hfirst : completed = []
  · subst hfirst
    have hwindows : windowsScore ([] ++ current) = 100 := if_pos hlt
    rw [htracks.score_first, hwindows, List.nil_append]
    split
    · rename_i hzero
      exact iff_of_true ⟨rfl, by decide, by decide⟩ (.inr hzero)
    · rename_i hset
      refine iff_of_false (fun h => absurd h.1 (by decide)) ?_
      rintro (hlen | hzero)
      · omega
      · exact hset hzero
  · have hlen : 50 ≤ (completed ++ current).length := by
      have hpos : 0 < completed.length := List.length_pos_of_ne_nil hfirst
      have haligned := htracks.aligned
      rw [List.length_append]
      omega
    have hrange : 0 ≤ windowsScore (completed ++ current) ∧
        windowsScore (completed ++ current) ≤ 100 := by
      rw [windowsScore_append hfirst htracks.aligned hlt]
      exact windowScore_range _ (Int.natCast_nonneg _)
    rw [htracks.score_later hvalid hfirst]
    exact iff_of_true ⟨rfl, hrange⟩ (.inl hlen)

/-- A latency of a second and 49 errors leave the score 1. -/
theorem score_slowThenFailing :
    windowsScore slowThenFailing = 1 ∧ (run scored 10 slowThenFailing).score = 1 := by
  have hwindows : windowsScore slowThenFailing = 1 := by decide +kernel
  have hlaw := (score_iff scored_enabled 10 slowThenFailing_valid).mpr (.inl (by decide))
  exact ⟨hwindows, hlaw.1.trans hwindows⟩

/-- A connection that has served one request in a millisecond has the score 0. -/
theorem score_one_success :
    windowsScore [.success 1000000] = 100 ∧ (run scored 10 [.success 1000000]).score = 0 ∧
      ¬ (run scored 10 [.success 1000000]).score = windowsScore [.success 1000000] := by
  decide +kernel

end HealthStats

end BurstHttp
