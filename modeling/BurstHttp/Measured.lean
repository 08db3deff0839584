/-
What the collector sees of the attempts of a request (client.go, `DoWithContext`; metrics.go,
`RecordResponse`).

An attempt calls `RecordRequest` at its top, and `RecordResponse` where it settles.  One exit lies
before that: an attempt whose response object has gone to the reader of a pipelined connection
returns at once.

* `MeasuredFrom` — a log in which every attempt has both calls, in order;
* `measures_doWithContext` — the calls for the collector, attempt by attempt;
* `measured_iff` — when every attempt is measured once, and counted in one class;
* `cancelled_unmeasured` — a request that is cancelled in flight.
-/
import BurstHttp.Cancellation
import BurstHttp.Metrics

namespace BurstHttp

namespace Call

/-- A call for the collector, or the top of an attempt between two of them. -/
def measures : Call → Bool
  | .recordRequest _ _ | .acquire _ | .recordResponse _ _ _ _ _ _ => true
  | _ => false

def isResponse : Call → Bool
  | .recordResponse _ _ _ _ _ _ => true
  | _ => false

/-- A response that is counted in a class. -/
def isClassed : Call → Bool
  | .recordResponse _ _ statusCode err _ _ => decide (Counters.Classed statusCode err)
  | _ => false

theorem measures_of_isResponse {call : Call} (h : call.isResponse = true) :
    call.measures = true := by
  cases call with
  | recordResponse => rfl
  | _ => cases h

theorem isResponse_of_isClassed {call : Call} (h : call.isClassed = true) :
    call.isResponse = true := by
  cases call with
  | recordResponse => rfl
  | _ => cases h

end Call

/-- From attempt `n` on, each attempt has one `RecordRequest`, and behind it one `RecordResponse`
with the same method and host. -/
inductive MeasuredFrom : ℕ → List Call → Prop
  | nil (n : ℕ) : MeasuredFrom n []
  | attempt {n : ℕ} {rest : List Call} (method host : Bytes) (statusCode : ℤ)
      (err : Option GoErr) (bytesWritten bytesRead : ℤ) (h : MeasuredFrom (n + 1) rest) :
      MeasuredFrom n (.recordRequest method host :: .acquire n ::
        .recordResponse method host statusCode err bytesWritten bytesRead :: rest)

namespace Counters

/-- What `BuiltinMetrics` counts of the calls that it gets; `RecordRequest` only reads the
clock. -/
def observe (m : Counters) : Call → Counters
  | .recordRetry => m.recordRetry
  | .recordResponse _ _ statusCode err bytesWritten bytesRead =>
    m.recordResponse statusCode err bytesWritten bytesRead
  | _ => m

theorem observe_counts (m : Counters) (call : Call) :
    (m.observe call).requestsTotal = m.requestsTotal + (if call.isResponse then 1 else 0) ∧
      (m.observe call).classes = m.classes + if call.isClassed then 1 else 0 := by
  cases call with
  | recordResponse method host statusCode err written read =>
    refine ⟨m.recordResponse_total statusCode err written read, ?_⟩
    rw [observe, recordResponse_classes, Call.isClassed]
    simp only [decide_eq_true_eq]
  | _ => exact ⟨rfl, rfl⟩

/-- The counters of a log. -/
theorem foldl_observe (m : Counters) (log : List Call) :
    (log.foldl observe m).requestsTotal = m.requestsTotal + log.countP Call.isResponse ∧
      (log.foldl observe m).classes = m.classes + log.countP Call.isClassed := by
  induction log generalizing m with
  | nil => exact ⟨rfl, rfl⟩
  | cons call log ih =>
    obtain ⟨htotal, hclasses⟩ := m.observe_counts call
    obtain ⟨ihtotal, ihclasses⟩ := ih (m.observe call)
    rw [List.foldl_cons, ihtotal, ihclasses, htotal, hclasses, List.countP_cons, List.countP_cons]
    exact ⟨by omega, by omega⟩

end Counters

namespace Dispatcher

/-! ### One attempt -/

section Attempt

variable (c : Dispatcher) (env : AttemptEnv) (host : Bytes) (req : ClientRequest) (n : ℕ)

/-- The `RecordResponse` of an attempt that settles. -/
def responseCall : Call :=
  match c.outcome env with
  | (none, err) => .recordResponse req.method host 0 err 0 0
  | (some resp, err) =>
    .recordResponse req.method host resp.statusCode err
      (if err.isNone then req.body.length else 0) resp.contentLength

/-- The calls of an attempt that measure it. -/
def measuredCalls : List Call :=
  .recordRequest req.method host :: .acquire n ::
    if c.transferred env then [] else [c.responseCall env host req]

theorem responseCall_eq : ∃ statusCode err written read,
    c.responseCall env host req
      = .recordResponse req.method host statusCode err written read := by
  unfold responseCall
  rcases c.outcome env with ⟨_ | resp, err⟩
  · exact ⟨_, _, _, _, rfl⟩
  · exact ⟨_, _, _, _, rfl⟩

/-- Without a response there is an error, and with both the status is positive. -/
theorem outcome_error :
    ((c.outcome env).1 = none → (c.outcome env).2.isSome = true) ∧
      ∀ resp, (c.outcome env).1 = some resp → (c.outcome env).2.isSome = true →
        0 < resp.statusCode := by
  unfold outcome
  split
  · cases env.answer with
    | ok resp => exact ⟨nofun, fun _ _ h => absurd h (by simp)⟩
    | fail err => exact ⟨fun _ => rfl, nofun⟩
    | both resp err =>
      dsimp only
      split
      · rename_i hpos
        refine ⟨nofun, fun resp' hresp _ => ?_⟩
        rwa [← Option.some.inj hresp]
      · exact ⟨fun _ => rfl, nofun⟩
  · exact ⟨fun _ => rfl, nofun⟩

/-- The response of an attempt is counted in a class, unless it has a status below 100. -/
theorem isClassed_responseCall :
    (c.responseCall env host req).isClassed = true ↔
      ∀ resp, (c.outcome env).1 = some resp → 100 ≤ resp.statusCode := by
  obtain ⟨hfailed, hboth⟩ := c.outcome_error env
  unfold responseCall
  rcases hout : c.outcome env with ⟨_ | resp, err⟩
  · rw [hout] at hfailed
    refine iff_of_true (decide_eq_true ?_) nofun
    exact .inl ⟨hfailed rfl, rfl⟩
  · rw [hout] at hboth
    have herr : ¬ (err.isSome = true ∧ resp.statusCode = 0) := by
      rintro ⟨hsome, hzero⟩
      have hpos := hboth resp rfl hsome
      omega
    simp only [Call.isClassed, Counters.Classed, herr, false_or, decide_eq_true_eq,
      Option.some.injEq, forall_eq']

variable {c}

theorem record_eq (hmetrics : c.metrics ≠ .absent) (call : Call) : c.record call = [call] :=
  if_neg hmetrics

theorem filter_settleCalls (hmetrics : c.metrics ≠ .absent) :
    (c.settleCalls env host n req).filter Call.measures
      = if c.transferred env then [] else [c.responseCall env host req] := by
  unfold settleCalls responseCall
  split
  · rfl
  · rcases c.outcome env with ⟨_ | resp, err⟩
    · simp only [record_eq hmetrics]
      rfl
    · simp only [record_eq hmetrics]
      cases c.retried env n with
      | true => rfl
      | false => rfl

theorem filter_attemptCalls (hmetrics : c.metrics ≠ .absent) (target : Pool.Target) :
    (c.attemptCalls env target n req).filter Call.measures
      = c.measuredCalls env target.host req n := by
  have hsend : (c.sendCalls env target n req.effectivePath).filter Call.measures = [] := by
    unfold sendCalls
    split_ifs <;> rfl
  rw [attemptCalls, measuredCalls, List.filter_append, List.filter_cons_of_pos rfl,
    List.filter_append, hsend, filter_settleCalls env target.host req n hmetrics,
    record_eq hmetrics]
  rfl

end Attempt

/-! ### The whole call -/

variable {c : Dispatcher} {env : CallEnv}

theorem filter_retryCalls (n : ℕ) : (c.retryCalls n).filter Call.measures = [] := by
  unfold retryCalls
  split <;> rfl

/-- A new look at the URL changes neither the method nor the body. -/
theorem refreshed_frame (req : ClientRequest) :
    (c.refreshed req).method = req.method ∧ (c.refreshed req).body = req.body := by
  unfold refreshed ClientRequest.resolveURL
  split
  · exact ⟨rfl, rfl⟩
  · dsimp only
    split
    · exact ⟨rfl, rfl⟩
    · split <;> exact ⟨rfl, rfl⟩

theorem measuredCalls_congr {req req' : ClientRequest} (hmethod : req'.method = req.method)
    (hbody : req'.body = req.body) (env : AttemptEnv) (host : Bytes) (n : ℕ) :
    c.measuredCalls env host req' n = c.measuredCalls env host req n := by
  unfold measuredCalls responseCall
  rw [hmethod, hbody]

/-- What measures the attempts of a call, in the order of the attempts. -/
theorem measures_doWithContext (hmetrics : c.metrics ≠ .absent) {req req' : ClientRequest}
    {target : Pool.Target} (h : c.prepare env req = (.ok target, req')) :
    (c.doWithContext env req).2.1.filter Call.measures
      = (acquired (c.doWithContext env req).2.1).flatMap fun n =>
          c.measuredCalls (env.attempts n) target.host req' n := by
  rw [(doWithContext_eq h).2]
  refine (loop_invariant (P := fun log r => r.method = req'.method ∧ r.body = req'.body ∧
    log.filter Call.measures = (acquired log).flatMap fun n =>
      c.measuredCalls (env.attempts n) target.host req' n) ?_ ?_ ?_ ⟨rfl, rfl, rfl⟩).2.2
  · rintro n log r ⟨hmethod, hbody, hlog⟩
    refine ⟨hmethod, hbody, ?_⟩
    rw [List.filter_append, filter_retryCalls, acquired_append, (c.retryCalls_objects n).1, hlog,
      List.append_nil, List.append_nil]
  · rintro log r ⟨hmethod, hbody, hlog⟩
    obtain ⟨hmethod', hbody'⟩ := refreshed_frame (c := c) r
    exact ⟨hmethod'.trans hmethod, hbody'.trans hbody, hlog⟩
  · rintro n log r ⟨hmethod, hbody, hlog⟩
    refine ⟨hmethod, hbody, ?_⟩
    rw [List.filter_append, filter_attemptCalls _ _ _ hmetrics, acquired_append,
      (c.attemptCalls_objects _ _ _ _).1, List.flatMap_append, List.flatMap_singleton, hlog,
      measuredCalls_congr hmethod hbody]

/-- A response among the calls of an attempt is the one of an attempt that settles. -/
theorem mem_measuredCalls {env : AttemptEnv} {host : Bytes} {req : ClientRequest} {n : ℕ}
    {call : Call} (hcall : call.isResponse = true) :
    call ∈ c.measuredCalls env host req n ↔
      c.transferred env = false ∧ call = c.responseCall env host req := by
  have hrequest : call ≠ .recordRequest req.method host := by
    rintro rfl
    cases hcall
  have hacquire : call ≠ .acquire n := by
    rintro rfl
    cases hcall
  cases htrans : c.transferred env with
  | true => simp [measuredCalls, htrans, hrequest, hacquire]
  | false => simp [measuredCalls, htrans, hrequest, hacquire]

/-- A sequence of attempts is measured if none of them is transferred. -/
theorem measuredFrom_iff (host : Bytes) (req : ClientRequest) (n k : ℕ) :
    MeasuredFrom n ((List.range' n k).flatMap fun m =>
        c.measuredCalls (env.attempts m) host req m) ↔
      ∀ m, n ≤ m → m < n + k → c.transferred (env.attempts m) = false := by
  induction k generalizing n with
  | zero => exact iff_of_true (.nil n) fun m hle hlt => by omega
  | succ k ih =>
    rw [List.range'_succ, List.flatMap_cons]
    cases htrans : c.transferred (env.attempts n) with
    | true =>
      -- behind the top of the attempt stands the top of the next one, or nothing
      refine iff_of_false ?_ fun h => absurd (h n le_rfl (by omega)) (by simp [htrans])
      rw [measuredCalls, htrans]
      intro h
      cases k with
      | zero => cases h
      | succ k => cases h
    | false =>
      have hcalls : c.measuredCalls (env.attempts n) host req n
          = [.recordRequest req.method host, .acquire n,
              c.responseCall (env.attempts n) host req] := by
        rw [measuredCalls, htrans]
        rfl
      obtain ⟨statusCode, err, written, read, hcall⟩ :=
        c.responseCall_eq (env.attempts n) host req
      have hfirst (rest : List Call) :
          MeasuredFrom n (c.measuredCalls (env.attempts n) host req n ++ rest) ↔
            MeasuredFrom (n + 1) rest := by
        rw [hcalls, hcall]
        constructor
        · intro h
          cases h with
          | attempt _ _ _ _ _ _ h => exact h
        · exact .attempt _ _ _ _ _ _
      rw [hfirst, ih]
      constructor
      · intro h m hle hlt
        rcases Nat.eq_or_lt_of_le hle with rfl | hlt'
        · exact htrans
        · exact h m hlt' (by omega)
      · exact fun h m hle hlt => h m (by omega) (by omega)

/-- The attempts of a call are measured once each: `RecordRequest` and `RecordResponse` come in
pairs, and `BuiltinMetrics` counts as many requests, and as many errors and statuses, as there are
attempts. -/
def MeasuredOnce (c : Dispatcher) (log : List Call) : Prop :=
  MeasuredFrom 0 (log.filter Call.measures) ∧
    (c.metrics = .builtin → ∀ m : Counters,
      (log.foldl Counters.observe m).requestsTotal = m.requestsTotal + (acquired log).length ∧
        (log.foldl Counters.observe m).classes = m.classes + (acquired log).length)

theorem countP_isResponse_of_measuredFrom {n : ℕ} {log : List Call} (h : MeasuredFrom n log) :
    log.countP Call.isResponse = (acquired log).length := by
  induction h with
  | nil n => rfl
  | attempt method host statusCode err written read h ih =>
    rw [List.countP_cons_of_neg Bool.false_ne_true, List.countP_cons_of_neg Bool.false_ne_true,
      List.countP_cons_of_pos rfl, ih]
    rfl

/-- The calls that are left out are neither responses nor tops of attempts. -/
theorem filter_measures_counts (log : List Call) :
    (log.filter Call.measures).countP Call.isResponse = log.countP Call.isResponse ∧
      acquired (log.filter Call.measures) = acquired log := by
  induction log with
  | nil => exact ⟨rfl, rfl⟩
  | cons call log ih =>
    obtain ⟨hresponses, hacquired⟩ := ih
    cases call with
    | recordRequest method host => exact ⟨hresponses, hacquired⟩
    | acquire n => exact ⟨hresponses, congrArg (n :: ·) hacquired⟩
    | recordResponse method host statusCode err written read =>
      refine ⟨?_, hacquired⟩
      rw [List.filter_cons_of_pos rfl, List.countP_cons_of_pos rfl, List.countP_cons_of_pos rfl,
        hresponses]
    | _ => exact ⟨hresponses, hacquired⟩

/-- All responses of a log are counted in a class. -/
theorem countP_isClassed_iff (log : List Call) :
    log.countP Call.isClassed = log.countP Call.isResponse ↔
      ∀ call ∈ log, call.isResponse = true → call.isClassed = true := by
  have hclassed : log.countP Call.isClassed = (log.filter Call.isResponse).countP Call.isClassed := by
    rw [List.countP_filter]
    refine List.countP_congr fun call _ => ?_
    rw [Bool.and_eq_true]
    exact ⟨fun h => ⟨h, Call.isResponse_of_isClassed h⟩, And.left⟩
  rw [hclassed, List.countP_eq_length_filter (p := Call.isResponse), List.countP_eq_length]
  simp only [List.mem_filter, and_imp]

theorem measuredOnce_iff (log : List Call) :
    c.MeasuredOnce log ↔ MeasuredFrom 0 (log.filter Call.measures) ∧
      (c.metrics = .builtin → ∀ call ∈ log, call.isResponse = true → call.isClassed = true) := by
  refine and_congr_right fun hmeasured => imp_congr_right fun _ => ?_
  obtain ⟨hcount, hacquired⟩ := filter_measures_counts log
  have hresponses : log.countP Call.isResponse = (acquired log).length := by
    rw [← hcount, ← hacquired]
    exact countP_isResponse_of_measuredFrom hmeasured
  rw [← countP_isClassed_iff, hresponses]
  constructor
  · intro h
    have hzero := (h .zero).2
    rw [(Counters.foldl_observe _ _).2] at hzero
    omega
  · intro h m
    obtain ⟨htotal, hclasses⟩ := m.foldl_observe log
    exact ⟨by omega, by omega⟩

/-- Every attempt of a call with a collector is measured once, exactly if no attempt that is made
has its response object transferred to the reader of a connection, and, with `BuiltinMetrics`,
none has a response with a status below 100. -/
theorem measured_iff (hmetrics : c.metrics ≠ .absent) (req : ClientRequest) :
    c.MeasuredOnce (c.doWithContext env req).2.1 ↔
      ((c.prepare env req).1.isOk = true →
        ∀ n, c.Begins env n → (c.waitErr env n).isSome = false →
          c.transferred (env.attempts n) = false ∧
            (c.metrics = .builtin →
              ∀ resp, (c.outcome (env.attempts n)).1 = some resp → 100 ≤ resp.statusCode)) := by
  rcases hprepare : c.prepare env req with ⟨err | target, req'⟩
  · -- no attempt is made
    have hlog : (c.doWithContext env req).2.1 = [] := by
      rw [doWithContext, hprepare]
    rw [hlog]
    exact iff_of_true ⟨.nil 0, fun _ m => ⟨rfl, rfl⟩⟩ nofun
  obtain ⟨count, hacquired, hcount⟩ := acquired_eq_range hprepare
  have hmeasures := measures_doWithContext hmetrics hprepare
  rw [hacquired, List.range_eq_range'] at hmeasures
  rw [measuredOnce_iff, hmeasures, measuredFrom_iff]
  constructor
  · rintro ⟨htrans, hclassed⟩ - n hbegins hwait
    have hn : n < count := (hcount n).mpr ⟨hbegins, hwait⟩
    have hsettled := htrans n (Nat.zero_le n) (by omega)
    refine ⟨hsettled, fun hbuiltin => ?_⟩
    have hresponse : (c.responseCall (env.attempts n) target.host req').isResponse = true := by
      obtain ⟨statusCode, err, written, read, hcall⟩ :=
        c.responseCall_eq (env.attempts n) target.host req'
      rw [hcall]
      rfl
    rw [← c.isClassed_responseCall (env.attempts n) target.host req']
    refine hclassed hbuiltin _ (List.mem_of_mem_filter (p := Call.measures) ?_) hresponse
    rw [hmeasures, List.mem_flatMap]
    exact ⟨n, by simpa [List.mem_range'] using hn, (mem_measuredCalls hresponse).mpr ⟨hsettled, rfl⟩⟩
  · intro h
    have hmade (n : ℕ) (hn : n < count) := h rfl n ((hcount n).mp hn).1 ((hcount n).mp hn).2
    refine ⟨fun n _ hn => (hmade n (by omega)).1, fun hbuiltin call hcall hresponse => ?_⟩
    have hmem : call ∈ (c.doWithContext env req).2.1.filter Call.measures :=
      List.mem_filter.mpr ⟨hcall, Call.measures_of_isResponse hresponse⟩
    rw [hmeasures, List.mem_flatMap] at hmem
    obtain ⟨n, hn, hmem⟩ := hmem
    rw [((mem_measuredCalls hresponse).mp hmem).2, isClassed_responseCall]
    exact (hmade n (by simpa [List.mem_range'] using hn)).2 hbuiltin

end Dispatcher

/-- A client with `BuiltinMetrics` and up to three retries. -/
def countedClient : Dispatcher := { plainClient 3 (by decide) with metrics := .builtin }

/-- Two connections that are reset and an answer are three measured attempts. -/
theorem measured_resetTwice :
    countedClient.MeasuredOnce (countedClient.doWithContext resetTwice plainRequest).2.1 := by
  refine (Dispatcher.measured_iff (by decide) plainRequest).mpr fun _ n _ _ => ?_
  by_cases hn : n < 2
  · have hanswer : (resetTwice.attempts n).answer
        = .fail (wrapError .network "connection closed by server" .eof) := if_pos hn
    refine ⟨?_, fun _ resp hresp => ?_⟩
    · simp [Dispatcher.transferred, hanswer, wrapError]
    · have hsent : countedClient.sent (resetTwice.attempts n) = true := rfl
      simp [Dispatcher.outcome, hsent, hanswer] at hresp
  · have hanswer : (resetTwice.attempts n).answer
        = .ok { blankResponse with statusCode := 200 } := if_neg hn
    refine ⟨?_, fun _ resp hresp => ?_⟩
    · simp [Dispatcher.transferred, hanswer]
    · have hsent : countedClient.sent (resetTwice.attempts n) = true := rfl
      simp only [Dispatcher.outcome, hsent, hanswer, if_true, Option.some.injEq] at hresp
      rw [← hresp]
      decide

/-- A request that is cancelled while it waits for its answer on a pipelined connection. -/
theorem cancelled_unmeasured :
    (countedClient.doWithContext (cancelledScript (.fail .respTransferred)).toCallEnv
        plainRequest).2.1.filter Call.measures
      = [.recordRequest (ascii "GET") (ascii "example.com"), .acquire 0] ∧
    ¬ countedClient.MeasuredOnce
      (countedClient.doWithContext (cancelledScript (.fail .respTransferred)).toCallEnv
        plainRequest).2.1 := by
  have hlog : (countedClient.doWithContext (cancelledScript (.fail .respTransferred)).toCallEnv
        plainRequest).2.1.filter Call.measures
      = [.recordRequest (ascii "GET") (ascii "example.com"), .acquire 0] := by decide +kernel
  refine ⟨hlog, fun h => ?_⟩
  have hmeasured := h.1
  rw [hlog] at hmeasured
  cases hmeasured

end BurstHttp
