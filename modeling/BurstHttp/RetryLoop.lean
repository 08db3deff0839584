/-
The attempts of a request, and who has the response objects in the end (client.go,
`DoWithContext`).

* `Dispatcher.outcome`, `Dispatcher.retried`, `Dispatcher.result`, `Dispatcher.kept` — what
  an attempt comes to, read off its environment, and `attempt_settled` — the code does
  that;
* `goesOn` — there is a next attempt; `loop_ended` — the loop ends with the first attempt
  for which there is none;
* `retries_owned_iff` — the number of attempts, the result, and the response objects;
* `retries_none` — the largest `MaxRetries`, with which there is no attempt.
-/
import BurstHttp.Dispatch
import BurstHttp.RequestHead

namespace BurstHttp

/-- A call of the pool, of a connection or of the scheduler. -/
def Call.sends : Call → Bool
  | .getConnection _ _ | .connDo _ _ | .schedule _ _ => true
  | _ => false

namespace Dispatcher

/-! ### One attempt -/

section Attempt

variable (c : Dispatcher) (env : AttemptEnv)

/-- The request was sent. -/
def sent : Bool := c.scheduler || env.conn

/-- The response and the error that an attempt comes to, as `ShouldRetry` is asked about
them. -/
def outcome : Option Response × Option GoErr :=
  if c.sent env then
    match env.answer with
    | .ok resp => (some resp, none)
    | .fail err => (none, some err)
    | .both resp err => if 0 < resp.statusCode then (some resp, some err) else (none, some err)
  else (none, some noConnection)

/-- The response object has gone to the reader of a connection. -/
def transferred : Bool :=
  c.sent env &&
    match env.answer with
    | .ok _ => false
    | .fail err | .both _ err => err == .respTransferred

/-- There is a next attempt, if its wait is not cancelled. -/
def retried (n : ℕ) : Bool :=
  !c.transferred env && c.shouldRetry n (c.outcome env).1 (c.outcome env).2

/-- The result of an attempt. -/
def result (n : ℕ) : Returned :=
  if c.transferred env then (none, some (wrapError .timeout "request cancelled" env.ctxErr))
  else ((c.outcome env).1.map (n, ·), (c.outcome env).2)

/-- The response object of the attempt is not released: it is returned or transferred. -/
def kept (n : ℕ) : Bool :=
  c.transferred env || (c.outcome env).1.isSome && !c.retried env n

/-- What an attempt leaves for the delay before the next one. -/
def lastOf : LastRetry :=
  ⟨(c.outcome env).1.elim 0 Response.statusCode,
    (c.outcome env).1.elim [] fun resp => resp.header (ascii "Retry-After"), (c.outcome env).2⟩

/-- The calls that send the request of an attempt. -/
def sendCalls (target : Pool.Target) (n : ℕ) (path : Bytes) : List Call :=
  if c.scheduler then [.schedule n ⟨target, path⟩]
  else .getConnection n target :: if env.conn then [.connDo n path] else []

/-- The calls behind them. -/
def settleCalls (host : Bytes) (n : ℕ) (req : ClientRequest) : List Call :=
  if c.transferred env then []
  else
    match c.outcome env with
    | (none, err) => .release n :: c.record (.recordResponse req.method host 0 err 0 0)
    | (some resp, err) =>
      c.record (.recordResponse req.method host resp.statusCode err
        (if err.isNone then req.body.length else 0) resp.contentLength)
        ++ if c.retried env n then [.release n] else []

/-- All calls of an attempt. -/
def attemptCalls (target : Pool.Target) (n : ℕ) (req : ClientRequest) : List Call :=
  c.record (.recordRequest req.method target.host) ++ .acquire n ::
    (c.sendCalls env target n req.effectivePath ++ c.settleCalls env target.host n req)

variable {c env}

variable (c env) in
/-- The function has made these calls, and has gone on or returned as the environment of the
attempt says. -/
structure Settled (n : ℕ) (s : LoopState) (calls : List Call) (x : Option Returned × LoopState) :
    Prop where
  ret : x.1 = if c.retried env n then none else some (c.result env n)
  log : x.2.log = s.log ++ calls
  req : x.2.req = s.req
  last : s.last = .none → c.retried env n = true → x.2.last = c.lastOf env

/-- Once the response object is transferred nothing more is called. -/
theorem transferred_settled (htrans : c.transferred env = true) (host : Bytes) (n : ℕ)
    (s : LoopState) :
    c.Settled env n s (c.settleCalls env host n s.req)
      (some (none, some (wrapError .timeout "request cancelled" env.ctxErr)), s) := by
  have hretried : c.retried env n = false := by rw [retried, htrans]; rfl
  refine ⟨?_, ?_, rfl, fun _ h => absurd (hretried.symm.trans h) (by simp)⟩
  · simp [hretried, result, htrans]
  · simp [settleCalls, htrans]

/-- An attempt without a response. -/
theorem failed_settled {err : GoErr} (hout : c.outcome env = (none, some err))
    (htrans : c.transferred env = false) (host : Bytes) (n : ℕ) (s : LoopState) :
    c.Settled env n s (c.settleCalls env host n s.req) (c.failed host n err s) := by
  have hretried : c.retried env n = c.shouldRetry n none (some err) := by
    rw [retried, hout, htrans]
    rfl
  unfold failed
  dsimp only
  rw [← hretried]
  cases hretry : c.retried env n with
  | false =>
    refine ⟨?_, ?_, rfl, fun _ h => absurd (hretry.symm.trans h) (by simp)⟩
    · simp [hretry, result, hout, htrans]
    · simp [settleCalls, hout, htrans]
  | true =>
    refine ⟨?_, ?_, rfl, fun hlast _ => ?_⟩
    · simp [hretry]
    · simp [settleCalls, hout, htrans]
    · simp [lastOf, hout, hlast, LastRetry.none]

/-- An attempt with a response: it is released and the loop goes on in `s₁`, or it is
returned in `s₂`. -/
theorem answered_settled {resp : Response} {err : Option GoErr}
    (hout : c.outcome env = (some resp, err)) (htrans : c.transferred env = false) {host : Bytes}
    {n : ℕ} {s s₁ s₂ : LoopState} {written : ℤ}
    (hwritten : written = if err.isNone then (s.req.body.length : ℤ) else 0)
    (h₂ : s₂ = s.call (c.record
      (.recordResponse s.req.method host resp.statusCode err written resp.contentLength)))
    (hlog : s₁.log = s₂.log ++ [.release n]) (hreq : s₁.req = s.req)
    (hlast : s.last = .none → s₁.last = c.lastOf env) :
    c.Settled env n s (c.settleCalls env host n s.req)
      (if c.shouldRetry n (some resp) err then (none, s₁) else (some (some (n, resp), err), s₂)) := by
  have hretried : c.retried env n = c.shouldRetry n (some resp) err := by
    rw [retried, hout, htrans]
    rfl
  rw [← hretried]
  cases hretry : c.retried env n with
  | false =>
    refine ⟨?_, ?_, ?_, fun _ h => absurd (hretry.symm.trans h) (by simp)⟩
    · simp [hretry, result, hout, htrans]
    · simp [settleCalls, hout, htrans, hretry, h₂, hwritten]
    · simp [h₂]
  | true =>
    refine ⟨?_, ?_, hreq, fun h _ => hlast h⟩
    · simp [hretry]
    · simp [settleCalls, hout, htrans, hretry, hlog, h₂, hwritten]

/-- What follows the answer. -/
theorem settle_settled (hsent : c.sent env = true) (host : Bytes) (n : ℕ) (s : LoopState) :
    c.Settled env n s (c.settleCalls env host n s.req) (c.settle env host n s) := by
  unfold settle
  cases hanswer : env.answer with
  | ok resp =>
    have hout : c.outcome env = (some resp, none) := by simp [outcome, hsent, hanswer]
    have htrans : c.transferred env = false := by simp [transferred, hanswer]
    refine answered_settled hout htrans (by rfl) rfl rfl rfl fun hlast => ?_
    simp [lastOf, hout, hlast, LastRetry.none]
  | fail err =>
    have hout : c.outcome env = (none, some err) := by simp [outcome, hsent, hanswer]
    have htrans : c.transferred env = (err == .respTransferred) := by
      simp [transferred, hsent, hanswer]
    dsimp only
    split
    · exact transferred_settled (by simpa [htrans] using by assumption) host n s
    · exact failed_settled hout (by simpa [htrans] using by assumption) host n s
  | both resp err =>
    have htrans : c.transferred env = (err == .respTransferred) := by
      simp [transferred, hsent, hanswer]
    dsimp only
    split
    · exact transferred_settled (by simpa [htrans] using by assumption) host n s
    rename_i hother
    have hfalse : c.transferred env = false := by simpa [htrans] using hother
    split
    · rename_i hstatus
      have hout : c.outcome env = (some resp, some err) := by
        simp [outcome, hsent, hanswer, hstatus]
      refine answered_settled hout hfalse (by rfl) rfl rfl rfl fun _ => ?_
      simp [lastOf, hout]
    · rename_i hstatus
      have hout : c.outcome env = (none, some err) := by simp [outcome, hsent, hanswer, hstatus]
      exact failed_settled hout hfalse host n s

theorem Settled.prepend {n : ℕ} {s : LoopState} {before calls : List Call}
    {x : Option Returned × LoopState} (h : c.Settled env n (s.call before) calls x) :
    c.Settled env n s (before ++ calls) x :=
  ⟨h.ret, h.log.trans (by simp), h.req, h.last⟩

/-- What one attempt does. -/
theorem attempt_settled (target : Pool.Target) (n : ℕ) (s : LoopState) :
    c.Settled env n s (c.attemptCalls env target n s.req) (c.attempt env target n s) := by
  have hcalls : c.attemptCalls env target n s.req
      = (c.record (.recordRequest s.req.method target.host) ++ [.acquire n])
        ++ (c.sendCalls env target n s.req.effectivePath
          ++ c.settleCalls env target.host n s.req) := by simp [attemptCalls]
  rw [hcalls]
  refine Settled.prepend (s := s) ?_
  unfold attempt sendCalls
  dsimp only
  split
  · rename_i hsched
    exact (settle_settled (by simp [sent, hsched]) target.host n _).prepend
  split
  · rename_i hconn
    exact (settle_settled (by simp [sent, hconn]) target.host n _).prepend
  · rename_i hsched hconn
    have hsent : c.sent env = false := by simp [sent, hsched, hconn]
    exact (failed_settled (by simp [outcome, hsent]) (by simp [transferred, hsent]) target.host n
      _).prepend

end Attempt

/-! ### Which calls send something -/

section Sends

variable {c : Dispatcher} {env : AttemptEnv} {call : Call}

theorem eq_of_mem_record {x : Call} (h : call ∈ c.record x) : call = x := by
  unfold record at h
  split at h
  · cases h
  · exact List.mem_singleton.mp h

theorem sends_of_mem_settleCalls {host : Bytes} {n : ℕ} {req : ClientRequest}
    (h : call ∈ c.settleCalls env host n req) : call.sends = false := by
  unfold settleCalls at h
  split at h
  · cases h
  split at h
  · rcases List.mem_cons.mp h with rfl | h
    · rfl
    · rw [eq_of_mem_record h]
      rfl
  · rcases List.mem_append.mp h with h | h
    · rw [eq_of_mem_record h]
      rfl
    · split at h
      · obtain rfl := List.mem_singleton.mp h
        rfl
      · cases h

/-- Of the calls of an attempt, those that send something are `sendCalls`. -/
theorem mem_attemptCalls {target : Pool.Target} {n : ℕ} {req : ClientRequest}
    (hsends : call.sends = true) :
    call ∈ c.attemptCalls env target n req ↔
      call ∈ c.sendCalls env target n req.effectivePath := by
  unfold attemptCalls
  constructor
  · intro h
    rcases List.mem_append.mp h with h | h
    · rw [eq_of_mem_record h] at hsends
      cases hsends
    rcases List.mem_cons.mp h with rfl | h
    · cases hsends
    rcases List.mem_append.mp h with h | h
    · exact h
    · rw [sends_of_mem_settleCalls h] at hsends
      cases hsends
  · intro h
    exact List.mem_append_right _ (List.mem_cons_of_mem _ (List.mem_append_left _ h))

end Sends

/-! ### What the calls of an attempt do with its response object -/

/-- The attempts that have taken a response object. -/
def acquired (log : List Call) : List ℕ :=
  log.filterMap fun
    | .acquire n => some n
    | _ => none

/-- How often a response object has been released. -/
def releases (i : ℕ) (log : List Call) : ℕ := log.count (.release i)

@[simp] theorem acquired_append (l l' : List Call) : acquired (l ++ l') = acquired l ++ acquired l' :=
  List.filterMap_append

@[simp] theorem releases_append (i : ℕ) (l l' : List Call) :
    releases i (l ++ l') = releases i l + releases i l' := List.count_append

@[simp] theorem releases_nil (i : ℕ) : releases i [] = 0 := rfl

theorem releases_cons (i : ℕ) (call : Call) (l : List Call) :
    releases i (call :: l) = releases i l + if call = .release i then 1 else 0 := by
  simp only [releases, List.count_cons, beq_iff_eq]

theorem releases_release (i n : ℕ) (l : List Call) :
    releases i (.release n :: l) = releases i l + if i = n then 1 else 0 := by
  rw [releases_cons]
  congr 1
  exact if_congr ⟨fun h => (Call.release.inj h).symm, fun h => congrArg _ h.symm⟩ rfl rfl

section Objects

variable (c : Dispatcher) (env : AttemptEnv)

theorem record_objects (call : Call) (hacq : acquired [call] = []) (hrel : ∀ i, call ≠ .release i) :
    acquired (c.record call) = [] ∧ ∀ i, releases i (c.record call) = 0 := by
  unfold record
  split
  · exact ⟨rfl, fun i => rfl⟩
  · refine ⟨hacq, fun i => ?_⟩
    rw [releases_cons, if_neg (hrel i), releases_nil]

theorem sendCalls_objects (target : Pool.Target) (n : ℕ) (path : Bytes) :
    acquired (c.sendCalls env target n path) = [] ∧
      ∀ i, releases i (c.sendCalls env target n path) = 0 := by
  unfold sendCalls
  split_ifs
  · exact ⟨rfl, fun i => by simp [releases_cons]⟩
  · exact ⟨rfl, fun i => by simp [releases_cons]⟩
  · exact ⟨rfl, fun i => by simp [releases_cons]⟩

theorem settleCalls_objects (host : Bytes) (n : ℕ) (req : ClientRequest) :
    acquired (c.settleCalls env host n req) = [] ∧
      ∀ i, releases i (c.settleCalls env host n req)
        = if i = n ∧ c.kept env n = false then 1 else 0 := by
  have hrecord (status : ℤ) (err : Option GoErr) (written read : ℤ) :=
    c.record_objects (.recordResponse req.method host status err written read) rfl fun i => by simp
  unfold settleCalls kept
  cases htrans : c.transferred env with
  | true => simp [acquired]
  | false =>
    rcases c.outcome env with ⟨_ | resp, err⟩
    · refine ⟨(hrecord 0 err 0 0).1, fun i => ?_⟩
      simp [releases_release, (hrecord _ _ _ _).2]
    · dsimp only
      cases c.retried env n with
      | true =>
        refine ⟨?_, fun i => ?_⟩
        · rw [if_neg (by simp), acquired_append, (hrecord _ _ _ _).1]
          rfl
        · simp [releases_release, (hrecord _ _ _ _).2]
      | false => simp [(hrecord _ _ _ _).1, (hrecord _ _ _ _).2]

/-- An attempt takes its own object, and releases it unless it is kept. -/
theorem attemptCalls_objects (target : Pool.Target) (n : ℕ) (req : ClientRequest) :
    acquired (c.attemptCalls env target n req) = [n] ∧
      ∀ i, releases i (c.attemptCalls env target n req)
        = if i = n ∧ c.kept env n = false then 1 else 0 := by
  have hreq := c.record_objects (.recordRequest req.method target.host) rfl fun i => by simp
  have hsend := c.sendCalls_objects env target n req.effectivePath
  have hsettle := c.settleCalls_objects env target.host n req
  unfold attemptCalls
  refine ⟨?_, fun i => ?_⟩
  · have hcons (l : List Call) : acquired (.acquire n :: l) = n :: acquired l := rfl
    rw [acquired_append, hreq.1, hcons, acquired_append, hsend.1, hsettle.1]
    rfl
  · rw [releases_append, hreq.2, releases_cons, releases_append, hsend.2, hsettle.2]
    simp

end Objects

/-! ### The loop -/

section Loop

variable (c : Dispatcher) (env : CallEnv)

/-- What the attempt before `n` leaves for the delay. -/
def lastBefore : ℕ → LastRetry
  | 0 => .none
  | n + 1 => c.lastOf (env.attempts n)

/-- The error of the wait before attempt `n`, if it is cancelled. -/
def waitErr (n : ℕ) : Option GoErr :=
  if n = 0 then none
  else waitAdaptive (c.delay (env.attempts n) n (c.lastBefore env n)) (env.attempts n).select

/-- There is an attempt behind attempt `n`: its wait was not cancelled, its response was not
transferred, and `ShouldRetry` says so. -/
def goesOn (n : ℕ) : Bool := (c.waitErr env n).isNone && c.retried (env.attempts n) n

/-- The result of the loop, if `n` is the last attempt. -/
def endResult (n : ℕ) : Returned :=
  match c.waitErr env n with
  | some err => (none, some (wrapError .timeout "retry wait cancelled" err))
  | none => c.result (env.attempts n) n

/-- How many response objects are taken then. -/
def endCount (n : ℕ) : ℕ := if (c.waitErr env n).isSome then n else n + 1

/-- At the top of attempt `n` all objects taken so far have been released. -/
structure Top (n : ℕ) (s : LoopState) : Prop where
  acquired : acquired s.log = List.range n
  releases : ∀ i, releases i s.log = if i < n then 1 else 0
  last : s.last = c.lastBefore env n

/-- The loop has ended with attempt `n`. -/
structure Ended (n : ℕ) (ret : Returned) (log : List Call) : Prop where
  result : ret = c.endResult env n
  acquired : acquired log = List.range (c.endCount env n)
  releases : ∀ i, releases i log
    = if i < c.endCount env n ∧ ¬ (i = n ∧ c.kept (env.attempts n) n = true) then 1 else 0

variable {c env}

variable (c) in
/-- The calls before the wait. -/
def retryCalls (n : ℕ) : List Call := if n ≠ 0 ∧ c.metrics = .builtin then [.recordRetry] else []

variable (c) in
/-- The request behind the wait of an attempt that is not the first. -/
def refreshed (req : ClientRequest) : ClientRequest :=
  if req.url = [] then { req with urlParsed := false }
  else ({ req with urlParsed := false }.resolveURL c.parse).2

/-- What it changes. -/
theorem beforeRetry_frame (c : Dispatcher) (env : AttemptEnv) (n : ℕ) (s : LoopState) :
    (c.beforeRetry env n s).2.log = s.log ++ c.retryCalls n ∧
      ((c.beforeRetry env n s).2.req = s.req ∨ (c.beforeRetry env n s).2.req = c.refreshed s.req) := by
  unfold beforeRetry retryCalls
  by_cases hn : n = 0
  · subst hn
    exact ⟨by simp, .inl rfl⟩
  · simp only [if_neg hn]
    split
    · exact ⟨by simp [hn], .inl rfl⟩
    · exact ⟨by simp [hn], .inr rfl⟩

/-- The wait before an attempt: whether it is cancelled. -/
theorem beforeRetry_eq {n : ℕ} {s : LoopState} (hs : s.last = c.lastBefore env n) :
    (c.beforeRetry (env.attempts n) n s).1
        = (c.waitErr env n).map (wrapError .timeout "retry wait cancelled") ∧
      (c.waitErr env n = none → (c.beforeRetry (env.attempts n) n s).2.last = .none) := by
  unfold beforeRetry waitErr
  by_cases hn : n = 0
  · subst hn
    exact ⟨rfl, fun _ => hs⟩
  · simp only [if_neg hn, LoopState.call_last, hs]
    cases hwait : waitAdaptive (c.delay (env.attempts n) n (c.lastBefore env n))
        (env.attempts n).select with
    | some err => exact ⟨rfl, fun h => absurd h (by simp)⟩
    | none => exact ⟨rfl, fun _ => rfl⟩

/-- What is kept by the calls before a wait, by the calls of an attempt and by a new look at the
URL holds at the end of the loop. -/
theorem loop_invariant {target : Pool.Target} {P : List Call → ClientRequest → Prop}
    (hretry : ∀ n log req, P log req → P (log ++ c.retryCalls n) req)
    (hrefresh : ∀ log req, P log req → P log (c.refreshed req))
    (hattempt : ∀ n log req, P log req →
      P (log ++ c.attemptCalls (env.attempts n) target n req) req)
    {k n : ℕ} {s : LoopState} (hs : P s.log s.req) :
    P (c.loop env target k n s).2.log (c.loop env target k n s).2.req := by
  induction k generalizing n s with
  | zero => exact hs
  | succ k ih =>
    obtain ⟨hlog, hreq⟩ := c.beforeRetry_frame (env.attempts n) n s
    rw [loop]
    rcases hbefore : c.beforeRetry (env.attempts n) n s with ⟨err, s₁⟩
    rw [hbefore] at hlog hreq
    have hs₁ : P s₁.log s₁.req := by
      rw [show s₁.log = _ from hlog]
      rcases hreq with hreq | hreq
      · rw [show s₁.req = _ from hreq]
        exact hretry n _ _ hs
      · rw [show s₁.req = _ from hreq]
        exact hrefresh _ _ (hretry n _ _ hs)
    cases err with
    | some err => exact hs₁
    | none =>
      obtain ⟨-, hlog₂, hreq₂, -⟩ :
          c.Settled (env.attempts n) n s₁ _ (c.attempt (env.attempts n) target n s₁) :=
        attempt_settled target n s₁
      dsimp only
      rcases hx : c.attempt (env.attempts n) target n s₁ with ⟨ret, s₂⟩
      rw [hx] at hlog₂ hreq₂
      have hs₂ : P s₂.log s₂.req := by
        rw [show s₂.log = _ from hlog₂, show s₂.req = _ from hreq₂]
        exact hattempt n _ _ hs₁
      cases ret with
      | some ret => exact hs₂
      | none => exact ih hs₂

theorem eq_of_mem_retryCalls {n : ℕ} {call : Call} (h : call ∈ c.retryCalls n) :
    call = .recordRetry := by
  unfold retryCalls at h
  split at h
  · exact List.mem_singleton.mp h
  · cases h

theorem retryCalls_objects (n : ℕ) :
    acquired (c.retryCalls n) = [] ∧ ∀ i, releases i (c.retryCalls n) = 0 := by
  unfold retryCalls
  split
  · exact ⟨rfl, fun i => by simp [releases_cons]⟩
  · exact ⟨rfl, fun i => rfl⟩

/-- The object of an attempt that has a next one is released. -/
theorem kept_of_retried {env : AttemptEnv} {n : ℕ} (h : c.retried env n = true) :
    c.kept env n = false := by
  have htrans : c.transferred env = false := by
    rw [retried, Bool.and_eq_true, Bool.not_eq_true'] at h
    exact h.1
  rw [kept, htrans, h]
  simp

/-- One attempt from its top, if its wait is not cancelled: the top of the next one, or the
end. -/
theorem top_attempt (target : Pool.Target) {n : ℕ} {s : LoopState}
    (hacq : acquired s.log = List.range n)
    (hrel : ∀ i, releases i s.log = if i < n then 1 else 0) (hlast : s.last = .none)
    (hwait : c.waitErr env n = none) :
    if c.goesOn env n then
      ∃ s', c.attempt (env.attempts n) target n s = (none, s') ∧ c.Top env (n + 1) s'
    else
      ∃ ret s', c.attempt (env.attempts n) target n s = (some ret, s') ∧ c.Ended env n ret s'.log := by
  obtain ⟨hret, hlog, -, hnext⟩ :
      c.Settled (env.attempts n) n s _ (c.attempt (env.attempts n) target n s) :=
    attempt_settled target n s
  obtain ⟨hacq', hrel'⟩ := c.attemptCalls_objects (env.attempts n) target n s.req
  have hgoes : c.goesOn env n = c.retried (env.attempts n) n := by simp [goesOn, hwait]
  have hcount : c.endCount env n = n + 1 := by simp [endCount, hwait]
  rw [hgoes]
  rcases hx : c.attempt (env.attempts n) target n s with ⟨ret, s'⟩
  rw [hx] at hret hlog hnext
  dsimp only at hret hlog hnext
  have hacquired : acquired s'.log = List.range (n + 1) := by
    rw [hlog, acquired_append, hacq, hacq', List.range_succ]
  cases hretried : c.retried (env.attempts n) n with
  | true =>
    rw [hretried, if_pos rfl] at hret
    subst hret
    rw [if_pos rfl]
    refine ⟨s', rfl, hacquired, fun i => ?_, hnext hlast hretried⟩
    rw [hlog, releases_append, hrel, hrel', kept_of_retried hretried]
    simp only [and_true]
    split_ifs <;> omega
  | false =>
    rw [hretried] at hret
    rw [if_neg (by simp)] at hret ⊢
    subst hret
    refine ⟨_, s', rfl, ?_, ?_, fun i => ?_⟩
    · rw [endResult, hwait]
    · rw [hacquired, hcount]
    · rw [hlog, releases_append, hrel, hrel', hcount]
      cases c.kept (env.attempts n) n with
      | true => simp; split_ifs <;> omega
      | false => simp; split_ifs <;> omega

/-- From the top of an attempt the loop ends with the first attempt that has no next one, if
there are enough left. -/
theorem loop_ended {target : Pool.Target} {k n last : ℕ} {s : LoopState} (htop : c.Top env n s)
    (hle : n ≤ last) (hlt : last < n + k) (hgo : ∀ m, n ≤ m → m < last → c.goesOn env m = true)
    (hstop : c.goesOn env last = false) :
    c.Ended env last (c.loop env target k n s).1 (c.loop env target k n s).2.log := by
  induction k generalizing n s with
  | zero => omega
  | succ k ih =>
    obtain ⟨herr, hnext⟩ := beforeRetry_eq htop.last
    obtain ⟨hlog, -⟩ := c.beforeRetry_frame (env.attempts n) n s
    obtain ⟨hacq, hrel⟩ := c.retryCalls_objects n
    -- an attempt that has no next one is the last
    have hend : c.goesOn env n = false → n = last := by
      intro hno
      by_contra hne
      rw [hgo n le_rfl (by omega)] at hno
      cases hno
    rw [loop]
    rcases hbefore : c.beforeRetry (env.attempts n) n s with ⟨err, s₁⟩
    rw [hbefore] at herr hlog hnext
    dsimp only at herr hlog hnext
    have hacq₁ : acquired s₁.log = List.range n := by
      rw [hlog, acquired_append, hacq, htop.acquired, List.append_nil]
    have hrel₁ : ∀ i, releases i s₁.log = if i < n then 1 else 0 := by
      intro i
      rw [hlog, releases_append, hrel, htop.releases, Nat.add_zero]
    cases hwait : c.waitErr env n with
    | some e =>
      obtain rfl := hend (by simp [goesOn, hwait])
      rw [hwait, Option.map_some] at herr
      subst herr
      refine ⟨?_, ?_, fun i => ?_⟩
      · rw [endResult, hwait]
      · simp [hacq₁, endCount, hwait]
      · simp [hrel₁, endCount, hwait]
        split_ifs <;> omega
    | none =>
      rw [hwait, Option.map_none] at herr
      subst herr
      have hattempt := top_attempt target hacq₁ hrel₁ (hnext hwait) hwait
      dsimp only
      cases hgoes : c.goesOn env n with
      | true =>
        rw [hgoes, if_pos rfl] at hattempt
        obtain ⟨s₂, heq, htop₂⟩ := hattempt
        rw [heq]
        have hne : n ≠ last := by
          rintro rfl
          rw [hgoes] at hstop
          cases hstop
        exact ih htop₂ (by omega) (by omega) fun m hm => hgo m (by omega)
      | false =>
        rw [hgoes, if_neg (by simp)] at hattempt
        obtain ⟨ret, s₂, heq, hended⟩ := hattempt
        obtain rfl := hend hgoes
        rw [heq]
        exact hended

/-! ### The whole call -/

theorem shouldRetry_lt {n : ℕ} {resp : Option Response} {err : Option GoErr}
    (h : c.shouldRetry n resp err = true) : (n : ℤ) < c.retry.maxRetries := by
  unfold shouldRetry retryer newRetryer at h
  split at h
  · rw [Option.any_some, Retryer.shouldRetry] at h
    dsimp only at h
    by_contra hge
    rw [if_pos (by omega)] at h
    cases h
  · cases h

theorem goesOn_lt {n : ℕ} (h : c.goesOn env n = true) : (n : ℤ) < c.retry.maxRetries := by
  unfold goesOn retried at h
  simp only [Bool.and_eq_true] at h
  exact shouldRetry_lt h.2.2

/-- There is a first attempt that has no next one. -/
theorem exists_last (c : Dispatcher) (env : CallEnv) :
    ∃ last : ℕ, (∀ n < last, c.goesOn env n = true) ∧ c.goesOn env last = false ∧
      (last : ℤ) ≤ max 0 c.retry.maxRetries := by
  have hex : ∃ n : ℕ, c.goesOn env n = false := by
    refine ⟨c.retry.maxRetries.toNat, ?_⟩
    by_contra hgo
    have := goesOn_lt (Bool.eq_true_of_not_eq_false hgo)
    omega
  refine ⟨Nat.find hex, fun n hn => ?_, Nat.find_spec hex, ?_⟩
  · exact Bool.eq_true_of_not_eq_false (Nat.find_min hex hn)
  · by_contra hlarge
    have hmin := Nat.find_min hex (m := Nat.find hex - 1) (by omega)
    have := goesOn_lt (Bool.eq_true_of_not_eq_false hmin)
    omega

theorem maxAttempts_eq (h : c.retry.maxRetries ≠ 2 ^ 63 - 1) :
    c.maxAttempts = max 0 c.retry.maxRetries + 1 := by
  have hlt := c.retry.maxRetries_lt
  unfold maxAttempts retryer newRetryer
  split
  · rw [Option.elim_some]
    dsimp only
    rw [wrap64_eq (by omega) (by omega)]
    omega
  · rw [Option.elim_none]
    omega

/-- The largest `int` and one more is negative. -/
theorem maxAttempts_wraps (h : c.retry.maxRetries = 2 ^ 63 - 1) : c.maxAttempts = -2 ^ 63 := by
  unfold maxAttempts retryer newRetryer
  rw [dif_pos (by omega), Option.elim_some]
  dsimp only
  rw [h]
  decide

end Loop

variable {c : Dispatcher} {env : CallEnv}

variable (c env) in
/-- The attempts end with the first one that has no next one, at the latest with number
`MaxRetries`; the result of the call is the result of that one, and every response object
that was taken has been released once, except one that is returned or transferred. -/
def AttemptsOwned (ret : Returned) (log : List Call) : Prop :=
  ∃ last : ℕ, (∀ n < last, c.goesOn env n = true) ∧ c.goesOn env last = false ∧
    (last : ℤ) ≤ max 0 c.retry.maxRetries ∧ c.Ended env last ret log

theorem doWithContext_eq {req req' : ClientRequest} {target : Pool.Target}
    (h : c.prepare env req = (.ok target, req')) :
    (c.doWithContext env req).1
        = (c.loop env target c.maxAttempts.toNat 0 ⟨req', none, .none, []⟩).1 ∧
      (c.doWithContext env req).2.1
        = (c.loop env target c.maxAttempts.toNat 0 ⟨req', none, .none, []⟩).2.log := by
  unfold doWithContext
  rw [h]
  exact ⟨rfl, rfl⟩

/-- With the largest `MaxRetries` there is no attempt. -/
theorem doWithContext_wraps {req req' : ClientRequest} {target : Pool.Target}
    (h : c.prepare env req = (.ok target, req')) (hmax : c.retry.maxRetries = 2 ^ 63 - 1) :
    (c.doWithContext env req).1
        = (none, some (wrapError .internal "max retries exhausted" .connectFailed)) ∧
      (c.doWithContext env req).2.1 = [] := by
  obtain ⟨hret, hlog⟩ := doWithContext_eq h
  rw [hret, hlog, maxAttempts_wraps hmax]
  exact ⟨rfl, rfl⟩

/-- But the first attempt takes an object. -/
theorem not_attemptsOwned_nil (ret : Returned) : ¬ c.AttemptsOwned env ret [] := by
  rintro ⟨last, -, -, -, hended⟩
  have hzero : c.endCount env last = 0 := by simpa [acquired] using hended.acquired.symm
  unfold endCount at hzero
  split at hzero
  · rename_i hwait
    subst hzero
    simp [waitErr] at hwait
  · omega

/-- A call that comes to its loop makes its attempts and gives up its response objects as it
should, exactly if `MaxRetries` is not the largest `int`. -/
theorem retries_owned_iff {req req' : ClientRequest} {target : Pool.Target}
    (h : c.prepare env req = (.ok target, req')) :
    c.AttemptsOwned env (c.doWithContext env req).1 (c.doWithContext env req).2.1 ↔
      c.retry.maxRetries ≠ 2 ^ 63 - 1 := by
  constructor
  · intro howned hmax
    rw [(doWithContext_wraps h hmax).2] at howned
    exact not_attemptsOwned_nil _ howned
  · intro hmax
    obtain ⟨hret, hlog⟩ := doWithContext_eq h
    obtain ⟨last, hgo, hstop, hle⟩ := c.exists_last env
    have htop : c.Top env 0 ⟨req', none, .none, []⟩ := ⟨rfl, fun i => rfl, rfl⟩
    refine ⟨last, hgo, hstop, hle, ?_⟩
    rw [hret, hlog, maxAttempts_eq hmax]
    exact loop_ended htop (Nat.zero_le _) (by omega) (fun m _ => hgo m) hstop

end Dispatcher

/-- A client without metrics, scheduler and rate limit. -/
def plainClient (maxRetries : ℤ) (h : maxRetries < 2 ^ 63) : Dispatcher where
  retry := ⟨maxRetries, 100 * millisecond, 5 * second, .fin 2, false, [429, 502, 503, 504], h⟩
  metrics := .absent
  scheduler := false
  limiter := false
  target := ⟨false, ascii "example.com", 80⟩
  parse := fun _ => none

/-- A request for `/`, without a URL. -/
def plainRequest : ClientRequest :=
  { getPath (ascii "/") with url := [], urlParsed := false, parsedHost := [], parsedPort := 0,
                             parsedTLS := false }

/-- The connection is reset in the first two attempts, and the third gets an answer. -/
def resetTwice : CallEnv where
  ctx := none
  limit := none
  attempts n :=
    { rand := .fin 0
      date := fun _ => none
      select := none
      conn := true
      answer := if n < 2 then .fail (wrapError .network "connection closed by server" .eof)
        else .ok { blankResponse with statusCode := 200 }
      ctxErr := .io 0 }

theorem retries_owned_iff_resetTwice :
    (plainClient 3 (by decide)).AttemptsOwned resetTwice
      ((plainClient 3 (by decide)).doWithContext resetTwice plainRequest).1
      ((plainClient 3 (by decide)).doWithContext resetTwice plainRequest).2.1 :=
  (Dispatcher.retries_owned_iff rfl).mpr (by decide)

/-- With the largest `MaxRetries` nothing is sent. -/
theorem retries_none :
    ((plainClient (2 ^ 63 - 1) (by decide)).doWithContext resetTwice plainRequest).1
        = (none, some (wrapError .internal "max retries exhausted" .connectFailed)) ∧
      ((plainClient (2 ^ 63 - 1) (by decide)).doWithContext resetTwice plainRequest).2.1 = [] ∧
      ¬ (plainClient (2 ^ 63 - 1) (by decide)).AttemptsOwned resetTwice
        ((plainClient (2 ^ 63 - 1) (by decide)).doWithContext resetTwice plainRequest).1
        ((plainClient (2 ^ 63 - 1) (by decide)).doWithContext resetTwice plainRequest).2.1 := by
  have hprepare : (plainClient (2 ^ 63 - 1) (by decide)).prepare resetTwice plainRequest
      = (.ok ⟨false, ascii "example.com", 80⟩, plainRequest) := rfl
  obtain ⟨hret, hlog⟩ := Dispatcher.doWithContext_wraps hprepare (by decide)
  refine ⟨hret, hlog, ?_⟩
  rw [hlog]
  exact Dispatcher.not_attemptsOwned_nil _

end BurstHttp
