/-
One request through a client (client.go, `DoWithContext`; request.go, `resolveURL`).

`DoWithContext` resolves the URL of the request, and then makes attempts: each takes a
response object, asks the pool for a connection, or the scheduler, and looks at what
comes back.  What the pool, the connection, the scheduler, the context and the clock do
is a script, one `AttemptEnv` for each attempt.  What the client does is a log of calls;
the response object that attempt `n` takes has the number `n`.

* `resolve`, `ClientRequest.resolveURL` — the URL;
* `Dispatcher.beforeRetry`, `Dispatcher.attempt`, `Dispatcher.loop`, `Dispatcher.prepare`,
  `Dispatcher.doWithContext` — the function of the source, piece by piece.
-/
import BurstHttp.Retry

namespace BurstHttp

/-! ### The request -/

/-- The parts of a `url.URL` that `resolveURL` reads. -/
structure URL where
  scheme : Bytes
  hostname : Bytes
  port : Bytes
  requestURI : Bytes

/-- Where a request goes, and the path it asks for. -/
structure Route where
  target : Pool.Target
  path : Bytes
  deriving DecidableEq

/-- The part of `resolveURL` that looks at the URL. -/
def resolve (parse : Bytes → Option URL) (url : Bytes) : Option Route :=
  if url = [] then none
  else
    match parse (if (Pool.index (ascii "://") url).isSome then url else ascii "http://" ++ url) with
    | none => none
    | some u =>
      let useTLS : Option Bool :=
        if u.scheme.map lower = ascii "https" then some true
        else if u.scheme.map lower = ascii "http" then some false
        else none
      match useTLS with
      | none => none
      | some tls =>
        if u.hostname = [] then none
        else
          let port := ((Pool.atoi u.port).filter (0 < ·)).getD (if tls then 443 else 80)
          let path := if u.requestURI = [] then ascii "/" else u.requestURI
          some ⟨⟨tls, u.hostname, port⟩, path⟩

/-- `Request`: what is written, and the URL with what has been parsed of it. -/
structure ClientRequest extends Outgoing where
  url : Bytes
  urlParsed : Bool
  parsedHost : Bytes
  parsedPort : ℤ
  parsedTLS : Bool

namespace ClientRequest

/-- What the parsed fields say; `ok` of the source is `parsedHost != ""`. -/
def cached (r : ClientRequest) : Option Route :=
  if r.parsedHost = [] then none else some ⟨⟨r.parsedTLS, r.parsedHost, r.parsedPort⟩, r.parsedPath⟩

/-- `Request.resolveURL`. -/
def resolveURL (parse : Bytes → Option URL) (r : ClientRequest) : Option Route × ClientRequest :=
  if r.urlParsed then (r.cached, r)
  else
    match resolve parse r.url with
    | none => (none, { r with urlParsed := true })
    | some route =>
      (some route,
        { r with
          urlParsed := true
          parsedHost := route.target.host
          parsedPort := route.target.port
          parsedTLS := route.target.tls
          parsedPath := route.path })

end ClientRequest

/-! ### The script -/

/-- What `conn.Do` or `scheduler.Do` returns: the response object that hangs on the request,
an error, or both. -/
inductive Answer
  | ok (resp : Response)
  | fail (err : GoErr)
  | both (resp : Response) (err : GoErr)

/-- The environment of one attempt.  `select` is how a wait before it ends (`waitAdaptive`),
`conn` whether the pool has a connection, and `ctxErr` what `ctx.Err()` is when the
response has been handed over to the reader of a connection. -/
structure AttemptEnv where
  rand : Binary64
  date : Bytes → Option ℤ
  select : Option GoErr
  conn : Bool
  answer : Answer
  ctxErr : GoErr

/-- The environment of a call.  `ctx` is `ctx.Err()` if the context is done at the start,
`limit` the error of the rate limiter. -/
structure CallEnv where
  ctx : Option GoErr
  limit : Option GoErr
  attempts : ℕ → AttemptEnv

/-- What `DoWithContext` calls. -/
inductive Call
  | recordRetry
  | recordRequest (method host : Bytes)
  | acquire (n : ℕ)
  | getConnection (n : ℕ) (target : Pool.Target)
  | connDo (n : ℕ) (path : Bytes)
  | schedule (n : ℕ) (route : Route)
  | release (n : ℕ)
  | recordResponse (method host : Bytes) (statusCode : ℤ) (err : Option GoErr)
      (bytesWritten bytesRead : ℤ)
  deriving DecidableEq

/-- `c.metrics`: nil, `*BuiltinMetrics`, or another collector. -/
inductive Metrics
  | absent
  | builtin
  | other
  deriving DecidableEq

/-- The fields of `Client` that `DoWithContext` uses.  `target` are `Host`, `Port` and `UseTLS`
of the configuration, and `parse` is `url.Parse`. -/
structure Dispatcher where
  retry : RetryConfig
  metrics : Metrics
  scheduler : Bool
  limiter : Bool
  target : Pool.Target
  parse : Bytes → Option URL

/-- `lastRetryStatus`, `lastRetryAfterHdr` and `lastRetryErr`. -/
structure LastRetry where
  status : ℤ
  retryAfterHdr : Bytes
  err : Option GoErr

def LastRetry.none : LastRetry := ⟨0, [], .none⟩

/-- The variables of the loop. -/
structure LoopState where
  req : ClientRequest
  lastErr : Option GoErr
  last : LastRetry
  log : List Call

/-- What `DoWithContext` returns: a response object with its number, and an error. -/
abbrev Returned := Option (ℕ × Response) × Option GoErr

def LoopState.call (s : LoopState) (calls : List Call) : LoopState :=
  { s with log := s.log ++ calls }

@[simp] theorem LoopState.call_log (s : LoopState) (calls : List Call) :
    (s.call calls).log = s.log ++ calls := rfl

@[simp] theorem LoopState.call_req (s : LoopState) (calls : List Call) :
    (s.call calls).req = s.req := rfl

@[simp] theorem LoopState.call_last (s : LoopState) (calls : List Call) :
    (s.call calls).last = s.last := rfl

namespace Dispatcher

/-! ### The function -/

def retryer (c : Dispatcher) : Option Retryer := newRetryer c.retry

/-- `c.retryer != nil && c.retryer.ShouldRetry(...)`. -/
def shouldRetry (c : Dispatcher) (n : ℕ) (resp : Option Response) (err : Option GoErr) : Bool :=
  c.retryer.any fun r => r.shouldRetry n resp err

/-- A call of the metrics collector, if there is one. -/
def record (c : Dispatcher) (call : Call) : List Call := if c.metrics = .absent then [] else [call]

/-- The delay before attempt `n`, which is not the first. -/
def delay (c : Dispatcher) (env : AttemptEnv) (n : ℕ) (last : LastRetry) : ℤ :=
  c.retryer.elim 0 fun r =>
    r.adaptiveDelay env.rand env.date (n - 1) last.status last.retryAfterHdr last.err

/-- The top of an attempt that is not the first; an error ends the loop. -/
def beforeRetry (c : Dispatcher) (env : AttemptEnv) (n : ℕ) (s : LoopState) :
    Option GoErr × LoopState :=
  if n = 0 then (none, s)
  else
    let s := s.call (if c.metrics = .builtin then [.recordRetry] else [])
    match waitAdaptive (c.delay env n s.last) env.select with
    | some e => (some (wrapError .timeout "retry wait cancelled" e), s)
    | none =>
      let req := { s.req with urlParsed := false }
      (none,
        { s with
          last := .none
          req := if req.url = [] then req else (req.resolveURL c.parse).2 })

/-- An attempt that has failed without a response. -/
def failed (c : Dispatcher) (host : Bytes) (n : ℕ) (err : GoErr) (s : LoopState) :
    Option Returned × LoopState :=
  let s := s.call (.release n :: c.record (.recordResponse s.req.method host 0 (some err) 0 0))
  let s := { s with lastErr := some err }
  if c.shouldRetry n none (some err) then (none, { s with last := { s.last with err := some err } })
  else (some (none, some err), s)

/-- The error of an attempt for which the pool has no connection. -/
def noConnection : GoErr := .detailed .internal "failed to get connection from pool" .connectFailed

/-- What follows the answer of the connection or the scheduler. -/
def settle (c : Dispatcher) (env : AttemptEnv) (host : Bytes) (n : ℕ) (s : LoopState) :
    Option Returned × LoopState :=
  match env.answer with
  | .fail err =>
    if err = .respTransferred then
      (some (none, some (wrapError .timeout "request cancelled" env.ctxErr)), s)
    else c.failed host n err s
  | .both resp err =>
    if err = .respTransferred then
      (some (none, some (wrapError .timeout "request cancelled" env.ctxErr)), s)
    else if 0 < resp.statusCode then
      let s := s.call (c.record
        (.recordResponse s.req.method host resp.statusCode (some err) 0 resp.contentLength))
      if c.shouldRetry n (some resp) (some err) then
        (none,
          { s.call [.release n] with
            last := ⟨resp.statusCode, resp.header (ascii "Retry-After"), some err⟩
            lastErr := some err })
      else (some (some (n, resp), some err), s)
    else c.failed host n err s
  | .ok resp =>
    let s := s.call (c.record
      (.recordResponse s.req.method host resp.statusCode none s.req.body.length resp.contentLength))
    if c.shouldRetry n (some resp) none then
      (none,
        { s.call [.release n] with
          last := { s.last with
            status := resp.statusCode
            retryAfterHdr := resp.header (ascii "Retry-After") } })
    else (some (some (n, resp), none), s)

/-- One attempt, behind its wait; it goes on to the next one or returns. -/
def attempt (c : Dispatcher) (env : AttemptEnv) (target : Pool.Target) (n : ℕ) (s : LoopState) :
    Option Returned × LoopState :=
  let s := s.call (c.record (.recordRequest s.req.method target.host) ++ [.acquire n])
  let path := s.req.effectivePath
  if c.scheduler then c.settle env target.host n (s.call [.schedule n ⟨target, path⟩])
  else if env.conn then
    c.settle env target.host n (s.call [.getConnection n target, .connDo n path])
  else c.failed target.host n noConnection (s.call [.getConnection n target])

/-- `maxAttempts`. -/
def maxAttempts (c : Dispatcher) : ℤ := c.retryer.elim 1 fun r => wrap64 (1 + r.maxRetries)

/-- The loop, with `k` attempts left, the next of which is `n`. -/
def loop (c : Dispatcher) (env : CallEnv) (target : Pool.Target) :
    ℕ → ℕ → LoopState → Returned × LoopState
  | 0, _, s =>
    ((none, some (s.lastErr.getD (wrapError .internal "max retries exhausted" .connectFailed))), s)
  | k + 1, n, s =>
    match c.beforeRetry (env.attempts n) n s with
    | (some err, s) => ((none, some err), s)
    | (none, s) =>
      match c.attempt (env.attempts n) target n s with
      | (some ret, s) => (ret, s)
      | (none, s) => loop c env target k (n + 1) s

/-- The error for a URL that cannot be resolved. -/
def badURL (url : Bytes) : GoErr :=
  wrapError .validation
    ("invalid request URL: " ++ String.ofList (url.map fun b => Char.ofNat b.toNat)) .invalidURL

/-- `DoWithContext` before the loop: an error, or the target. -/
def prepare (c : Dispatcher) (env : CallEnv) (req : ClientRequest) :
    Except GoErr Pool.Target × ClientRequest :=
  match env.ctx with
  | some err => (.error (wrapError .timeout "request cancelled before send" err), req)
  | none =>
    match if c.limiter then env.limit else none with
    | some err => (.error (wrapError .timeout "rate limit wait cancelled" err), req)
    | none =>
      if req.url = [] then (.ok c.target, req)
      else
        match req.resolveURL c.parse with
        | (none, req) => (.error (badURL req.url), req)
        | (some route, req) => (.ok route.target, { req with parsedPath := route.path })

/-- `Client.DoWithContext`: what it returns, what it has called, and the request as it leaves
it. -/
def doWithContext (c : Dispatcher) (env : CallEnv) (req : ClientRequest) :
    Returned × List Call × ClientRequest :=
  match c.prepare env req with
  | (.error err, req) => ((none, some err), [], req)
  | (.ok target, req) =>
    let x := c.loop env target c.maxAttempts.toNat 0 ⟨req, none, .none, []⟩
    (x.1, x.2.log, x.2.req)

end Dispatcher

end BurstHttp
