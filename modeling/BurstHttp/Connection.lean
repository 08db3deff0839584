/-
A connection used by one request at a time (connection.go, `doSequential`).

The network is an environment (`Env`): it decides whether a dial, a write or a
deadline call fails, which bytes arrive, and with which error the arriving
bytes end.  It may let all of that depend on the deadline that was set.
`Conn` are the fields of `Connection` these functions use, and a log of the
response parses, one `ParseEvent` each.

* `ensureConnection`, `closeConn`, `doSequential`, `doRequest` — the functions
  of the source;
* `HealthStats` — the counters behind `HealthScore` and the pipeline depth.
-/
import BurstHttp.ReadHead
import BurstHttp.TimeCache

namespace BurstHttp

/-- The configuration a connection reads.  `NewConnection` replaces sizes that are
not positive by defaults. -/
structure Config where
  enablePipelining : Bool
  maxRequestsPerConn : ℤ
  idleTimeout : ℤ
  readTimeout : ℤ
  writeTimeout : ℤ
  enableHealthScoring : Bool
  enablePipelineAutoTune : Bool
  maxPipelinedRequests : ℤ
  maxRespSize : ℤ
  maxReqSize : ℤ
  headerReadSize : ℕ
  bodyReadSize : ℕ
  maxRespSize_pos : 0 < maxRespSize
  maxReqSize_pos : 0 < maxReqSize
  headerReadSize_pos : 0 < headerReadSize
  bodyReadSize_pos : 0 < bodyReadSize

/-! ### Health counters -/

/-- The statistics fields of `Connection`. -/
structure HealthStats where
  latencyEWMA : ℤ
  errorCount : ℤ
  totalWindow : ℤ
  healthScore : ℤ
  pipelineDepth : ℤ
  bytesRead : ℤ
  bytesWritten : ℤ
  deriving DecidableEq, Repr

namespace HealthStats

def healthWindowSize : ℤ := 50

/-- `Connection.advanceHealthWindow`; its argument is not used by the source. -/
def advanceHealthWindow (s : HealthStats) : HealthStats :=
  let total := wrap32 (s.totalWindow + 1)
  if total < healthWindowSize then { s with totalWindow := total }
  else
    let latMs := s.latencyEWMA.tdiv 1000000
    let penalty := if 50 < latMs then min ((latMs - 50).tdiv 10) 60 else 0
    let errPenalty :=
      if 0 < s.errorCount then (wrap32 (40 * s.errorCount)).tdiv healthWindowSize else 0
    { s with errorCount := 0, totalWindow := 0, healthScore := max (100 - penalty - errPenalty) 0 }

/-- `Connection.tunePipelineDepth`. -/
def tunePipelineDepth (cfg : Config) (s : HealthStats) (ewmaNs : ℤ) : HealthStats :=
  let ms := ewmaNs.tdiv 1000000
  let configured := wrap32 cfg.maxPipelinedRequests   -- int32(c.config.MaxPipelinedRequests)
  let maxDepth := min (if configured ≤ 0 then 10 else configured) 32
  if ms < 10 then { s with pipelineDepth := min (wrap32 (s.pipelineDepth + 1)) maxDepth }
  else if 100 < ms then { s with pipelineDepth := max (wrap32 (s.pipelineDepth - 1)) 1 }
  else s

/-- `Connection.recordSuccess`. -/
def recordSuccess (cfg : Config) (s : HealthStats) (elapsed : ℤ) : HealthStats :=
  if !cfg.enableHealthScoring then s
  else
    let newEWMA :=
      if s.latencyEWMA = 0 then elapsed
      else wrap64 (s.latencyEWMA + wrap64 (elapsed - s.latencyEWMA) >>> (3 : ℕ))
    let s := { s with latencyEWMA := newEWMA }.advanceHealthWindow
    if cfg.enablePipelineAutoTune ∧ cfg.enablePipelining then s.tunePipelineDepth cfg newEWMA else s

/-- `Connection.recordError`. -/
def recordError (cfg : Config) (s : HealthStats) : HealthStats :=
  if !cfg.enableHealthScoring then s
  else { s with errorCount := wrap32 (s.errorCount + 1) }.advanceHealthWindow

end HealthStats

/-! ### The connection -/

/-- A response parse: on which stream, whether it is the final one of its
request (not the answer to `Expect: 100-continue`), what it was given, how it
ended, and whether the bytes ended inside the response although it was
accepted. -/
structure ParseEvent where
  stream : ℕ
  isFinal : Bool
  method : Bytes
  bufLen : ℕ
  input : Bytes
  ret : Ret
  cut : Bool

/-- The parse failed, or stopped before the end of the response's framing. -/
def ParseEvent.broke (e : ParseEvent) : Bool := e.ret != .nil || e.cut

/-- A TCP stream: its number and the bytes that have arrived and were not read. -/
structure TcpStream where
  id : ℕ
  unread : List Bytes

/-- The fields of `Connection` that sequential requests use.  `dials` counts the
streams dialed so far; `log` lists the parses, latest first. -/
structure Conn where
  stream : Option TcpStream
  healthy : Bool
  stopped : Bool
  closing : Bool
  activeReqs : ℤ
  poolClaimed : Bool
  reqsOnConn : ℤ
  time : TimeCache
  stats : HealthStats
  dials : ℕ
  log : List ParseEvent

namespace Conn

/-- `Connection.IsHealthy`. -/
def isHealthy (c : Conn) : Bool := c.healthy && !c.stopped

/-- The idle test of `ensureConnection`. -/
def isFresh (cfg : Config) (c : Conn) : Bool :=
  c.healthy && (cfg.idleTimeout ≤ 0 || c.time.cachedNow - c.time.lastUsed ≤ cfg.idleTimeout)

/-- `Connection.ensureConnection`, for a caller that runs alone: the second test
under the lock then repeats the first.  `dial` is the error of `connectLocked`
if it is called, `now` the clock behind it. -/
def ensureConnection (cfg : Config) (dial : Option GoErr) (now : ℤ) (c : Conn) : Bool × Conn :=
  if c.isFresh cfg then (true, c)
  else
    match dial with
    | some _ => (false, { c with stream := none, healthy := false })
    | none =>
      (true, { c with stream := some ⟨c.dials, []⟩, dials := c.dials + 1, reqsOnConn := 0,
                      healthy := true, closing := false, time := .dialed now })

/-- `Connection.closeConn` without pending requests. -/
def closeConn (c : Conn) : Conn :=
  if c.closing then c else { c with closing := true, stream := none, healthy := false }

/-- `Connection.Stop`. -/
def stop (c : Conn) : Conn := if c.stopped then c else { c with stopped := true }.closeConn

end Conn

/-! ### One request -/

/-- The fields of `Request` that `doSequential` reads. -/
structure Request where
  method : Bytes
  body : Bytes
  compressed : Bool
  expectContinue : Bool
  readTimeout : ℤ
  writeTimeout : ℤ
  bodyBufLen : ℕ
  maxBodySize : ℤ
  resp : Option Response

/-- The environment of one response read: the clock, the result of
`SetReadDeadline`, and what arrives under the deadline that was set. -/
structure ReadEnv where
  now : ℤ
  setDeadline : ℤ → Option GoErr
  arrives : Option ℤ → List Bytes
  closing : Option ℤ → GoErr
  bufLen : ℕ

/-- The environment of one request.  `ctx` is `ctx.Err()` if the context is done
when it is looked at, `remaining` the time until its deadline. -/
structure Env where
  dial : Option GoErr
  dialNow : ℤ
  ctx : Option GoErr
  remaining : Option ℤ
  redial : Option GoErr
  redialNow : ℤ
  compressor : Option (Bytes → Except GoErr Bytes)
  writeNow : ℤ
  write : Option ℤ → Option GoErr
  continueRead : ReadEnv
  writeBody : Option GoErr
  read : ReadEnv
  elapsed : ℤ
  completeNow : ℤ

/-- `Request.ensureBodyBufferSize`: the length of the buffer behind it. -/
def ensureBodyBufferSize (len : ℕ) (maxBodySize required : ℤ) : Option ℤ :=
  if required ≤ len then some len
  else if 0 < maxBodySize ∧ maxBodySize < required then none
  else
    let newSize := Response.grownSize len required
    if 0 < maxBodySize ∧ maxBodySize < newSize then
      if maxBodySize < required then none else some maxBodySize
    else some newSize

/-- `Connection.prepareBody`. -/
def prepareBody (maxReqSize : ℤ) (compressor : Option (Bytes → Except GoErr Bytes))
    (req : Request) : Except GoErr (Bytes × Bool) :=
  if maxReqSize < req.body.length then .error .requestTooLarge
  else
    match compressor with
    | none => .ok (req.body, false)
    | some gzip =>
      if !req.compressed || req.body.isEmpty then .ok (req.body, false)
      else
        let needed : ℤ := req.body.length + req.body.length / 10 + 100
        let needed := if 0 < req.maxBodySize ∧ req.maxBodySize < needed then req.maxBodySize else needed
        match ensureBodyBufferSize req.bodyBufLen req.maxBodySize needed with
        | none =>
          .error (wrapError .internal "body buffer too small for compression" .requestTooLarge)
        | some len =>
          match gzip req.body with
          | .error e => .error (wrapError .internal "compression failed" e)
          | .ok comp =>
            if len < comp.length then
              .error (wrapError .internal "compression failed" .requestTooLarge)
            else if comp.isEmpty then .ok (req.body, false)
            else .ok (comp, true)

/-- `Connection.effectiveReadTimeout`. -/
def effectiveReadTimeout (cfg : Config) (req : Request) (remaining : Option ℤ) : ℤ :=
  let t := if req.readTimeout = 0 then cfg.readTimeout else req.readTimeout
  match remaining with
  | none => t
  | some remaining =>
    if remaining ≤ 0 then millisecond
    else if t = 0 ∨ remaining < t then remaining
    else t

/-- What a call of `Connection.Do` returns. -/
inductive DoRet
  | ok (resp : Response)
  | err (e : GoErr)
  | panic

def DoRet.isErr : DoRet → Bool
  | .err _ => true
  | _ => false

namespace Conn

/-- `Connection.readResponse` on the stream `st`, logged; the stream is returned as
the read leaves it.  When the deadline cannot be set nothing is read. -/
def readResponse (cfg : Config) (gunzip : Bytes → Gunzip) (env : ReadEnv) (isFinal : Bool)
    (timeout : ℤ) (method : Bytes) (resp : Response) (st : TcpStream) (c : Conn) :
    (Ret × Response) × TcpStream × Conn :=
  let deadline := c.time.readDeadline env.now timeout
  match deadline.bind env.setDeadline with
  | some e =>
    let ret := .error (wrapError .network "set read deadline failed" e)
    ((ret, resp), st,
      { c with log := ⟨st.id, isFinal, method, env.bufLen, [], ret, false⟩ :: c.log })
  | none =>
    let r : Reader := .ofSegs (st.unread ++ env.arrives deadline) (env.closing deadline)
    let x := readDecoded gunzip r env.bufLen resp cfg.maxRespSize method cfg.headerReadSize
      cfg.bodyReadSize
    let st := { st with unread := x.2.segs }
    (x.1, st,
      { c with stream := some st,
               log := ⟨st.id, isFinal, method, env.bufLen, r.flat, x.1.1,
                 x.2.ended && !framedByEOF method r.flat⟩ :: c.log })

/-- `clearDeadlines`, `reqsOnConn.Add(1)` and `updateTimeCache`. -/
def complete (env : Env) (c : Conn) : Conn :=
  { c with reqsOnConn := wrap32 (c.reqsOnConn + 1), time := c.time.updateTimeCache env.completeNow }

/-- `healthy.Store(0)` and `recordError`. -/
def fail (cfg : Config) (c : Conn) : Conn :=
  { c with healthy := false, stats := c.stats.recordError cfg }

/-- The end of `doSequential`, behind the last response read. -/
def finish (cfg : Config) (env : Env) (body : Bytes) (x : Ret × Response) (c : Conn) :
    DoRet × Conn :=
  match x with
  | (.panic, _) => (.panic, c)
  | (.error e, resp) =>
    if 0 < resp.statusCode then (.ok resp, c.complete env)
    else if e.isNetTimeout then (.err (wrapError .timeout "read timeout" e), c.fail cfg)
    else if e = .eof then (.err (wrapError .network "connection closed by server" e), c.fail cfg)
    else (.err e, c.fail cfg)
  | (.nil, resp) =>
    let c := c.complete env
    let stats := c.stats.recordSuccess cfg env.elapsed
    let c := { c with stats := { stats with bytesWritten := stats.bytesWritten + body.length,
                                            bytesRead := stats.bytesRead + resp.contentLength } }
    (.ok resp, if resp.isConnectionClose then { c with healthy := false } else c)

/-- The last response read of `doSequential` and what follows it. -/
def readFinal (cfg : Config) (gunzip : Bytes → Gunzip) (env : Env) (req : Request) (timeout : ℤ)
    (body : Bytes) (resp : Response) (st : TcpStream) (c : Conn) : DoRet × Conn :=
  let x := c.readResponse cfg gunzip env.read true timeout req.method resp st
  x.2.2.finish cfg env body x.1

/-- The exchange of `doSequential` once the response object is reset: the
request is written, with `Expect: 100-continue` in two steps, and the response
is read. -/
def exchange (cfg : Config) (gunzip : Bytes → Gunzip) (env : Env) (req : Request) (timeout : ℤ)
    (body : Bytes) (resp : Response) (st : TcpStream) (c : Conn) : DoRet × Conn :=
  let writeTimeout := if req.writeTimeout = 0 then cfg.writeTimeout else req.writeTimeout
  match env.write (c.time.writeDeadline env.writeNow writeTimeout) with
  | some e => (.err e, { c with healthy := false })
  | none =>
    if req.expectContinue && !body.isEmpty then
      let continueResp : Response := ⟨0, 0, [], [], List.replicate 512 0, 0, []⟩
      match c.readResponse cfg gunzip env.continueRead false timeout req.method continueResp st with
      | ((.panic, _), _, c) => (.panic, c)
      | ((.error e, _), _, c) => (.err e, { c with healthy := false })
      | ((.nil, answer), st, c) =>
        if answer.statusCode ≠ 100 then
          (.ok { resp with statusCode := answer.statusCode, headers := answer.headers,
                           body := answer.body, contentLength := answer.contentLength },
            c.complete env)
        else
          match env.writeBody with
          | some e =>
            (.err (wrapError .network "write body after 100-continue failed" e),
              { c with healthy := false })
          | none => c.readFinal cfg gunzip env req timeout body resp st
    else c.readFinal cfg gunzip env req timeout body resp st

/-- `doSequential` between the claim and the deferred release. -/
def doClaimed (cfg : Config) (gunzip : Bytes → Gunzip) (env : Env) (req : Request) (c : Conn) :
    DoRet × Conn :=
  match env.ctx with
  | some e => (.err (wrapError .timeout "request cancelled" e), c)
  | none =>
    let x :=
      if 0 < cfg.maxRequestsPerConn ∧ cfg.maxRequestsPerConn ≤ c.reqsOnConn then
        c.closeConn.ensureConnection cfg env.redial env.redialNow
      else (true, c)
    if !x.1 then (.err (wrapError .network "connection not available" .connectFailed), x.2)
    else
      match x.2.stream with
      | none => (.err (wrapError .network "connection is nil" .connectFailed), x.2)
      | some st =>
        match prepareBody cfg.maxReqSize env.compressor req with
        | .error e => (.err e, x.2)
        | .ok (body, _) =>
          match req.resp with
          | none => (.err (wrapError .internal "response object is nil" .invalidResponse), x.2)
          | some resp =>
            x.2.exchange cfg gunzip env req (effectiveReadTimeout cfg req env.remaining) body
              resp.reset st

/-- `Connection.doSequential`. -/
def doSequential (cfg : Config) (gunzip : Bytes → Gunzip) (env : Env) (req : Request) (c : Conn) :
    DoRet × Conn :=
  let c :=
    if c.poolClaimed then { c with poolClaimed := false }
    else { c with activeReqs := wrap32 (c.activeReqs + 1) }
  let x := c.doClaimed cfg gunzip env req
  (x.1, { x.2 with activeReqs := wrap32 (x.2.activeReqs - 1) })

/-- `Connection.Do` without pipelining. -/
def doRequest (cfg : Config) (gunzip : Bytes → Gunzip) (env : Env) (req : Request) (c : Conn) :
    DoRet × Conn :=
  let x := c.ensureConnection cfg env.dial env.dialNow
  if !x.1 then (.err (wrapError .network "connection failed" .connectFailed), x.2)
  else x.2.doSequential cfg gunzip env req

end Conn

end BurstHttp
