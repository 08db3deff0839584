/-
A pool as a whole: its configuration, both modes, and everything that comes to one
of its host pools (pool.go, `getHostPool`, `GetConnection`, `WarmUp`,
`removeUnhealthyConnections`, `idleEvictor`, `Stop`, `GracefulStop`,
`activeRequests`; connection.go, `CanAcceptRequest`, `doPipelined`; config.go,
`Validate`).

`HostPool` has the steps of the callers without pipelining.  Here it is put
together with

* `Config.maxIdle`, `Config.limit` — the bound that `createConnection` keeps to;
* `System.pipelined` — what callers do otherwise when requests are pipelined: they
  do not claim a connection, and it is its reader that takes a request off the count;
* `System.warmUp` — goroutines that call `createConnection` again and again;
* `System.remover` — calls of `removeUnhealthyConnections` with any connections;
* `System.gracefulStop` — `GracefulStop`, which waits until no requests are counted;
* `System.step` — one step of one goroutine.

Other hosts are told only by what their connections add to `activeRequests`.
-/
import BurstHttp.Basic
import BurstHttp.Pool.Machine

namespace BurstHttp.Pool

open Function (update)

/-! ### The configuration -/

/-- The fields of `Config` that decide about a host pool. -/
structure Config where
  enablePipelining : Bool := false
  poolSize : ℤ := 0
  maxIdleConnsPerHost : ℤ := 0

namespace Config

/-- What `Validate`, which accepts every configuration, makes of these fields. -/
def validate (cfg : Config) : Config :=
  { cfg with poolSize := if cfg.poolSize ≤ 0 then 512 else cfg.poolSize }

/-- `maxIdle` of a host pool. -/
def maxIdle (cfg : Config) : ℤ :=
  if cfg.maxIdleConnsPerHost ≤ 0 then
    if cfg.poolSize ≤ 0 then 512 else cfg.poolSize
  else cfg.maxIdleConnsPerHost

/-- `limit` in `createConnection`: `int32(hp.maxIdle)`. -/
def limit (cfg : Config) : ℤ := wrap32 cfg.maxIdle

end Config

/-! ### The state -/

/-- `GracefulStop`; `ok` is what it is going to return. -/
inductive GracefulPc
  | idle                                                     -- not called
  | wait                                                     -- wg.Wait()
  | check                                                    -- time.Now().After(deadline)
  | load                                                     -- activeRequests: connections.Load()
  | sum (rest : List ℕ) (total : ℤ)                          -- activeReqs.Load()
  | swap (ok : Bool)                                         -- connections.Swap(nil)
  | stop (ok : Bool) (c : ℕ) (rest : List ℕ) (pc : StopPc)   -- c.Stop()
  | done (ok : Bool)
  deriving DecidableEq

/-- A pool with one host, `N` goroutines that call `GetConnection` and `Do`, or `WarmUp`,
and `R` that call `removeUnhealthyConnections`. -/
structure System (N R : ℕ) where
  pool : HostPool N
  warm : Fin N → Option ℕ                       -- a call of WarmUp, and the turns it has left
  depth : ℕ → ℤ                                 -- pipelineDepth
  removers : Fin R → Option (List ℕ × RemovePc)
  stopCh : Bool                                 -- it is closed
  evicting : Bool                               -- idleEvictor runs
  graceful : GracefulPc
  begun : Fin N → Bool                          -- requests from before GracefulStop was called
  dialed : List ℕ                               -- what createConnection has dialed

inductive Label (N R : ℕ)
  | caller (n : Fin N) (ch : Choice)
  | remover (r : Fin R) (unhealthy : List ℕ)
  | evictor (ch : Choice)
  | evictorExit
  | stopper
  | graceful (late : Bool) (others : ℤ)         -- the deadline, and the counts of other hosts
  | reader (c : ℕ) (ch : Choice)                -- of a pipelined connection
  | tune (c : ℕ) (depth : ℤ)                    -- pipelineDepth.Store

/-- The call of `GetConnection` has begun. -/
def CallerPc.begun : CallerPc → Bool
  | .idle => false
  | _ => true

/-- What has been dialed when a caller has gone from one program counter to another. -/
def dialedAfter (dialed : List ℕ) : CallerPc → CallerPc → List ℕ
  | .dialing _ _ _, .publishLoad _ c => c :: dialed
  | _, _ => dialed

namespace System

variable {N R : ℕ}

/-- A pool that has just been made, with its goroutines. -/
def new (warm : Fin N → Option ℕ) (depth : ℕ → ℤ) (evicting : Bool) : System N R :=
  { pool := .new N, warm, depth, removers := fun _ => none, stopCh := false, evicting
    graceful := .idle, begun := fun _ => false, dialed := [] }

/-! ### Callers -/

/-- A step of `GetConnection` and `Do` with pipelining. -/
def pipelined (limit : ℤ) (s : System N R) (n : Fin N) (ch : Choice) : Option (HostPool N) :=
  let p := s.pool
  match p.callers n with
  | .check a sc .active =>
    sc.current.map fun c => p.setCaller n
      (if (p.slots c).activeReqs < (if s.depth c ≤ 0 then 10 else s.depth c) then
        if sc.second then .claim a sc c sc.idx else .check a sc .score
      else resume a sc.skip)
  | .claim _ sc c idx => some (p.setCaller n (.storeIndex sc c idx))
  | .swap c =>
    -- doPipelined can return an error before it counts the request
    some (p.setCaller n (if ch = .dialError then .done else .count c))
  | .inside c =>
    match ch with
    | .setHealthy b => some (p.setSlot c { p.slots c with healthy := b })
    | .dialError => some (p.setCaller n (.leave c))   -- the request was not written
    | _ => some (p.setCaller n .done)
  | _ => p.caller limit n ch

def setCaller (s : System N R) (n : Fin N) (pc : CallerPc) : System N R :=
  { s with pool := s.pool.setCaller n pc }

/-- A step of `WarmUp` with `k` more turns to come. -/
def warmUp (limit : ℤ) (s : System N R) (n : Fin N) (k : ℕ) (ch : Choice) :
    Option (System N R) :=
  match s.pool.callers n with
  | .idle | .got _ =>
    match k with
    | 0 => some (s.setCaller n .done)
    | k + 1 => some { s.setCaller n (.createLoad 0) with warm := update s.warm n (some k) }
  | .elapsed _ => some (s.setCaller n .done)   -- createConnection has returned nil
  | _ => (s.pool.caller limit n ch).map fun p => { s with pool := p }

/-- A step of a goroutine that calls `GetConnection` and `Do`, or `WarmUp`. -/
def caller (cfg : Config) (s : System N R) (n : Fin N) (ch : Choice) : Option (System N R) :=
  let next :=
    match s.warm n with
    | some k => s.warmUp cfg.limit n k ch
    | none =>
      (if cfg.enablePipelining then s.pipelined cfg.limit n ch
        else s.pool.caller cfg.limit n ch).map fun p => { s with pool := p }
  next.map fun t =>
    { t with dialed := dialedAfter s.dialed (s.pool.callers n) (t.pool.callers n) }

/-! ### The others -/

/-- A step of a goroutine that calls `removeUnhealthyConnections`. -/
def remover (s : System N R) (r : Fin R) (unhealthy : List ℕ) : System N R :=
  match s.removers r with
  | none => { s with removers := update s.removers r (some (unhealthy, .load)) }
  | some (unhealthy, pc) =>
    let x := s.pool.remove unhealthy pc
    { s with pool := x.1, removers := update s.removers r (x.2.map fun pc => (unhealthy, pc)) }

/-- A step of `Pool.Stop`. -/
def stop (s : System N R) : Option (System N R) :=
  if !s.stopCh then some { s with stopCh := true }   -- stopOnce
  else if s.evicting then none                       -- wg.Wait()
  else s.pool.stop.map fun p => { s with pool := p }

/-- A step of `Pool.GracefulStop`. -/
def gracefulStop (s : System N R) (late : Bool) (others : ℤ) : Option (System N R) :=
  match s.graceful with
  | .idle =>
    some { s with
      stopCh := true
      begun := fun n => (s.warm n).isNone && (s.pool.callers n).begun
      graceful := .wait }
  | .wait => if s.evicting then none else some { s with graceful := .check }
  | .check => some { s with graceful := if late then .swap false else .load }
  | .load => some { s with graceful := .sum ((s.pool.connections.map Slice.conns).getD []) others }
  | .sum (c :: rest) total =>
    some { s with graceful := .sum rest (total + (s.pool.slots c).activeReqs) }
  | .sum [] total => some { s with graceful := if total = 0 then .swap true else .check }
  | .swap ok =>
    some { s with
      pool := { s.pool with connections := none }
      graceful :=
        match s.pool.connections with
        | some ⟨_, c :: rest⟩ => .stop ok c rest .cas
        | _ => .done ok }
  | .stop ok c rest pc =>
    let x := s.pool.stopConn c pc
    some { s with
      pool := x.1
      graceful :=
        match x.2, rest with
        | some pc, _ => .stop ok c rest pc
        | none, c :: rest => .stop ok c rest .cas
        | none, [] => .done ok }
  | .done _ => none

/-- The reader of a pipelined connection takes a request off the count, or sets `healthy`. -/
def reader (s : System N R) (c : ℕ) (ch : Choice) : System N R :=
  let x := s.pool.slots c
  { s with
    pool := s.pool.setSlot c
      (match ch with
      | .setHealthy b => { x with healthy := b }
      | _ => { x with activeReqs := x.activeReqs - 1 }) }

/-- A step of one goroutine. -/
def step (cfg : Config) (s : System N R) : Label N R → Option (System N R)
  | .caller n ch => s.caller cfg n ch
  | .remover r unhealthy => some (s.remover r unhealthy)
  | .evictor ch =>
    if s.evicting then (s.pool.evict ch).map fun p => { s with pool := p } else none
  | .evictorExit =>
    match s.pool.evictor with
    | .waiting => if s.stopCh then some { s with evicting := false } else none
    | _ => none
  | .stopper => s.stop
  | .graceful late others => s.gracefulStop late others
  | .reader c ch => if cfg.enablePipelining then some (s.reader c ch) else none
  | .tune c depth => some { s with depth := update s.depth c depth }

end System

end BurstHttp.Pool
