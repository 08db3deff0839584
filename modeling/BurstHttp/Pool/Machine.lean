/-
The connections of one host, used by many goroutines without pipelining (pool.go,
`GetConnection`, `getIdleConnection`, `createConnection`, `getAnyConnection`,
`removeUnhealthyConnections`, and connection.go, `Do` and `doSequential`).

A state is the shared memory of one `HostPool` and of its connections, together
with the program counter of every goroutine; a step is one atomic operation of one
of them.  There are `N` callers, each with one request.

* `HostPool.stopConn`, `HostPool.remove`, `HostPool.ensureConnection`, `HostPool.check`,
  `HostPool.caller`, `HostPool.evict`, `HostPool.stop` — one step of each function
  of the source;
* `HostPool.step` — one step of the pool.

What a request does between its claim and its release is told only by what the
pool sees of it: how often, and to what, it sets `healthy`.
-/
import Mathlib.Algebra.Group.Nat.Defs
import Mathlib.Data.Int.Notation
import Mathlib.Data.List.Basic
import Mathlib.Logic.Function.Basic

namespace BurstHttp.Pool

open Function (update)

/-! ### The state -/

/-- The fields of `Connection` that the pool and `doSequential` share. -/
structure Slot where
  healthy : Bool := false
  stopped : Bool := false
  closing : Bool := false
  connectMu : Bool := false   -- somebody holds it
  activeReqs : ℤ := 0
  poolClaimed : Bool := false

/-- What `connections` points to: a list that is not changed, and its address. -/
structure Slice where
  ptr : ℕ
  conns : List ℕ
  deriving DecidableEq

/-- The local variables of the scans.  `best` is a connection with its score and its index. -/
structure Scan where
  conns : List ℕ
  start : ℕ
  second : Bool := false
  i : ℕ := 0
  best : Option (ℕ × ℤ × ℕ) := none
  unhealthy : List ℕ := []

namespace Scan

/-- `(startIndex + i) % connCount` in `uint32`. -/
def idx (sc : Scan) : ℕ := (sc.start + sc.i) % 2 ^ 32 % sc.conns.length

def current (sc : Scan) : Option ℕ := sc.conns[sc.idx]?

/-- How far the first scan of `getIdleConnection` goes. -/
def maxScan (sc : Scan) : ℕ := min sc.conns.length 16

def skip (sc : Scan) : Scan := { sc with i := sc.i + 1 }

def reject (sc : Scan) (c : ℕ) : Scan :=
  { sc with i := sc.i + 1, unhealthy := sc.unhealthy ++ [c] }

/-- A connection that can take a request, with its score; 100 ends the scan. -/
def rate (sc : Scan) (c : ℕ) (score : ℤ) : Scan :=
  { sc with
    i := if score = 100 then sc.maxScan else sc.i + 1
    best :=
      match sc.best with
      | none => some (c, score, sc.idx)
      | some (c', best, idx) => if best < score then some (c, score, sc.idx) else some (c', best, idx) }

end Scan

/-! ### Program counters -/

/-- `Connection.Stop`, with `closeConn`. -/
inductive StopPc
  | cas          -- stopped.CompareAndSwap(0, 1)
  | closing      -- closing.CompareAndSwap(0, 1)
  | unhealthy    -- healthy.Store(0)
  deriving DecidableEq, Repr

/-- `removeUnhealthyConnections`. -/
inductive RemovePc
  | load                                                       -- connections.Load()
  | cas (old : Slice)                                          -- connections.CompareAndSwap
  | stop (removed c : ℕ) (rest : List ℕ) (pc : StopPc)         -- c.Stop()
  | active (removed : ℕ)                                       -- activeCount.Add(-removed)
  | idle (removed : ℕ)                                         -- idleCount.Add(-removed)

/-- `ensureConnection`, with `connectLocked`. -/
inductive EnsurePc
  | test               -- healthy.Load(), the idle timeout
  | lock               -- connectMu.Lock()
  | retest             -- the same under connectMu
  | unhealthy          -- healthy.Store(0)
  | dial
  | setHealthy         -- healthy.Store(1)
  | clearClosing       -- closing.Store(0)
  | unlock (ok : Bool) -- connectMu.Unlock()
  deriving DecidableEq, Repr

/-- The tests of one connection in a scan. -/
inductive CheckPc
  | healthy        -- IsHealthy: healthy.Load()
  | stopped        -- stopped.Load()
  | healthyAgain   -- CanAcceptRequest: healthy.Load()
  | stoppedAgain   -- stopped.Load()
  | active         -- activeReqs.Load()
  | score          -- HealthScore()
  deriving DecidableEq, Repr

/-- `GetConnection` and `Do`; `a` is the attempt. -/
inductive CallerPc
  | idle
  | idleLoad (a : ℕ)                                     -- getIdleConnection: connections.Load()
  | idleIndex (a : ℕ) (conns : List ℕ)                   -- index.Load()
  | check (a : ℕ) (sc : Scan) (pc : CheckPc)
  | removing (a : ℕ) (sc : Scan) (pc : RemovePc)         -- the unhealthy ones of a scan
  | claim (a : ℕ) (sc : Scan) (c idx : ℕ)                -- activeReqs.CompareAndSwap(0, 1)
  | mark (sc : Scan) (c idx : ℕ)                         -- poolClaimed.Store(true)
  | storeIndex (sc : Scan) (c idx : ℕ)                   -- index.Store
  | removingLate (sc : Scan) (c : ℕ) (pc : RemovePc)
  | createLoad (a : ℕ)                                   -- createConnection: activeCount.Load()
  | createCas (a : ℕ) (cur : ℤ)                          -- activeCount.CompareAndSwap
  | createNew (a : ℕ)                                    -- nextConnID.Add(1), NewConnection
  | dialing (a c : ℕ) (pc : EnsurePc)                    -- ensureConnection
  | undo (a : ℕ)                                         -- activeCount.Add(-1)
  | publishLoad (a c : ℕ)                                -- connections.Load()
  | publish (a c : ℕ) (old : Slice)                      -- connections.CompareAndSwap
  | created (c : ℕ)                                      -- idleCount.Add(1)
  | elapsed (a : ℕ)                                      -- time.Since(dialStart)
  | anyLoad (a : ℕ)                                      -- getAnyConnection: connections.Load()
  | anyIndex (a : ℕ) (conns : List ℕ)                    -- index.Load()
  | anyHealthy (a : ℕ) (sc : Scan)                       -- IsHealthy: healthy.Load()
  | anyStopped (a : ℕ) (sc : Scan)                       -- stopped.Load()
  | anyStore (a : ℕ) (sc : Scan) (c : ℕ)                 -- index.Store
  | anyRemoving (a : ℕ) (sc : Scan) (found : Option ℕ) (pc : RemovePc)
  | sleep (a : ℕ)
  | gotNil                                               -- GetConnection has returned nil
  | got (c : ℕ)                                          -- GetConnection has returned `c`
  | ensure (c : ℕ) (pc : EnsurePc)                       -- Do: ensureConnection
  | swap (c : ℕ)                                         -- doSequential: poolClaimed.Swap(false)
  | count (c : ℕ)                                        -- activeReqs.Add(1)
  | inside (c : ℕ)
  | leave (c : ℕ)                                        -- activeReqs.Add(-1)
  | done

/-- `evictIdleConnections`: the connections to look at, and those found idle. -/
inductive EvictPc
  | waiting
  | active (rest idle : List ℕ)       -- activeReqs.Load()
  | healthy (rest idle : List ℕ)      -- IsHealthy: healthy.Load()
  | stopped (rest idle : List ℕ)      -- stopped.Load()
  | lastUsed (rest idle : List ℕ)
  | removing (idle : List ℕ) (pc : RemovePc)

/-- `Pool.Stop`. -/
inductive StopAllPc
  | swap                                              -- connections.Swap(nil)
  | stop (c : ℕ) (rest : List ℕ) (pc : StopPc)        -- c.Stop()
  | done

structure HostPool (N : ℕ) where
  connections : Option Slice
  nextPtr : ℕ
  index : ℕ
  activeCount : ℤ
  idleCount : ℤ
  numConns : ℕ                  -- nextConnID
  slots : ℕ → Slot
  callers : Fin N → CallerPc
  evictor : EvictPc
  stopper : StopAllPc

/-- The goroutines. -/
inductive Tid (N : ℕ)
  | caller (n : Fin N)
  | evictor
  | stopper
  deriving DecidableEq

inductive Choice
  | plain
  | score (score : ℤ)       -- what HealthScore() returns; 100 otherwise
  | expired                 -- the idle timeout has passed
  | dialError
  | slow                    -- createConnection has taken more than a millisecond
  | setHealthy (b : Bool)   -- the request goes on, and sets `healthy`
  deriving DecidableEq

/-! ### What decides the next step -/

/-- Where `getIdleConnection` goes on behind its first scan, the unhealthy connections
of which are removed. -/
def scanned (a : ℕ) (sc : Scan) : CallerPc :=
  match sc.best with
  | some (c, _, idx) => .claim a sc c idx
  | none =>
    if sc.unhealthy ≠ [] then .idleLoad a
    else if sc.maxScan < sc.conns.length then .check a { sc with second := true } .healthy
    else .createLoad a

/-- Where `getIdleConnection` goes on behind one connection. -/
def resume (a : ℕ) (sc : Scan) : CallerPc :=
  if sc.i < (if sc.second then sc.conns.length else sc.maxScan) then .check a sc .healthy
  else if sc.unhealthy ≠ [] then .removing a sc .load
  else if sc.second then .createLoad a
  else scanned a sc

/-- Where `getAnyConnection` goes on behind a connection that is not healthy. -/
def anyResume (a : ℕ) (sc : Scan) : CallerPc :=
  if sc.i < min sc.conns.length 8 then .anyHealthy a sc else .anyRemoving a sc none .load

/-- Where `createConnection` goes on when `ensureConnection` has stepped. -/
def afterDial (a c : ℕ) : EnsurePc ⊕ Bool → CallerPc
  | .inl pc => .dialing a c pc
  | .inr true => .publishLoad a c
  | .inr false => .undo a

/-- Where `Do` goes on when `ensureConnection` has stepped. -/
def afterEnsure (c : ℕ) : EnsurePc ⊕ Bool → CallerPc
  | .inl pc => .ensure c pc
  | .inr true => .swap c
  | .inr false => .done

namespace HostPool

variable {N : ℕ}

/-- A pool as `getHostPool` makes it. -/
def new (N : ℕ) : HostPool N :=
  { connections := some ⟨0, []⟩, nextPtr := 1, index := 0, activeCount := 0, idleCount := 0
    numConns := 0, slots := fun _ => {}, callers := fun _ => .idle, evictor := .waiting
    stopper := .swap }

def setCaller (s : HostPool N) (n : Fin N) (pc : CallerPc) : HostPool N :=
  { s with callers := update s.callers n pc }

def setSlot (s : HostPool N) (c : ℕ) (x : Slot) : HostPool N :=
  { s with slots := update s.slots c x }

/-! ### Functions on connections and on the list of them -/

/-- A step of `Connection.Stop`; the program counter `none` is its return. -/
def stopConn (s : HostPool N) (c : ℕ) : StopPc → HostPool N × Option StopPc
  | .cas =>
    if (s.slots c).stopped then (s, none)
    else (s.setSlot c { s.slots c with stopped := true }, some .closing)
  | .closing =>
    if (s.slots c).closing then (s, none)
    else (s.setSlot c { s.slots c with closing := true }, some .unhealthy)
  | .unhealthy => (s.setSlot c { s.slots c with healthy := false }, none)

/-- A step of `removeUnhealthyConnections`. -/
def remove (s : HostPool N) (unhealthy : List ℕ) : RemovePc → HostPool N × Option RemovePc
  | .load =>
    match s.connections with
    | none => (s, none)
    | some old => if old.conns.any (· ∈ unhealthy) then (s, some (.cas old)) else (s, none)
  | .cas old =>
    if s.connections = some old then
      let kept := old.conns.filter (· ∉ unhealthy)
      let removed := old.conns.length - kept.length
      ({ s with connections := some ⟨s.nextPtr, kept⟩, nextPtr := s.nextPtr + 1 },
        match unhealthy with
        | [] => some (.active removed)
        | c :: rest => some (.stop removed c rest .cas))
    else (s, some .load)
  | .stop removed c rest pc =>
    let x := s.stopConn c pc
    (x.1,
      match x.2, rest with
      | some pc, _ => some (.stop removed c rest pc)
      | none, [] => some (.active removed)
      | none, c :: rest => some (.stop removed c rest .cas))
  | .active removed => ({ s with activeCount := s.activeCount - removed }, some (.idle removed))
  | .idle removed => ({ s with idleCount := s.idleCount - removed }, none)

/-- The test at the beginning of `ensureConnection`. -/
def usable (s : HostPool N) (c : ℕ) (ch : Choice) : Bool :=
  (s.slots c).healthy && !(ch == .expired)

/-- A step of `ensureConnection` on `c`; it goes on or returns.  Nothing, if it waits for
`connectMu`. -/
def ensureConnection (s : HostPool N) (c : ℕ) (ch : Choice) :
    EnsurePc → Option (HostPool N × (EnsurePc ⊕ Bool))
  | .test => some (s, if s.usable c ch then .inr true else .inl .lock)
  | .lock =>
    if (s.slots c).connectMu then none
    else some (s.setSlot c { s.slots c with connectMu := true }, .inl .retest)
  | .retest => some (s, .inl (if s.usable c ch then .unlock true else .unhealthy))
  | .unhealthy => some (s.setSlot c { s.slots c with healthy := false }, .inl .dial)
  | .dial => some (s, .inl (if ch = .dialError then .unlock false else .setHealthy))
  | .setHealthy => some (s.setSlot c { s.slots c with healthy := true }, .inl .clearClosing)
  | .clearClosing => some (s.setSlot c { s.slots c with closing := false }, .inl (.unlock true))
  | .unlock ok => some (s.setSlot c { s.slots c with connectMu := false }, .inr ok)

/-- A test of connection `c` in a scan of `getIdleConnection`. -/
def check (s : HostPool N) (a : ℕ) (sc : Scan) (c : ℕ) (ch : Choice) : CheckPc → CallerPc
  | .healthy => if (s.slots c).healthy then .check a sc .stopped else resume a (sc.reject c)
  | .stopped => if (s.slots c).stopped then resume a (sc.reject c) else .check a sc .healthyAgain
  | .healthyAgain => if (s.slots c).healthy then .check a sc .stoppedAgain else resume a sc.skip
  | .stoppedAgain => if (s.slots c).stopped then resume a sc.skip else .check a sc .active
  | .active =>
    if (s.slots c).activeReqs = 0 then
      if sc.second then .claim a sc c sc.idx else .check a sc .score
    else resume a sc.skip
  | .score =>
    match ch with
    | .score score => resume a (sc.rate c score)
    | _ => resume a (sc.rate c 100)

/-! ### The goroutines -/

/-- Where a caller goes on when it has the list of connections. -/
def withConns (s : HostPool N) (f : List ℕ → CallerPc) (empty : CallerPc) : CallerPc :=
  match s.connections with
  | none => empty
  | some old => if old.conns = [] then empty else f old.conns

/-- A step of `GetConnection` and `Do` of caller `n`, where `limit` is `maxIdle`. -/
def caller (limit : ℤ) (s : HostPool N) (n : Fin N) (ch : Choice) : Option (HostPool N) :=
  match s.callers n with
  | .idle => some (s.setCaller n (.idleLoad 0))
  | .idleLoad a => some (s.setCaller n (s.withConns (.idleIndex a) (.createLoad a)))
  | .idleIndex a conns => some (s.setCaller n (resume a { conns, start := s.index }))
  | .check a sc pc => sc.current.map fun c => s.setCaller n (s.check a sc c ch pc)
  | .removing a sc pc =>
    let x := s.remove sc.unhealthy pc
    some (x.1.setCaller n
      (x.2.elim (if sc.second then .createLoad a else scanned a sc) (.removing a sc)))
  | .claim a sc c idx =>
    if (s.slots c).activeReqs = 0 then
      some ((s.setSlot c { s.slots c with activeReqs := 1 }).setCaller n (.mark sc c idx))
    else some (s.setCaller n (if sc.second then resume a sc.skip else .idleLoad a))
  | .mark sc c idx =>
    some ((s.setSlot c { s.slots c with poolClaimed := true }).setCaller n (.storeIndex sc c idx))
  | .storeIndex sc c idx =>
    some ({ s with index := (idx + 1) % sc.conns.length }.setCaller n
      (if sc.second ∧ sc.unhealthy ≠ [] then .removingLate sc c .load else .got c))
  | .removingLate sc c pc =>
    let x := s.remove sc.unhealthy pc
    some (x.1.setCaller n (x.2.elim (.got c) (.removingLate sc c)))
  | .createLoad a =>
    some (s.setCaller n (if limit ≤ s.activeCount then .elapsed a else .createCas a s.activeCount))
  | .createCas a cur =>
    if s.activeCount = cur then
      some ({ s with activeCount := cur + 1 }.setCaller n (.createNew a))
    else some (s.setCaller n (.createLoad a))
  | .createNew a =>
    some ({ s with
      numConns := s.numConns + 1
      slots := update s.slots s.numConns {} }.setCaller n (.dialing a s.numConns .test))
  | .dialing a c pc =>
    (s.ensureConnection c ch pc).map fun x => x.1.setCaller n (afterDial a c x.2)
  | .undo a => some ({ s with activeCount := s.activeCount - 1 }.setCaller n (.elapsed a))
  | .publishLoad a c =>
    some (s.setCaller n (s.connections.elim (.undo a) (.publish a c)))
  | .publish a c old =>
    if s.connections = some old then
      some ({ s with
        connections := some ⟨s.nextPtr, old.conns ++ [c]⟩
        nextPtr := s.nextPtr + 1 }.setCaller n (.created c))
    else some (s.setCaller n (.publishLoad a c))
  | .created c => some ({ s with idleCount := s.idleCount + 1 }.setCaller n (.got c))
  | .elapsed a => some (s.setCaller n (if ch = .slow then .gotNil else .anyLoad a))
  | .anyLoad a => some (s.setCaller n (s.withConns (.anyIndex a) (.sleep a)))
  | .anyIndex a conns => some (s.setCaller n (.anyHealthy a { conns, start := s.index }))
  | .anyHealthy a sc =>
    sc.current.map fun c => s.setCaller n
      (if (s.slots c).healthy then .anyStopped a sc else anyResume a (sc.reject c))
  | .anyStopped a sc =>
    sc.current.map fun c => s.setCaller n
      (if (s.slots c).stopped then anyResume a (sc.reject c) else .anyStore a sc c)
  | .anyStore a sc c =>
    some ({ s with index := (sc.idx + 1) % sc.conns.length }.setCaller n
      (if sc.unhealthy = [] then .got c else .anyRemoving a sc (some c) .load))
  | .anyRemoving a sc found pc =>
    let x := s.remove sc.unhealthy pc
    some (x.1.setCaller n (x.2.elim (found.elim (.anyLoad a) .got) (.anyRemoving a sc found)))
  | .sleep a => some (s.setCaller n (if a + 1 < 20 then .idleLoad (a + 1) else .gotNil))
  | .got c => some (s.setCaller n (.ensure c .test))
  | .ensure c pc =>
    (s.ensureConnection c ch pc).map fun x => x.1.setCaller n (afterEnsure c x.2)
  | .swap c =>
    if (s.slots c).poolClaimed then
      some ((s.setSlot c { s.slots c with poolClaimed := false }).setCaller n (.inside c))
    else some (s.setCaller n (.count c))
  | .count c =>
    some ((s.setSlot c { s.slots c with activeReqs := (s.slots c).activeReqs + 1 }).setCaller n
      (.inside c))
  | .inside c =>
    match ch with
    | .setHealthy b => some (s.setSlot c { s.slots c with healthy := b })
    | _ => some (s.setCaller n (.leave c))
  | .leave c =>
    some ((s.setSlot c { s.slots c with activeReqs := (s.slots c).activeReqs - 1 }).setCaller n
      .done)
  | .gotNil => none
  | .done => none

/-- Where `evictIdleConnections` goes on with the connections that are left. -/
def evictNext (rest idle : List ℕ) : EvictPc :=
  if rest ≠ [] then .active rest idle
  else if idle ≠ [] then .removing idle .load
  else .waiting

/-- A step of `evictIdleConnections`. -/
def evict (s : HostPool N) (ch : Choice) : Option (HostPool N) :=
  match s.evictor with
  | .waiting =>
    some { s with evictor := s.connections.elim .waiting fun old => evictNext old.conns [] }
  | .active (c :: rest) idle =>
    some { s with
      evictor :=
        if (s.slots c).activeReqs = 0 then .healthy (c :: rest) idle else evictNext rest idle }
  | .healthy (c :: rest) idle =>
    some { s with
      evictor := if (s.slots c).healthy then .stopped (c :: rest) idle else evictNext rest idle }
  | .stopped (c :: rest) idle =>
    some { s with
      evictor := if (s.slots c).stopped then evictNext rest idle else .lastUsed (c :: rest) idle }
  | .lastUsed (c :: rest) idle =>
    some { s with
      evictor := if ch = .expired then evictNext rest (idle ++ [c]) else evictNext rest idle }
  | .removing idle pc =>
    let x := s.remove idle pc
    some { x.1 with evictor := x.2.elim .waiting (.removing idle) }
  | .active [] _ | .healthy [] _ | .stopped [] _ | .lastUsed [] _ => none

/-- A step of `Pool.Stop`. -/
def stop (s : HostPool N) : Option (HostPool N) :=
  match s.stopper with
  | .swap =>
    some { s with
      connections := none
      stopper :=
        match s.connections with
        | some ⟨_, c :: rest⟩ => .stop c rest .cas
        | _ => .done }
  | .stop c rest pc =>
    let x := s.stopConn c pc
    some { x.1 with
      stopper :=
        match x.2, rest with
        | some pc, _ => .stop c rest pc
        | none, c :: rest => .stop c rest .cas
        | none, [] => .done }
  | .done => none

/-- A step of one goroutine. -/
def step (limit : ℤ) (s : HostPool N) (l : Tid N × Choice) : Option (HostPool N) :=
  match l.1 with
  | .caller n => s.caller limit n l.2
  | .evictor => s.evict l.2
  | .stopper => s.stop

end HostPool

end BurstHttp.Pool
