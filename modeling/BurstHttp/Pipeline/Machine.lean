/-
A pipelined connection used by many goroutines (connection.go, `doPipelined`,
`ResponseReader.run`, `closeConn`, `ensureConnection`, `Stop`).

A state is the shared memory of one `Connection` together with the program
counter of every goroutine; a step is one atomic operation, or one section
under `pendingMu`, of one of them.  The section of `doPipelined` is split at
the atomic operations inside it, since `ensureConnection` and `closeConn` may
run between them.

* `Sys.closeConn`, `Sys.ensureConnection`, `Sys.doPipelined`, `Sys.readerRun`,
  `Sys.stop` — one step of each function of the source;
* `Sys.step` — one step of the connection.

What the goroutines do not decide is left to a `Choice`: whether a dial or a
write fails, whether the idle timeout has passed, when a context is done, which
answers have arrived, and how a parse ends.
-/
import BurstHttp.Connection
import BurstHttp.Pipeline.Protocol

namespace BurstHttp.Pipeline

open Function (update)

/-- What `Connection.conn` holds: nothing yet, a nil pointer, or a stream. -/
inductive ConnPtr
  | unset
  | null
  | stream (i : ℕ)
  deriving DecidableEq, Repr

/-! ### Program counters -/

/-- `closeConn`. -/
inductive ClosePc
  | cas                -- closing.CompareAndSwap(0, 1)
  | load               -- conn.Load()
  | close (i : ℕ)      -- (*connPtr).Close()
  | storeNil           -- conn.Store(nilConn)
  | unhealthy          -- healthy.Store(0)
  | drop               -- the section under pendingMu
  | stop (rr : Option ℕ)   -- close(rr.stopChan)
  deriving DecidableEq, Repr

/-- `ensureConnection`, with `connectLocked`. -/
inductive EnsurePc
  | test               -- healthy.Load(), the idle timeout
  | lock               -- connectMu.Lock()
  | retest             -- the same under connectMu
  | load               -- conn.Load()
  | close (i : ℕ)      -- (*connPtr).Close()
  | storeNil           -- conn.Store(nilConn)
  | unhealthy          -- healthy.Store(0)
  | dial               -- the dial, conn.Store(connPtr)
  | resetCount         -- reqsOnConn.Store(0)
  | setHealthy         -- healthy.Store(1)
  | clearClosing       -- closing.Store(0)
  | clearStopped       -- readerStopped.Store(0)
  | unlock (ok : Bool) -- connectMu.Unlock()
  deriving DecidableEq, Repr

/-- What `doPipelined` returns: a response, `errRespTransferred` or another error. -/
inductive DoneRet
  | ok
  | transferred
  | error
  deriving DecidableEq, Repr

/-- `Do` and `doPipelined`; `i` is the stream loaded for the write. -/
inductive CallerPc
  | idle
  | ensure (rotated : Bool) (pc : EnsurePc)
  | checkClosing             -- closing.Load()
  | checkCount               -- reqsOnConn.Load()
  | rotate (pc : ClosePc)
  | prepare                  -- prepareBody, the context check
  | loadConn                 -- conn.Load()
  | lock (i : ℕ)             -- pendingMu.Lock()
  | recheck (i : ℕ)          -- closing.Load()
  | needReader (i : ℕ)       -- responseReader == nil, readerStopped.Load()
  | startStopped (i : ℕ)     -- startResponseReader: readerStopped.Load()
  | startClosing (i : ℕ)     -- closing.Load(), responseReader != nil
  | startLoad (i : ℕ)        -- conn.Load(), the new reader
  | count (i : ℕ)            -- activeReqs.Add(1)
  | write (i : ℕ)            -- writeRequest
  | uncount                  -- activeReqs.Add(-1)
  | unlockFailed             -- pendingMu.Unlock()
  | failClose (pc : ClosePc)
  | append                   -- append to pendingReqs, pendingMu.Unlock()
  | signal                   -- pendingSignal <- struct{}{}
  | wait
  | setRelease               -- pending.releaseFn = req.releaseFn
  | setCancelled             -- pending.cancelled.Store(true)
  | returned (ret : DoneRet)
  | released                 -- DoWithContext has put the response back
  deriving DecidableEq, Repr

/-- `ResponseReader.run`. -/
inductive ReaderPc
  | start                                          -- conn.Load()
  | select
  | peek                                           -- pendingReqs[0] under pendingMu
  | check (p : ℕ)                                  -- closing.Load()
  | skipCount (p : ℕ)                              -- resp == nil: activeReqs.Add(-1)
  | skipRemove (p : ℕ)                             -- removePending
  | skipErr (p : ℕ)                                -- pending.err <- ...
  | reset (p : ℕ)                                  -- resp.Reset()
  | parse (p : ℕ)                                  -- readResponseBuffered
  | loadCancelled (p : ℕ) (o : Parsed)             -- pending.cancelled.Load()
  | uncount (p : ℕ) (o : Parsed) (wasCancelled : Bool)   -- activeReqs.Add(-1)
  | remove (p : ℕ) (o : Parsed) (wasCancelled : Bool)    -- removePending
  | record (p : ℕ) (o : Parsed) (wasCancelled : Bool)    -- reqsOnConn.Add(1), unless it failed
  | deliver (p : ℕ) (o : Parsed) (wasCancelled : Bool)   -- pending.response <- resp, releaseFn
  | close (pc : ClosePc) (p : Option ℕ)            -- closeConn, before an error for `p`
  | sendErr (p : ℕ)                                -- pending.err <- ...
  | exited
  deriving DecidableEq, Repr

/-- `Stop`. -/
inductive StopPc
  | cas                      -- stopped.CompareAndSwap(0, 1)
  | closing (pc : ClosePc)
  | done
  deriving DecidableEq, Repr

/-! ### The state -/

/-- `ResponseReader`, and where its goroutine is.  `buf` are the answers in `br`. -/
structure ResponseReader where
  stream : ℕ := 0
  buf : List ℕ := []
  desync : Bool := false
  stopped : Bool := false  -- stopChan is closed
  pc : ReaderPc := .exited

/-- `PendingRequest`, and the stream it was written to. -/
structure PendingRequest where
  hasResp : Bool := true
  response : Bool := false   -- `response` holds a response
  err : Bool := false        -- `err` has got an error; there is no second receive
  cancelled : Bool := false
  releaseFn : Bool := false
  written : Option ℕ := none

structure Sys where
  conn : ConnPtr
  stopped : Bool
  healthy : Bool
  reqsOnConn : ℤ
  activeReqs : ℤ
  connectMu : Option ℕ       -- the caller that holds it
  pendingReqs : List ℕ
  pendingMu : Option ℕ       -- the caller that holds it
  responseReader : Option ℕ
  readerStopped : Bool
  closing : Bool
  pendingSignal : Bool
  numStreams : ℕ
  streams : ℕ → Stream
  numReaders : ℕ
  readers : ℕ → ResponseReader
  pend : ℕ → PendingRequest
  callers : ℕ → CallerPc
  stoppers : ℕ → StopPc
  log : List Event

/-- The goroutines: the caller of a request, what `DoWithContext` does after the
call, a reader, a caller of `Stop`. -/
inductive Tid
  | caller (n : ℕ)
  | client (n : ℕ)
  | reader (k : ℕ)
  | stopper (m : ℕ)
  deriving DecidableEq, Repr

inductive Choice
  | plain
  | noResp                                               -- the request has no response object
  | expired                                              -- the idle timeout has passed
  | dialError
  | giveUp                                               -- prepareBody fails, or the context is done
  | writeError (torn : Bool)
  | mistaken (q : ℕ)                                     -- the server takes the bytes for request `q`
  | cancel                                               -- the context is done
  | takeErr                                              -- receive from pending.err
  | stop                                                 -- receive from stopChan
  | fetch (m : ℕ)
  | finish (ret : ParseRet) (cut closes : Bool)
  deriving DecidableEq, Repr

namespace Sys

/-- `NewConnection`. -/
def new : Sys :=
  { conn := .unset, stopped := false, healthy := false, reqsOnConn := 0, activeReqs := 0
    connectMu := none, pendingReqs := [], pendingMu := none, responseReader := none
    readerStopped := false, closing := false, pendingSignal := false
    numStreams := 0, streams := fun _ => {}, numReaders := 0, readers := fun _ => {}
    pend := fun _ => {}, callers := fun _ => .idle, stoppers := fun _ => .cas, log := [] }

def setCaller (s : Sys) (n : ℕ) (pc : CallerPc) : Sys :=
  { s with callers := update s.callers n pc }

def setReader (s : Sys) (k : ℕ) (r : ResponseReader) : Sys :=
  { s with readers := update s.readers k r }

def setReaderPc (s : Sys) (k : ℕ) (pc : ReaderPc) : Sys :=
  s.setReader k { s.readers k with pc := pc }

def setPend (s : Sys) (p : ℕ) (x : PendingRequest) : Sys :=
  { s with pend := update s.pend p x }

def setStream (s : Sys) (i : ℕ) (t : Stream) : Sys :=
  { s with streams := update s.streams i t }

/-- `(*connPtr).Close()`. -/
def closeStream (s : Sys) (i : ℕ) : Sys :=
  s.setStream i { s.streams i with closed := true }

/-! ### Closing and dialing -/

/-- The section of `closeConn` under `pendingMu`. -/
def dropPending (s : Sys) : Sys :=
  { s with
    pend := fun p => if p ∈ s.pendingReqs then { s.pend p with err := true } else s.pend p
    pendingReqs := []
    responseReader := none
    readerStopped := true }

/-- A step of `closeConn`; the program counter `none` is its return.  Nothing, if it
waits for `pendingMu`. -/
def closeConn (s : Sys) : ClosePc → Option (Sys × Option ClosePc)
  | .cas => if s.closing then some (s, none) else some ({ s with closing := true }, some .load)
  | .load =>
    match s.conn with
    | .unset => some (s, some .unhealthy)
    | .null => some (s, some .storeNil)
    | .stream i => some (s, some (.close i))
  | .close i => some (s.closeStream i, some .storeNil)
  | .storeNil => some ({ s with conn := .null }, some .unhealthy)
  | .unhealthy => some ({ s with healthy := false }, some .drop)
  | .drop =>
    match s.pendingMu with
    | some _ => none
    | none => some (s.dropPending, some (.stop s.responseReader))
  | .stop none => some (s, none)
  | .stop (some k) => some (s.setReader k { s.readers k with stopped := true }, none)

/-- The test at the beginning of `ensureConnection`: connected, and not idle too long. -/
def usable (cfg : Config) (s : Sys) (ch : Choice) : Bool :=
  s.healthy && !(decide (0 < cfg.idleTimeout) && ch == .expired)

/-- A step of `ensureConnection`, called by `n`; it goes on or returns. -/
def ensureConnection (cfg : Config) (s : Sys) (n : ℕ) (ch : Choice) :
    EnsurePc → Option (Sys × (EnsurePc ⊕ Bool))
  | .test => some (s, if s.usable cfg ch then .inr true else .inl .lock)
  | .lock =>
    match s.connectMu with
    | some _ => none
    | none => some ({ s with connectMu := some n }, .inl .retest)
  | .retest => some (s, .inl (if s.usable cfg ch then .unlock true else .load))
  | .load =>
    match s.conn with
    | .unset => some (s, .inl .unhealthy)
    | .null => some (s, .inl .storeNil)
    | .stream i => some (s, .inl (.close i))
  | .close i => some (s.closeStream i, .inl .storeNil)
  | .storeNil => some ({ s with conn := .null }, .inl .unhealthy)
  | .unhealthy => some ({ s with healthy := false }, .inl .dial)
  | .dial =>
    if ch = .dialError then some (s, .inl (.unlock false))
    else
      some ({ s with
        conn := .stream s.numStreams
        numStreams := s.numStreams + 1
        streams := update s.streams s.numStreams {} }, .inl .resetCount)
  | .resetCount => some ({ s with reqsOnConn := 0 }, .inl .setHealthy)
  | .setHealthy => some ({ s with healthy := true }, .inl .clearClosing)
  | .clearClosing => some ({ s with closing := false }, .inl .clearStopped)
  | .clearStopped => some ({ s with readerStopped := false }, .inl (.unlock true))
  | .unlock ok => some ({ s with connectMu := none }, .inr ok)

/-! ### The goroutines -/

/-- Where a caller goes on when `ensureConnection` has stepped. -/
def afterEnsure (rotated : Bool) : EnsurePc ⊕ Bool → CallerPc
  | .inl pc => .ensure rotated pc
  | .inr true => if rotated then .prepare else .checkClosing
  | .inr false => .returned .error

/-- The request the server sees when caller `n` writes on `t`: its own, unless part of
another one is there already. -/
def sees (t : Stream) (n : ℕ) (ch : Choice) : ℕ :=
  match t.torn, ch with
  | true, .mistaken q => q
  | _, _ => n

/-- A step of `Do` and `doPipelined` for request `n`. -/
def doPipelined (cfg : Config) (s : Sys) (n : ℕ) (ch : Choice) : Option Sys :=
  match s.callers n with
  | .idle =>
    some ((s.setPend n { s.pend n with hasResp := ch != .noResp }).setCaller n
      (.ensure false .test))
  | .ensure rotated pc =>
    (s.ensureConnection cfg n ch pc).map fun x => x.1.setCaller n (afterEnsure rotated x.2)
  | .checkClosing =>
    some (s.setCaller n (if s.closing then .returned .error else .checkCount))
  | .checkCount =>
    if 0 < cfg.maxRequestsPerConn ∧ cfg.maxRequestsPerConn ≤ s.reqsOnConn then
      some (s.setCaller n (.rotate .cas))
    else some (s.setCaller n .prepare)
  | .rotate pc =>
    (s.closeConn pc).map fun x => x.1.setCaller n (x.2.elim (.ensure true .test) .rotate)
  | .prepare => some (s.setCaller n (if ch = .giveUp then .returned .error else .loadConn))
  | .loadConn =>
    match s.conn with
    | .stream i => some (s.setCaller n (.lock i))
    | _ => some (s.setCaller n (.returned .error))
  | .lock i =>
    match s.pendingMu with
    | some _ => none
    | none => some ({ s with pendingMu := some n }.setCaller n (.recheck i))
  | .recheck i =>
    if s.closing then some ({ s with pendingMu := none }.setCaller n (.returned .error))
    else some (s.setCaller n (.needReader i))
  | .needReader i =>
    some (s.setCaller n
      (if s.responseReader = none ∧ s.readerStopped = false then .startStopped i else .count i))
  | .startStopped i =>
    some (s.setCaller n (if s.readerStopped then .count i else .startClosing i))
  | .startClosing i =>
    some (s.setCaller n
      (if s.closing ∨ s.responseReader ≠ none then .count i else .startLoad i))
  | .startLoad i =>
    match s.conn with
    | .stream j =>
      some ({ s with
        responseReader := some s.numReaders
        numReaders := s.numReaders + 1
        readers := update s.readers s.numReaders
          { stream := j, pc := .start } }.setCaller n (.count i))
    | _ => some (s.setCaller n (.count i))
  | .count i => some ({ s with activeReqs := s.activeReqs + 1 }.setCaller n (.write i))
  | .write i =>
    match ch with
    | .writeError torn =>
      if torn then some ((s.setStream i { s.streams i with torn := true }).setCaller n .uncount)
      else some (s.setCaller n .uncount)
    | ch =>
      if (s.streams i).closed then none
      else
        let t := s.streams i
        some (((s.setStream i { t with served := t.served ++ [sees t n ch] }).setPend n
          { s.pend n with written := some i }).setCaller n .append)
  | .uncount => some ({ s with activeReqs := s.activeReqs - 1 }.setCaller n .unlockFailed)
  | .unlockFailed => some ({ s with pendingMu := none }.setCaller n (.failClose .cas))
  | .failClose pc =>
    (s.closeConn pc).map fun x => x.1.setCaller n (x.2.elim (.returned .error) .failClose)
  | .append =>
    some ({ s with pendingReqs := s.pendingReqs ++ [n], pendingMu := none }.setCaller n .signal)
  | .signal => some ({ s with pendingSignal := true }.setCaller n .wait)
  | .wait =>
    match ch with
    | .cancel => some (s.setCaller n .setRelease)
    | .takeErr =>
      if (s.pend n).err then some (s.setCaller n (.returned .error)) else none
    | _ =>
      if (s.pend n).response then
        some ((s.setPend n { s.pend n with response := false }).setCaller n (.returned .ok))
      else none
  | .setRelease =>
    some ((s.setPend n { s.pend n with releaseFn := true }).setCaller n .setCancelled)
  | .setCancelled =>
    some ((s.setPend n { s.pend n with cancelled := true }).setCaller n (.returned .transferred))
  | .returned _ => none
  | .released => none

/-- What a step of `doPipelined` at a program counter does, one case for each way it can go. -/
inductive CallerStep (cfg : Config) (s : Sys) (n : ℕ) (ch : Choice) : CallerPc → Sys → Prop
  | idle : CallerStep cfg s n ch .idle
      ((s.setPend n { s.pend n with hasResp := ch != .noResp }).setCaller n (.ensure false .test))
  | ensure {rotated : Bool} {pc : EnsurePc} {s₁ : Sys} {r : EnsurePc ⊕ Bool} :
      s.ensureConnection cfg n ch pc = some (s₁, r) →
      CallerStep cfg s n ch (.ensure rotated pc) (s₁.setCaller n (afterEnsure rotated r))
  | checkClosing : CallerStep cfg s n ch .checkClosing
      (s.setCaller n (if s.closing then .returned .error else .checkCount))
  | overLimit : 0 < cfg.maxRequestsPerConn → cfg.maxRequestsPerConn ≤ s.reqsOnConn →
      CallerStep cfg s n ch .checkCount (s.setCaller n (.rotate .cas))
  | underLimit : ¬(0 < cfg.maxRequestsPerConn ∧ cfg.maxRequestsPerConn ≤ s.reqsOnConn) →
      CallerStep cfg s n ch .checkCount (s.setCaller n .prepare)
  | rotate {pc : ClosePc} {s₁ : Sys} {r : Option ClosePc} : s.closeConn pc = some (s₁, r) →
      CallerStep cfg s n ch (.rotate pc) (s₁.setCaller n (r.elim (.ensure true .test) .rotate))
  | prepare : CallerStep cfg s n ch .prepare
      (s.setCaller n (if ch = .giveUp then .returned .error else .loadConn))
  | loadStream {i : ℕ} : s.conn = .stream i →
      CallerStep cfg s n ch .loadConn (s.setCaller n (.lock i))
  | loadNil : (∀ i, s.conn ≠ .stream i) →
      CallerStep cfg s n ch .loadConn (s.setCaller n (.returned .error))
  | lock {i : ℕ} : s.pendingMu = none → CallerStep cfg s n ch (.lock i)
      ({ s with pendingMu := some n }.setCaller n (.recheck i))
  | recheckClosing {i : ℕ} : s.closing = true → CallerStep cfg s n ch (.recheck i)
      ({ s with pendingMu := none }.setCaller n (.returned .error))
  | recheck {i : ℕ} : s.closing = false → CallerStep cfg s n ch (.recheck i)
      (s.setCaller n (.needReader i))
  | needReader {i : ℕ} : CallerStep cfg s n ch (.needReader i) (s.setCaller n
      (if s.responseReader = none ∧ s.readerStopped = false then .startStopped i else .count i))
  | startStopped {i : ℕ} : CallerStep cfg s n ch (.startStopped i)
      (s.setCaller n (if s.readerStopped then .count i else .startClosing i))
  | startClosing {i : ℕ} : CallerStep cfg s n ch (.startClosing i) (s.setCaller n
      (if s.closing ∨ s.responseReader ≠ none then .count i else .startLoad i))
  | startReader {i j : ℕ} : s.conn = .stream j → CallerStep cfg s n ch (.startLoad i)
      ({ s with
        responseReader := some s.numReaders
        numReaders := s.numReaders + 1
        readers := update s.readers s.numReaders
          { stream := j, pc := .start } }.setCaller n (.count i))
  | startNone {i : ℕ} : (∀ j, s.conn ≠ .stream j) → CallerStep cfg s n ch (.startLoad i)
      (s.setCaller n (.count i))
  | count {i : ℕ} : CallerStep cfg s n ch (.count i)
      ({ s with activeReqs := s.activeReqs + 1 }.setCaller n (.write i))
  | writeTorn {i : ℕ} : ch = .writeError true → CallerStep cfg s n ch (.write i)
      ((s.setStream i { s.streams i with torn := true }).setCaller n .uncount)
  | writeFailed {i : ℕ} : ch = .writeError false → CallerStep cfg s n ch (.write i)
      (s.setCaller n .uncount)
  | write {i : ℕ} : (∀ torn, ch ≠ .writeError torn) → (s.streams i).closed = false →
      CallerStep cfg s n ch (.write i)
        (((s.setStream i { s.streams i with
          served := (s.streams i).served ++ [sees (s.streams i) n ch] }).setPend n
            { s.pend n with written := some i }).setCaller n .append)
  | uncount : CallerStep cfg s n ch .uncount
      ({ s with activeReqs := s.activeReqs - 1 }.setCaller n .unlockFailed)
  | unlockFailed : CallerStep cfg s n ch .unlockFailed
      ({ s with pendingMu := none }.setCaller n (.failClose .cas))
  | failClose {pc : ClosePc} {s₁ : Sys} {r : Option ClosePc} : s.closeConn pc = some (s₁, r) →
      CallerStep cfg s n ch (.failClose pc)
        (s₁.setCaller n (r.elim (.returned .error) .failClose))
  | append : CallerStep cfg s n ch .append
      ({ s with pendingReqs := s.pendingReqs ++ [n], pendingMu := none }.setCaller n .signal)
  | signal : CallerStep cfg s n ch .signal ({ s with pendingSignal := true }.setCaller n .wait)
  | cancel : ch = .cancel → CallerStep cfg s n ch .wait (s.setCaller n .setRelease)
  | takeErr : ch = .takeErr → (s.pend n).err = true →
      CallerStep cfg s n ch .wait (s.setCaller n (.returned .error))
  | receive : ch ≠ .cancel → ch ≠ .takeErr → (s.pend n).response = true →
      CallerStep cfg s n ch .wait ((s.setPend n { s.pend n with response := false }).setCaller n (.returned .ok))
  | setRelease : CallerStep cfg s n ch .setRelease
      ((s.setPend n { s.pend n with releaseFn := true }).setCaller n .setCancelled)
  | setCancelled : CallerStep cfg s n ch .setCancelled
      ((s.setPend n { s.pend n with cancelled := true }).setCaller n (.returned .transferred))

/-- `DoWithContext` after the call: an error that is not `errRespTransferred` sends the
response object back to the pool. -/
def releaseResponse (s : Sys) (n : ℕ) : Option Sys :=
  match s.callers n with
  | .returned .error => some ({ s with log := .put n :: s.log }.setCaller n .released)
  | _ => none

/-- The parse of a response into the object of `p`: more answers arrive, or it returns. -/
def parse (s : Sys) (k p : ℕ) (ch : Choice) : Option Sys :=
  let r := s.readers k
  let t := s.streams r.stream
  match ch with
  | .fetch m =>
    if t.closed then none
    else
      let got := (t.served.drop t.taken).take m
      some (({ s with log := .touched p :: s.log }.setStream r.stream
        { t with taken := t.taken + got.length }).setReader k { r with buf := r.buf ++ got })
  | .finish ret cut closes =>
    if ret = .early ∨ r.desync then
      some ({ s with
        log := parseEvents p r.stream ret cut ++ s.log }.setReader k
        { r with desync := r.desync || cut, pc := .loadCancelled p ⟨none, ret, closes⟩ })
    else
      match r.buf with
      | [] => none
      | q :: rest =>
        some (({ s with
          log := parseEvents p r.stream ret cut ++ s.log }.setStream r.stream
          { t with answered := t.answered + 1 }).setReader k
          { r with buf := rest, desync := cut, pc := .loadCancelled p ⟨some q, ret, closes⟩ })
  | _ => none

/-- `removePending`; nothing, if it waits for `pendingMu`. -/
def removePending (s : Sys) (p : ℕ) : Option Sys :=
  match s.pendingMu with
  | some _ => none
  | none => some { s with pendingReqs := s.pendingReqs.erase p }

/-- The end of a parse: the response goes to the caller, or back to the pool if the
caller has left.  After an error without a status code only the latter. -/
def deliver (s : Sys) (k p : ℕ) (o : Parsed) (wasCancelled : Bool) : Sys :=
  if wasCancelled then
    if (s.pend p).releaseFn then { s with log := .released p :: s.log } else s
  else if o.ret = .early ∨ (s.pend p).response then s
  else
    { s with log := .sent p (s.readers k).stream o.answer :: s.log }.setPend p
      { s.pend p with response := true }

/-- Where a reader goes on after that. -/
def afterDeliver (p : ℕ) (o : Parsed) (wasCancelled : Bool) : ReaderPc :=
  if o.ret = .early then .close .cas (if wasCancelled then none else some p)
  else if o.closes then .close .cas none
  else .peek

/-- A step of `ResponseReader.run` of reader `k`. -/
def readerRun (s : Sys) (k : ℕ) (ch : Choice) : Option Sys :=
  match (s.readers k).pc with
  | .start =>
    match s.conn with
    | .stream _ => some (s.setReaderPc k .select)
    | _ => some (s.setReaderPc k .exited)
  | .select =>
    match ch with
    | .stop => if (s.readers k).stopped then some (s.setReaderPc k .exited) else none
    | _ =>
      if s.pendingSignal then some ({ s with pendingSignal := false }.setReaderPc k .peek)
      else none
  | .peek =>
    match s.pendingMu, s.pendingReqs with
    | some _, _ => none
    | none, [] => some (s.setReaderPc k .select)
    | none, p :: _ => some (s.setReaderPc k (.check p))
  | .check p =>
    if s.closing then some (s.setReaderPc k .exited)
    else some (s.setReaderPc k (if (s.pend p).hasResp then .reset p else .skipCount p))
  | .skipCount p =>
    some ({ s with activeReqs := s.activeReqs - 1 }.setReaderPc k (.skipRemove p))
  | .skipRemove p => (s.removePending p).map fun s => s.setReaderPc k (.skipErr p)
  | .skipErr p =>
    if (s.pend p).cancelled then some (s.setReaderPc k .peek)
    else some ((s.setPend p { s.pend p with err := true }).setReaderPc k .peek)
  | .reset p =>
    some ({ s with
      log := .touched p :: .began (s.readers k).stream :: s.log }.setReaderPc k (.parse p))
  | .parse p => s.parse k p ch
  | .loadCancelled p o => some (s.setReaderPc k (.uncount p o (s.pend p).cancelled))
  | .uncount p o c =>
    some ({ s with activeReqs := s.activeReqs - 1 }.setReaderPc k (.remove p o c))
  | .remove p o c => (s.removePending p).map fun s => s.setReaderPc k (.record p o c)
  | .record p o c =>
    if o.ret = .early then some (s.setReaderPc k (.deliver p o c))
    else some ({ s with reqsOnConn := wrap32 (s.reqsOnConn + 1) }.setReaderPc k (.deliver p o c))
  | .deliver p o c => some ((s.deliver k p o c).setReaderPc k (afterDeliver p o c))
  | .close pc p =>
    (s.closeConn pc).map fun x =>
      x.1.setReaderPc k (x.2.elim (p.elim .exited .sendErr) (.close · p))
  | .sendErr p => some ((s.setPend p { s.pend p with err := true }).setReaderPc k .exited)
  | .exited => none

/-- What a step of `ResponseReader.run` at a program counter does. -/
inductive ReaderStep (s : Sys) (k : ℕ) (ch : Choice) : ReaderPc → Sys → Prop
  | start {i : ℕ} : s.conn = .stream i → ReaderStep s k ch .start (s.setReaderPc k .select)
  | startNone : (∀ i, s.conn ≠ .stream i) → ReaderStep s k ch .start (s.setReaderPc k .exited)
  | stop : ch = .stop → (s.readers k).stopped = true →
      ReaderStep s k ch .select (s.setReaderPc k .exited)
  | wake : ch ≠ .stop → s.pendingSignal = true → ReaderStep s k ch .select
      ({ s with pendingSignal := false }.setReaderPc k .peek)
  | peekNone : s.pendingMu = none → s.pendingReqs = [] →
      ReaderStep s k ch .peek (s.setReaderPc k .select)
  | peek {p : ℕ} {rest : List ℕ} : s.pendingMu = none → s.pendingReqs = p :: rest →
      ReaderStep s k ch .peek (s.setReaderPc k (.check p))
  | checkClosing {p : ℕ} : s.closing = true →
      ReaderStep s k ch (.check p) (s.setReaderPc k .exited)
  | check {p : ℕ} : s.closing = false → (s.pend p).hasResp = true →
      ReaderStep s k ch (.check p) (s.setReaderPc k (.reset p))
  | skip {p : ℕ} : s.closing = false → (s.pend p).hasResp = false →
      ReaderStep s k ch (.check p) (s.setReaderPc k (.skipCount p))
  | skipCount {p : ℕ} : ReaderStep s k ch (.skipCount p)
      ({ s with activeReqs := s.activeReqs - 1 }.setReaderPc k (.skipRemove p))
  | skipRemove {p : ℕ} : s.pendingMu = none → ReaderStep s k ch (.skipRemove p)
      ({ s with pendingReqs := s.pendingReqs.erase p }.setReaderPc k (.skipErr p))
  | skipErrLeft {p : ℕ} : (s.pend p).cancelled = true →
      ReaderStep s k ch (.skipErr p) (s.setReaderPc k .peek)
  | skipErr {p : ℕ} : (s.pend p).cancelled = false → ReaderStep s k ch (.skipErr p)
      ((s.setPend p { s.pend p with err := true }).setReaderPc k .peek)
  | reset {p : ℕ} : ReaderStep s k ch (.reset p)
      ({ s with
        log := .touched p :: .began (s.readers k).stream :: s.log }.setReaderPc k (.parse p))
  | parse {p : ℕ} {s' : Sys} : s.parse k p ch = some s' → ReaderStep s k ch (.parse p) s'
  | loadCancelled {p : ℕ} {o : Parsed} : ReaderStep s k ch (.loadCancelled p o)
      (s.setReaderPc k (.uncount p o (s.pend p).cancelled))
  | uncount {p : ℕ} {o : Parsed} {c : Bool} : ReaderStep s k ch (.uncount p o c)
      ({ s with activeReqs := s.activeReqs - 1 }.setReaderPc k (.remove p o c))
  | remove {p : ℕ} {o : Parsed} {c : Bool} : s.pendingMu = none →
      ReaderStep s k ch (.remove p o c)
        ({ s with pendingReqs := s.pendingReqs.erase p }.setReaderPc k (.record p o c))
  | recordNone {p : ℕ} {o : Parsed} {c : Bool} : o.ret = .early →
      ReaderStep s k ch (.record p o c) (s.setReaderPc k (.deliver p o c))
  | record {p : ℕ} {o : Parsed} {c : Bool} : o.ret ≠ .early → ReaderStep s k ch (.record p o c)
      ({ s with reqsOnConn := wrap32 (s.reqsOnConn + 1) }.setReaderPc k (.deliver p o c))
  | deliver {p : ℕ} {o : Parsed} {c : Bool} : ReaderStep s k ch (.deliver p o c)
      ((s.deliver k p o c).setReaderPc k (afterDeliver p o c))
  | close {pc : ClosePc} {p : Option ℕ} {s₁ : Sys} {r : Option ClosePc} :
      s.closeConn pc = some (s₁, r) → ReaderStep s k ch (.close pc p)
        (s₁.setReaderPc k (r.elim (p.elim .exited .sendErr) (.close · p)))
  | sendErr {p : ℕ} : ReaderStep s k ch (.sendErr p)
      ((s.setPend p { s.pend p with err := true }).setReaderPc k .exited)

/-- A step of `Stop` of caller `m`. -/
def stop (s : Sys) (m : ℕ) : Option Sys :=
  match s.stoppers m with
  | .cas =>
    if s.stopped then some { s with stoppers := update s.stoppers m .done }
    else some { s with stopped := true, stoppers := update s.stoppers m (.closing .cas) }
  | .closing pc =>
    (s.closeConn pc).map fun x =>
      { x.1 with stoppers := update x.1.stoppers m (x.2.elim .done .closing) }
  | .done => none

/-- A step of one goroutine. -/
def step (cfg : Config) (s : Sys) (l : Tid × Choice) : Option Sys :=
  match l.1 with
  | .caller n => s.doPipelined cfg n l.2
  | .client n => s.releaseResponse n
  | .reader k => s.readerRun k l.2
  | .stopper m => s.stop m

theorem doPipelined_step {cfg : Config} {s s' : Sys} {n : ℕ} {ch : Choice}
    (hs : s.doPipelined cfg n ch = some s') : CallerStep cfg s n ch (s.callers n) s' := by
  cases hpc : s.callers n with
  | ensure rotated pc =>
    simp only [doPipelined, hpc] at hs
    obtain ⟨⟨s₁, r⟩, hr, rfl⟩ := Option.map_eq_some_iff.mp hs
    exact .ensure hr
  | rotate pc =>
    simp only [doPipelined, hpc] at hs
    obtain ⟨⟨s₁, r⟩, hr, rfl⟩ := Option.map_eq_some_iff.mp hs
    exact .rotate hr
  | failClose pc =>
    simp only [doPipelined, hpc] at hs
    obtain ⟨⟨s₁, r⟩, hr, rfl⟩ := Option.map_eq_some_iff.mp hs
    exact .failClose hr
  | write i =>
    simp only [doPipelined, hpc] at hs
    split at hs
    · split at hs <;> cases hs
      · exact .writeTorn (by simp_all)
      · exact .writeFailed (by simp_all)
    · split at hs <;> cases hs
      exact .write (by assumption) (by simp_all)
  | wait =>
    simp only [doPipelined, hpc] at hs
    repeat' split at hs
    all_goals cases hs
    · exact .cancel rfl
    · exact .takeErr rfl (by assumption)
    · exact .receive (by assumption) (by assumption) (by assumption)
  | loadConn =>
    simp only [doPipelined, hpc] at hs
    split at hs <;> cases hs
    · exact .loadStream (by assumption)
    · exact .loadNil (by assumption)
  | startLoad i =>
    simp only [doPipelined, hpc] at hs
    split at hs <;> cases hs
    · exact .startReader (by assumption)
    · exact .startNone (by assumption)
  | lock i =>
    simp only [doPipelined, hpc] at hs
    split at hs <;> cases hs
    exact .lock (by assumption)
  | checkCount =>
    simp only [doPipelined, hpc] at hs
    split at hs <;> cases hs
    · case _ hdue => exact .overLimit hdue.1 hdue.2
    · exact .underLimit (by assumption)
  | recheck i =>
    simp only [doPipelined, hpc] at hs
    split at hs <;> cases hs
    · exact .recheckClosing (by assumption)
    · exact .recheck (by simp_all)
  | idle | checkClosing | prepare | needReader i | startStopped i | startClosing i | count i
  | uncount | unlockFailed | append | signal | setRelease | setCancelled =>
    simp only [doPipelined, hpc] at hs
    cases hs
    constructor
  | returned ret | released =>
    simp only [doPipelined, hpc] at hs
    cases hs

theorem readerRun_step {s s' : Sys} {k : ℕ} {ch : Choice} (hs : s.readerRun k ch = some s') :
    ReaderStep s k ch (s.readers k).pc s' := by
  cases hpc : (s.readers k).pc with
  | start =>
    simp only [readerRun, hpc] at hs
    split at hs <;> cases hs
    · exact .start (by assumption)
    · exact .startNone (by assumption)
  | select =>
    simp only [readerRun, hpc] at hs
    repeat' split at hs
    all_goals cases hs
    · exact .stop rfl (by assumption)
    · exact .wake (by assumption) (by assumption)
  | peek =>
    simp only [readerRun, hpc] at hs
    split at hs <;> cases hs
    · exact .peekNone (by assumption) (by assumption)
    · exact .peek (by assumption) (by assumption)
  | check p =>
    simp only [readerRun, hpc] at hs
    split at hs <;> cases hs
    · exact .checkClosing (by assumption)
    · cases hresp : (s.pend p).hasResp with
      | true => exact .check (by simp_all) hresp
      | false => exact .skip (by simp_all) hresp
  | skipErr p =>
    simp only [readerRun, hpc] at hs
    split at hs <;> cases hs
    · exact .skipErrLeft (by assumption)
    · exact .skipErr (by simp_all)
  | skipRemove p =>
    simp only [readerRun, hpc, removePending] at hs
    split at hs <;> cases hs
    exact .skipRemove (by assumption)
  | remove p o c =>
    simp only [readerRun, hpc, removePending] at hs
    split at hs <;> cases hs
    exact .remove (by assumption)
  | record p o c =>
    simp only [readerRun, hpc] at hs
    split at hs <;> cases hs
    · exact .recordNone (by assumption)
    · exact .record (by assumption)
  | parse p =>
    simp only [readerRun, hpc] at hs
    exact .parse hs
  | close pc p =>
    simp only [readerRun, hpc] at hs
    obtain ⟨⟨s₁, r⟩, hr, rfl⟩ := Option.map_eq_some_iff.mp hs
    exact .close hr
  | skipCount p | reset p | loadCancelled p o | uncount p o c | deliver p o c | sendErr p =>
    simp only [readerRun, hpc] at hs
    cases hs
    constructor
  | exited =>
    simp only [readerRun, hpc] at hs
    cases hs

/-- A parse touches one stream, which it does not open, its own reader and the log. -/
theorem parse_frame {s s' : Sys} {k p : ℕ} {ch : Choice} (hs : s.parse k p ch = some s') :
    ∃ i t log r, s' = ({ s with log := log }.setStream i t).setReader k r ∧
      t.closed = (s.streams i).closed ∧ r.stream = (s.readers k).stream ∧
      (r.pc = (s.readers k).pc ∨ ∃ o, r.pc = .loadCancelled p o) := by
  have hsame (log : List Event) (r : ResponseReader) : { s with log := log }.setReader k r =
      ({ s with log := log }.setStream 0 (s.streams 0)).setReader k r := by
    simp only [setStream, Function.update_eq_self]
  unfold parse at hs
  dsimp only at hs
  split at hs
  · split at hs <;> cases hs
    exact ⟨_, _, _, _, rfl, rfl, rfl, .inl rfl⟩
  · split at hs
    · cases hs
      exact ⟨0, s.streams 0, _, _, hsame _ _, rfl, rfl, .inr ⟨_, rfl⟩⟩
    · split at hs <;> cases hs
      exact ⟨_, _, _, _, rfl, rfl, rfl, .inr ⟨_, rfl⟩⟩
  · cases hs

/-- A delivery touches the response channel of the request and the log. -/
theorem deliver_frame (s : Sys) (k p : ℕ) (o : Parsed) (c : Bool) :
    ∃ log response, s.deliver k p o c =
      { s with log := log }.setPend p { s.pend p with response := response } := by
  have hsame (log : List Event) :
      { s with log := log } = { s with log := log }.setPend p (s.pend p) := by
    simp only [setPend, Function.update_eq_self]
  unfold deliver
  split
  · split <;> exact ⟨_, _, hsame _⟩
  · split
    · exact ⟨_, _, hsame _⟩
    · exact ⟨_, _, rfl⟩

end Sys

end BurstHttp.Pipeline
