/-
Requests that go through the scheduler (client.go, `DoWithContext`; scheduler.go,
`Scheduler.Do`, `Scheduler.worker`, `Scheduler.Stop`).

A client takes a response object from the pool for each attempt of a request and
hangs it on the request; `Scheduler.Do` queues the work and waits; a worker calls
`Do` of a connection, which takes the object off the request; the object goes back
to the pool from `DoWithContext`, or from the reader of a pipelined connection whose
caller was cancelled.

* `Sched` — the state: the connections (`Pipeline.Sys`), the clients, the work, and
  the objects put back;
* `Sched.client`, `Sched.worker`, `Sched.connStep`, `Sched.step` — the steps.

Attempts are numbered, and the response object taken for an attempt has its number:
an object that is put back and taken again counts as a new one.  Workers have
nothing but the queue in common, so a worker is named by the work it has in hand.
-/
import BurstHttp.Pipeline.Machine

namespace BurstHttp.Scheduler

open Function (update)
open Pipeline (Sys Event DoneRet)

/-- What `conn.Do` and `Scheduler.Do` return: a response object, `errRespTransferred` or
another error. -/
inductive Reply
  | ok (o : ℕ)
  | transferred
  | error
  deriving DecidableEq, Repr

/-- `DoWithContext` for one request, in attempt `n`. -/
inductive ClientPc
  | idle                                -- between attempts
  | enqueue (n : ℕ)                     -- Scheduler.Do, the first select
  | wait (n : ℕ)                        -- the second
  | returned (n : ℕ) (reply : Reply)    -- Scheduler.Do has returned
  deriving DecidableEq, Repr

/-- A `scheduledWork`, and how far a worker has got with it. -/
inductive WorkPc
  | none
  | queued
  | check                    -- work.ctx.Done()
  | getConn                  -- pool.GetConnection
  | calling (c : ℕ)          -- conn.Do, pipelined
  | load                     -- conn.Do, sequential: resp := req.resp
  | filling (o : ℕ)          -- the exchange, which fills `o`
  | reply (reply : Reply)    -- work.resp <- ...
  | sent (reply : Reply)     -- work.resp holds the reply
  | taken                    -- and has been read
  deriving DecidableEq, Repr

/-- `req` is the request of an attempt, `reqResp` the object that hangs on a request, and `objAt`
the object a pipelined `Do` has taken off it. -/
structure Sched where
  conns : ℕ → Sys
  clients : ℕ → ClientPc
  works : ℕ → WorkPc
  queue : List ℕ
  idle : ℕ                   -- the workers without work
  stopped : Bool             -- stopCh is closed
  numObjs : ℕ
  req : ℕ → ℕ
  reqResp : ℕ → ℕ
  objAt : ℕ → ℕ
  puts : List ℕ

/-- The goroutines.  Of a connection's, only those that are no callers. -/
inductive Tid
  | client (r : ℕ)
  | worker (n : ℕ)
  | conn (c : ℕ) (t : Pipeline.Tid)
  | exit                     -- a worker without work
  | stop                     -- Scheduler.Stop
  deriving DecidableEq, Repr

inductive Choice
  | plain
  | cancel                   -- ctx.Done()
  | stop                     -- stopCh
  | conn (c : ℕ)             -- GetConnection returns `c`
  | giveUp                   -- conn.Do returns an error
  | retry                    -- ShouldRetry
  | inner (ch : Pipeline.Choice)
  deriving DecidableEq, Repr

/-- What is chosen in a step of a connection. -/
def Choice.forConn : Choice → Pipeline.Choice
  | .inner ch => ch
  | _ => .plain

/-- The request whose object a reader puts back. -/
def releasedBy : Event → Option ℕ
  | .released p => some p
  | _ => none

namespace Sched

def new (workers : ℕ) : Sched :=
  { conns := fun _ => .new, clients := fun _ => .idle, works := fun _ => .none, queue := []
    idle := workers, stopped := false, numObjs := 0, req := fun _ => 0, reqResp := fun _ => 0
    objAt := fun _ => 0, puts := [] }

def setClient (s : Sched) (r : ℕ) (pc : ClientPc) : Sched :=
  { s with clients := update s.clients r pc }

def setWork (s : Sched) (n : ℕ) (pc : WorkPc) : Sched :=
  { s with works := update s.works n pc }

/-- A step of `DoWithContext` and `Scheduler.Do` for request `r`.  With the scheduler, a
response that comes with an error is never there. -/
def client (cap : ℕ) (s : Sched) (r : ℕ) (ch : Choice) : Option Sched :=
  match s.clients r with
  | .idle =>
    some ({ s with
      numObjs := s.numObjs + 1
      req := update s.req s.numObjs r
      reqResp := update s.reqResp r s.numObjs }.setClient r (.enqueue s.numObjs))
  | .enqueue n =>
    match ch with
    | .cancel => some (s.setClient r (.returned n .error))
    | .stop => if s.stopped then some (s.setClient r (.returned n .error)) else none
    | _ =>
      if s.queue.length < cap then
        some (({ s with queue := s.queue ++ [n] }.setWork n .queued).setClient r (.wait n))
      else none
  | .wait n =>
    match ch with
    | .cancel => some (s.setClient r (.returned n .error))
    | .stop => if s.stopped then some (s.setClient r (.returned n .error)) else none
    | _ =>
      match s.works n with
      | .sent reply => some ((s.setWork n .taken).setClient r (.returned n reply))
      | _ => none
  | .returned _ .transferred => some (s.setClient r .idle)
  | .returned n .error => some ({ s with puts := n :: s.puts }.setClient r .idle)
  | .returned _ (.ok o) =>
    if ch = .retry then some ({ s with puts := o :: s.puts }.setClient r .idle)
    else some (s.setClient r .idle)

/-- The requests whose objects readers have put back, between two logs of a connection. -/
def released (before after : List Event) : List ℕ :=
  (after.take (after.length - before.length)).filterMap releasedBy

/-- A step of connection `c`. -/
def connStep (cfg : Config) (s : Sched) (c : ℕ) (l : Pipeline.Tid × Pipeline.Choice) :
    Option Sched :=
  ((s.conns c).step cfg l).map fun x =>
    { s with
      conns := update s.conns c x
      puts := (released (s.conns c).log x.log).map s.objAt ++ s.puts }

/-- What a worker replies when `doPipelined` has returned. -/
def replyOf (s : Sched) (n : ℕ) : DoneRet → Reply
  | .ok => .ok (s.objAt n)
  | .transferred => .transferred
  | .error => .error

/-- A step of `conn.Do` on the pipelined connection `c`; the object is taken off the request
when the `PendingRequest` is made. -/
def doPipelined (cfg : Config) (s : Sched) (n c : ℕ) (ch : Pipeline.Choice) : Option Sched :=
  match (s.conns c).callers n with
  | .returned ret => some (s.setWork n (.reply (s.replyOf n ret)))
  | .loadConn =>
    { s with objAt := update s.objAt n (s.reqResp (s.req n)) }.connStep cfg c (.caller n, ch)
  | _ => s.connStep cfg c (.caller n, ch)

/-- A step of the worker that has work `n`, or of one that takes it. -/
def worker (cfg : Config) (s : Sched) (n : ℕ) (ch : Choice) : Option Sched :=
  match s.works n with
  | .queued =>
    if s.queue.head? = some n ∧ 0 < s.idle then
      some ({ s with queue := s.queue.tail, idle := s.idle - 1 }.setWork n .check)
    else none
  | .check => some (s.setWork n (if ch = .cancel then .reply .error else .getConn))
  | .getConn =>
    match ch with
    | .conn c => some (s.setWork n (if cfg.enablePipelining then .calling c else .load))
    | _ => some (s.setWork n (.reply .error))
  | .calling c => s.doPipelined cfg n c ch.forConn
  | .load =>
    some (s.setWork n
      (if ch = .giveUp then .reply .error else .filling (s.reqResp (s.req n))))
  | .filling o => some (s.setWork n (.reply (if ch = .giveUp then .error else .ok o)))
  | .reply reply => some ({ s with idle := s.idle + 1 }.setWork n (.sent reply))
  | .none | .sent _ | .taken => none

/-- A step of one goroutine. -/
def step (cfg : Config) (cap : ℕ) (s : Sched) (l : Tid × Choice) : Option Sched :=
  match l.1 with
  | .client r => s.client cap r l.2
  | .worker n => s.worker cfg n l.2
  | .conn c t =>
    match t with
    | .reader _ | .stopper _ => s.connStep cfg c (t, l.2.forConn)
    | .caller _ | .client _ => none
  | .exit => if s.stopped ∧ 0 < s.idle then some { s with idle := s.idle - 1 } else none
  | .stop => some { s with stopped := true }

end Sched

end BurstHttp.Scheduler
