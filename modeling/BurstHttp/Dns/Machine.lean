/-
The cache of DNS lookups (dns.go).

A state is the cache together with where each goroutine stands; a step is one section
under a mutex, one call or return of the resolver, or one send or receive.  The
strings of the source are values of an arbitrary type, and so are the errors of the
resolver.

* `Cache.lookup`, `Cache.enter`, `Cache.lead` — the sections of `LookupHost` and
  `backgroundRefresh`, which have everything from `inflightMu` on in common;
* `Cache.act` — the next step of a goroutine, `Cache.answer` — an answer of the
  resolver, `Cache.sweep` — a step of the janitor;
* `step` — one step of all.

`backgroundRefresh` may be started at any time, not only where the source does it.
The cache keeps a log of what the resolver has answered, and flights remember who
inserted them.
-/
import BurstHttp.Lib.Guarded
import Mathlib.Algebra.Group.Nat.Defs
import Mathlib.Logic.Function.Basic
import Mathlib.Data.Int.Notation

namespace BurstHttp.Dns

open Function (update)

variable {S E : Type}

/-- What `LookupHost` can fail with. -/
inductive Err (E : Type)
  | negativeCache          -- "no such host (negative cache)"
  | lookup (e : E)         -- an error of the resolver
  deriving DecidableEq

/-- `dnsEntry`. -/
structure Entry (S : Type) where
  addrs : List S
  expires : ℤ
  idx : ℕ            -- a `uint32`

/-- `dnsInflight`; it is done once it has a result. -/
structure Flight (S E : Type) where
  host : S
  leader : ℕ                                 -- the call that inserted it
  result : Option (Except E (List S))

/-- Who looks a host up behind `inflightMu`; `LookupHost` may have stale addresses. -/
inductive Role (S : Type)
  | lookup (stale : Option (List S))
  | background
  deriving DecidableEq

/-- What the one who looks a host up does next; `k` is the number of its resolver call. -/
inductive Phase (S E : Type)
  | call                                         -- net.LookupHost(host)
  | wait (k : ℕ)                                 -- until it returns
  | announce (k : ℕ) (r : Except E (List S))     -- close(fl.done)
  | delete (k : ℕ) (r : Except E (List S))       -- delete(c.inflight, host)
  | store (k : ℕ) (r : Except E (List S))        -- c.mu.Lock()
  deriving DecidableEq

/-- Where a call stands. -/
inductive Pc (S E : Type)
  | idle                                                        -- not begun
  | lookup (h : S)                                              -- LookupHost: c.mu.RLock()
  | enter (role : Role S) (h : S)                               -- c.inflightMu.Lock()
  | join (h : S) (stale : Option (List S)) (fl : ℕ)             -- <-fl.done
  | lead (role : Role S) (h : S) (fl : ℕ) (ph : Phase S E)
  | refresh (h : S)                                             -- Refresh: net.LookupHost(host)
  | refreshWait (h : S) (k : ℕ)
  | refreshStore (h : S) (k : ℕ) (addrs : List S)               -- c.mu.Lock()
  | returned (h : S) (joined : Option (ℕ × Option (List S))) (r : Except (Err E) (List S))
  | finished                                                    -- backgroundRefresh has returned
  deriving DecidableEq

/-- Where the janitor stands. -/
inductive JanitorPc (S : Type)
  | tick                                          -- now := time.Now()
  | scan (now : ℤ)                                -- c.mu.RLock()
  | delete (expired expiredNeg : S → Bool)        -- c.mu.Lock()

/-- What the cache was made with, and which hosts are addresses. -/
structure Config (S : Type) where
  ttl : ℤ
  negativeTTL : ℤ
  parseIP : S → Bool

/-- The durations of `NewDNSCache`. -/
def newDNSCache (ttl negativeTTL : ℤ) (parseIP : S → Bool) : Config S where
  ttl := if ttl ≤ 0 then 5 * 60 * 1000000000 else ttl
  negativeTTL := if negativeTTL ≤ 0 then 5 * 1000000000 else negativeTTL
  parseIP := parseIP

structure Cache (S E : Type) where
  clock : ℤ
  entries : S → Option (Entry S)
  negative : S → Option ℤ
  inflight : S → Option ℕ
  flights : List (Flight S E)
  procs : ℕ → Pc S E
  janitor : JanitorPc S
  calls : ℕ                                        -- how often the resolver was called
  answers : ℕ → Option (Except E (List S))         -- what it has answered to whom

namespace Cache

def new (clock : ℤ) : Cache S E where
  clock := clock
  entries := fun _ => none
  negative := fun _ => none
  inflight := fun _ => none
  flights := []
  procs := fun _ => .idle
  janitor := .tick
  calls := 0
  answers := fun _ => none

def setPc (s : Cache S E) (n : ℕ) (pc : Pc S E) : Cache S E := { s with procs := update s.procs n pc }

@[simp] theorem procs_setPc (s : Cache S E) (n : ℕ) (pc : Pc S E) :
    (s.setPc n pc).procs = update s.procs n pc := rfl

/-- Whether there is an unexpired negative entry for `h`. -/
def negativeLive (s : Cache S E) (h : S) : Bool :=
  match s.negative h with
  | none => false
  | some exp => decide (s.clock < exp)

/-- What a call that has joined a flight makes of its result. -/
def outcome (stale : Option (List S)) : Except E (List S) → Except (Err E) (List S)
  | .ok addrs => .ok (addrs.take 1)
  | .error e =>
    match stale with
    | some addrs => .ok addrs
    | none => .error (.lookup e)

/-- Where the flight has been deleted. -/
def landed (role : Role S) (h : S) (fl k : ℕ) (r : Except E (List S)) : Pc S E :=
  match role, r with
  | .lookup (some stale), .error _ => .returned h none (.ok stale)
  | .background, .error _ => .finished
  | .background, .ok [] => .finished
  | role, r => .lead role h fl (.store k r)

/-- The resolver answers call `n`. -/
def answer (s : Cache S E) (n : ℕ) (r : Except E (List S)) : Option (Cache S E) :=
  let s' := { s with answers := update s.answers n (some r) }
  match s.procs n with
  | .lead role h fl (.wait k) => some (s'.setPc n (.lead role h fl (.announce k r)))
  | .refreshWait h k =>
    match r with
    | .ok addrs => some (s'.setPc n (.refreshStore h k addrs))
    | .error e => some (s'.setPc n (.returned h none (.error (.lookup e))))
  | _ => none

/-- A step of the janitor. -/
def sweep (s : Cache S E) : Cache S E :=
  match s.janitor with
  | .tick => { s with janitor := .scan s.clock }
  | .scan now =>
    { s with
      janitor := .delete
        (fun h => (s.entries h).any fun e => decide (e.expires < now))
        (fun h => (s.negative h).any fun exp => decide (exp < now)) }
  | .delete expired expiredNeg =>
    { s with
      janitor := .tick
      entries := fun h => if expired h then none else s.entries h
      negative := fun h => if expiredNeg h then none else s.negative h }

variable [DecidableEq S]

/-- `LookupHost` up to the end of its first section. -/
def lookup (cfg : Config S) (s : Cache S E) (n : ℕ) (h : S) : Cache S E :=
  if cfg.parseIP h then s.setPc n (.returned h none (.ok [h]))
  else if s.negativeLive h then s.setPc n (.returned h none (.error .negativeCache))
  else
    match s.entries h with
    | none => s.setPc n (.enter (.lookup none) h)
    | some e =>
      if s.clock < e.expires then
        { s with
          entries := update s.entries h (some { e with idx := (e.idx + 1) % 2 ^ 32 })
          procs := update s.procs n
            (.returned h none (.ok (e.addrs[e.idx % e.addrs.length]?).toList)) }
      else s.setPc n (.enter (.lookup (some e.addrs)) h)

/-- The section under `inflightMu`: join the flight there is, or insert one. -/
def enter (s : Cache S E) (n : ℕ) (role : Role S) (h : S) : Cache S E :=
  match s.inflight h with
  | some fl =>
    match role with
    | .lookup stale => s.setPc n (.join h stale fl)
    | .background => s.setPc n .finished
  | none =>
    { s with
      flights := s.flights ++ [⟨h, n, none⟩]
      inflight := update s.inflight h (some s.flights.length)
      procs := update s.procs n (.lead role h s.flights.length .call) }

/-- The section that stores a result. -/
def store (cfg : Config S) (s : Cache S E) (n : ℕ) (role : Role S) (h : S) :
    Except E (List S) → Cache S E
  | .error e =>
    { s with
      negative := update s.negative h (some (s.clock + cfg.negativeTTL))
      procs := update s.procs n (.returned h none (.error (.lookup e))) }
  | .ok addrs =>
    match role with
    | .lookup _ =>
      { s with
        negative := update s.negative h none
        entries := update s.entries h (some ⟨addrs, s.clock + cfg.ttl, 0⟩)
        procs := update s.procs n (.returned h none (.ok (addrs.take 1))) }
    | .background =>
      { s with
        negative := update s.negative h none
        -- the index of an older entry is kept
        entries := update s.entries h
          (some ⟨addrs, s.clock + cfg.ttl, ((s.entries h).map Entry.idx).getD 0⟩)
        procs := update s.procs n .finished }

/-- The lookup itself. -/
def lead (cfg : Config S) (s : Cache S E) (n : ℕ) (role : Role S) (h : S) (fl : ℕ) :
    Phase S E → Option (Cache S E)
  | .call =>
    some { s with calls := s.calls + 1, procs := update s.procs n (.lead role h fl (.wait s.calls)) }
  | .wait _ => none
  | .announce k r =>
    some
      { s with
        flights := s.flights.modify fl fun f => { f with result := some r }
        procs := update s.procs n (.lead role h fl (.delete k r)) }
  | .delete k r =>
    some
      { s with
        inflight := update s.inflight h none
        procs := update s.procs n (landed role h fl k r) }
  | .store _ r => some (s.store cfg n role h r)

/-- The next step of call `n`. -/
def act (cfg : Config S) (s : Cache S E) (n : ℕ) : Option (Cache S E) :=
  match s.procs n with
  | .lookup h => some (s.lookup cfg n h)
  | .enter role h => some (s.enter n role h)
  | .join h stale fl =>
    ((s.flights[fl]?).bind Flight.result).map fun r =>
      s.setPc n (.returned h (some (fl, stale)) (outcome stale r))
  | .lead role h fl ph => s.lead cfg n role h fl ph
  | .refresh h =>
    some { s with calls := s.calls + 1, procs := update s.procs n (.refreshWait h s.calls) }
  | .refreshStore h _ addrs =>
    some
      { s with
        entries := update s.entries h (some ⟨addrs, s.clock + cfg.ttl, 0⟩)
        procs := update s.procs n (.returned h none (.ok addrs)) }
  | .idle | .refreshWait _ _ | .returned _ _ _ | .finished => none

end Cache

/-- The calls of the cache that look something up. -/
inductive Op (S : Type)
  | lookupHost (h : S)
  | backgroundRefresh (h : S)
  | refresh (h : S)

def Op.pc : Op S → Pc S E
  | .lookupHost h => .lookup h
  | .backgroundRefresh h => .enter .background h
  | .refresh h => .refresh h

inductive Label (S E : Type)
  | tick (d : ℕ)                                 -- time goes on
  | begin (n : ℕ) (op : Op S)                    -- call `n` begins
  | act (n : ℕ)
  | answer (n : ℕ) (r : Except E (List S))
  | invalidate (h : S)
  | clear
  | janitor

/-- One step. -/
def step [DecidableEq S] (cfg : Config S) (s : Cache S E) : Label S E → Option (Cache S E)
  | .tick d => some { s with clock := s.clock + d }
  | .begin n op =>
    match s.procs n with
    | .idle => some (s.setPc n op.pc)
    | _ => none
  | .act n => s.act cfg n
  | .answer n r => s.answer n r
  | .invalidate h => some { s with entries := update s.entries h none }
  | .clear => some { s with entries := fun _ => none }
  | .janitor => some s.sweep

end BurstHttp.Dns
