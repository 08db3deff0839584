/-
The life cycle of a connection, in both modes (connection.go, `Do`, `doSequential`,
`ensureConnection`, `closeConn`, `Stop`).

`Life` is the pipelined connection with the calls that `Do` makes without pipelining
beside it: they share `conn`, `healthy`, `closing`, `connectMu` and the counters.
`Config.enablePipelining` decides which of the two a call is.

* `Life.doSequential` — one step of `Do` and `doSequential`, `Life.step` — one step of
  the connection in its mode;
* `Sys.TakesDown` — steps that can only take the connection down: all but the dial;
* `Life.Final` — what `Stop` has achieved at each of its steps, `step_final` — kept by
  steps that are calm (`Life.Calm`): no call finds the connection down once it is
  stopped, `Stop` finds no call inside `connectMu`, and it leaves early only if nothing
  is open;
* `stop_final` — in such runs nothing is open once `Stop` has returned, and nothing is
  dialed any more;
* `stop_resurrected` — in other runs a call dials again, and leaves the stream open.
-/
import BurstHttp.Pipeline.Rotation

namespace BurstHttp.Pipeline

open Function (update)
open Guarded (Reaches)

/-! ### Calls without pipelining -/

/-- `Do` and `doSequential`; `i` is the stream loaded for the exchange. -/
inductive SeqPc
  | idle
  | ensure (rotated : Bool) (pc : EnsurePc)
  | claim                    -- poolClaimed.Swap(false)
  | count                    -- activeReqs.Add(1)
  | checkCtx                 -- the context check
  | checkCount               -- reqsOnConn.Load()
  | rotate (pc : ClosePc)
  | loadConn                 -- conn.Load()
  | prepare (i : ℕ)          -- prepareBody, resp == nil
  | exchange (i : ℕ)         -- writeRequest, readResponse
  | record (closes : Bool)   -- reqsOnConn.Add(1)
  | unhealthy (ret : DoneRet)   -- healthy.Store(0)
  | uncount (ret : DoneRet)  -- the deferred activeReqs.Add(-1)
  | returned (ret : DoneRet)
  deriving DecidableEq, Repr

structure Life where
  sys : Sys
  poolClaimed : Bool
  seq : ℕ → SeqPc

/-- A goroutine of the connection, or the pool that claims it for a caller. -/
inductive Agent
  | conn (t : Tid)
  | pool
  deriving DecidableEq, Repr

namespace Life

def new : Life := { sys := Sys.new, poolClaimed := false, seq := fun _ => .idle }

def setSeq (s : Life) (n : ℕ) (pc : SeqPc) : Life := { s with seq := update s.seq n pc }

/-- Where a call goes on when `ensureConnection` has stepped.  After a rotation it has been
counted. -/
def afterEnsure (rotated : Bool) : EnsurePc ⊕ Bool → SeqPc
  | .inl pc => .ensure rotated pc
  | .inr true => if rotated then .loadConn else .claim
  | .inr false => if rotated then .uncount .error else .returned .error

/-- The end of the exchange with the server: an error that leaves no status code, or a
response, also one whose body was not read to its end. -/
def exchanged (closed : Bool) : Choice → Option SeqPc
  | .writeError _ => some (.unhealthy .error)
  | .finish ret _ closes =>
    if ret = .early then some (.unhealthy .error)
    else if closed then none
    else some (.record (decide (ret = .ok) && closes))
  | _ => none

/-- A step of `Do` and `doSequential` for call `n`. -/
def doSequential (cfg : Config) (s : Life) (n : ℕ) (ch : Choice) : Option Life :=
  match s.seq n with
  | .idle => some (s.setSeq n (.ensure false .test))
  | .ensure rotated pc =>
    (s.sys.ensureConnection cfg n ch pc).map fun x =>
      { s with sys := x.1 }.setSeq n (afterEnsure rotated x.2)
  | .claim =>
    some ({ s with poolClaimed := false }.setSeq n (if s.poolClaimed then .checkCtx else .count))
  | .count =>
    some ({ s with sys := { s.sys with activeReqs := s.sys.activeReqs + 1 } }.setSeq n .checkCtx)
  | .checkCtx => some (s.setSeq n (if ch = .giveUp then .uncount .error else .checkCount))
  | .checkCount =>
    some (s.setSeq n
      (if 0 < cfg.maxRequestsPerConn ∧ cfg.maxRequestsPerConn ≤ s.sys.reqsOnConn then .rotate .cas
      else .loadConn))
  | .rotate pc =>
    (s.sys.closeConn pc).map fun x =>
      { s with sys := x.1 }.setSeq n (x.2.elim (.ensure true .test) .rotate)
  | .loadConn =>
    match s.sys.conn with
    | .stream i => some (s.setSeq n (.prepare i))
    | _ => some (s.setSeq n (.uncount .error))
  | .prepare i => some (s.setSeq n (if ch = .giveUp then .uncount .error else .exchange i))
  | .exchange i => (exchanged (s.sys.streams i).closed ch).map (s.setSeq n)
  | .record closes =>
    some ({ s with sys := { s.sys with reqsOnConn := wrap32 (s.sys.reqsOnConn + 1) } }.setSeq n
      (if closes then .unhealthy .ok else .uncount .ok))
  | .unhealthy ret =>
    some ({ s with sys := { s.sys with healthy := false } }.setSeq n (.uncount ret))
  | .uncount ret =>
    some ({ s with sys := { s.sys with activeReqs := s.sys.activeReqs - 1 } }.setSeq n
      (.returned ret))
  | .returned _ => none

/-- What a step of a call at a program counter does. -/
inductive SeqStep (cfg : Config) (s : Life) (n : ℕ) (ch : Choice) : SeqPc → Life → Prop
  | idle : SeqStep cfg s n ch .idle (s.setSeq n (.ensure false .test))
  | ensure {rotated : Bool} {pc : EnsurePc} {sys : Sys} {r : EnsurePc ⊕ Bool} :
      s.sys.ensureConnection cfg n ch pc = some (sys, r) →
      SeqStep cfg s n ch (.ensure rotated pc)
        ({ s with sys := sys }.setSeq n (afterEnsure rotated r))
  | claim : SeqStep cfg s n ch .claim
      ({ s with poolClaimed := false }.setSeq n (if s.poolClaimed then .checkCtx else .count))
  | count : SeqStep cfg s n ch .count
      ({ s with sys := { s.sys with activeReqs := s.sys.activeReqs + 1 } }.setSeq n .checkCtx)
  | giveUp : SeqStep cfg s n ch .checkCtx (s.setSeq n (.uncount .error))
  | checkCtx : SeqStep cfg s n ch .checkCtx (s.setSeq n .checkCount)
  | overLimit : 0 < cfg.maxRequestsPerConn → cfg.maxRequestsPerConn ≤ s.sys.reqsOnConn →
      SeqStep cfg s n ch .checkCount (s.setSeq n (.rotate .cas))
  | underLimit : ¬(0 < cfg.maxRequestsPerConn ∧ cfg.maxRequestsPerConn ≤ s.sys.reqsOnConn) →
      SeqStep cfg s n ch .checkCount (s.setSeq n .loadConn)
  | rotate {pc : ClosePc} {sys : Sys} {r : Option ClosePc} :
      s.sys.closeConn pc = some (sys, r) → SeqStep cfg s n ch (.rotate pc)
        ({ s with sys := sys }.setSeq n (r.elim (.ensure true .test) .rotate))
  | loadStream {i : ℕ} : s.sys.conn = .stream i →
      SeqStep cfg s n ch .loadConn (s.setSeq n (.prepare i))
  | loadNil : SeqStep cfg s n ch .loadConn (s.setSeq n (.uncount .error))
  | refuse {i : ℕ} : SeqStep cfg s n ch (.prepare i) (s.setSeq n (.uncount .error))
  | prepare {i : ℕ} : SeqStep cfg s n ch (.prepare i) (s.setSeq n (.exchange i))
  | exchange {i : ℕ} {pc : SeqPc} : exchanged (s.sys.streams i).closed ch = some pc →
      SeqStep cfg s n ch (.exchange i) (s.setSeq n pc)
  | record {closes : Bool} : SeqStep cfg s n ch (.record closes)
      ({ s with sys := { s.sys with reqsOnConn := wrap32 (s.sys.reqsOnConn + 1) } }.setSeq n
        (if closes then .unhealthy .ok else .uncount .ok))
  | unhealthy {ret : DoneRet} : SeqStep cfg s n ch (.unhealthy ret)
      ({ s with sys := { s.sys with healthy := false } }.setSeq n (.uncount ret))
  | uncount {ret : DoneRet} : SeqStep cfg s n ch (.uncount ret)
      ({ s with sys := { s.sys with activeReqs := s.sys.activeReqs - 1 } }.setSeq n
        (.returned ret))

theorem doSequential_step {cfg : Config} {s s' : Life} {n : ℕ} {ch : Choice}
    (hs : s.doSequential cfg n ch = some s') : SeqStep cfg s n ch (s.seq n) s' := by
  cases hpc : s.seq n with
  | ensure rotated pc =>
    simp only [doSequential, hpc] at hs
    obtain ⟨⟨sys, r⟩, hr, rfl⟩ := Option.map_eq_some_iff.mp hs
    exact .ensure hr
  | rotate pc =>
    simp only [doSequential, hpc] at hs
    obtain ⟨⟨sys, r⟩, hr, rfl⟩ := Option.map_eq_some_iff.mp hs
    exact .rotate hr
  | exchange i =>
    simp only [doSequential, hpc] at hs
    obtain ⟨pc, hx, rfl⟩ := Option.map_eq_some_iff.mp hs
    exact .exchange hx
  | checkCount =>
    simp only [doSequential, hpc] at hs
    cases hs
    split
    · case _ hdue => exact .overLimit hdue.1 hdue.2
    · exact .underLimit (by assumption)
  | loadConn =>
    simp only [doSequential, hpc] at hs
    split at hs <;> cases hs
    · exact .loadStream (by assumption)
    · exact .loadNil
  | checkCtx | prepare i =>
    simp only [doSequential, hpc] at hs
    cases hs
    split <;> constructor
  | idle | claim | count | record closes | unhealthy ret | uncount ret =>
    simp only [doSequential, hpc] at hs
    cases hs
    constructor
  | returned ret =>
    simp only [doSequential, hpc] at hs
    cases hs

/-- `getIdleConnection` claims the connection for a caller. -/
def claim (s : Life) : Life :=
  if s.sys.activeReqs = 0 then
    { s with sys := { s.sys with activeReqs := 1 }, poolClaimed := true }
  else s

/-- A step of the connection. -/
def step (cfg : Config) (s : Life) (l : Agent × Choice) : Option Life :=
  match l.1 with
  | .pool => some s.claim
  | .conn (.caller n) =>
    if cfg.enablePipelining then
      (s.sys.doPipelined cfg n l.2).map fun sys => { s with sys := sys }
    else s.doSequential cfg n l.2
  | .conn t => (s.sys.step cfg (t, l.2)).map fun sys => { s with sys := sys }

end Life

/-! ### Where calls are in `ensureConnection` -/

/-- The caller holds `connectMu`. -/
def EnsurePc.locked : EnsurePc → Bool
  | .test | .lock => false
  | _ => true

/-- The caller is on its way to the dial. -/
def EnsurePc.dials : EnsurePc → Bool
  | .load | .close _ | .storeNil | .unhealthy | .dial => true
  | _ => false

theorem EnsurePc.locked_of_dials {pc : EnsurePc} (h : pc.dials = true) : pc.locked = true := by
  cases pc <;> first | rfl | cases h

def CallerPc.ensuring : CallerPc → Option EnsurePc
  | .ensure _ pc => some pc
  | _ => none

def SeqPc.ensuring : SeqPc → Option EnsurePc
  | .ensure _ pc => some pc
  | _ => none

/-- Where the call is in `ensureConnection`, if it is there. -/
def Life.ensuring (cfg : Config) (s : Life) (n : ℕ) : Option EnsurePc :=
  if cfg.enablePipelining then (s.sys.callers n).ensuring else (s.seq n).ensuring

/-! ### Steps that take the connection down -/

namespace Sys

/-- The step dials nothing; at most it closes streams and clears `conn`. -/
structure TakesDown (s s' : Sys) : Prop where
  conn : s'.conn = s.conn ∨ s'.conn = .null
  closed : ∀ i, (s.streams i).closed = true → (s'.streams i).closed = true
  numStreams : s'.numStreams = s.numStreams

namespace TakesDown

variable {s s' : Sys}

theorem same (hconn : s'.conn = s.conn) (hstreams : s'.streams = s.streams)
    (hnum : s'.numStreams = s.numStreams) : s.TakesDown s' :=
  ⟨.inl hconn, fun _ hi => hstreams ▸ hi, hnum⟩

theorem stream {i : ℕ} {t : Stream} (hconn : s'.conn = s.conn)
    (hstreams : s'.streams = update s.streams i t) (hnum : s'.numStreams = s.numStreams)
    (h : (s.streams i).closed = true → t.closed = true) : s.TakesDown s' := by
  refine ⟨.inl hconn, fun j hj => ?_, hnum⟩
  rw [hstreams]
  rcases eq_or_ne j i with rfl | hji
  · rw [Function.update_self]
    exact h hj
  · rwa [Function.update_of_ne hji]

theorem trans {s'' : Sys} (h : s.TakesDown s') (h' : s'.TakesDown s'') : s.TakesDown s'' where
  conn := by
    rcases h'.conn with hc | hc
    · exact hc ▸ h.conn
    · exact .inr hc
  closed i hi := h'.closed i (h.closed i hi)
  numStreams := h'.numStreams.trans h.numStreams

/-- What is not open does not become so. -/
theorem not_open (h : s.TakesDown s') (hopen : ¬s.Open) : ¬s'.Open := by
  rintro ⟨i, hi, hio⟩
  rcases h.conn with hc | hc
  · refine hopen ⟨i, hc.symm.trans hi, ?_⟩
    by_contra hcl
    exact absurd (hio.symm.trans (h.closed i (by simpa using hcl))) (by simp)
  · rw [hc] at hi
    cases hi

end TakesDown

end Sys

section Steps

variable {cfg : Config} {s s' : Sys}

theorem closeConn_takesDown {pc : ClosePc} {r : Option ClosePc}
    (hs : s.closeConn pc = some (s', r)) :
    s.TakesDown s' ∧ s'.stopped = s.stopped ∧ s'.stoppers = s.stoppers ∧
      s'.connectMu = s.connectMu := by
  match pc with
  | .cas | .load =>
    simp only [Sys.closeConn] at hs
    split at hs <;> cases hs <;> exact ⟨.same rfl rfl rfl, rfl, rfl, rfl⟩
  | .close i =>
    cases hs
    exact ⟨.stream rfl rfl rfl fun _ => rfl, rfl, rfl, rfl⟩
  | .storeNil =>
    cases hs
    exact ⟨⟨.inr rfl, fun _ => id, rfl⟩, rfl, rfl, rfl⟩
  | .unhealthy | .stop none | .stop (some _) =>
    cases hs
    exact ⟨.same rfl rfl rfl, rfl, rfl, rfl⟩
  | .drop =>
    simp only [Sys.closeConn] at hs
    split at hs <;> cases hs
    exact ⟨.same rfl rfl rfl, rfl, rfl, rfl⟩

/-- A step of a caller outside `ensureConnection`. -/
theorem doPipelined_takesDown {n : ℕ} {ch : Choice} (hout : (s.callers n).ensuring = none)
    (hs : s.doPipelined cfg n ch = some s') :
    s.TakesDown s' ∧ s'.stopped = s.stopped ∧ s'.stoppers = s.stoppers ∧
      s'.connectMu = s.connectMu ∧
      ∃ pc, s'.callers = update s.callers n pc ∧
        (pc.ensuring = none ∨ pc.ensuring = some .test) := by
  have hstep := Sys.doPipelined_step hs
  generalize s.callers n = pc at hout hstep
  cases hstep with
  | ensure => cases hout
  | @rotate pc s₁ r hr | @failClose pc s₁ r hr =>
    obtain ⟨hdown, hstopped, hstoppers, hmu⟩ := closeConn_takesDown hr
    refine ⟨hdown.trans (.same rfl rfl rfl), hstopped, hstoppers, hmu, _,
      congrArg (update · n _) (closeConn_callers hr), ?_⟩
    cases r <;> simp [CallerPc.ensuring]
  | writeTorn | write =>
    exact ⟨.stream rfl rfl rfl fun h => h, rfl, rfl, rfl, _, rfl, .inl rfl⟩
  | checkClosing | prepare | needReader | startStopped | startClosing =>
    refine ⟨.same rfl rfl rfl, rfl, rfl, rfl, _, rfl, .inl ?_⟩
    split <;> rfl
  | idle => exact ⟨.same rfl rfl rfl, rfl, rfl, rfl, _, rfl, .inr rfl⟩
  | overLimit | underLimit | loadStream | loadNil | lock | recheckClosing | recheck
  | startReader | startNone | count | writeFailed | uncount | unlockFailed | append | signal
  | cancel | takeErr | receive | setRelease | setCancelled =>
    exact ⟨.same rfl rfl rfl, rfl, rfl, rfl, _, rfl, .inl rfl⟩

/-- A step of a reader, or of `DoWithContext` after the call. -/
theorem step_takesDown {l : Tid × Choice} (hcaller : ∀ n, l.1 ≠ .caller n)
    (hstopper : ∀ m, l.1 ≠ .stopper m) (hs : s.step cfg l = some s') :
    s.TakesDown s' ∧ s'.stopped = s.stopped ∧ s'.stoppers = s.stoppers ∧
      s'.connectMu = s.connectMu ∧ ∀ n, (s'.callers n).ensuring = (s.callers n).ensuring := by
  obtain ⟨t, ch⟩ := l
  cases t with
  | caller n => exact absurd rfl (hcaller n)
  | stopper m => exact absurd rfl (hstopper m)
  | client n =>
    simp only [Sys.step, Sys.releaseResponse] at hs
    split at hs <;> cases hs
    rename_i hpc
    refine ⟨.same rfl rfl rfl, rfl, rfl, rfl, fun m => ?_⟩
    rcases eq_or_ne m n with rfl | hmn
    · simp [Sys.setCaller, hpc, CallerPc.ensuring]
    · simp [Sys.setCaller, Function.update_of_ne hmn]
  | reader k =>
    have hstep := Sys.readerRun_step hs
    generalize (s.readers k).pc = pc at hstep
    cases hstep with
    | close hr =>
      obtain ⟨hdown, hstopped, hstoppers, hmu⟩ := closeConn_takesDown hr
      exact ⟨hdown.trans (.same rfl rfl rfl), hstopped, hstoppers, hmu,
        fun n => congrArg CallerPc.ensuring (congrFun (closeConn_callers hr) n)⟩
    | parse hparse =>
      obtain ⟨i, t, log, r, rfl, hclosed, -⟩ := Sys.parse_frame hparse
      exact ⟨.stream rfl rfl rfl fun h => hclosed.trans h, rfl, rfl, rfl, fun _ => rfl⟩
    | @deliver p o c =>
      obtain ⟨log, response, hd⟩ := s.deliver_frame k p o c
      rw [hd]
      exact ⟨.same rfl rfl rfl, rfl, rfl, rfl, fun _ => rfl⟩
    | start | startNone | stop | wake | peekNone | peek | checkClosing | check | skip | skipCount
    | skipRemove | skipErrLeft | skipErr | reset | loadCancelled | uncount | remove | recordNone
    | record | sendErr =>
      exact ⟨.same rfl rfl rfl, rfl, rfl, rfl, fun _ => rfl⟩

/-- A step of `ensureConnection`: all but the dial take the connection down, it locks and
unlocks `connectMu`, and it goes on to the dial only if it finds the connection not usable. -/
theorem ensureConnection_effect {n : ℕ} {ch : Choice} {pc : EnsurePc} {r : EnsurePc ⊕ Bool}
    (hmu : pc.locked = true → s.connectMu = some n)
    (hs : s.ensureConnection cfg n ch pc = some (s', r)) :
    (pc ≠ .dial → s.TakesDown s') ∧ s'.stopped = s.stopped ∧ s'.stoppers = s.stoppers ∧
      (∀ m, m ≠ n → s.connectMu = some m → s'.connectMu = some m) ∧
      ∀ pc', r = .inl pc' → (pc'.locked = true → s'.connectMu = some n) ∧
        (pc'.dials = true → pc.dials = true ∨ (pc = .retest ∧ s.usable cfg ch = false)) := by
  match pc with
  | .test =>
    cases hs
    refine ⟨fun _ => .same rfl rfl rfl, rfl, rfl, fun _ _ => id, fun pc' hr => ?_⟩
    split at hr <;> cases hr
    exact ⟨fun hl => (by cases hl), fun hd => (by cases hd)⟩
  | .lock =>
    simp only [Sys.ensureConnection] at hs
    split at hs <;> cases hs
    rename_i hfree
    refine ⟨fun _ => .same rfl rfl rfl, rfl, rfl, fun m _ hm => ?_, fun pc' hr => ?_⟩
    · exact absurd (hfree.symm.trans hm) (by simp)
    · cases hr
      exact ⟨fun _ => rfl, fun hd => by cases hd⟩
  | .retest =>
    cases hs
    refine ⟨fun _ => .same rfl rfl rfl, rfl, rfl, fun _ _ => id, fun pc' hr => ?_⟩
    obtain rfl := Sum.inl.inj hr
    refine ⟨fun _ => hmu rfl, fun hd => .inr ⟨rfl, ?_⟩⟩
    by_contra hu
    rw [if_pos (by simpa using hu)] at hd
    cases hd
  | .load =>
    simp only [Sys.ensureConnection] at hs
    split at hs <;> cases hs <;>
    exact ⟨fun _ => .same rfl rfl rfl, rfl, rfl, fun _ _ => id,
      fun _ _ => ⟨fun _ => hmu rfl, fun _ => .inl rfl⟩⟩
  | .close i =>
    cases hs
    exact ⟨fun _ => .stream rfl rfl rfl fun _ => rfl, rfl, rfl, fun _ _ => id,
      fun _ _ => ⟨fun _ => hmu rfl, fun _ => .inl rfl⟩⟩
  | .storeNil =>
    cases hs
    exact ⟨fun _ => ⟨.inr rfl, fun _ => id, rfl⟩, rfl, rfl, fun _ _ => id,
      fun _ _ => ⟨fun _ => hmu rfl, fun _ => .inl rfl⟩⟩
  | .unhealthy =>
    cases hs
    exact ⟨fun _ => .same rfl rfl rfl, rfl, rfl, fun _ _ => id,
      fun _ _ => ⟨fun _ => hmu rfl, fun _ => .inl rfl⟩⟩
  | .dial =>
    simp only [Sys.ensureConnection] at hs
    split at hs <;> cases hs <;>
    exact ⟨fun hne => absurd rfl hne, rfl, rfl, fun _ _ => id,
      fun _ _ => ⟨fun _ => hmu rfl, fun _ => .inl rfl⟩⟩
  | .resetCount | .setHealthy | .clearClosing | .clearStopped =>
    cases hs
    refine ⟨fun _ => .same rfl rfl rfl, rfl, rfl, fun _ _ => id, fun pc' hr => ?_⟩
    cases hr
    exact ⟨fun _ => hmu rfl, fun hd => by cases hd⟩
  | .unlock ok =>
    cases hs
    refine ⟨fun _ => .same rfl rfl rfl, rfl, rfl, fun m hmn hm => ?_, fun pc' hr => by cases hr⟩
    exact absurd (Option.some_inj.mp (hm.symm.trans (hmu rfl))) hmn

end Steps

namespace Life

/-! ### A step of a call -/

section Calls

variable {cfg : Config} {s s' : Life} {n : ℕ} {ch : Choice}

/-- A call steps in `ensureConnection`, or takes the connection down outside of it. -/
theorem doSequential_cases (hs : s.doSequential cfg n ch = some s') :
    (∃ rotated pc r, s.seq n = .ensure rotated pc ∧
        s.sys.ensureConnection cfg n ch pc = some (s'.sys, r) ∧
        s'.seq = update s.seq n (afterEnsure rotated r)) ∨
      ((s.seq n).ensuring = none ∧ s.sys.TakesDown s'.sys ∧ s'.sys.stopped = s.sys.stopped ∧
        s'.sys.stoppers = s.sys.stoppers ∧ s'.sys.connectMu = s.sys.connectMu ∧
        ∃ pc, s'.seq = update s.seq n pc ∧ (pc.ensuring = none ∨ pc.ensuring = some .test)) := by
  have hstep := doSequential_step hs
  generalize s.seq n = pc at hstep ⊢
  cases hstep with
  | @ensure rotated pc sys r hr => exact .inl ⟨rotated, pc, r, rfl, hr, rfl⟩
  | @rotate pc sys r hr =>
    obtain ⟨hdown, hstopped, hstoppers, hmu⟩ := closeConn_takesDown hr
    refine .inr ⟨rfl, hdown, hstopped, hstoppers, hmu, _, rfl, ?_⟩
    cases r <;> simp [SeqPc.ensuring]
  | @exchange i pc hx =>
    refine .inr ⟨rfl, .same rfl rfl rfl, rfl, rfl, rfl, pc, rfl, .inl ?_⟩
    unfold exchanged at hx
    repeat' split at hx
    all_goals cases hx
    all_goals rfl
  | claim | record =>
    refine .inr ⟨rfl, .same rfl rfl rfl, rfl, rfl, rfl, _, rfl, .inl ?_⟩
    split <;> rfl
  | idle => exact .inr ⟨rfl, .same rfl rfl rfl, rfl, rfl, rfl, _, rfl, .inr rfl⟩
  | count | giveUp | checkCtx | overLimit | underLimit | loadStream | loadNil | refuse | prepare
  | unhealthy | uncount => exact .inr ⟨rfl, .same rfl rfl rfl, rfl, rfl, rfl, _, rfl, .inl rfl⟩

theorem ensuring_update {α : Type} {f : ℕ → α} {ensuring : α → Option EnsurePc} {a : α} {m : ℕ}
    (hmn : m ≠ n) : ensuring (update f n a m) = ensuring (f m) := by
  rw [Function.update_of_ne hmn]

/-- The same in both modes. -/
theorem call_cases (hs : s.step cfg (.conn (.caller n), ch) = some s') :
    (∀ m, m ≠ n → s'.ensuring cfg m = s.ensuring cfg m) ∧
    ((∃ pc sys callers r, s.ensuring cfg n = some pc ∧
        s.sys.ensureConnection cfg n ch pc = some (sys, r) ∧
        s'.sys = { sys with callers := callers } ∧ s'.ensuring cfg n = r.getLeft?) ∨
      (s.ensuring cfg n = none ∧ s.sys.TakesDown s'.sys ∧ s'.sys.stopped = s.sys.stopped ∧
        s'.sys.stoppers = s.sys.stoppers ∧ s'.sys.connectMu = s.sys.connectMu ∧
        (s'.ensuring cfg n = none ∨ s'.ensuring cfg n = some .test))) := by
  simp only [step] at hs
  by_cases hmode : cfg.enablePipelining = true
  · rw [if_pos hmode] at hs
    obtain ⟨sys, hsys, rfl⟩ := Option.map_eq_some_iff.mp hs
    simp only [ensuring, if_pos hmode]
    cases hpc : (s.sys.callers n).ensuring with
    | none =>
      obtain ⟨hdown, hstopped, hstoppers, hmu, pc, hcallers, htest⟩ := doPipelined_takesDown hpc hsys
      rw [hcallers, Function.update_self]
      exact ⟨fun m => ensuring_update, .inr ⟨rfl, hdown, hstopped, hstoppers, hmu, htest⟩⟩
    | some pc =>
      obtain ⟨rotated, hcall⟩ : ∃ rotated, s.sys.callers n = .ensure rotated pc := by
        cases hc : s.sys.callers n <;> simp [hc, CallerPc.ensuring] at hpc
        exact ⟨_, by rw [hpc]⟩
      have hstep := Sys.doPipelined_step hsys
      rw [hcall] at hstep
      cases hstep with
      | @ensure _ _ s₁ r hr =>
        refine ⟨fun m hmn => ?_, .inl ⟨pc, s₁, _, r, rfl, hr, rfl, ?_⟩⟩
        · simp only [Sys.setCaller, ensureConnection_callers hr]
          exact ensuring_update hmn
        · simp only [Sys.setCaller, Function.update_self]
          rcases r with pc' | (_ | _) <;> cases rotated <;> rfl
  · rw [if_neg hmode] at hs
    simp only [ensuring, if_neg hmode]
    rcases doSequential_cases hs with ⟨rotated, pc, r, hpc, hr, hseq⟩ | ⟨hpc, hrest⟩
    · rw [hseq, Function.update_self, hpc]
      refine ⟨fun m => ensuring_update, .inl ⟨pc, s'.sys, s'.sys.callers, r, rfl, hr, rfl, ?_⟩⟩
      rcases r with pc' | (_ | _) <;> cases rotated <;> rfl
    · obtain ⟨hdown, hstopped, hstoppers, hmu, pc, hseq, htest⟩ := hrest
      rw [hseq, Function.update_self]
      exact ⟨fun m => ensuring_update, .inr ⟨hpc, hdown, hstopped, hstoppers, hmu, htest⟩⟩

end Calls

/-! ### What `Stop` achieves -/

/-- The steps are calm: a call does not find the connection down under `connectMu` once it is
stopped; `Stop` sets `stopped` while no call is inside `connectMu`; and where it returns because
`stopped` or `closing` is set already, nothing is open. -/
def Calm (cfg : Config) (s : Life) (l : Agent × Choice) : Prop :=
  match l.1 with
  | .conn (.caller n) =>
    s.ensuring cfg n = some .retest → s.sys.stopped = true → s.sys.usable cfg l.2 = true
  | .conn (.stopper m) =>
    (s.sys.stoppers m = .cas → s.sys.stopped = false → s.sys.connectMu = none) ∧
    (s.sys.stoppers m = .cas → s.sys.stopped = true → ¬s.sys.Open) ∧
    (s.sys.stoppers m = .closing .cas → s.sys.closing = true → ¬s.sys.Open)
  | _ => True

/-- What `Stop` has achieved: it holds a stream to close, or nothing is open. -/
def Shut (s : Sys) : StopPc → Prop
  | .cas | .closing .cas | .closing .load => True
  | .closing (.close i) => s.conn = .stream i ∨ ¬s.Open
  | .closing _ | .done => ¬s.Open

theorem Shut.mono {s s' : Sys} (hdown : s.TakesDown s') {pc : StopPc} (h : Shut s pc) :
    Shut s' pc := by
  unfold Shut at h ⊢
  split at h
  · trivial
  · trivial
  · trivial
  · rename_i i
    rcases h with hi | hopen
    · rcases hdown.conn with hc | hc
      · exact .inl (hc.trans hi)
      · refine .inr ?_
        rintro ⟨j, hj, -⟩
        rw [hc] at hj
        cases hj
    · exact .inr (hdown.not_open hopen)
  · exact hdown.not_open h
  · exact hdown.not_open h

/-- A stopped connection is not dialed, and what `Stop` has closed stays closed. -/
structure Final (cfg : Config) (s : Life) : Prop where
  locked : ∀ n pc, s.ensuring cfg n = some pc → pc.locked = true → s.sys.connectMu = some n
  stopping : ∀ m, s.sys.stoppers m ≠ .cas → s.sys.stopped = true
  halted : s.sys.stopped = true → ∀ n pc, s.ensuring cfg n = some pc → pc.dials = false
  shut : ∀ m, Shut s.sys (s.sys.stoppers m)

namespace Final

variable {cfg : Config} {s s' : Life}

theorem new : Life.new.Final cfg where
  locked n pc h := by simp [ensuring, Life.new, Sys.new, CallerPc.ensuring, SeqPc.ensuring] at h
  stopping m h := absurd rfl h
  halted h := by cases h
  shut _ := trivial

/-- A goroutine takes the connection down, or leaves it. -/
theorem frame (h : s.Final cfg) (hdown : s.sys.TakesDown s'.sys)
    (hstopped : s'.sys.stopped = s.sys.stopped) (hstoppers : s'.sys.stoppers = s.sys.stoppers)
    (hlocked : ∀ n pc, s'.ensuring cfg n = some pc → pc.locked = true →
      s'.sys.connectMu = some n)
    (hhalted : s'.sys.stopped = true → ∀ n pc, s'.ensuring cfg n = some pc → pc.dials = false) :
    s'.Final cfg where
  locked := hlocked
  stopping := hstoppers ▸ hstopped ▸ h.stopping
  halted := hhalted
  shut m := hstoppers ▸ (h.shut m).mono hdown

/-- A step of a call. -/
theorem call (h : s.Final cfg) {n : ℕ} {ch : Choice}
    (hset : s.Calm cfg (.conn (.caller n), ch))
    (hs : s.step cfg (.conn (.caller n), ch) = some s') :
    s'.Final cfg ∧ (s.sys.stopped = true → s'.sys.numStreams = s.sys.numStreams) := by
  obtain ⟨hothers, hcases⟩ := call_cases hs
  rcases hcases with ⟨pc, sys, callers, r, hpc, hr, hsys, hens⟩ |
    ⟨hpc, hdown, hstopped, hstoppers, hmu, hens⟩
  · obtain ⟨hdown, hstopped, hstoppers, hmu, hnext⟩ := ensureConnection_effect (h.locked n pc hpc) hr
    have hnext' (pc' : EnsurePc) (hpc' : s'.ensuring cfg n = some pc') : r = .inl pc' := by
      rw [hens] at hpc'
      cases r <;> simp_all
    have hlocked (m : ℕ) (pc' : EnsurePc) (hpc' : s'.ensuring cfg m = some pc')
        (hl : pc'.locked = true) : s'.sys.connectMu = some m := by
      rw [hsys]
      by_cases hmn : m = n
      · subst hmn
        exact (hnext pc' (hnext' pc' hpc')).1 hl
      · exact hmu m hmn (h.locked m pc' ((hothers m hmn).symm.trans hpc') hl)
    have hhalted (hst : s'.sys.stopped = true) (m : ℕ) (pc' : EnsurePc)
        (hpc' : s'.ensuring cfg m = some pc') : pc'.dials = false := by
      have hst₀ : s.sys.stopped = true := by
        rw [hsys] at hst
        exact hstopped.symm.trans hst
      by_cases hmn : m = n
      · subst hmn
        by_contra hd
        rcases (hnext pc' (hnext' pc' hpc')).2 (by simpa using hd) with hd₀ | ⟨rfl, hunusable⟩
        · exact absurd ((h.halted hst₀ m pc hpc).symm.trans hd₀) (by simp)
        · exact absurd ((hset hpc hst₀).symm.trans hunusable) (by simp)
      · exact h.halted hst₀ m pc' ((hothers m hmn).symm.trans hpc')
    by_cases hdial : pc = .dial
    · -- the connection is not stopped, so that no `Stop` has begun
      subst hdial
      have hgo : s.sys.stopped = false := by
        by_contra hst
        cases h.halted (by simpa using hst) n .dial hpc
      have hgo' : ¬s'.sys.stopped = true := by
        rw [hsys]
        simp [hstopped, hgo]
      have hcas (m : ℕ) : s'.sys.stoppers m = .cas := by
        rw [hsys]
        by_contra hm
        exact absurd (hgo.symm.trans (h.stopping m (hstoppers ▸ hm))) (by simp)
      exact ⟨⟨hlocked, fun m hm => absurd (hcas m) hm, hhalted, fun m => hcas m ▸ trivial⟩,
        fun hst => absurd (hgo.symm.trans hst) (by simp)⟩
    · have hdown' : s.sys.TakesDown s'.sys := by
        rw [hsys]
        exact (hdown hdial).trans (.same rfl rfl rfl)
      exact ⟨h.frame hdown' (by rw [hsys]; exact hstopped) (by rw [hsys]; exact hstoppers) hlocked
        hhalted, fun _ => hdown'.numStreams⟩
  · refine ⟨h.frame hdown hstopped hstoppers (fun m pc hm hl => ?_) (fun hst m pc hm => ?_),
      fun _ => hdown.numStreams⟩
    · rw [hmu]
      by_cases hmn : m = n
      · rw [hmn] at hm
        rcases hens with hnone | htest
        · exact absurd (hnone.symm.trans hm) (by simp)
        · obtain rfl := Option.some_inj.mp (htest.symm.trans hm)
          cases hl
      · exact h.locked m pc ((hothers m hmn).symm.trans hm) hl
    · by_cases hmn : m = n
      · rw [hmn] at hm
        rcases hens with hnone | htest
        · exact absurd (hnone.symm.trans hm) (by simp)
        · obtain rfl := Option.some_inj.mp (htest.symm.trans hm)
          rfl
      · exact h.halted (hstopped ▸ hst) m pc ((hothers m hmn).symm.trans hm)

/-- A step of the `closeConn` of a `Stop`. -/
theorem close_shut {s s' : Sys} {pc : ClosePc} {r : Option ClosePc}
    (h : Shut s (.closing pc)) (hcas : pc = .cas → s.closing = true → ¬s.Open)
    (hs : s.closeConn pc = some (s', r)) : Shut s' (r.elim .done .closing) := by
  match pc with
  | .cas =>
    simp only [Sys.closeConn] at hs
    split at hs <;> cases hs
    · exact hcas rfl ‹_›
    · trivial
  | .load =>
    simp only [Sys.closeConn] at hs
    split at hs <;> rename_i hconn <;> cases hs
    · rintro ⟨i, hi, -⟩
      rw [hconn] at hi
      cases hi
    · rintro ⟨i, hi, -⟩
      rw [hconn] at hi
      cases hi
    · exact .inl hconn
  | .close i =>
    have hdown := (closeConn_takesDown hs).1
    cases hs
    rcases h with hi | hopen
    · rintro ⟨j, hj, hjo⟩
      obtain rfl : i = j := ConnPtr.stream.inj (hi.symm.trans hj)
      simp [Sys.closeStream, Sys.setStream] at hjo
    · exact hdown.not_open hopen
  | .storeNil | .unhealthy | .drop | .stop none | .stop (some _) =>
    have hdown := (closeConn_takesDown hs).1
    simp only [Sys.closeConn] at hs
    repeat' split at hs
    all_goals cases hs
    all_goals exact hdown.not_open h

/-- A step of `Stop`. -/
theorem stop (h : s.Final cfg) {m : ℕ} {ch : Choice}
    (hset : s.Calm cfg (.conn (.stopper m), ch)) {sys : Sys} (hs : s.sys.stop m = some sys) :
    { s with sys := sys }.Final cfg ∧ sys.numStreams = s.sys.numStreams := by
  obtain ⟨hfree, hearly, hclosing⟩ := hset
  have hother {pc : StopPc} {m' : ℕ} (hm : m' ≠ m) :
      update s.sys.stoppers m pc m' = s.sys.stoppers m' := Function.update_of_ne hm _ _
  cases hpc : s.sys.stoppers m with
  | cas =>
    simp only [Sys.stop, hpc] at hs
    split at hs
    · rename_i hst
      cases hs
      refine ⟨⟨h.locked, fun _ _ => hst, h.halted, fun m' => ?_⟩, rfl⟩
      rcases eq_or_ne m' m with rfl | hm
      · simp only [Function.update_self]
        exact hearly hpc hst
      · simp only [hother hm]
        exact (h.shut m').mono (.same rfl rfl rfl)
    · rename_i hst
      cases hs
      have hmu := hfree hpc (by simpa using hst)
      refine ⟨⟨h.locked, fun _ _ => rfl, fun _ n pc hn => ?_, fun m' => ?_⟩, rfl⟩
      · -- nobody is inside `connectMu`
        by_contra hd
        have := h.locked n pc hn (EnsurePc.locked_of_dials (by simpa using hd))
        rw [hmu] at this
        cases this
      · rcases eq_or_ne m' m with rfl | hm
        · simp only [Function.update_self]
          trivial
        · simp only [hother hm]
          exact (h.shut m').mono (.same rfl rfl rfl)
  | closing pc =>
    simp only [Sys.stop, hpc] at hs
    obtain ⟨⟨s₁, r⟩, hr, rfl⟩ := Option.map_eq_some_iff.mp hs
    obtain ⟨hdown, hstopped, hstoppers, hmu⟩ := closeConn_takesDown hr
    have hst : s.sys.stopped = true := h.stopping m (by simp [hpc])
    have hcallers := closeConn_callers hr
    refine ⟨⟨fun n pc' hn hl => ?_, fun _ _ => hstopped.trans hst, fun _ n pc' hn => ?_,
      fun m' => ?_⟩, hdown.numStreams⟩
    · simp only [ensuring, hcallers] at hn
      exact hmu.trans (h.locked n pc' hn hl)
    · simp only [ensuring, hcallers] at hn
      exact h.halted hst n pc' hn
    · have hself := h.shut m
      rw [hpc] at hself
      rcases eq_or_ne m' m with rfl | hm
      · simp only [Function.update_self]
        have hshut := close_shut hself (fun hcas => hclosing (by rw [hpc, hcas])) hr
        exact hshut.mono (.same rfl rfl rfl)
      · simp only [hstoppers, hother hm]
        exact (h.shut m').mono (hdown.trans (.same rfl rfl rfl))
  | done =>
    simp only [Sys.stop, hpc] at hs
    cases hs

end Final

variable {cfg : Config} {s s' : Life} {l : Agent × Choice}

/-- Calm steps keep the achievements of `Stop`, and dial nothing once it has begun. -/
theorem step_final (h : s.Final cfg) (hset : s.Calm cfg l) (hs : s.step cfg l = some s') :
    s'.Final cfg ∧ (s.sys.stopped = true → s'.sys.numStreams = s.sys.numStreams) := by
  obtain ⟨t, ch⟩ := l
  match t with
  | .pool =>
    simp only [step, claim] at hs
    split at hs <;> cases hs
    · exact ⟨h.frame (.same rfl rfl rfl) rfl rfl h.locked h.halted, fun _ => rfl⟩
    · exact ⟨h, fun _ => rfl⟩
  | .conn (.caller n) => exact h.call hset hs
  | .conn (.stopper m) =>
    simp only [step] at hs
    obtain ⟨sys, hsys, rfl⟩ := Option.map_eq_some_iff.mp hs
    obtain ⟨hfinal, hnum⟩ := h.stop hset hsys
    exact ⟨hfinal, fun _ => hnum⟩
  | .conn (.client n) | .conn (.reader k) =>
    simp only [step] at hs
    obtain ⟨sys, hsys, rfl⟩ := Option.map_eq_some_iff.mp hs
    obtain ⟨hdown, hstopped, hstoppers, hmu, hens⟩ := step_takesDown (by simp) (by simp) hsys
    have hens' (n : ℕ) : ensuring cfg { s with sys := sys } n = s.ensuring cfg n := by
      simp only [ensuring, hens]
    refine ⟨h.frame hdown hstopped hstoppers (fun n pc hn hl => ?_) (fun hst n pc hn => ?_),
      fun _ => hdown.numStreams⟩
    · exact hmu.trans (h.locked n pc ((hens' n).symm.trans hn) hl)
    · exact h.halted (hstopped.symm.trans hst) n pc ((hens' n).symm.trans hn)

end Life

/-- In every run of settled steps, in both modes, the connection holds no open stream once a call
of `Stop` has returned, and no step dials one once it has begun. -/
theorem stop_final (cfg : Config) (s : Life)
    (h : Reaches (Life.step cfg) (Life.Calm cfg) Life.new s) :
    (∀ m, s.sys.stoppers m = .done → ¬s.sys.Open) ∧
      (s.sys.stopped = true → ∀ l s', s.Calm cfg l → s.step cfg l = some s' →
        s'.sys.numStreams = s.sys.numStreams) := by
  have hfinal : s.Final cfg :=
    h.invariant (Life.Final cfg) .new fun _ _ _ hf hset hs => (Life.step_final hf hset hs).1
  refine ⟨fun m hm => ?_, fun hst l s' hset hs => (Life.step_final hfinal hset hs).2 hst⟩
  have hshut := hfinal.shut m
  rw [hm] at hshut
  exact hshut

/-! ### Runs -/

instance (s : Sys) : Decidable s.Open :=
  match hconn : s.conn with
  | .unset => .isFalse fun ⟨_, hi, _⟩ => nomatch hconn.symm.trans hi
  | .null => .isFalse fun ⟨_, hi, _⟩ => nomatch hconn.symm.trans hi
  | .stream i =>
    decidable_of_iff ((s.streams i).closed = false)
      ⟨fun ho => ⟨i, hconn, ho⟩, fun ⟨_, hj, ho⟩ => ConnPtr.stream.inj (hconn.symm.trans hj) ▸ ho⟩

instance (cfg : Config) (s : Life) (l : Agent × Choice) : Decidable (s.Calm cfg l) :=
  match l with
  | (.conn (.caller n), ch) => inferInstanceAs (Decidable
      (s.ensuring cfg n = some .retest → s.sys.stopped = true → s.sys.usable cfg ch = true))
  | (.conn (.stopper m), _) => inferInstanceAs (Decidable
      ((s.sys.stoppers m = .cas → s.sys.stopped = false → s.sys.connectMu = none) ∧
      (s.sys.stoppers m = .cas → s.sys.stopped = true → ¬s.sys.Open) ∧
      (s.sys.stoppers m = .closing .cas → s.sys.closing = true → ¬s.sys.Open)))
  | (.conn (.client _), _) | (.conn (.reader _), _) | (.pool, _) => .isTrue trivial

/-- No pipelining, no rotation and no timeouts. -/
def sequential : Config := { rotating with enablePipelining := false, maxRequestsPerConn := 0 }

/-- Call 1 dials and gets its response; then the connection is stopped. -/
def stoppedAfter : List (Agent × Choice) :=
  List.replicate 18 (Agent.conn (.caller 1), Choice.plain) ++
    [(Agent.conn (.caller 1), Choice.finish .ok false false)] ++
    List.replicate 2 (Agent.conn (.caller 1), Choice.plain) ++
    List.replicate 8 (Agent.conn (.stopper 0), Choice.plain)

theorem stop_final_stoppedAfter :
    ∃ s, Reaches (Life.step sequential) (Life.Calm sequential) Life.new s ∧
      s.seq 1 = .returned .ok ∧ s.sys.stoppers 0 = .done ∧ ¬s.sys.Open := by
  obtain ⟨s, hs, hret, hdone⟩ := Guarded.exists_of_exec (Life.step sequential)
    (Life.Calm sequential) Life.new stoppedAfter
    (fun s => s.seq 1 = .returned .ok ∧ s.sys.stoppers 0 = .done) (by decide +kernel)
  exact ⟨s, hs, hret, hdone, (stop_final sequential s hs).1 0 hdone⟩

/-- A call changes no other. -/
theorem Life.step_seq {cfg : Config} {s s' : Life} {l : Agent × Choice} {n : ℕ}
    (hn : l.1 ≠ .conn (.caller n)) (hs : s.step cfg l = some s') : s'.seq n = s.seq n := by
  obtain ⟨t, ch⟩ := l
  match t with
  | .pool =>
    simp only [Life.step, Life.claim] at hs
    split at hs <;> cases hs <;> rfl
  | .conn (.caller m) =>
    simp only [Life.step] at hs
    split at hs
    · obtain ⟨sys, -, rfl⟩ := Option.map_eq_some_iff.mp hs
      rfl
    · have hnm : n ≠ m := by
        rintro rfl
        exact hn rfl
      rcases Life.doSequential_cases hs with ⟨_, _, _, -, -, hseq⟩ | ⟨-, -, -, -, -, _, hseq, -⟩ <;>
      rw [hseq, Function.update_of_ne hnm]
  | .conn (.stopper _) | .conn (.client _) | .conn (.reader _) =>
    simp only [Life.step] at hs
    obtain ⟨sys, -, rfl⟩ := Option.map_eq_some_iff.mp hs
    rfl

def Agent.below (N : ℕ) : Agent → Bool
  | .conn t => t.below N
  | .pool => true

/-- Call 2 begins after that. -/
def calledAgain : List (Agent × Choice) :=
  stoppedAfter ++ List.replicate 19 (Agent.conn (.caller 2), Choice.plain) ++
    [(Agent.conn (.caller 2), Choice.finish .ok false false)] ++
    List.replicate 2 (Agent.conn (.caller 2), Choice.plain)

/-- A call after `Stop` dials again; when all calls have returned, its stream is open. -/
theorem stop_resurrected :
    ∃ s, Reaches (Life.step sequential) (fun _ _ => True) Life.new s ∧
      s.sys.stoppers 0 = .done ∧ (∀ n, s.seq n = .idle ∨ s.seq n = .returned .ok) ∧
      s.sys.Open := by
  obtain ⟨s, hs, hdone, hcalls, hopen⟩ := Guarded.exists_of_exec (Life.step sequential)
    (fun _ l => l.1.below 3 = true) Life.new calledAgain
    (fun s => s.sys.stoppers 0 = .done ∧ (∀ n < (3 : ℕ), s.seq n = .idle ∨ s.seq n = .returned .ok) ∧
      s.sys.Open) (by decide +kernel)
  have hidle := hs.invariant (fun s => ∀ n, 3 ≤ n → s.seq n = .idle) (fun _ _ => rfl)
    fun s l s' hidle hl hs n hn => by
      have hne : l.1 ≠ .conn (.caller n) := fun heq => by
        rw [heq] at hl
        have := of_decide_eq_true hl
        omega
      rw [Life.step_seq hne hs]
      exact hidle n hn
  refine ⟨s, hs.mono fun _ _ _ => trivial, hdone, fun n => ?_, hopen⟩
  by_cases hn : n < 3
  · exact hcalls n hn
  · exact .inl (hidle n (by omega))

end BurstHttp.Pipeline
