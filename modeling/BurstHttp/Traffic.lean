/-
Requests written to one stream (connection.go, `doSequential`, `doPipelined`; the test of
`reqsOnConn` against `MaxRequestsPerConn`).

`Traffic` counts the requests written to each stream of a connection, in both modes.  A call
tests `reqsOnConn` and writes later, and only a response counts on `reqsOnConn`.

* `Place` — where a goroutine is, `Place.busy` — whether it is at work on the connection;
* `Traffic.InTurn` — calls, and `Stop`, begin only while nobody is at work and no request
  waits for its response;
* `Ledger` — what the bound depends on, and what holds of it at each place
  (`Ledger.CloseAt`, `EnsureAt`, `CallerAt`, `SeqAt`, `ReadAt`);
* `written_bounded` — in runs in turn no stream gets more than `MaxRequestsPerConn` requests;
* `written_unbounded` — in other runs one does, in both modes.
-/
import BurstHttp.Lifecycle

namespace BurstHttp.Pipeline

open Function (update)
open Guarded (Reaches)

/-! ### Who is at work -/

/-- From the beginning of a call until its request is in the queue and signalled, or until it
has left. -/
def CallerPc.busy : CallerPc → Bool
  | .idle | .wait | .setRelease | .setCancelled | .returned _ | .released => false
  | _ => true

/-- From the beginning of a call until its response is counted, or until it has left. -/
def SeqPc.busy : SeqPc → Bool
  | .idle | .uncount _ | .returned _ => false
  | _ => true

def ReaderPc.busy : ReaderPc → Bool
  | .start | .select | .exited => false
  | _ => true

def StopPc.busy : StopPc → Bool
  | .closing _ => true
  | _ => false

/-- Where a goroutine is: in a call with pipelining, in one without, in a reader or in `Stop`. -/
inductive Place
  | caller (n : ℕ) (pc : CallerPc)
  | seq (sent : Bool) (pc : SeqPc)
  | reader (pc : ReaderPc)
  | stopper (pc : StopPc)
  | outside

namespace Place

def busy : Place → Bool
  | .caller _ pc => pc.busy
  | .seq _ pc => pc.busy
  | .reader pc => pc.busy
  | .stopper pc => pc.busy
  | .outside => false

/-- The next step begins a call, or `Stop`. -/
def begins : Place → Bool
  | .caller _ .idle | .seq _ .idle | .stopper .cas => true
  | _ => false

end Place

/-! ### Counting what is written -/

structure Traffic where
  life : Life
  sent : ℕ → Bool      -- without pipelining: the call is in its exchange, and has written
  written : ℕ → ℕ      -- the requests written to a stream
  turn : Option Agent  -- who is at work

namespace Traffic

def new : Traffic :=
  { life := Life.new, sent := fun _ => false, written := fun _ => 0, turn := none }

/-- The stream the call is about to write to. -/
def writing (cfg : Config) (t : Traffic) (n : ℕ) : Option ℕ :=
  if cfg.enablePipelining then
    match t.life.sys.callers n with
    | .write i => some i
    | _ => none
  else
    match t.life.seq n, t.sent n with
    | .exchange i, false => some i
    | _, _ => none

/-- A step of a call.  Without pipelining `writeRequest` is a step of its own, before what
`Life.exchanged` says of the rest of the exchange. -/
def call (cfg : Config) (t : Traffic) (n : ℕ) (ch : Choice) : Option Traffic :=
  match t.writing cfg n, ch with
  | none, _ | some _, .writeError _ =>
    (t.life.step cfg (.conn (.caller n), ch)).map fun life =>
      { t with life := life, sent := update t.sent n false }
  | some i, _ =>
    if (t.life.sys.streams i).closed then none
    else
      let t := { t with written := update t.written i (t.written i + 1) }
      if cfg.enablePipelining then
        (t.life.step cfg (.conn (.caller n), ch)).map fun life => { t with life := life }
      else if ch = .plain then some { t with sent := update t.sent n true }
      else none

def act (cfg : Config) (t : Traffic) (l : Agent × Choice) : Option Traffic :=
  match l.1 with
  | .conn (.caller n) => t.call cfg n l.2
  | _ => (t.life.step cfg l).map fun life => { t with life := life }

def place (cfg : Config) (t : Traffic) : Agent → Place
  | .conn (.caller n) =>
    if cfg.enablePipelining then .caller n (t.life.sys.callers n)
    else .seq (t.sent n) (t.life.seq n)
  | .conn (.reader k) => .reader (t.life.sys.readers k).pc
  | .conn (.stopper m) => .stopper (t.life.sys.stoppers m)
  | .conn (.client _) | .pool => .outside

/-- Whose turn it is once `a` has stepped. -/
def pass (cfg : Config) (t : Traffic) (a : Agent) : Traffic :=
  { t with
    turn := if (t.place cfg a).busy then some a else if t.turn = some a then none else t.turn }

/-- A step of the connection. -/
def step (cfg : Config) (t : Traffic) (l : Agent × Choice) : Option Traffic :=
  (t.act cfg l).map fun t' => t'.pass cfg l.1

/-- A call, with a response object, or `Stop` begins only while nobody is at work and no request
waits for its response. -/
def InTurn (cfg : Config) (t : Traffic) (l : Agent × Choice) : Prop :=
  (t.place cfg l.1).begins = true →
    t.turn = none ∧ t.life.sys.pendingReqs = [] ∧ l.2 ≠ .noResp

instance (cfg : Config) (t : Traffic) (l : Agent × Choice) : Decidable (t.InTurn cfg l) := by
  unfold InTurn
  infer_instance

end Traffic

/-! ### The ledger -/

/-- What the number of requests on a stream depends on. -/
structure Ledger where
  conn : ConnPtr
  healthy : Bool
  closing : Bool
  reqsOnConn : ℤ
  numStreams : ℕ
  pendingReqs : List ℕ
  pendingSignal : Bool
  hasResp : ℕ → Bool
  written : ℕ → ℕ

def Sys.ledger (s : Sys) (written : ℕ → ℕ) : Ledger where
  conn := s.conn
  healthy := s.healthy
  closing := s.closing
  reqsOnConn := s.reqsOnConn
  numStreams := s.numStreams
  pendingReqs := s.pendingReqs
  pendingSignal := s.pendingSignal
  hasResp p := (s.pend p).hasResp
  written := written

namespace Ledger

/-- What holds at every place. -/
structure Sums (max : ℤ) (v : Ledger) : Prop where
  bound : ∀ i, (v.written i : ℤ) ≤ max
  fresh : ∀ i, v.numStreams ≤ i → v.written i = 0
  conn : ∀ i, v.conn = .stream i → i < v.numStreams
  nonneg : 0 ≤ v.reqsOnConn
  limit : v.reqsOnConn ≤ max

/-- All requests on the stream of the connection are counted but `due`. -/
def Counted (v : Ledger) (due : ℤ) : Prop :=
  ∀ i, v.conn = .stream i → (v.written i : ℤ) ≤ v.reqsOnConn + due

/-- A call that is past `ensureConnection` may test `reqsOnConn`. -/
def Ready (v : Ledger) : Prop := v.closing = false ∧ v.Counted 0

def UpToDate (v : Ledger) : Prop := v.healthy = true → v.Ready

/-- The call has passed the test. -/
def Room (max : ℤ) (v : Ledger) : Prop := v.Ready ∧ v.reqsOnConn < max

/-- A request is written and its response not counted. -/
def Owing (max : ℤ) (v : Ledger) : Prop :=
  v.closing = false ∧ v.Counted 1 ∧ v.reqsOnConn < max

/-- The queue is empty and nobody has been signalled. -/
def Clear (v : Ledger) : Prop := v.pendingSignal = false ∧ v.pendingReqs = []

/-- Request `n` is in the queue, and alone there. -/
def Waits (max : ℤ) (v : Ledger) (n : ℕ) : Prop :=
  v.pendingReqs = [n] ∧ v.hasResp n = true ∧ v.Owing max

/-- Nobody is at work. -/
def Quiet (max : ℤ) (v : Ledger) : Prop :=
  (v.Clear ∧ v.UpToDate) ∨ (v.pendingSignal = true ∧ ∃ n, v.Waits max n)

/-- At a step of `closeConn`, or at its return. -/
def CloseAt (v : Ledger) : Option ClosePc → Prop
  | some .cas => v.healthy = true → v.closing = false
  | some .load | some (.close _) | some .storeNil | some .unhealthy => True
  | some .drop | some (.stop _) | none => v.healthy = false

/-- Nothing is written to the stream of the connection. -/
def Blank (v : Ledger) : Prop := ∀ i, v.conn = .stream i → v.written i = 0

/-- At a step of `ensureConnection`, or at its return; a call that has rotated the connection
does not test `reqsOnConn` again. -/
def EnsureAt (max : ℤ) (v : Ledger) (rotated : Bool) : EnsurePc ⊕ Bool → Prop
  | .inl .test | .inl .lock | .inl .retest => v.UpToDate ∧ (rotated = true → v.healthy = false)
  | .inl .load | .inl (.close _) | .inl .storeNil | .inl .unhealthy => True
  | .inl .dial => v.healthy = false
  | .inl .resetCount => v.Blank
  | .inl .setHealthy | .inl .clearClosing => v.Blank ∧ v.reqsOnConn = 0
  | .inl .clearStopped => v.Blank ∧ v.reqsOnConn = 0 ∧ v.closing = false
  | .inl (.unlock true) | .inr true => v.Ready ∧ (rotated = true → v.reqsOnConn < max)
  | .inl (.unlock false) | .inr false => v.healthy = false

/-- In a call with pipelining. -/
def CallerAt (max : ℤ) (v : Ledger) (n : ℕ) : CallerPc → Prop
  | .ensure rotated pc => v.Clear ∧ v.hasResp n = true ∧ v.EnsureAt max rotated (.inl pc)
  | .checkClosing | .checkCount => v.Clear ∧ v.hasResp n = true ∧ v.Ready
  | .rotate pc | .failClose pc => v.Clear ∧ v.hasResp n = true ∧ v.CloseAt (some pc)
  | .prepare | .loadConn | .uncount | .unlockFailed =>
    v.Clear ∧ v.hasResp n = true ∧ v.Room max
  | .lock i | .recheck i | .needReader i | .startStopped i | .startClosing i | .startLoad i
  | .count i | .write i => v.Clear ∧ v.hasResp n = true ∧ v.Room max ∧ v.conn = .stream i
  | .append => v.Clear ∧ v.hasResp n = true ∧ v.Owing max
  | .signal => v.pendingSignal = false ∧ v.Waits max n
  | .idle | .wait | .setRelease | .setCancelled | .returned _ | .released => v.Quiet max

/-- In a call without. -/
def SeqAt (max : ℤ) (v : Ledger) (sent : Bool) : SeqPc → Prop
  | .ensure rotated pc => v.Clear ∧ v.EnsureAt max rotated (.inl pc)
  | .claim | .count | .checkCtx | .checkCount => v.Clear ∧ v.Ready
  | .rotate pc => v.Clear ∧ v.CloseAt (some pc)
  | .loadConn => v.Clear ∧ v.Room max
  | .prepare i => v.Clear ∧ v.Room max ∧ v.conn = .stream i
  | .exchange i => v.Clear ∧ if sent then v.Owing max else v.Room max ∧ v.conn = .stream i
  | .record _ => v.Clear ∧ v.Owing max
  | .unhealthy _ => v.Clear
  | .idle | .uncount _ | .returned _ => v.Quiet max

/-- In a reader.  It finds the request it has been signalled for, and counts the response before
it takes the connection down. -/
def ReadAt (max : ℤ) (v : Ledger) : ReaderPc → Prop
  | .peek => v.pendingSignal = false ∧
      ((v.pendingReqs = [] ∧ v.UpToDate) ∨ ∃ n, v.Waits max n)
  | .check p => v.pendingSignal = false ∧ v.Waits max p
  | .reset p | .parse p | .loadCancelled p _ | .uncount p _ _ | .remove p _ _ =>
    v.pendingSignal = false ∧ v.pendingReqs = [p] ∧ v.Owing max
  | .record _ _ _ => v.Clear ∧ v.Owing max
  | .deliver _ o _ =>
    v.Clear ∧ (v.healthy = true → v.closing = false) ∧ (o.ret ≠ .early → v.UpToDate)
  | .close pc _ => v.Clear ∧ v.CloseAt (some pc)
  | .sendErr _ => v.Clear ∧ v.healthy = false
  | .skipCount _ | .skipRemove _ | .skipErr _ => False
  | .start | .select | .exited => v.Quiet max

def StopAt (max : ℤ) (v : Ledger) : StopPc → Prop
  | .closing pc => v.Clear ∧ v.CloseAt (some pc)
  | .cas | .done => v.Quiet max

/-- What holds of the ledger while a goroutine is at a place. -/
def At (max : ℤ) (v : Ledger) : Place → Prop
  | .caller n pc => v.CallerAt max n pc
  | .seq sent pc => v.SeqAt max sent pc
  | .reader pc => v.ReadAt max pc
  | .stopper pc => v.StopAt max pc
  | .outside => v.Quiet max

variable {max : ℤ} {v : Ledger}

theorem upToDate_of_down (h : v.healthy = false) : v.UpToDate := by
  intro hup
  rw [h] at hup
  cases hup

theorem Blank.counted (h : v.Blank) (hzero : v.reqsOnConn = 0) : v.Counted 0 := by
  intro i hi
  rw [h i hi, hzero]
  simp

/-- A place at which nobody is at work says no more than that. -/
theorem at_iff_quiet {p : Place} (hp : p.busy = false) : v.At max p ↔ v.Quiet max := by
  cases p with
  | caller n pc => cases pc <;> first | exact Iff.rfl | cases hp
  | seq sent pc => cases pc <;> first | exact Iff.rfl | cases hp
  | reader pc => cases pc <;> first | exact Iff.rfl | cases hp
  | stopper pc => cases pc <;> first | exact Iff.rfl | cases hp
  | outside => exact Iff.rfl

/-- Whoever is at work, nobody has been signalled. -/
theorem At.not_signalled {p : Place} (h : v.At max p) (hp : p.busy = true) :
    v.pendingSignal = false := by
  cases p with
  | caller n pc => cases pc <;> first | exact h.1 | exact h.1.1 | cases hp
  | seq sent pc => cases pc <;> first | exact h.1 | exact h.1.1 | cases hp
  | reader pc => cases pc <;> first | exact h.1 | exact h.1.1 | exact h.elim | cases hp
  | stopper pc => cases pc <;> first | exact h.1.1 | cases hp
  | outside => cases hp

theorem Quiet.of_empty (h : v.Quiet max) (hempty : v.pendingReqs = []) :
    v.Clear ∧ v.UpToDate := by
  rcases h with h | ⟨-, n, hn, -⟩
  · exact h
  · rw [hempty] at hn
    cases hn

end Ledger

/-! ### Closing and dialing -/

section Steps

open Ledger

variable {cfg : Config} {max : ℤ} {s s' : Sys} {w : ℕ → ℕ}

theorem ledger_setPend {n : ℕ} {x : PendingRequest} (hx : x.hasResp = (s.pend n).hasResp) :
    (s.setPend n x).ledger w = s.ledger w := by
  have hresp : (fun p => (update s.pend n x p).hasResp) = fun p => (s.pend p).hasResp := by
    funext p
    rcases eq_or_ne p n with rfl | hp
    · rw [Function.update_self, hx]
    · rw [Function.update_of_ne hp]
  simp only [Sys.ledger, Sys.setPend, hresp]

theorem ledger_dropPending (hempty : s.pendingReqs = []) : s.dropPending.ledger w = s.ledger w := by
  simp [Sys.ledger, Sys.dropPending, hempty]

/-- A step of `closeConn` with an empty queue; once it returns the connection is not healthy. -/
theorem closeConn_ledger {pc : ClosePc} {r : Option ClosePc} (hsums : (s.ledger w).Sums max)
    (hclear : (s.ledger w).Clear) (h : (s.ledger w).CloseAt (some pc))
    (hs : s.closeConn pc = some (s', r)) :
    (s'.ledger w).Sums max ∧ (s'.ledger w).Clear ∧ (s'.ledger w).CloseAt r ∧
      (s'.ledger w).hasResp = (s.ledger w).hasResp := by
  match pc with
  | .cas =>
    simp only [Sys.closeConn] at hs
    split at hs <;> cases hs
    · rename_i hclosing
      refine ⟨hsums, hclear, ?_, rfl⟩
      by_contra hup
      have hopen := h (by simpa [CloseAt] using hup)
      exact absurd (hclosing.symm.trans hopen) (by simp)
    · exact ⟨{ hsums with }, hclear, trivial, rfl⟩
  | .load =>
    simp only [Sys.closeConn] at hs
    split at hs <;> cases hs <;> exact ⟨hsums, hclear, trivial, rfl⟩
  | .close i =>
    cases hs
    exact ⟨hsums, hclear, trivial, rfl⟩
  | .storeNil =>
    cases hs
    exact ⟨{ hsums with conn := fun _ hi => by cases hi }, hclear, trivial, rfl⟩
  | .unhealthy =>
    cases hs
    exact ⟨{ hsums with }, hclear, rfl, rfl⟩
  | .drop =>
    simp only [Sys.closeConn] at hs
    split at hs <;> cases hs
    rw [ledger_dropPending hclear.2]
    exact ⟨hsums, hclear, h, rfl⟩
  | .stop none | .stop (some _) =>
    cases hs
    exact ⟨hsums, hclear, h, rfl⟩

/-- A step of `ensureConnection`. -/
theorem ensureConnection_ledger {n : ℕ} {ch : Choice} {rotated : Bool} {pc : EnsurePc}
    {r : EnsurePc ⊕ Bool} (hmax : 0 < max) (hsums : (s.ledger w).Sums max)
    (hclear : (s.ledger w).Clear) (h : (s.ledger w).EnsureAt max rotated (.inl pc))
    (hs : s.ensureConnection cfg n ch pc = some (s', r)) :
    (s'.ledger w).Sums max ∧ (s'.ledger w).Clear ∧ (s'.ledger w).EnsureAt max rotated r ∧
      (s'.ledger w).hasResp = (s.ledger w).hasResp := by
  -- whoever finds the connection usable has not rotated it
  have husable : s.usable cfg ch = true → s.healthy = true := fun hu =>
    (Bool.and_eq_true_iff.mp hu).1
  have hready (htest : (s.ledger w).UpToDate ∧ (rotated = true → (s.ledger w).healthy = false))
      (hu : s.usable cfg ch = true) :
      (s.ledger w).Ready ∧ (rotated = true → (s.ledger w).reqsOnConn < max) := by
    refine ⟨htest.1 (husable hu), fun hrot => ?_⟩
    exact absurd ((husable hu).symm.trans (htest.2 hrot)) (by simp)
  match pc with
  | .test =>
    cases hs
    refine ⟨hsums, hclear, ?_, rfl⟩
    split
    · rename_i hu
      exact hready h hu
    · exact h
  | .lock =>
    simp only [Sys.ensureConnection] at hs
    split at hs <;> cases hs
    exact ⟨hsums, hclear, h, rfl⟩
  | .retest =>
    cases hs
    refine ⟨hsums, hclear, ?_, rfl⟩
    split
    · rename_i hu
      exact hready h hu
    · trivial
  | .load =>
    simp only [Sys.ensureConnection] at hs
    split at hs <;> cases hs <;> exact ⟨hsums, hclear, trivial, rfl⟩
  | .close i =>
    cases hs
    exact ⟨hsums, hclear, trivial, rfl⟩
  | .storeNil =>
    cases hs
    exact ⟨{ hsums with conn := fun _ hi => by cases hi }, hclear, trivial, rfl⟩
  | .unhealthy =>
    cases hs
    exact ⟨{ hsums with }, hclear, rfl, rfl⟩
  | .dial =>
    simp only [Sys.ensureConnection] at hs
    split at hs <;> cases hs
    · exact ⟨hsums, hclear, h, rfl⟩
    · -- nothing has been written to the new stream
      refine ⟨⟨hsums.bound, fun i hi => ?_, fun i hi => ?_, hsums.nonneg, hsums.limit⟩, hclear,
        fun i hi => ?_, rfl⟩
      · exact hsums.fresh i (Nat.le_of_succ_le hi)
      · cases hi
        exact Nat.lt_succ_self _
      · cases hi
        exact hsums.fresh _ le_rfl
  | .resetCount =>
    cases hs
    exact ⟨{ hsums with nonneg := le_rfl, limit := hmax.le }, hclear, ⟨h, rfl⟩, rfl⟩
  | .setHealthy =>
    cases hs
    exact ⟨{ hsums with }, hclear, h, rfl⟩
  | .clearClosing =>
    cases hs
    exact ⟨{ hsums with }, hclear, ⟨h.1, h.2, rfl⟩, rfl⟩
  | .clearStopped =>
    cases hs
    obtain ⟨hblank, hzero, hopen⟩ := h
    exact ⟨hsums, hclear, ⟨⟨hopen, hblank.counted hzero⟩, fun _ => lt_of_eq_of_lt hzero hmax⟩, rfl⟩
  | .unlock true | .unlock false =>
    cases hs
    exact ⟨hsums, hclear, h, rfl⟩

/-- The count of a response. -/
theorem sums_record (hint : max < 2 ^ 31) (hsums : (s.ledger w).Sums max)
    (howe : (s.ledger w).Owing max) :
    Sums max { s.ledger w with reqsOnConn := wrap32 (s.reqsOnConn + 1) } ∧
      Ready { s.ledger w with reqsOnConn := wrap32 (s.reqsOnConn + 1) } := by
  obtain ⟨hopen, hcount, hroom⟩ := howe
  have hnonneg : 0 ≤ s.reqsOnConn := hsums.nonneg
  have hlt : s.reqsOnConn < max := hroom
  have hwrap : wrap32 (s.reqsOnConn + 1) = s.reqsOnConn + 1 := by
    rw [wrap32, Int.bmod_eq_of_le] <;> omega
  rw [hwrap]
  refine ⟨⟨hsums.1, hsums.2, hsums.3, ?_, ?_⟩, hopen, fun i hi => ?_⟩
  · show 0 ≤ s.reqsOnConn + 1
    omega
  · show s.reqsOnConn + 1 ≤ max
    omega
  · have := hcount i hi
    show (w i : ℤ) ≤ s.reqsOnConn + 1 + 0
    exact this.trans (by simp [Sys.ledger])

/-- The write of a request. -/
theorem sums_write {i : ℕ} (hsums : (s.ledger w).Sums max) (hroom : (s.ledger w).Room max)
    (hconn : s.conn = .stream i) :
    Sums max (s.ledger (update w i (w i + 1))) ∧ Owing max (s.ledger (update w i (w i + 1))) := by
  obtain ⟨⟨hopen, hcount⟩, hlt⟩ := hroom
  have hi : (w i : ℤ) ≤ s.reqsOnConn + 0 := hcount i hconn
  have hlt' : s.reqsOnConn < max := hlt
  refine ⟨⟨fun j => ?_, fun j hj => ?_, hsums.3, hsums.4, hsums.5⟩, hopen, fun j hj => ?_, hlt⟩
  · show ((update w i (w i + 1) j : ℕ) : ℤ) ≤ max
    rcases eq_or_ne j i with rfl | hji
    · rw [Function.update_self]
      omega
    · rw [Function.update_of_ne hji]
      exact hsums.bound j
  · -- the stream of the connection has been dialed
    have hij : j ≠ i := by
      rintro rfl
      exact absurd (hsums.conn j hconn) (Nat.not_lt.mpr hj)
    show update w i (w i + 1) j = 0
    rw [Function.update_of_ne hij]
    exact hsums.fresh j hj
  · cases hconn.symm.trans hj
    show ((update w i (w i + 1) i : ℕ) : ℤ) ≤ s.reqsOnConn + 1
    rw [Function.update_self]
    omega

/-! ### Steps of whoever is at work -/

/-- What has been written once a caller has stepped. -/
def CallerPc.wrote (ch : Choice) (w : ℕ → ℕ) : CallerPc → ℕ → ℕ
  | .write i =>
    match ch with
    | .writeError _ => w
    | _ => update w i (w i + 1)
  | _ => w

theorem CallerPc.wrote_write {ch : Choice} {i : ℕ} (hch : ∀ torn, ch ≠ .writeError torn) :
    (CallerPc.write i).wrote ch w = update w i (w i + 1) := by
  cases ch with
  | writeError torn => exact absurd rfl (hch torn)
  | _ => rfl

theorem doPipelined_ledger {n : ℕ} {ch : Choice} (hmax : 0 < max)
    (hcfg : cfg.maxRequestsPerConn = max) (hsums : (s.ledger w).Sums max)
    (h : (s.ledger w).CallerAt max n (s.callers n))
    (hbegin : s.callers n = .idle → s.pendingReqs = [] ∧ ch ≠ .noResp)
    (hs : s.doPipelined cfg n ch = some s') :
    (s'.ledger ((s.callers n).wrote ch w)).Sums max ∧
      (s'.ledger ((s.callers n).wrote ch w)).CallerAt max n (s'.callers n) := by
  have hstep := Sys.doPipelined_step hs
  generalize s.callers n = pc at h hbegin hstep ⊢
  have hgo {s₁ : Sys} {pc' : CallerPc} {w' : ℕ → ℕ} (hsums : (s₁.ledger w').Sums max)
      (h : (s₁.ledger w').CallerAt max n pc') : ((s₁.setCaller n pc').ledger w').Sums max ∧
        ((s₁.setCaller n pc').ledger w').CallerAt max n ((s₁.setCaller n pc').callers n) := by
    refine ⟨hsums, ?_⟩
    rw [show (s₁.setCaller n pc').callers n = pc' from Function.update_self ..]
    exact h
  have hquiet (hclear : (s.ledger w).Clear) (hready : (s.ledger w).Ready) :
      (s.ledger w).Quiet max := .inl ⟨hclear, fun _ => hready⟩
  cases hstep with
  | @write i hch _ =>
    obtain ⟨hclear, hresp, hroom, hconn⟩ := h
    obtain ⟨hsums', howe⟩ := sums_write hsums hroom hconn
    have hledger := ledger_setPend (s := s) (w := update w i (w i + 1)) (n := n)
      (x := { s.pend n with written := some i }) rfl
    rw [CallerPc.wrote_write hch]
    exact hgo (hledger ▸ hsums') ⟨hledger ▸ hclear, hledger ▸ hresp, hledger ▸ howe⟩
  | writeTorn hch | writeFailed hch =>
    subst hch
    exact hgo hsums ⟨h.1, h.2.1, h.2.2.1⟩
  | idle =>
    obtain ⟨hempty, hch⟩ := hbegin rfl
    obtain ⟨hclear, hup⟩ := h.of_empty hempty
    refine hgo { hsums with }
      ⟨hclear, ?_, hup, fun hrot => by cases hrot⟩
    simp [Sys.ledger, Sys.setPend, hch]
  | @ensure rotated pc s₁ r hr =>
    obtain ⟨hclear, hresp, hens⟩ := h
    obtain ⟨hsums', hclear', hens', hresp'⟩ := ensureConnection_ledger hmax hsums hclear hens hr
    refine hgo hsums' ?_
    have hresp₁ := (congrFun hresp' n).trans hresp
    rcases r with pc' | up
    · exact ⟨hclear', hresp₁, hens'⟩
    · cases up with
      | false => exact .inl ⟨hclear', upToDate_of_down hens'⟩
      | true =>
        cases rotated with
        | false => exact ⟨hclear', hresp₁, hens'.1⟩
        | true => exact ⟨hclear', hresp₁, hens'.1, hens'.2 rfl⟩
  | @rotate pc s₁ r hr =>
    obtain ⟨hclear, hresp, hclose⟩ := h
    obtain ⟨hsums', hclear', hclose', hresp'⟩ := closeConn_ledger hsums hclear hclose hr
    have hresp₁ := (congrFun hresp' n).trans hresp
    refine hgo hsums' ?_
    cases r with
    | some pc' => exact ⟨hclear', hresp₁, hclose'⟩
    | none => exact ⟨hclear', hresp₁, upToDate_of_down hclose', fun _ => hclose'⟩
  | @failClose pc s₁ r hr =>
    obtain ⟨hclear, hresp, hclose⟩ := h
    obtain ⟨hsums', hclear', hclose', hresp'⟩ := closeConn_ledger hsums hclear hclose hr
    refine hgo hsums' ?_
    cases r with
    | some pc' => exact ⟨hclear', (congrFun hresp' n).trans hresp, hclose'⟩
    | none => exact .inl ⟨hclear', upToDate_of_down hclose'⟩
  | checkClosing =>
    rw [if_neg (by rw [show s.closing = false from h.2.2.1]; simp)]
    exact hgo hsums h
  | overLimit => exact hgo hsums ⟨h.1, h.2.1, fun _ => h.2.2.1⟩
  | underLimit hlt =>
    -- the test of the source
    have hroom : s.reqsOnConn < max := by omega
    exact hgo hsums ⟨h.1, h.2.1, h.2.2, hroom⟩
  | prepare =>
    split
    · exact hgo hsums (hquiet h.1 h.2.2.1)
    · exact hgo hsums h
  | loadStream hi => exact hgo hsums ⟨h.1, h.2.1, h.2.2, hi⟩
  | loadNil => exact hgo hsums (hquiet h.1 h.2.2.1)
  | recheckClosing hclosing => exact absurd (hclosing.symm.trans h.2.2.1.1.1) (by simp)
  | needReader | startStopped | startClosing => split <;> exact hgo hsums h
  | lock | recheck | startReader | startNone | count | uncount | cancel | takeErr =>
    exact hgo hsums h
  | unlockFailed => exact hgo hsums ⟨h.1, h.2.1, fun _ => h.2.2.1.1⟩
  | append =>
    refine hgo { hsums with } ⟨h.1.1, ?_, h.2⟩
    show s.pendingReqs ++ [n] = [n]
    rw [show s.pendingReqs = [] from h.1.2, List.nil_append]
  | signal =>
    exact hgo { hsums with } (.inr ⟨rfl, n, h.2⟩)
  | receive | setRelease | setCancelled =>
    refine hgo ?_ ?_
    · rw [ledger_setPend]
      · exact hsums
      · rfl
    · rw [ledger_setPend]
      · exact h
      · rfl

theorem doSequential_ledger {l l' : Life} {n : ℕ} {ch : Choice} {sent : Bool} (hmax : 0 < max)
    (hint : max < 2 ^ 31) (hcfg : cfg.maxRequestsPerConn = max)
    (hsums : (l.sys.ledger w).Sums max) (h : (l.sys.ledger w).SeqAt max sent (l.seq n))
    (hbegin : l.seq n = .idle → l.sys.pendingReqs = [])
    (hsent : ∀ i, l.seq n = .exchange i → sent = true ∨ ∃ torn, ch = .writeError torn)
    (hs : l.doSequential cfg n ch = some l') :
    (l'.sys.ledger w).Sums max ∧ (l'.sys.ledger w).SeqAt max false (l'.seq n) := by
  have hstep := Life.doSequential_step hs
  generalize l.seq n = pc at h hbegin hsent hstep
  have hgo {m : Life} {pc' : SeqPc} (hsums : (m.sys.ledger w).Sums max)
      (h : (m.sys.ledger w).SeqAt max false pc') : ((m.setSeq n pc').sys.ledger w).Sums max ∧
        ((m.setSeq n pc').sys.ledger w).SeqAt max false ((m.setSeq n pc').seq n) := by
    refine ⟨hsums, ?_⟩
    rw [show (m.setSeq n pc').seq n = pc' from Function.update_self ..]
    exact h
  have hquiet (hclear : (l.sys.ledger w).Clear) (hready : (l.sys.ledger w).Ready) :
      (l.sys.ledger w).Quiet max := .inl ⟨hclear, fun _ => hready⟩
  cases hstep with
  | idle =>
    obtain ⟨hclear, hup⟩ := h.of_empty (hbegin rfl)
    exact hgo hsums ⟨hclear, hup, fun hrot => by cases hrot⟩
  | @ensure rotated pc sys r hr =>
    obtain ⟨hsums', hclear', hens', -⟩ := ensureConnection_ledger hmax hsums h.1 h.2 hr
    refine hgo (m := { l with sys := sys }) hsums' ?_
    rcases r with pc' | up
    · exact ⟨hclear', hens'⟩
    · cases up with
      | false =>
        cases rotated with
        | false | true => exact .inl ⟨hclear', upToDate_of_down hens'⟩
      | true =>
        cases rotated with
        | false => exact ⟨hclear', hens'.1⟩
        | true => exact ⟨hclear', hens'.1, hens'.2 rfl⟩
  | @rotate pc sys r hr =>
    obtain ⟨hsums', hclear', hclose', -⟩ := closeConn_ledger hsums h.1 h.2 hr
    refine hgo (m := { l with sys := sys }) hsums' ?_
    cases r with
    | some pc' => exact ⟨hclear', hclose'⟩
    | none => exact ⟨hclear', upToDate_of_down hclose', fun _ => hclose'⟩
  | claim => split <;> exact hgo (m := { l with poolClaimed := false }) hsums h
  | count | checkCtx | prepare | uncount => exact hgo hsums h
  | giveUp => exact hgo hsums (hquiet h.1 h.2)
  | overLimit => exact hgo hsums ⟨h.1, fun _ => h.2.1⟩
  | underLimit hlt =>
    -- the test of the source
    have hroom : l.sys.reqsOnConn < max := by omega
    exact hgo hsums ⟨h.1, h.2, hroom⟩
  | loadStream hi => exact hgo hsums ⟨h.1, h.2, hi⟩
  | loadNil => exact hgo hsums (hquiet h.1 h.2.1)
  | refuse => exact hgo hsums (hquiet h.1 h.2.1.1)
  | @exchange i pc hx =>
    refine hgo hsums ?_
    unfold Life.exchanged at hx
    split at hx
    · cases hx
      exact h.1
    · split at hx
      · cases hx
        exact h.1
      · split at hx <;> cases hx
        rcases hsent i rfl with rfl | ⟨torn, htorn⟩
        · exact h
        · cases htorn
    · cases hx
  | @record closes =>
    obtain ⟨hsums', hready⟩ := sums_record hint hsums h.2
    refine hgo hsums' ?_
    split
    · exact h.1
    · exact .inl ⟨h.1, fun _ => hready⟩
  | unhealthy =>
    exact hgo { hsums with } (.inl ⟨h, upToDate_of_down rfl⟩)

theorem readerRun_ledger {k : ℕ} {ch : Choice} (hint : max < 2 ^ 31)
    (hsums : (s.ledger w).Sums max) (h : (s.ledger w).ReadAt max (s.readers k).pc)
    (hs : s.readerRun k ch = some s') :
    (s'.ledger w).Sums max ∧ (s'.ledger w).ReadAt max (s'.readers k).pc := by
  have hstep := Sys.readerRun_step hs
  have hgo {s₁ : Sys} {r : ResponseReader} (hsums : (s₁.ledger w).Sums max)
      (h : (s₁.ledger w).ReadAt max r.pc) : ((s₁.setReader k r).ledger w).Sums max ∧
        ((s₁.setReader k r).ledger w).ReadAt max ((s₁.setReader k r).readers k).pc := by
    refine ⟨hsums, ?_⟩
    rw [show (s₁.setReader k r).readers k = r from Function.update_self ..]
    exact h
  generalize hpc : (s.readers k).pc = pc at h hstep
  cases hstep with
  | wake _ hsignal =>
    refine hgo { hsums with } ⟨rfl, ?_⟩
    rcases h with ⟨hclear, -⟩ | ⟨-, n, hn⟩
    · exact absurd (hsignal.symm.trans hclear.1) (by simp)
    · exact .inr ⟨n, hn⟩
  | peekNone _ hempty =>
    refine hgo hsums (.inl ⟨⟨h.1, hempty⟩, ?_⟩)
    rcases h.2 with ⟨-, hup⟩ | ⟨n, hn, -⟩
    · exact hup
    · cases hempty.symm.trans hn
  | @peek p rest _ hqueue =>
    refine hgo hsums ⟨h.1, ?_⟩
    rcases h.2 with ⟨hempty, -⟩ | ⟨n, hn⟩
    · cases hqueue.symm.trans hempty
    · cases hqueue.symm.trans hn.1
      exact hn
  | checkClosing hclosing => exact absurd (hclosing.symm.trans h.2.2.2.1) (by simp)
  | check => exact hgo hsums ⟨h.1, h.2.1, h.2.2.2⟩
  | skip _ hnone => exact absurd (hnone.symm.trans h.2.2.1) (by simp)
  | skipCount | skipRemove | skipErrLeft | skipErr => exact h.elim
  | start | startNone | stop | reset | loadCancelled | uncount => exact hgo hsums h
  | @parse p _ hparse =>
    obtain ⟨i, t, log, r, rfl, -, -, hr⟩ := Sys.parse_frame hparse
    refine hgo hsums ?_
    rcases hr with hr | ⟨o, hr⟩
    · rw [hr, hpc]
      exact h
    · rw [hr]
      exact h
  | @remove p o c =>
    refine hgo { hsums with } ⟨⟨h.1, ?_⟩, h.2.2⟩
    show s.pendingReqs.erase p = []
    rw [show s.pendingReqs = [p] from h.2.1, List.erase_cons_head]
  | recordNone hret => exact hgo hsums ⟨h.1, fun _ => h.2.1, fun hne => absurd hret hne⟩
  | record =>
    obtain ⟨hsums', hready⟩ := sums_record hint hsums h.2
    exact hgo hsums' ⟨h.1, fun _ => hready.1, fun _ _ => hready⟩
  | @deliver p o c =>
    obtain ⟨log, response, hd⟩ := s.deliver_frame k p o c
    have hledger : (s.deliver k p o c).ledger w = s.ledger w :=
      hd ▸ ledger_setPend (s := s) (n := p) (x := { s.pend p with response := response }) rfl
    refine hgo (hledger ▸ hsums) ?_
    rw [hledger]
    show ReadAt max _ (Sys.afterDeliver p o c)
    unfold Sys.afterDeliver
    split
    · exact ⟨h.1, h.2.1⟩
    · rename_i hret
      split
      · exact ⟨h.1, h.2.1⟩
      · exact ⟨h.1.1, .inl ⟨h.1.2, h.2.2 hret⟩⟩
  | @close pc p s₁ r hr =>
    obtain ⟨hsums', hclear', hclose', -⟩ := closeConn_ledger hsums h.1 h.2 hr
    refine hgo hsums' ?_
    match r, p with
    | some pc', _ => exact ⟨hclear', hclose'⟩
    | none, none => exact .inl ⟨hclear', upToDate_of_down hclose'⟩
    | none, some p => exact ⟨hclear', hclose'⟩
  | @sendErr p =>
    have hledger :=
      ledger_setPend (w := w) (s := s) (n := p) (x := { s.pend p with err := true }) rfl
    exact hgo (hledger ▸ hsums) (hledger ▸ .inl ⟨h.1, upToDate_of_down h.2⟩)

theorem stop_ledger {m : ℕ} (hsums : (s.ledger w).Sums max)
    (h : (s.ledger w).StopAt max (s.stoppers m))
    (hbegin : s.stoppers m = .cas → s.pendingReqs = []) (hs : s.stop m = some s') :
    (s'.ledger w).Sums max ∧ (s'.ledger w).StopAt max (s'.stoppers m) := by
  unfold Sys.stop at hs
  split at hs
  · rename_i hpc
    rw [hpc] at h
    split at hs <;> cases hs
    · dsimp only
      rw [Function.update_self]
      exact ⟨hsums, h⟩
    · obtain ⟨hclear, hup⟩ := h.of_empty (hbegin hpc)
      dsimp only
      rw [Function.update_self]
      exact ⟨hsums, hclear, fun hhealthy => (hup hhealthy).1⟩
  · rename_i pc hpc
    rw [hpc] at h
    obtain ⟨⟨s₁, r⟩, hr, rfl⟩ := Option.map_eq_some_iff.mp hs
    obtain ⟨hsums', hclear', hclose', -⟩ := closeConn_ledger hsums h.1 h.2 hr
    dsimp only
    rw [Function.update_self]
    refine ⟨hsums', ?_⟩
    cases r with
    | some pc' => exact ⟨hclear', hclose'⟩
    | none => exact .inl ⟨hclear', upToDate_of_down hclose'⟩
  · cases hs

/-! ### Whose place changes -/

theorem ensureConnection_others {n : ℕ} {ch : Choice} {pc : EnsurePc} {r : EnsurePc ⊕ Bool}
    (hs : s.ensureConnection cfg n ch pc = some (s', r)) :
    s'.stoppers = s.stoppers ∧ s'.readers = s.readers := by
  match pc with
  | .lock | .load | .dial =>
    simp only [Sys.ensureConnection] at hs
    split at hs <;> cases hs <;> exact ⟨rfl, rfl⟩
  | .test | .retest | .close _ | .storeNil | .unhealthy | .resetCount | .setHealthy
  | .clearClosing | .clearStopped | .unlock _ =>
    cases hs
    exact ⟨rfl, rfl⟩

/-- A caller moves no reader, but it may start one. -/
theorem doPipelined_others {n : ℕ} {ch : Choice} (hs : s.doPipelined cfg n ch = some s') :
    s'.stoppers = s.stoppers ∧ ∀ k, (s'.readers k).pc = (s.readers k).pc ∨
      ((s'.readers k).pc = .start ∧ (s.callers n).busy = true) := by
  have hstep := Sys.doPipelined_step hs
  generalize s.callers n = pc at hstep ⊢
  cases hstep with
  | ensure hr =>
    obtain ⟨hstoppers, hreaders⟩ := ensureConnection_others hr
    exact ⟨hstoppers, fun k => .inl (congrArg (fun f => (f k).pc) hreaders)⟩
  | rotate hr | failClose hr =>
    exact ⟨(closeConn_takesDown hr).2.2.1, fun k => .inl (closeConn_readers hr k)⟩
  | startReader hconn =>
    refine ⟨rfl, fun k => ?_⟩
    rcases eq_or_ne k s.numReaders with rfl | hk
    · right
      simp [Sys.setCaller, CallerPc.busy]
    · left
      simp only [Sys.setCaller, Function.update_of_ne hk]
  | idle | checkClosing | overLimit | underLimit | prepare | loadStream | loadNil | lock
  | recheckClosing | recheck | needReader | startStopped | startClosing | startNone | count
  | writeTorn | writeFailed | write | uncount | unlockFailed | append | signal | cancel | takeErr
  | receive | setRelease | setCancelled => exact ⟨rfl, fun _ => .inl rfl⟩

theorem doSequential_others {l l' : Life} {n : ℕ} {ch : Choice}
    (hs : l.doSequential cfg n ch = some l') :
    l'.sys.stoppers = l.sys.stoppers ∧
      ∀ k, (l'.sys.readers k).pc = (l.sys.readers k).pc := by
  have hstep := Life.doSequential_step hs
  generalize l.seq n = pc at hstep
  cases hstep with
  | ensure hr =>
    obtain ⟨hstoppers, hreaders⟩ := ensureConnection_others hr
    exact ⟨hstoppers, fun k => congrArg (fun f => (f k).pc) hreaders⟩
  | rotate hr => exact ⟨(closeConn_takesDown hr).2.2.1, fun k => closeConn_readers hr k⟩
  | idle | claim | count | giveUp | checkCtx | overLimit | underLimit | loadStream | loadNil
  | refuse | prepare | exchange | record | unhealthy | uncount => exact ⟨rfl, fun _ => rfl⟩

theorem readerRun_others {k : ℕ} {ch : Choice} (hs : s.readerRun k ch = some s') :
    s'.stoppers = s.stoppers ∧ ∀ j, j ≠ k → (s'.readers j).pc = (s.readers j).pc := by
  have hstep := Sys.readerRun_step hs
  have hother (s : Sys) (r : ResponseReader) (j : ℕ) (hj : j ≠ k) :
      ((s.setReader k r).readers j).pc = (s.readers j).pc :=
    congrArg ResponseReader.pc (Function.update_of_ne hj ..)
  generalize (s.readers k).pc = pc at hstep
  cases hstep with
  | parse hparse =>
    obtain ⟨i, t, log, r, rfl, -⟩ := Sys.parse_frame hparse
    exact ⟨rfl, fun j hj => hother _ _ j hj⟩
  | @deliver p o c =>
    obtain ⟨log, response, hd⟩ := s.deliver_frame k p o c
    rw [hd]
    exact ⟨rfl, fun j hj => hother _ _ j hj⟩
  | close hr =>
    exact ⟨(closeConn_takesDown hr).2.2.1,
      fun j hj => (hother _ _ j hj).trans (closeConn_readers hr j)⟩
  | start | startNone | stop | wake | peekNone | peek | checkClosing | check | skip | skipCount
  | skipRemove | skipErrLeft | skipErr | reset | loadCancelled | uncount | remove | recordNone
  | record | sendErr => exact ⟨rfl, fun j hj => hother _ _ j hj⟩

theorem stop_others {m : ℕ} (hs : s.stop m = some s') :
    (∀ k, (s'.readers k).pc = (s.readers k).pc) ∧
      ∀ j, j ≠ m → s'.stoppers j = s.stoppers j := by
  unfold Sys.stop at hs
  split at hs
  · split at hs <;> cases hs <;>
      exact ⟨fun _ => rfl, fun j hj => Function.update_of_ne hj ..⟩
  · obtain ⟨⟨s₁, r⟩, hr, rfl⟩ := Option.map_eq_some_iff.mp hs
    refine ⟨fun k => (closeConn_readers hr k :), fun j hj => ?_⟩
    exact (Function.update_of_ne hj ..).trans (congrFun (closeConn_takesDown hr).2.2.1 j)
  · cases hs

/-- A caller that is not at work, and does not begin. -/
theorem doPipelined_aside {n : ℕ} {ch : Choice} (hidle : (s.callers n).busy = false)
    (hbegin : s.callers n ≠ .idle) (hs : s.doPipelined cfg n ch = some s') :
    s'.ledger w = s.ledger w ∧ (s'.callers n).busy = false := by
  have hstep := Sys.doPipelined_step hs
  have hself (s : Sys) (pc : CallerPc) : (s.setCaller n pc).callers n = pc :=
    Function.update_self ..
  generalize s.callers n = pc at hidle hbegin hstep
  cases hstep with
  | idle => exact absurd rfl hbegin
  | cancel | takeErr =>
    rw [hself]
    exact ⟨rfl, rfl⟩
  | receive | setRelease | setCancelled =>
    rw [hself]
    exact ⟨ledger_setPend (s := s) rfl, rfl⟩
  | _ => cases hidle

theorem doSequential_aside {l l' : Life} {n : ℕ} {ch : Choice} (hidle : (l.seq n).busy = false)
    (hbegin : l.seq n ≠ .idle) (hs : l.doSequential cfg n ch = some l') :
    l'.sys.ledger w = l.sys.ledger w ∧ (l'.seq n).busy = false := by
  have hstep := Life.doSequential_step hs
  generalize l.seq n = pc at hidle hbegin hstep
  cases hstep with
  | idle => exact absurd rfl hbegin
  | uncount =>
    refine ⟨rfl, ?_⟩
    simp only [Life.setSeq, Function.update_self, SeqPc.busy]
  | _ => cases hidle

end Steps

/-! ### Runs in turn -/

namespace Traffic

variable {cfg : Config} {t t' : Traffic}

def ledger (t : Traffic) : Ledger := t.life.sys.ledger t.written

/-- At most one goroutine is at work, and the ledger says what it is at. -/
structure Kept (cfg : Config) (t : Traffic) : Prop where
  sums : t.ledger.Sums cfg.maxRequestsPerConn
  work : ∀ a, t.turn = some a → (t.place cfg a).busy = true
  rest : ∀ a, t.turn ≠ some a → (t.place cfg a).busy = false
  here : t.turn.elim (t.ledger.Quiet cfg.maxRequestsPerConn)
    fun a => t.ledger.At cfg.maxRequestsPerConn (t.place cfg a)

/-- What a step does. -/
inductive Acts (cfg : Config) (t : Traffic) : Agent × Choice → Traffic → Prop
  | pool {ch : Choice} : Acts cfg t (.pool, ch) { t with life := t.life.claim }
  | client {n : ℕ} {ch : Choice} : t.life.sys.callers n = .returned .error →
      Acts cfg t (.conn (.client n), ch)
        { t with life := { t.life with
          sys := { t.life.sys with log := .put n :: t.life.sys.log }.setCaller n .released } }
  | reader {k : ℕ} {ch : Choice} {sys : Sys} : t.life.sys.readerRun k ch = some sys →
      Acts cfg t (.conn (.reader k), ch) { t with life := { t.life with sys := sys } }
  | stopper {m : ℕ} {ch : Choice} {sys : Sys} : t.life.sys.stop m = some sys →
      Acts cfg t (.conn (.stopper m), ch) { t with life := { t.life with sys := sys } }
  | caller {n : ℕ} {ch : Choice} {sys : Sys} {sent : ℕ → Bool} :
      cfg.enablePipelining = true → t.life.sys.doPipelined cfg n ch = some sys →
      Acts cfg t (.conn (.caller n), ch)
        { t with
          life := { t.life with sys := sys }
          sent := sent
          written := (t.life.sys.callers n).wrote ch t.written }
  | seq {n : ℕ} {ch : Choice} {life : Life} : ¬cfg.enablePipelining = true →
      t.life.doSequential cfg n ch = some life →
      (∀ i, t.life.seq n = .exchange i → t.sent n = true ∨ ∃ torn, ch = .writeError torn) →
      Acts cfg t (.conn (.caller n), ch)
        { t with life := life, sent := update t.sent n false }
  | write {n i : ℕ} {ch : Choice} : ¬cfg.enablePipelining = true →
      t.life.seq n = .exchange i → t.sent n = false →
      Acts cfg t (.conn (.caller n), ch)
        { t with
          written := update t.written i (t.written i + 1)
          sent := update t.sent n true }

theorem writing_pipelined (hmode : cfg.enablePipelining = true) (n i : ℕ) :
    t.writing cfg n = some i ↔ t.life.sys.callers n = .write i := by
  simp only [writing, if_pos hmode]
  split <;> simp_all

theorem writing_sequential (hmode : ¬cfg.enablePipelining = true) (n i : ℕ) :
    t.writing cfg n = some i ↔ t.life.seq n = .exchange i ∧ t.sent n = false := by
  simp only [writing, if_neg hmode]
  split <;> simp_all

theorem call_acts {n : ℕ} {ch : Choice} (hs : t.call cfg n ch = some t') :
    Acts cfg t (.conn (.caller n), ch) t' := by
  unfold call at hs
  by_cases hmode : cfg.enablePipelining = true
  · simp only [Life.step, if_pos hmode] at hs
    have hgo {sys : Sys} {w : ℕ → ℕ} (sent : ℕ → Bool)
        (hsys : t.life.sys.doPipelined cfg n ch = some sys)
        (hw : (t.life.sys.callers n).wrote ch t.written = w) : Acts cfg t (.conn (.caller n), ch)
          { t with life := { t.life with sys := sys }, sent := sent, written := w } :=
      hw ▸ .caller hmode hsys
    split at hs
    · rename_i hnone
      obtain ⟨_, hlife, rfl⟩ := Option.map_eq_some_iff.mp hs
      obtain ⟨sys, hsys, rfl⟩ := Option.map_eq_some_iff.mp hlife
      refine hgo _ hsys ?_
      cases hpc : t.life.sys.callers n with
      | write i => cases hnone.symm.trans ((writing_pipelined hmode n i).mpr hpc)
      | _ => rfl
    · rename_i hi
      obtain ⟨_, hlife, rfl⟩ := Option.map_eq_some_iff.mp hs
      obtain ⟨sys, hsys, rfl⟩ := Option.map_eq_some_iff.mp hlife
      exact hgo _ hsys (by rw [(writing_pipelined hmode n _).mp hi]; rfl)
    · rename_i i hi hch
      split at hs
      · cases hs
      obtain ⟨_, hlife, rfl⟩ := Option.map_eq_some_iff.mp hs
      obtain ⟨sys, hsys, rfl⟩ := Option.map_eq_some_iff.mp hlife
      refine hgo _ hsys ?_
      rw [(writing_pipelined hmode n i).mp hi]
      exact CallerPc.wrote_write hch
  · simp only [Life.step, if_neg hmode] at hs
    split at hs
    · rename_i hnone
      obtain ⟨life, hlife, rfl⟩ := Option.map_eq_some_iff.mp hs
      refine .seq hmode hlife fun i hi => .inl ?_
      by_contra hsent
      cases hnone.symm.trans ((writing_sequential hmode n i).mpr ⟨hi, by simpa using hsent⟩)
    · rename_i torn _
      obtain ⟨life, hlife, rfl⟩ := Option.map_eq_some_iff.mp hs
      exact .seq hmode hlife fun _ _ => .inr ⟨torn, rfl⟩
    · rename_i i hi _
      obtain ⟨hpc, hsent⟩ := (writing_sequential hmode n i).mp hi
      split at hs
      · cases hs
      split at hs <;> cases hs
      exact .write hmode hpc hsent

theorem act_acts {l : Agent × Choice} (hs : t.act cfg l = some t') : Acts cfg t l t' := by
  obtain ⟨a, ch⟩ := l
  match a with
  | .pool =>
    cases hs
    exact .pool
  | .conn (.caller n) => exact call_acts hs
  | .conn (.client n) =>
    simp only [act, Life.step, Sys.step, Sys.releaseResponse] at hs
    split at hs <;> cases hs
    exact .client (by assumption)
  | .conn (.reader k) =>
    obtain ⟨_, hlife, rfl⟩ := Option.map_eq_some_iff.mp hs
    obtain ⟨sys, hsys, rfl⟩ := Option.map_eq_some_iff.mp hlife
    exact .reader hsys
  | .conn (.stopper m) =>
    obtain ⟨_, hlife, rfl⟩ := Option.map_eq_some_iff.mp hs
    obtain ⟨sys, hsys, rfl⟩ := Option.map_eq_some_iff.mp hlife
    exact .stopper hsys

theorem claim_ledger (l : Life) (w : ℕ → ℕ) : l.claim.sys.ledger w = l.sys.ledger w := by
  unfold Life.claim
  split <;> rfl

theorem claim_place (a : Agent) : { t with life := t.life.claim }.place cfg a = t.place cfg a := by
  unfold Life.claim
  match a with
  | .pool | .conn (.caller _) | .conn (.client _) | .conn (.reader _) | .conn (.stopper _) =>
    split <;> rfl

theorem Acts.turn {l : Agent × Choice} (hs : Acts cfg t l t') : t'.turn = t.turn := by
  cases hs <;> rfl

/-- A step of a goroutine while nobody else is at work. -/
theorem Acts.at {l : Agent × Choice} (hs : Acts cfg t l t') (hmax : 0 < cfg.maxRequestsPerConn)
    (hint : cfg.maxRequestsPerConn < 2 ^ 31) (hin : t.InTurn cfg l)
    (hsums : t.ledger.Sums cfg.maxRequestsPerConn)
    (h : t.ledger.At cfg.maxRequestsPerConn (t.place cfg l.1)) :
    t'.ledger.Sums cfg.maxRequestsPerConn ∧
      t'.ledger.At cfg.maxRequestsPerConn (t'.place cfg l.1) := by
  cases hs with
  | pool =>
    rw [claim_place, ledger, claim_ledger]
    exact ⟨hsums, h⟩
  | client => exact ⟨hsums, h⟩
  | reader hsys => exact readerRun_ledger hint hsums h hsys
  | stopper hsys =>
    exact stop_ledger hsums h
      (fun hcas => (hin (by simp only [place, hcas, Place.begins])).2.1) hsys
  | caller hmode hsys =>
    simp only [place, if_pos hmode] at h ⊢
    exact doPipelined_ledger hmax rfl hsums h
      (fun hidle => (hin (by simp only [place, if_pos hmode, hidle, Place.begins])).2) hsys
  | seq hmode hlife hwrote =>
    simp only [place, if_neg hmode, Function.update_self] at h ⊢
    exact doSequential_ledger hmax hint rfl hsums h
      (fun hidle => (hin (by simp only [place, if_neg hmode, hidle, Place.begins])).2.1)
      hwrote hlife
  | write hmode hpc hns =>
    simp only [place, if_neg hmode, Function.update_self, hpc, hns] at h ⊢
    obtain ⟨hsums', howe⟩ := sums_write hsums h.2.1 h.2.2
    exact ⟨hsums', h.1, howe⟩

/-- Nobody else is moved, but for a reader that is started and a call that `DoWithContext` is
done with. -/
theorem Acts.others {l : Agent × Choice} (hs : Acts cfg t l t') {b : Agent} (hb : b ≠ l.1) :
    t'.place cfg b = t.place cfg b ∨ ((t'.place cfg b).busy = false ∧
      ((t.place cfg b).busy = true → (t.place cfg l.1).busy = true)) := by
  cases hs with
  | pool => exact .inl (claim_place b)
  | @client n _ hpc =>
    rcases b with (m | _ | _ | _) | _
    · simp only [place, Sys.setCaller]
      rcases eq_or_ne m n with rfl | hmn
      · rw [Function.update_self, hpc]
        split
        · exact .inr ⟨rfl, fun hbusy => by cases hbusy⟩
        · exact .inl rfl
      · rw [Function.update_of_ne hmn]
        exact .inl rfl
    all_goals exact .inl rfl
  | reader hsys =>
    obtain ⟨hstoppers, hreaders⟩ := readerRun_others hsys
    left
    rcases b with (_ | _ | j | _) | _
    · simp only [place, readerRun_callers hsys]
    · rfl
    · simp only [place, hreaders j (by simpa using hb)]
    · simp only [place, hstoppers]
    · rfl
  | stopper hsys =>
    obtain ⟨hreaders, hstoppers⟩ := stop_others hsys
    left
    rcases b with (_ | _ | j | j) | _
    · simp only [place, stop_callers hsys]
    · rfl
    · simp only [place, hreaders j]
    · simp only [place, hstoppers j (by simpa using hb)]
    · rfl
  | @caller n _ _ _ hmode hsys =>
    obtain ⟨hstoppers, hreaders⟩ := doPipelined_others hsys
    rcases b with (m | _ | j | _) | _
    · obtain ⟨pc, hcallers, -⟩ := doPipelined_callers hsys
      have hmn : m ≠ n := by simpa using hb
      simp only [place, if_pos hmode, hcallers, Function.update_of_ne hmn, true_or]
    · exact .inl rfl
    · rcases hreaders j with hsame | ⟨hstart, hbusy⟩
      · simp only [place, hsame, true_or]
      · -- the reader that the call starts
        right
        simp only [place, hstart, if_pos hmode]
        exact ⟨rfl, fun _ => hbusy⟩
    · simp only [place, hstoppers, true_or]
    · exact .inl rfl
  | @seq n ch life hmode hlife =>
    obtain ⟨hstoppers, hreaders⟩ := doSequential_others hlife
    left
    rcases b with (m | _ | j | _) | _
    · have hmn : m ≠ n := by simpa using hb
      have hstep : t.life.step cfg (.conn (.caller n), ch) = some life := by
        simp only [Life.step, if_neg hmode, hlife]
      simp only [place, if_neg hmode, Function.update_of_ne hmn,
        Life.step_seq (by simpa using hmn.symm) hstep]
    · rfl
    · simp only [place, hreaders j]
    · simp only [place, hstoppers]
    · rfl
  | @write n _ _ hmode =>
    left
    rcases b with (m | _ | _ | _) | _
    · have hmn : m ≠ n := by simpa using hb
      simp only [place, if_neg hmode, Function.update_of_ne hmn]
    all_goals rfl

/-- Who is not at work, and does not begin, changes nothing while another is. -/
theorem Acts.aside {l : Agent × Choice} (hs : Acts cfg t l t')
    (hidle : (t.place cfg l.1).busy = false) (hbegin : (t.place cfg l.1).begins = false)
    (hsignal : t.life.sys.pendingSignal = false) :
    t'.ledger = t.ledger ∧ (t'.place cfg l.1).busy = false := by
  cases hs with
  | pool => exact ⟨claim_ledger _ _, rfl⟩
  | client => exact ⟨rfl, rfl⟩
  | @reader k _ sys hsys =>
    have hstep := Sys.readerRun_step hsys
    have hpc : (t.life.sys.readers k).pc.busy = false := hidle
    generalize (t.life.sys.readers k).pc = pc at hpc hstep
    cases hstep with
    | start | startNone | stop =>
      refine ⟨rfl, ?_⟩
      simp [place, Sys.setReaderPc, Sys.setReader, Place.busy, ReaderPc.busy]
    | wake _ hset => exact absurd (hset.symm.trans hsignal) (by simp)
    | _ => cases hpc
  | @stopper m _ sys hsys =>
    cases hpc : t.life.sys.stoppers m with
    | cas => simp only [place, hpc, Place.begins, Bool.true_eq_false] at hbegin
    | closing pc => simp only [place, hpc, Place.busy, StopPc.busy, Bool.true_eq_false] at hidle
    | done =>
      simp only [Sys.stop, hpc] at hsys
      cases hsys
  | @caller n ch sys sent hmode hsys =>
    simp only [place, if_pos hmode] at hidle hbegin ⊢
    obtain ⟨hledger, hbusy⟩ := doPipelined_aside (w := t.written) hidle
      (fun hpc => by simp only [hpc, Place.begins, Bool.true_eq_false] at hbegin) hsys
    refine ⟨?_, hbusy⟩
    have hwrote : (t.life.sys.callers n).wrote ch t.written = t.written := by
      cases hpc : t.life.sys.callers n with
      | write i =>
        rw [hpc] at hidle
        cases hidle
      | _ => rfl
    rw [ledger, hwrote]
    exact hledger
  | seq hmode hlife =>
    simp only [place, if_neg hmode] at hidle hbegin ⊢
    exact doSequential_aside hidle
      (fun hpc => by simp only [hpc, Place.begins, Bool.true_eq_false] at hbegin) hlife
  | write hmode hpc =>
    simp only [place, if_neg hmode, hpc, Place.busy, SeqPc.busy, Bool.true_eq_false] at hidle

theorem Kept.new (hmax : 0 < cfg.maxRequestsPerConn) : Traffic.new.Kept cfg where
  sums := ⟨fun _ => hmax.le, fun _ _ => rfl, (fun _ hi => by cases hi), le_rfl, hmax.le⟩
  work _ ha := by cases ha
  rest a _ := by
    match a with
    | .pool | .conn (.client _) | .conn (.reader _) | .conn (.stopper _) => rfl
    | .conn (.caller n) =>
      simp only [place]
      split <;> rfl
  here := .inl ⟨⟨rfl, rfl⟩, Ledger.upToDate_of_down rfl⟩

/-- A step of whoever is at work, or of anybody while nobody is. -/
theorem Kept.work_step {l : Agent × Choice} (hmax : 0 < cfg.maxRequestsPerConn)
    (hint : cfg.maxRequestsPerConn < 2 ^ 31) (h : t.Kept cfg) (hin : t.InTurn cfg l)
    (hs : Acts cfg t l t') (hfree : t.turn = none ∨ t.turn = some l.1) :
    (t'.pass cfg l.1).Kept cfg := by
  have hat : t.ledger.At cfg.maxRequestsPerConn (t.place cfg l.1) := by
    have hhere := h.here
    rcases hfree with hnone | hmine
    · rw [hnone] at hhere
      exact (Ledger.at_iff_quiet (h.rest l.1 (by simp [hnone]))).mpr hhere
    · rw [hmine] at hhere
      exact hhere
  obtain ⟨hsums, hat'⟩ := hs.at hmax hint hin h.sums hat
  have hpass : (t'.pass cfg l.1).turn = if (t'.place cfg l.1).busy then some l.1 else none := by
    simp only [pass, hs.turn]
    rcases hfree with hnone | hmine <;> simp [*]
  refine ⟨hsums, fun a ha => ?_, fun b hb => ?_, ?_⟩
  · rw [hpass] at ha
    split at ha <;> cases ha
    assumption
  · rw [hpass] at hb
    rcases eq_or_ne b l.1 with rfl | hbl
    · show (t'.place cfg l.1).busy = false
      by_contra hbusy
      rw [if_pos (by simpa using hbusy)] at hb
      exact hb rfl
    · have hrest : (t.place cfg b).busy = false := by
        refine h.rest b fun hturn => ?_
        rcases hfree with hnone | hmine
        · cases hnone.symm.trans hturn
        · exact hbl (Option.some_inj.mp (hturn.symm.trans hmine))
      rcases hs.others hbl with hsame | ⟨hnew, -⟩
      · exact hsame ▸ hrest
      · exact hnew
  · rw [hpass]
    split
    · exact hat'
    · exact (Ledger.at_iff_quiet (by simp_all)).mp hat'

/-- A step of somebody else, who only passes by. -/
theorem Kept.aside_step {l : Agent × Choice} {y : Agent} (h : t.Kept cfg) (hin : t.InTurn cfg l)
    (hs : Acts cfg t l t') (hy : t.turn = some y) (hyl : y ≠ l.1) :
    (t'.pass cfg l.1).Kept cfg := by
  have hidle : (t.place cfg l.1).busy = false :=
    h.rest l.1 fun hturn => hyl (Option.some_inj.mp (hy.symm.trans hturn))
  have hbegin : (t.place cfg l.1).begins = false := by
    by_contra hb
    cases hy.symm.trans (hin (by simpa using hb)).1
  have hhere : t.ledger.At cfg.maxRequestsPerConn (t.place cfg y) := by
    have hhere := h.here
    rwa [hy] at hhere
  obtain ⟨hledger, hidle'⟩ :=
    hs.aside hidle hbegin (Ledger.At.not_signalled hhere (h.work y hy))
  have hpass : (t'.pass cfg l.1).turn = some y := by
    simp [pass, hidle', hs.turn, hy, hyl]
  have hplace (b : Agent) (hbl : b ≠ l.1) : t'.place cfg b = t.place cfg b ∨
      ((t'.place cfg b).busy = false ∧ (t.place cfg b).busy = false) := by
    rcases hs.others hbl with hsame | ⟨hnew, hold⟩
    · exact .inl hsame
    · refine .inr ⟨hnew, ?_⟩
      by_contra hb
      exact absurd (hidle.symm.trans (hold (by simpa using hb))) (by simp)
  have hstay : t'.place cfg y = t.place cfg y := by
    rcases hplace y hyl with hsame | ⟨-, hold⟩
    · exact hsame
    · exact absurd (hold.symm.trans (h.work y hy)) (by simp)
  refine ⟨?_, fun a ha => ?_, fun b hb => ?_, ?_⟩
  · show t'.ledger.Sums _
    rw [hledger]
    exact h.sums
  · cases hpass.symm.trans ha
    exact (congrArg Place.busy hstay).trans (h.work y hy)
  · rcases eq_or_ne b l.1 with rfl | hbl
    · exact hidle'
    · rcases hplace b hbl with hsame | ⟨hnew, -⟩
      · refine (congrArg Place.busy hsame).trans (h.rest b ?_)
        rw [hy]
        rwa [hpass] at hb
      · exact hnew
  · rw [hpass]
    show t'.ledger.At _ (t'.place cfg y)
    rw [hledger, hstay]
    exact hhere

theorem step_kept {l : Agent × Choice} (hmax : 0 < cfg.maxRequestsPerConn)
    (hint : cfg.maxRequestsPerConn < 2 ^ 31) (h : t.Kept cfg) (hin : t.InTurn cfg l)
    (hs : t.step cfg l = some t') : t'.Kept cfg := by
  obtain ⟨t₁, hact, rfl⟩ := Option.map_eq_some_iff.mp hs
  have hacts := act_acts hact
  by_cases hfree : t.turn = none ∨ t.turn = some l.1
  · exact h.work_step hmax hint hin hacts hfree
  · push Not at hfree
    obtain ⟨y, hy⟩ := Option.ne_none_iff_exists'.mp hfree.1
    exact h.aside_step hin hacts hy fun heq => hfree.2 (heq ▸ hy)

end Traffic

/-- **Requests per connection.**  In every run in which calls and `Stop` begin in turn
(`Traffic.InTurn`), in both modes, at most `MaxRequestsPerConn` requests are written to a
stream. -/
theorem written_bounded (cfg : Config) (hmax : 0 < cfg.maxRequestsPerConn)
    (hint : cfg.maxRequestsPerConn < 2 ^ 31) {t : Traffic}
    (ht : Reaches (Traffic.step cfg) (Traffic.InTurn cfg) Traffic.new t) (i : ℕ) :
    (t.written i : ℤ) ≤ cfg.maxRequestsPerConn := by
  have hkept := ht.invariant (Traffic.Kept cfg) (.new hmax)
    fun _ _ _ h hin hs => Traffic.step_kept hmax hint h hin hs
  exact hkept.sums.bound i

/-! ### Runs -/

/-- One request per connection, without pipelining. -/
def oneByOne : Config := { rotating with enablePipelining := false }

/-- The steps of a call in which nothing is left to choose. -/
def callSteps (n m : ℕ) : List (Agent × Choice) :=
  List.replicate m (Agent.conn (Tid.caller n), Choice.plain)

/-- The steps of reader 0 from its start to the next `select`, with one answer. -/
def readSteps : List (Agent × Choice) :=
  ([.plain, .plain, .plain, .plain, .plain, .fetch 1, .finish .ok false false, .plain, .plain,
    .plain, .plain, .plain, .plain] : List Choice).map fun ch => (Agent.conn (Tid.reader 0), ch)

/-- Call 1 dials, writes and gets its response; call 2 begins then, finds the connection at its
limit, rotates it and writes, with pipelining and without. -/
theorem written_bounded_rotated :
    (∃ t, Reaches (Traffic.step rotating) (Traffic.InTurn rotating) Traffic.new t ∧
        rotating.enablePipelining = true ∧ t.written 0 = 1 ∧ t.written 1 = 1 ∧
        (t.written 0 : ℤ) ≤ rotating.maxRequestsPerConn) ∧
      ∃ t, Reaches (Traffic.step oneByOne) (Traffic.InTurn oneByOne) Traffic.new t ∧
        oneByOne.enablePipelining = false ∧ t.written 0 = 1 ∧ t.written 1 = 1 ∧
        (t.written 0 : ℤ) ≤ oneByOne.maxRequestsPerConn := by
  constructor
  · obtain ⟨t, ht, hfirst, hsecond⟩ := Guarded.exists_of_exec (Traffic.step rotating)
      (Traffic.InTurn rotating) Traffic.new (callSteps 1 26 ++ readSteps ++ callSteps 2 35)
      (fun t => t.written 0 = 1 ∧ t.written 1 = 1) (by decide +kernel)
    exact ⟨t, ht, rfl, hfirst, hsecond, written_bounded rotating (by decide) (by decide) ht 0⟩
  · obtain ⟨t, ht, hfirst, hsecond⟩ := Guarded.exists_of_exec (Traffic.step oneByOne)
      (Traffic.InTurn oneByOne) Traffic.new
      (callSteps 1 19 ++ [(Agent.conn (Tid.caller 1), Choice.finish .ok false false)] ++
        callSteps 1 2 ++ callSteps 2 28)
      (fun t => t.written 0 = 1 ∧ t.written 1 = 1) (by decide +kernel)
    exact ⟨t, ht, rfl, hfirst, hsecond, written_bounded oneByOne (by decide) (by decide) ht 0⟩

/-- Otherwise two calls pass the test before a response has been counted, and write to the same
stream, with pipelining and without. -/
theorem written_unbounded :
    (∃ t, Reaches (Traffic.step rotating) (fun _ _ => True) Traffic.new t ∧
        rotating.enablePipelining = true ∧ rotating.maxRequestsPerConn = 1 ∧
        t.written 0 = 2) ∧
      ∃ t, Reaches (Traffic.step oneByOne) (fun _ _ => True) Traffic.new t ∧
        oneByOne.enablePipelining = false ∧ oneByOne.maxRequestsPerConn = 1 ∧
        t.written 0 = 2 := by
  constructor
  · obtain ⟨t, ht, htwo⟩ := Guarded.exists_of_exec (Traffic.step rotating) (fun _ _ => True)
      Traffic.new (callSteps 1 25 ++ callSteps 2 11) (fun t => t.written 0 = 2)
      (by decide +kernel)
    exact ⟨t, ht, rfl, rfl, htwo⟩
  · obtain ⟨t, ht, htwo⟩ := Guarded.exists_of_exec (Traffic.step oneByOne) (fun _ _ => True)
      Traffic.new (callSteps 1 19 ++ callSteps 2 9) (fun t => t.written 0 = 2)
      (by decide +kernel)
    exact ⟨t, ht, rfl, rfl, htwo⟩

end BurstHttp.Pipeline
