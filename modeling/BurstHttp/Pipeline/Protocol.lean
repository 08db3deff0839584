/-
The pipelining protocol, apart from the code that follows it.

Requests are written on TCP streams and stand in one line until a response
reader has dealt with them.  A server answers the requests of a stream in the
order in which it got them; a reader takes answers off its stream into a buffer
of its own, and hands the first answer it holds to the request at the head of
the line.

* `Wire` — the state: the line, the streams with the server's end of each, the
  readers, and what has become of each request;
* `Action` — what can happen, `Enabled` — when, and `Wire.next` — what follows.

Requests, streams and readers are numbered; a request, its `PendingRequest` and
its `Response` object share one number.
-/
import Mathlib.Data.List.Basic
import Mathlib.Logic.Function.Basic

namespace BurstHttp.Pipeline

open Function (update)

/-- A TCP stream.  `served` lists the requests the server has got, in order; the
first `taken` answers have been read off the stream, and the first `answered` of
them parsed. -/
structure Stream where
  served : List ℕ := []
  taken : ℕ := 0
  answered : ℕ := 0
  closed : Bool := false
  torn : Bool := false  -- a write has failed part way

/-- The requests on a stream whose answers have not been parsed. -/
def Stream.unanswered (t : Stream) : List ℕ := t.served.drop t.answered

/-- How `readResponseBuffered` comes back: with nil, or with an error after or
before it has stored a status code. -/
inductive ParseRet
  | ok
  | late
  | early
  deriving DecidableEq, Repr

/-- A parse that has ended: the request whose answer was read (`none` if the bytes
were not a whole answer), the result, and `resp.isConnectionClose()`. -/
structure Parsed where
  answer : Option ℕ
  ret : ParseRet
  closes : Bool
  deriving DecidableEq, Repr

/-- What a response reader is about to do for the request it has taken up. -/
inductive Phase
  | idle                            -- it looks for a request
  | dead                            -- it will not look again
  | peeked (p : ℕ)                  -- it has seen `p` at the head of the line
  | skipping (p : ℕ)                -- `p` has no response object
  | skipped (p : ℕ)                 -- and has left the line
  | inside (p : ℕ)                  -- it fills the response object of `p`
  | parsed (p : ℕ) (o : Parsed)     -- it has, and will remove `p` from the line
  | removed (p : ℕ) (o : Parsed)    -- it has, and will deliver
  | failing (p : ℕ)                 -- it will report an error to `p`
  deriving DecidableEq, Repr

/-- A reader: its stream, the answers in its buffer, and whether it has stopped
inside an answer, so that what it reads next is not the beginning of one. -/
structure Reader where
  stream : ℕ
  buf : List ℕ
  desync : Bool
  phase : Phase

/-- The outcome of a parse that returns `ret`. -/
def Reader.outcome (r : Reader) (ret : ParseRet) (closes : Bool) : Parsed :=
  ⟨if ret = .early ∨ r.desync then none else r.buf.head?, ret, closes⟩

/-- Whether a parse that returns `ret` uses an answer up. -/
def Reader.consumes (r : Reader) (ret : ParseRet) : Bool := ret != .early && !r.desync

/-- How far the caller of a request has got. -/
inductive Stage
  | before        -- the request is not written
  | waiting       -- it is, and the caller waits for the outcome
  | transferred   -- the caller was cancelled and has left the response object behind
  | answered      -- the caller has the response
  | failed        -- the caller has an error, and still holds the response object
  | put           -- the response object is back in the pool
  deriving DecidableEq, Repr

inductive Event
  | began (i : ℕ)                              -- a parse begins on stream `i`
  | broke (i : ℕ)                              -- a parse on `i` fails or stops inside the answer
  | sent (p i : ℕ) (answer : Option ℕ)         -- the answer read from `i` is given to `p`
  | touched (p : ℕ)                            -- a reader writes to the response object of `p`
  | released (p : ℕ)                           -- a reader puts it back into the pool
  | put (p : ℕ)                                -- the caller of `p` puts it back
  deriving DecidableEq, Repr

/-- What the end of a parse on stream `i` adds to the log.  One that fails early has stored
nothing in the response object. -/
def parseEvents (p i : ℕ) (ret : ParseRet) (cut : Bool) : List Event :=
  if ret = .early then [.broke i]
  else if ret = .ok ∧ cut = false then [.touched p]
  else [.touched p, .broke i]

/-- The state of the protocol.  `line` holds the requests that are written and not
yet dealt with, `reg` is the registered reader; `err` and `ready` say whose error
and response channels have something; `log` lists events, latest first. -/
@[ext]
structure Wire where
  line : List ℕ
  reg : Option ℕ
  numStreams : ℕ
  streams : ℕ → Stream
  numReaders : ℕ
  readers : ℕ → Reader
  written : ℕ → Option ℕ
  stage : ℕ → Stage
  err : ℕ → Bool
  ready : ℕ → Bool
  log : List Event

inductive Action
  | dial
  | close (i : ℕ)
  | write (n i q : ℕ)
  | tear (i : ℕ)
  | register (i : ℕ)
  | drop
  | peek (k p : ℕ)
  | pass (k p : ℕ)
  | skip (k p : ℕ)
  | reset (k p : ℕ)
  | fetch (k p m : ℕ)
  | finish (k p : ℕ) (ret : ParseRet) (cut closes : Bool)
  | removeSkipped (k p : ℕ)
  | remove (k p : ℕ) (o : Parsed)
  | deliver (k p : ℕ) (o : Parsed) (send release : Bool) (next : Phase)
  | fail (k p : ℕ) (send : Bool) (next : Phase)
  | retire (k : ℕ)
  | settle (n : ℕ) (st : Stage)

/-- The reader whose action it is. -/
def Action.reader : Action → Option ℕ
  | .peek k _ | .pass k _ | .skip k _ | .reset k _ | .fetch k _ _ | .finish k _ _ _ _
  | .removeSkipped k _ | .remove k _ _ | .deliver k _ _ _ _ _ | .fail k _ _ _ | .retire k => some k
  | .dial | .close _ | .write _ _ _ | .tear _ | .register _ | .drop | .settle _ _ => none

namespace Wire

/-- The stream a reader reads. -/
def source (w : Wire) (k : ℕ) : Stream := w.streams (w.readers k).stream

def setPhase (w : Wire) (k : ℕ) (ph : Phase) : Wire :=
  { w with
    readers := fun m => { w.readers m with phase := if m = k then ph else (w.readers m).phase } }

def setStream (w : Wire) (i : ℕ) (t : Stream) : Wire :=
  { w with streams := update w.streams i t }

/-- A property of every reader's phase, when one of them goes on. -/
theorem forall_setPhase {w : Wire} {k : ℕ} {ph : Phase} {P : ℕ → Phase → Prop} (hk : P k ph)
    (hm : ∀ m, m ≠ k → P m (w.readers m).phase) (m : ℕ) :
    P m ((w.setPhase k ph).readers m).phase := by
  simp only [setPhase]
  split
  case isTrue h => exact h ▸ hk
  case isFalse h => exact hm m h

theorem setPhase_eq_update (w : Wire) (k : ℕ) (ph : Phase) :
    (w.setPhase k ph).readers = update w.readers k { w.readers k with phase := ph } := by
  funext m
  rcases eq_or_ne m k with rfl | h
  · simp only [setPhase, Function.update_self, if_true]
  · simp only [setPhase, Function.update_of_ne h, h, if_false]

/-- The next `m` answers that reader `k` can take off its stream. -/
def fetched (w : Wire) (k m : ℕ) : List ℕ :=
  ((w.source k).served.drop (w.source k).taken).take m

/-- The state after an action. -/
def next (w : Wire) : Action → Wire
  | .dial =>
    { w with numStreams := w.numStreams + 1, streams := update w.streams w.numStreams {} }
  | .close i => w.setStream i { w.streams i with closed := true }
  | .write n i q =>
    { w with
      line := w.line ++ [n]
      streams := update w.streams i { w.streams i with served := (w.streams i).served ++ [q] }
      written := update w.written n (some i)
      stage := update w.stage n .waiting }
  | .tear i => w.setStream i { w.streams i with torn := true }
  | .register i =>
    { w with
      reg := some w.numReaders
      numReaders := w.numReaders + 1
      readers := update w.readers w.numReaders ⟨i, [], false, .idle⟩ }
  | .drop => { w with line := [], reg := none, err := fun p => p ∈ w.line || w.err p }
  | .peek k p => w.setPhase k (.peeked p)
  | .pass k p => w.setPhase k (.inside p)
  | .skip k p => w.setPhase k (.skipping p)
  | .reset k p => { w with log := .touched p :: .began (w.readers k).stream :: w.log }
  | .fetch k p m =>
    { w with
      streams := update w.streams (w.readers k).stream
        { w.source k with taken := (w.source k).taken + (w.fetched k m).length }
      readers := update w.readers k
        { w.readers k with buf := (w.readers k).buf ++ w.fetched k m }
      log := .touched p :: w.log }
  | .finish k p ret cut closes =>
    let r := w.readers k
    { w with
      streams := update w.streams r.stream
        { w.source k with
          answered := (w.source k).answered + if r.consumes ret then 1 else 0 }
      readers := update w.readers k
        { r with
          buf := if r.consumes ret then r.buf.tail else r.buf
          desync := r.desync || cut
          phase := .parsed p (r.outcome ret closes) }
      log := parseEvents p r.stream ret cut ++ w.log }
  | .removeSkipped k p => { w with line := w.line.erase p }.setPhase k (.skipped p)
  | .remove k p o => { w with line := w.line.erase p }.setPhase k (.removed p o)
  | .deliver k p o send release ph =>
    { w with
      ready := if send then update w.ready p true else w.ready
      log := (if send then [Event.sent p (w.readers k).stream o.answer] else []) ++
        (if release then [Event.released p] else []) ++ w.log }.setPhase k ph
  | .fail k p send ph => { w with err := update w.err p (send || w.err p) }.setPhase k ph
  | .retire k => w.setPhase k .dead
  | .settle n st =>
    { w with
      stage := update w.stage n st
      ready := if st = .answered then update w.ready n false else w.ready
      log := if st = .put then .put n :: w.log else w.log }

/-- The state after an action, if there is one. -/
def after (w : Wire) : Option Action → Wire
  | none => w
  | some a => w.next a

/-- When an action can happen. -/
def Enabled (w : Wire) : Action → Prop
  | .dial | .close _ | .tear _ => True
  | .write n i q =>
    w.stage n = .before ∧ w.written n = none ∧ i < w.numStreams ∧ (w.streams i).closed = false ∧
      ((w.streams i).torn = false → q = n)
  | .register i => w.reg = none ∧ i < w.numStreams
  | .drop => True
  | .peek k p => (w.readers k).phase = .idle ∧ w.line.head? = some p
  | .pass k p | .skip k p => (w.readers k).phase = .peeked p
  | .reset k p => (w.readers k).phase = .inside p
  | .fetch k p _ => (w.readers k).phase = .inside p ∧ (w.source k).closed = false
  | .finish k p ret _ _ =>
    (w.readers k).phase = .inside p ∧
      (ret ≠ .early → (w.readers k).desync = false → (w.readers k).buf ≠ [])
  | .removeSkipped k p => (w.readers k).phase = .skipping p
  | .remove k p o => (w.readers k).phase = .parsed p o
  | .deliver k p o send release ph =>
    (w.readers k).phase = .removed p o ∧ (send = true → o.ret ≠ .early ∧ release = false) ∧
      (release = true → w.stage p = .transferred ∧ ph ≠ .failing p) ∧
      (if o.ret = .early then ph = .dead ∨ ph = .failing p else ph = .dead ∨ ph = .idle)
  | .fail k p _ ph =>
    (w.readers k).phase = .skipped p ∧ ph = .idle ∨ (w.readers k).phase = .failing p ∧ ph = .dead
  | .retire k => (w.readers k).phase = .idle ∨ ∃ p, (w.readers k).phase = .peeked p
  | .settle n st =>
    match w.stage n with
    | .before => st = .failed
    | .waiting =>
      st = .transferred ∨ st = .answered ∧ w.ready n = true ∨ st = .failed ∧ w.err n = true
    | .failed => st = .put
    | _ => False

/-! ### Readers -/

section Readers

variable {w : Wire} {a : Action} {k : ℕ}

/-- A reader that is not dead has been started. -/
def Born (w : Wire) : Prop := ∀ k, (w.readers k).phase ≠ .dead → k < w.numReaders

theorem alive_of_reader (ha : w.Enabled a) (hk : a.reader = some k) :
    (w.readers k).phase ≠ .dead := by
  cases a with
  | peek m p | fetch m p _ | finish m p _ _ _ | deliver m p _ _ _ _ =>
    obtain rfl := Option.some_inj.mp hk
    rw [ha.1]
    simp
  | pass m p | skip m p | reset m p | removeSkipped m p | remove m p _ =>
    obtain rfl := Option.some_inj.mp hk
    rw [show (w.readers m).phase = _ from ha]
    simp
  | fail m p _ _ =>
    obtain rfl := Option.some_inj.mp hk
    rcases ha with ⟨h, -⟩ | ⟨h, -⟩ <;> simp [h]
  | retire m =>
    obtain rfl := Option.some_inj.mp hk
    rcases ha with h | ⟨p, h⟩ <;> simp [h]
  | dial | close _ | write _ _ _ | tear _ | register _ | drop | settle _ _ => cases hk

/-- A reader stays where it is unless the action is its own, or starts it. -/
theorem phase_next (hk : a.reader ≠ some k) (hreg : ∀ i, a = .register i → k ≠ w.numReaders) :
    ((w.next a).readers k).phase = (w.readers k).phase := by
  have hphase {w' : Wire} {m : ℕ} {ph : Phase} (hm : k ≠ m) :
      ((w'.setPhase m ph).readers k).phase = (w'.readers k).phase := by
    simp only [setPhase, if_neg hm]
  have hne {m : ℕ} (hr : a.reader = some m) : k ≠ m := fun h => hk (h ▸ hr)
  cases a with
  | peek m _ | pass m _ | skip m _ | removeSkipped m _ | remove m _ _ | deliver m _ _ _ _ _
  | fail m _ _ _ | retire m => exact hphase (hne rfl)
  | fetch m _ _ | finish m _ _ _ _ =>
    simp only [Wire.next, Function.update_of_ne (hne rfl)]
  | register i => simp only [Wire.next, Function.update_of_ne (hreg i rfl)]
  | dial | close _ | write _ _ _ | tear _ | drop | reset _ _ | settle _ _ => rfl

theorem numReaders_le_next (w : Wire) (a : Action) : w.numReaders ≤ (w.next a).numReaders := by
  cases a <;> simp [Wire.next, setStream, setPhase]

theorem Born.next (h : w.Born) (ha : w.Enabled a) : (w.next a).Born := by
  have hle := w.numReaders_le_next a
  intro k hk
  by_cases hr : a.reader = some k
  · exact Nat.lt_of_lt_of_le (h k (alive_of_reader ha hr)) hle
  · by_cases hreg : ∃ i, a = .register i ∧ k = w.numReaders
    · obtain ⟨i, rfl, rfl⟩ := hreg
      exact Nat.lt_succ_self _
    · rw [phase_next hr fun i hi hki => hreg ⟨i, hi, hki⟩] at hk
      exact Nat.lt_of_lt_of_le (h k hk) hle

end Readers

end Wire

end BurstHttp.Pipeline
