/-
The connection follows the pipelining protocol.

`Sys.wire` reads the state of the protocol off a state of the connection, and
`Sys.action` says which action of the protocol, if any, a step performs.

* `step_refines` — a step that performs no action leaves the protocol where it
  is; a step that performs one finds it enabled and carries it out;
* `reaches_wire` — what the protocol keeps, the connection keeps.
-/
import BurstHttp.Lib.Guarded
import BurstHttp.Pipeline.Soundness

namespace BurstHttp.Pipeline

open Function (update)

/-! ### The abstraction -/

/-- What a reader is about to do. -/
def ReaderPc.phase : ReaderPc → Phase
  | .start | .select | .peek => .idle
  | .check p => .peeked p
  | .skipCount p | .skipRemove p => .skipping p
  | .skipErr p => .skipped p
  | .reset p | .parse p => .inside p
  | .loadCancelled p o | .uncount p o _ | .remove p o _ => .parsed p o
  | .record p o _ | .deliver p o _ => .removed p o
  | .close _ (some p) | .sendErr p => .failing p
  | .close _ none | .exited => .dead

def ResponseReader.view (r : ResponseReader) : Reader := ⟨r.stream, r.buf, r.desync, r.pc.phase⟩

namespace Sys

/-- The request that is written and not yet appended to `pendingReqs`. -/
def adding (s : Sys) : List ℕ :=
  match s.pendingMu with
  | some n => if s.callers n = .append then [n] else []
  | none => []

/-- The protocol's view of the connection. -/
def wire (s : Sys) : Wire :=
  { line := s.pendingReqs ++ s.adding
    reg := s.responseReader
    numStreams := s.numStreams
    streams := s.streams
    numReaders := s.numReaders
    readers := ResponseReader.view ∘ s.readers
    written := PendingRequest.written ∘ s.pend
    stage := CallerPc.stage ∘ s.callers
    err := PendingRequest.err ∘ s.pend
    ready := PendingRequest.response ∘ s.pend
    log := s.log }

/-- The action of a step of `closeConn`. -/
def closeAction : ClosePc → Option Action
  | .close i => some (.close i)
  | .drop => some .drop
  | _ => none

/-- `closeConn` returns in this step. -/
def closeReturns (s : Sys) : ClosePc → Bool
  | .cas => s.closing
  | .stop _ => true
  | _ => false

/-- The action of a step of `ensureConnection`. -/
def ensureAction (ch : Choice) : EnsurePc → Option Action
  | .close i => some (.close i)
  | .dial => if ch = .dialError then none else some .dial
  | _ => none

/-- The action of a step of `doPipelined` for request `n`. -/
def callerAction (s : Sys) (n : ℕ) (ch : Choice) : Option Action :=
  match s.callers n with
  | .ensure _ pc => if pc = .unlock false then some (.settle n .failed) else ensureAction ch pc
  | .checkClosing | .recheck _ => if s.closing then some (.settle n .failed) else none
  | .rotate pc => closeAction pc
  | .prepare => if ch = .giveUp then some (.settle n .failed) else none
  | .loadConn =>
    match s.conn with
    | .stream _ => none
    | _ => some (.settle n .failed)
  | .startLoad _ =>
    match s.conn with
    | .stream j => some (.register j)
    | _ => none
  | .write i =>
    match ch with
    | .writeError torn => if torn then some (.tear i) else none
    | ch => some (.write n i (sees (s.streams i) n ch))
  | .failClose pc => if s.closeReturns pc then some (.settle n .failed) else closeAction pc
  | .wait =>
    match ch with
    | .cancel => some (.settle n .transferred)
    | .takeErr => some (.settle n .failed)
    | _ => some (.settle n .answered)
  | _ => none

/-- The action of a step of reader `k`. -/
def readerAction (s : Sys) (k : ℕ) (ch : Choice) : Option Action :=
  match (s.readers k).pc with
  | .start =>
    match s.conn with
    | .stream _ => none
    | _ => some (.retire k)
  | .select => if ch = .stop then some (.retire k) else none
  | .peek =>
    match s.pendingReqs with
    | [] => none
    | p :: _ => some (.peek k p)
  | .check p =>
    some (if s.closing then .retire k else if (s.pend p).hasResp then .pass k p else .skip k p)
  | .skipRemove p => some (.removeSkipped k p)
  | .skipErr p => some (.fail k p (!(s.pend p).cancelled) .idle)
  | .reset p => some (.reset k p)
  | .parse p =>
    match ch with
    | .fetch m => some (.fetch k p m)
    | .finish ret cut closes => some (.finish k p ret cut closes)
    | _ => none
  | .remove p o _ => some (.remove k p o)
  | .deliver p o c =>
    some (.deliver k p o (!c && o.ret != .early && !(s.pend p).response)
      (c && (s.pend p).releaseFn) (afterDeliver p o c).phase)
  | .close pc _ => closeAction pc
  | .sendErr p => some (.fail k p true .dead)
  | _ => none

/-- The action of the protocol that a step performs. -/
def action (s : Sys) (l : Tid × Choice) : Option Action :=
  match l.1 with
  | .caller n => s.callerAction n l.2
  | .client n => some (.settle n .put)
  | .reader k => s.readerAction k l.2
  | .stopper m =>
    match s.stoppers m with
    | .closing pc => closeAction pc
    | _ => none

/-! ### Whose action it is -/

theorem closeAction_reader {pc : ClosePc} {a : Action} (h : closeAction pc = some a) :
    a.reader = none := by
  cases pc <;> cases h <;> rfl

/-- What callers do is no reader's action. -/
theorem callerAction_reader {s : Sys} {n : ℕ} {ch : Choice} {a : Action}
    (h : s.callerAction n ch = some a) : a.reader = none := by
  unfold callerAction at h
  cases hpc : s.callers n with
  | ensure rotated pc =>
    simp only [hpc] at h
    split at h
    · cases h
      rfl
    · cases pc <;> simp only [ensureAction, reduceCtorEq, Option.some_inj] at h
      case close => exact h ▸ rfl
      case dial =>
        split at h <;> cases h
        rfl
  | rotate pc =>
    simp only [hpc] at h
    exact closeAction_reader h
  | failClose pc =>
    simp only [hpc] at h
    split at h
    · cases h
      rfl
    · exact closeAction_reader h
  | write i =>
    simp only [hpc] at h
    split at h
    · split at h <;> cases h
      rfl
    · cases h
      rfl
  | checkClosing | recheck _ | prepare | loadConn | startLoad _ | wait =>
    simp only [hpc] at h
    split at h <;> cases h <;> rfl
  | idle | checkCount | lock _ | needReader _ | startStopped _ | startClosing _ | count _ | uncount
  | unlockFailed | append | signal | setRelease | setCancelled | returned _ | released =>
    simp only [hpc] at h
    cases h

/-- A delivery is the action of a reader that has parsed an answer. -/
theorem action_deliver {s : Sys} {l : Tid × Choice} {k p : ℕ} {o : Parsed} {send release : Bool}
    {ph : Phase} (h : s.action l = some (.deliver k p o send release ph)) :
    l.1 = .reader k ∧ ∃ c, (s.readers k).pc = .deliver p o c ∧
      release = (c && (s.pend p).releaseFn) := by
  obtain ⟨t, ch⟩ := l
  cases t with
  | caller n => exact absurd (callerAction_reader h) (by simp [Action.reader])
  | client n => cases h
  | reader m =>
    cases hpc : (s.readers m).pc with
    | deliver q o' c =>
      simp only [action, readerAction, hpc] at h
      cases h
      exact ⟨rfl, c, hpc, rfl⟩
    | close pc q =>
      simp only [action, readerAction, hpc] at h
      exact absurd (closeAction_reader h) (by simp [Action.reader])
    | start | select | peek | parse q =>
      simp only [action, readerAction, hpc] at h
      split at h <;> cases h
    | check q =>
      simp only [action, readerAction, hpc] at h
      split_ifs at h <;> cases h
    | skipCount _ | skipRemove _ | skipErr _ | reset _ | loadCancelled _ _ | uncount _ _ _
    | remove _ _ _ | record _ _ _ | sendErr _ | exited =>
      simp only [action, readerAction, hpc] at h
      cases h
  | stopper m =>
    simp only [action] at h
    split at h
    · exact absurd (closeAction_reader h) (by simp [Action.reader])
    · cases h

end Sys

/-- What a step performs is enabled, and is all it does to the protocol. -/
def Refines (s s' : Sys) (a : Option Action) : Prop :=
  s'.wire = s.wire.after a ∧ ∀ b ∈ a, s.wire.Enabled b

section Steps

variable {cfg : Config} {s s' : Sys}

/-! ### The view of a state -/

theorem adding_setCaller {n : ℕ} {pc : CallerPc} (h : s.callers n ≠ .append) (hpc : pc ≠ .append) :
    (s.setCaller n pc).adding = s.adding := by
  simp only [Sys.adding, Sys.setCaller]
  split
  case _ m _ =>
    rcases eq_or_ne m n with rfl | hm
    · simp only [Function.update_self, hpc, if_false, h]
    · simp only [Function.update_of_ne hm]
  case _ => rfl

theorem adding_of_unlocked (h : s.pendingMu = none) : s.adding = [] := by
  simp only [Sys.adding, h]

theorem wire_setCaller {n : ℕ} {pc : CallerPc} (h : s.callers n ≠ .append) (hpc : pc ≠ .append) :
    (s.setCaller n pc).wire = { s.wire with stage := update s.wire.stage n pc.stage } := by
  simp only [Sys.wire, adding_setCaller h hpc]
  simp only [Sys.setCaller, Function.comp_update]

theorem stage_update {n : ℕ} {pc : CallerPc} (hst : pc.stage = (s.callers n).stage) :
    update s.wire.stage n pc.stage = s.wire.stage := by
  rw [hst]
  exact Function.update_eq_self n s.wire.stage

/-- A caller moves on within its stage. -/
theorem wire_move {n : ℕ} {pc pc' : CallerPc} (hpc : s.callers n = pc) (h : pc ≠ .append)
    (h' : pc' ≠ .append) (hst : pc'.stage = pc.stage) : (s.setCaller n pc').wire = s.wire := by
  subst hpc
  rw [wire_setCaller h h', stage_update hst]

/-- Taking or giving up the lock changes nothing while nothing is to be appended. -/
theorem wire_setMu {mu : Option ℕ} (h : s.adding = []) (h' : { s with pendingMu := mu }.adding = []) :
    { s with pendingMu := mu }.wire = s.wire := by
  simp only [Sys.wire, h, h']

theorem adding_of_holder {n : ℕ} (hmu : s.pendingMu = some n) (h : s.callers n ≠ .append) :
    s.adding = [] := by
  simp only [Sys.adding, hmu, h, if_false]

/-- A caller reaches the end of its call. -/
theorem wire_settle {n : ℕ} {pc : CallerPc} (h : s.callers n ≠ .append) (hpc : pc ≠ .append)
    (hput : pc.stage ≠ .put) (hanswered : pc.stage ≠ .answered) :
    (s.setCaller n pc).wire = s.wire.next (.settle n pc.stage) := by
  rw [wire_setCaller h hpc]
  simp only [Wire.next, hput, hanswered, if_false]

theorem wire_setReader (s : Sys) (k : ℕ) (r : ResponseReader) :
    (s.setReader k r).wire = { s.wire with readers := update s.wire.readers k r.view } := by
  simp only [Sys.wire, Sys.setReader, Function.comp_update]
  rfl

theorem wire_setReaderPc (s : Sys) (k : ℕ) (pc : ReaderPc) :
    (s.setReaderPc k pc).wire = s.wire.setPhase k pc.phase := by
  rw [Sys.setReaderPc, wire_setReader]
  refine Wire.ext rfl rfl rfl rfl rfl ?_ rfl rfl rfl rfl rfl
  exact (Wire.setPhase_eq_update s.wire k pc.phase).symm

/-- A reader moves on within its phase. -/
theorem wire_setReaderPc_same {k : ℕ} {pc : ReaderPc} (h : pc.phase = (s.readers k).pc.phase) :
    (s.setReaderPc k pc).wire = s.wire := by
  rw [wire_setReaderPc, h]
  refine Wire.ext rfl rfl rfl rfl rfl ?_ rfl rfl rfl rfl rfl
  rw [Wire.setPhase_eq_update]
  exact Function.update_eq_self k s.wire.readers

theorem wire_setPend {p : ℕ} {x : PendingRequest} (hw : x.written = (s.pend p).written) :
    (s.setPend p x).wire =
      { s.wire with
        err := update s.wire.err p x.err, ready := update s.wire.ready p x.response } := by
  have hwritten : update s.wire.written p x.written = s.wire.written := by
    rw [hw]
    exact Function.update_eq_self p s.wire.written
  simp only [Sys.wire] at hwritten ⊢
  simp only [Sys.setPend, Function.comp_update, hwritten]
  rfl

theorem err_update {p : ℕ} {x : PendingRequest} (h : x.err = (s.pend p).err) :
    update s.wire.err p x.err = s.wire.err := by
  rw [h]
  exact Function.update_eq_self p s.wire.err

theorem ready_update {p : ℕ} {x : PendingRequest} (h : x.response = (s.pend p).response) :
    update s.wire.ready p x.response = s.wire.ready := by
  rw [h]
  exact Function.update_eq_self p s.wire.ready

/-- A change of a pending request that the protocol does not see. -/
theorem wire_setPend_same {p : ℕ} {x : PendingRequest} (hw : x.written = (s.pend p).written)
    (he : x.err = (s.pend p).err) (hr : x.response = (s.pend p).response) :
    (s.setPend p x).wire = s.wire := by
  rw [wire_setPend hw, err_update he, ready_update hr]

theorem wire_setErr {p : ℕ} {x : PendingRequest} (hw : x.written = (s.pend p).written)
    (hr : x.response = (s.pend p).response) :
    (s.setPend p x).wire = { s.wire with err := update s.wire.err p x.err } := by
  rw [wire_setPend hw, ready_update hr]

theorem wire_setResponse {p : ℕ} {x : PendingRequest} (hw : x.written = (s.pend p).written)
    (he : x.err = (s.pend p).err) :
    (s.setPend p x).wire = { s.wire with ready := update s.wire.ready p x.response } := by
  rw [wire_setPend hw, err_update he]

/-! ### `closeConn` and `ensureConnection` -/

theorem closeConn_refines {pc : ClosePc} {r : Option ClosePc}
    (hs : s.closeConn pc = some (s', r)) : s'.wire = s.wire.after (Sys.closeAction pc) := by
  match pc with
  | .cas | .load =>
    simp only [Sys.closeConn] at hs
    split at hs <;> cases hs <;> rfl
  | .close _ | .storeNil | .unhealthy | .stop none =>
    cases hs
    rfl
  | .drop =>
    simp only [Sys.closeConn] at hs
    split at hs <;> cases hs
    case _ hmu =>
      have hadding : s.dropPending.adding = [] := adding_of_unlocked hmu
      simp only [Sys.wire, Wire.after, Sys.closeAction, Wire.next, adding_of_unlocked hmu, hadding]
      simp only [Sys.dropPending, List.append_nil, Wire.mk.injEq, true_and, and_true]
      refine ⟨?_, ?_, ?_⟩ <;> funext p <;> simp only [Function.comp_apply] <;> split <;> simp_all
  | .stop (some k) =>
    cases hs
    have hview : ({ s.readers k with stopped := true } : ResponseReader).view = s.wire.readers k := rfl
    rw [wire_setReader, hview, Function.update_eq_self]
    rfl

theorem closeConn_returns {pc : ClosePc} {r : Option ClosePc}
    (hs : s.closeConn pc = some (s', r)) : s.closeReturns pc = r.isNone := by
  match pc with
  | .cas | .load | .drop =>
    simp only [Sys.closeConn] at hs
    split at hs <;> cases hs <;> simp_all [Sys.closeReturns]
  | .close _ | .storeNil | .unhealthy | .stop none | .stop (some _) =>
    cases hs
    rfl

theorem ensureConnection_refines {n : ℕ} {ch : Choice} {pc : EnsurePc} {r : EnsurePc ⊕ Bool}
    (hs : s.ensureConnection cfg n ch pc = some (s', r)) :
    s'.wire = s.wire.after (Sys.ensureAction ch pc) ∧
      (r = .inr false ↔ pc = .unlock false) := by
  match pc with
  | .test =>
    cases hs
    refine ⟨rfl, ?_⟩
    split <;> simp
  | .retest =>
    cases hs
    exact ⟨rfl, by simp⟩
  | .lock | .load | .dial =>
    simp only [Sys.ensureConnection] at hs
    split at hs <;> cases hs <;> refine ⟨?_, by simp⟩ <;>
      simp_all [Sys.wire, Wire.after, Wire.next, Sys.ensureAction, Sys.adding]
  | .close _ | .storeNil | .unhealthy | .resetCount | .setHealthy | .clearClosing
  | .clearStopped =>
    cases hs
    exact ⟨rfl, by simp⟩
  | .unlock ok =>
    cases hs
    exact ⟨rfl, by simp⟩

/-! ### The goroutines -/

theorem Refines.quiet (h : s'.wire = s.wire) : Refines s s' none := ⟨h, by simp⟩

theorem Refines.act {a : Action} (ha : s.wire.Enabled a) (h : s'.wire = s.wire.next a) :
    Refines s s' (some a) := ⟨h, by simpa using ha⟩

/-- A caller moves on within its stage. -/
theorem Refines.move {s₁ : Sys} {n : ℕ} {pc pc' : CallerPc} (hw : s₁.wire = s.wire)
    (hpc : s₁.callers n = pc) (h : pc ≠ .append) (h' : pc' ≠ .append)
    (hst : pc'.stage = pc.stage) : Refines s (s₁.setCaller n pc') none :=
  .quiet ((wire_move hpc h h' hst).trans hw)

/-- A caller whose request is not written gives up. -/
theorem Refines.giveUp {s₁ : Sys} {n : ℕ} {pc : CallerPc} (hw : s₁.wire = s.wire)
    (hpc : s₁.callers n = pc) (hst : pc.stage = .before) :
    Refines s (s₁.setCaller n (.returned .error)) (some (.settle n .failed)) := by
  subst hpc
  refine .act ?_ ?_
  · rw [← hw]
    simp only [Wire.Enabled, Sys.wire, Function.comp_apply, hst]
  · rw [← hw]
    refine wire_settle (fun h => ?_) (by simp) (by simp) (by simp)
    exact absurd (h ▸ hst) (by simp)

theorem closeAction_enabled (w : Wire) (pc : ClosePc) : ∀ b ∈ Sys.closeAction pc, w.Enabled b := by
  cases pc <;> simp [Sys.closeAction, Wire.Enabled]

theorem closeAction_of_returns {pc : ClosePc} (h : s.closeReturns pc = true) :
    Sys.closeAction pc = none := by
  cases pc <;> simp_all [Sys.closeReturns, Sys.closeAction]

theorem ensure_refines {s₁ : Sys} {n : ℕ} {ch : Choice} {rotated : Bool} {pc : EnsurePc}
    {r : EnsurePc ⊕ Bool} (hpc : s.callers n = .ensure rotated pc)
    (hr : s.ensureConnection cfg n ch pc = some (s₁, r)) :
    Refines s (s₁.setCaller n (Sys.afterEnsure rotated r)) (s.callerAction n ch) := by
  obtain ⟨hwire, hfail⟩ := ensureConnection_refines hr
  have hcallers := ensureConnection_callers hr
  have hpc₁ : s₁.callers n = .ensure rotated pc := hcallers ▸ hpc
  simp only [Sys.callerAction, hpc]
  split
  case isTrue hpc' =>
    subst hpc'
    rw [hfail.mpr rfl]
    exact .giveUp hwire hpc₁ rfl
  case isFalse hpc' =>
    refine ⟨(wire_move hpc₁ (by simp) ?_ ?_).trans hwire, ?_⟩
    · rcases r with _ | ok <;> [skip; cases ok] <;> cases rotated <;> simp [Sys.afterEnsure]
    · rcases r with _ | ok
      · rfl
      · cases ok
        · exact absurd (hfail.mp rfl) hpc'
        · cases rotated <;> rfl
    · cases pc <;> simp [Sys.ensureAction, Wire.Enabled]

theorem failClose_refines {s₁ : Sys} {n : ℕ} {ch : Choice} {pc : ClosePc} {r : Option ClosePc}
    (hpc : s.callers n = .failClose pc) (hr : s.closeConn pc = some (s₁, r)) :
    Refines s (s₁.setCaller n (r.elim (.returned .error) .failClose)) (s.callerAction n ch) := by
  have hwire := closeConn_refines hr
  have hcallers := closeConn_callers hr
  have hpc₁ : s₁.callers n = .failClose pc := hcallers ▸ hpc
  have hreturns := closeConn_returns hr
  simp only [Sys.callerAction, hpc, hreturns]
  cases r with
  | none =>
    rw [closeAction_of_returns hreturns] at hwire
    exact .giveUp hwire hpc₁ rfl
  | some pc' =>
    refine ⟨(wire_move hpc₁ (by simp) ?_ ?_).trans hwire, closeAction_enabled _ _⟩
    · simp
    · rfl

/-- A request that is written joins the line, though it is not appended yet. -/
theorem write_refines (h : s.Sound) {n i q : ℕ} (hpc : s.callers n = .write i)
    (hopen : (s.streams i).closed = false) (hq : (s.streams i).torn = false → q = n) :
    Refines s (((s.setStream i { s.streams i with served := (s.streams i).served ++ [q] }).setPend n
      { s.pend n with written := some i }).setCaller n .append) (some (.write n i q)) := by
  have hmu : s.pendingMu = some n := h.mutex n (by rw [hpc]; rfl)
  have hadding : s.adding = [] := adding_of_holder hmu (by simp [hpc])
  have hstage : (s.callers n).stage = .before := by rw [hpc]; rfl
  refine .act ⟨hstage, h.fresh n hstage, h.target n i (by rw [hpc]; rfl), hopen, hq⟩ ?_
  have herr := err_update (s := s) (p := n) (x := s.pend n) rfl
  have hready := ready_update (s := s) (p := n) (x := s.pend n) rfl
  simp only [Sys.wire, Wire.next, hadding, List.append_nil] at herr hready ⊢
  simp only [Sys.adding, Sys.setCaller, Sys.setPend, Sys.setStream, hmu, Function.update_self,
    Function.comp_update, if_true, herr, hready]
  rfl

theorem callerAction_write {n i : ℕ} {ch : Choice} (hpc : s.callers n = .write i)
    (hch : ∀ torn, ch ≠ .writeError torn) :
    s.callerAction n ch = some (.write n i (Sys.sees (s.streams i) n ch)) := by
  cases ch with
  | writeError torn => exact absurd rfl (hch torn)
  | _ => simp only [Sys.callerAction, hpc]

theorem callerAction_wait {n : ℕ} {ch : Choice} (hpc : s.callers n = .wait)
    (hcancel : ch ≠ .cancel) (htake : ch ≠ .takeErr) :
    s.callerAction n ch = some (.settle n .answered) := by
  cases ch with
  | cancel => exact absurd rfl hcancel
  | takeErr => exact absurd rfl htake
  | _ => simp only [Sys.callerAction, hpc]

theorem stage_wait {n : ℕ} (hpc : s.callers n = .wait) : s.wire.stage n = .waiting := by
  simp only [Sys.wire, Function.comp_apply, hpc]
  rfl

theorem doPipelined_refines (h : s.Sound) {n : ℕ} {ch : Choice}
    (hs : s.doPipelined cfg n ch = some s') : Refines s s' (s.callerAction n ch) := by
  have hstep := Sys.doPipelined_step hs
  have hmutex := h.mutex n
  generalize hpc : s.callers n = pc at hstep hmutex
  -- giving the lock back changes nothing on the wire, unless a request is being appended
  have hunlock (hmu : s.pendingMu = some n) (hpc : s.callers n ≠ .append) :
      { s with pendingMu := none }.wire = s.wire := wire_setMu (adding_of_holder hmu hpc) rfl
  cases hstep with
  | ensure hr => exact ensure_refines hpc hr
  | failClose hr => exact failClose_refines hpc hr
  | @rotate pc s₁ r hr =>
    simp only [Sys.callerAction, hpc]
    refine ⟨(wire_move (closeConn_callers hr ▸ hpc) (by simp) ?_ ?_).trans (closeConn_refines hr),
      closeAction_enabled _ _⟩
    · cases r <;> simp
    · cases r <;> rfl
  | idle | setRelease | setCancelled =>
    simp only [Sys.callerAction, hpc]
    refine .move (wire_setPend_same ?_ ?_ ?_) hpc (by simp) (by simp) ?_ <;> rfl
  | checkClosing | prepare =>
    simp only [Sys.callerAction, hpc]
    split
    · exact .giveUp rfl hpc rfl
    · exact .move rfl hpc (by simp) (by simp) (by rfl)
  | needReader | startStopped | startClosing =>
    simp only [Sys.callerAction, hpc]
    refine .move rfl hpc (by simp) ?_ ?_ <;> split <;> simp
  | overLimit | underLimit | count | uncount | signal =>
    simp only [Sys.callerAction, hpc]
    exact .move rfl hpc (by simp) (by simp) (by rfl)
  | loadStream hconn =>
    simp only [Sys.callerAction, hpc, hconn]
    exact .move rfl hpc (by simp) (by simp) (by rfl)
  | loadNil hconn =>
    simp only [Sys.callerAction, hpc]
    exact .giveUp rfl hpc rfl
  | lock hmu =>
    simp only [Sys.callerAction, hpc]
    have hwire : { s with pendingMu := some n }.wire = s.wire :=
      wire_setMu (adding_of_unlocked hmu) (adding_of_holder rfl (by simp [hpc]))
    exact .move hwire hpc (by simp) (by simp) (by rfl)
  | recheckClosing hclosing =>
    simp only [Sys.callerAction, hpc, hclosing, if_true]
    exact .giveUp (hunlock (hmutex rfl) (by simp [hpc])) hpc rfl
  | recheck hclosing =>
    simp only [Sys.callerAction, hpc, hclosing]
    exact .move rfl hpc (by simp) (by simp) (by rfl)
  | startReader hconn =>
    simp only [Sys.callerAction, hpc, hconn]
    refine .act ⟨h.starts n (by rw [hpc]; rfl), h.conn _ hconn⟩ ?_
    refine Eq.trans (wire_move hpc (by simp) (by simp) (by rfl)) ?_
    simp only [Sys.wire, Wire.next, Function.comp_update, Sys.adding]
    rfl
  | startNone hconn =>
    simp only [Sys.callerAction, hpc]
    exact .move rfl hpc (by simp) (by simp) (by rfl)
  | writeTorn hch =>
    simp only [Sys.callerAction, hpc, hch]
    exact .act trivial (wire_move hpc (by simp) (by simp) rfl)
  | writeFailed hch =>
    simp only [Sys.callerAction, hpc, hch]
    exact .move rfl hpc (by simp) (by simp) (by rfl)
  | write hch hopen =>
    rw [callerAction_write hpc hch]
    refine write_refines h hpc hopen fun htorn => ?_
    simp only [Sys.sees, htorn]
  | unlockFailed =>
    simp only [Sys.callerAction, hpc]
    exact .move (hunlock (hmutex rfl) (by simp [hpc])) hpc (by simp) (by simp) (by rfl)
  | append =>
    simp only [Sys.callerAction, hpc]
    -- the request has been in the line since it was written
    refine .quiet ?_
    have hstage : update s.wire.stage n (CallerPc.signal).stage = s.wire.stage :=
      stage_update (by rw [hpc]; rfl)
    simp only [Sys.wire] at hstage ⊢
    simp only [Sys.adding, hmutex rfl, hpc, Sys.setCaller, Function.comp_update, if_true, hstage,
      List.append_nil]
  | cancel hch =>
    simp only [Sys.callerAction, hpc, hch]
    refine .act ?_ (wire_settle (by simp [hpc]) (by simp) (by simp) (by simp))
    simp [Wire.Enabled, stage_wait hpc]
  | takeErr hch herr =>
    simp only [Sys.callerAction, hpc, hch]
    refine .act ?_ (wire_settle (by simp [hpc]) (by simp) (by simp) (by simp))
    simp only [Wire.Enabled, stage_wait hpc]
    exact .inr (.inr ⟨trivial, herr⟩)
  | receive hcancel htake hready =>
    rw [callerAction_wait hpc hcancel htake]
    refine .act ?_ (Eq.trans (wire_setCaller (by simp [Sys.setPend, hpc]) (by simp)) ?_)
    · simp only [Wire.Enabled, stage_wait hpc]
      exact .inr (.inl ⟨trivial, hready⟩)
    · rw [wire_setResponse (by rfl) (by rfl)]
      rfl

theorem releaseResponse_refines {n : ℕ} (hs : s.releaseResponse n = some s') :
    Refines s s' (some (.settle n .put)) := by
  unfold Sys.releaseResponse at hs
  split at hs <;> cases hs
  case _ hpc =>
    have hstage : s.wire.stage n = .failed := by
      simp only [Sys.wire, Function.comp_apply, hpc]
      rfl
    refine .act (by simp [Wire.Enabled, hstage]) ?_
    refine (wire_setCaller (by simp [hpc]) (by simp)).trans ?_
    rfl

/-- A reader moves on within its phase. -/
theorem Refines.stay {s₁ : Sys} {k : ℕ} {pc pc' : ReaderPc} (hw : s₁.wire = s.wire)
    (hpc : (s₁.readers k).pc = pc) (h : pc'.phase = pc.phase) :
    Refines s (s₁.setReaderPc k pc') none :=
  .quiet ((wire_setReaderPc_same (hpc ▸ h)).trans hw)

theorem phase_wire {k : ℕ} {pc : ReaderPc} (hpc : (s.readers k).pc = pc) :
    (s.wire.readers k).phase = pc.phase := hpc ▸ rfl

/-- A parse that does not use an answer up leaves the stream as it is. -/
theorem finish_of_not_consumes {w : Wire} {k p : ℕ} {ret : ParseRet} {cut closes : Bool}
    (h : ret = .early ∨ (w.readers k).desync = true) :
    w.next (.finish k p ret cut closes) =
      { w with
        readers := update w.readers k
          { w.readers k with
            desync := (w.readers k).desync || cut, phase := .parsed p ⟨none, ret, closes⟩ }
        log := parseEvents p (w.readers k).stream ret cut ++ w.log } := by
  have hconsumes : (w.readers k).consumes ret = false := by
    rcases h with rfl | h <;> simp [Reader.consumes, *]
  have hstreams : update w.streams (w.readers k).stream (w.source k) = w.streams :=
    Function.update_eq_self _ _
  simp only [Wire.next, hconsumes, Reader.outcome, h, if_true]
  simpa using hstreams

theorem finish_of_consumes {w : Wire} {k p q : ℕ} {rest : List ℕ} {ret : ParseRet}
    {cut closes : Bool} (h : ¬(ret = .early ∨ (w.readers k).desync = true))
    (hbuf : (w.readers k).buf = q :: rest) :
    w.next (.finish k p ret cut closes) =
      { w with
        streams := update w.streams (w.readers k).stream
          { w.source k with answered := (w.source k).answered + 1 }
        readers := update w.readers k
          { w.readers k with
            buf := rest, desync := cut, phase := .parsed p ⟨some q, ret, closes⟩ }
        log := parseEvents p (w.readers k).stream ret cut ++ w.log } := by
  obtain ⟨hret, hdesync⟩ := not_or.mp h
  have hconsumes : (w.readers k).consumes ret = true := by
    simp [Reader.consumes, hret, hdesync]
  have houtcome : (w.readers k).outcome ret closes = ⟨some q, ret, closes⟩ := by
    rw [Reader.outcome, if_neg h, hbuf, List.head?_cons]
  simp only [Wire.next, hconsumes, houtcome, hbuf, if_true, List.tail_cons, hdesync,
    Bool.false_or]

theorem parse_refines {k p : ℕ} {ch : Choice} (hpc : (s.readers k).pc = .parse p)
    (hs : s.parse k p ch = some s') : Refines s s' (s.readerAction k ch) := by
  have hphase := phase_wire hpc
  simp only [Sys.readerAction, hpc]
  unfold Sys.parse at hs
  dsimp only at hs
  split at hs
  case _ m =>
    split at hs <;> cases hs
    case _ hopen =>
      refine .act ⟨hphase, (Bool.not_eq_true _).mp hopen⟩ ?_
      rw [wire_setReader]
      rfl
  case _ ret cut closes =>
    split at hs
    case isTrue hearly =>
      cases hs
      refine .act ⟨hphase, fun hret hsync => ?_⟩ ?_
      · rcases hearly with he | hd
        · exact absurd he hret
        · exact absurd (hsync.symm.trans hd) (by simp)
      · rw [wire_setReader, finish_of_not_consumes hearly]
        rfl
    case isFalse hearly =>
      split at hs <;> cases hs
      case _ q rest hbuf =>
        have hwbuf : (s.wire.readers k).buf = q :: rest := hbuf
        refine .act ⟨hphase, fun _ _ => by simp [hwbuf]⟩ ?_
        rw [wire_setReader, finish_of_consumes hearly hwbuf]
        rfl
  case _ => cases hs

theorem removePending_wire (hmu : s.pendingMu = none) (p : ℕ) :
    { s with pendingReqs := s.pendingReqs.erase p }.wire =
      { s.wire with line := s.wire.line.erase p } := by
  have hadding : { s with pendingReqs := s.pendingReqs.erase p }.adding = [] :=
    adding_of_unlocked hmu
  simp only [Sys.wire, hadding, adding_of_unlocked hmu, List.append_nil]

theorem deliver_wire (k p : ℕ) (o : Parsed) (c : Bool) :
    (s.deliver k p o c).wire =
      let send := !c && o.ret != .early && !(s.pend p).response
      { s.wire with
        ready := if send then update s.wire.ready p true else s.wire.ready
        log := (if send then [Event.sent p (s.readers k).stream o.answer] else []) ++
          (if c && (s.pend p).releaseFn then [Event.released p] else []) ++ s.wire.log } := by
  unfold Sys.deliver
  split
  case isTrue hc =>
    subst hc
    split <;> simp_all [Sys.wire, Sys.adding]
  case isFalse hc =>
    split
    case isTrue ho => rcases ho with ho | ho <;> simp [hc, ho]
    case isFalse ho =>
      obtain ⟨hret, hfull⟩ := not_or.mp ho
      refine Eq.trans (wire_setResponse (by rfl) (by rfl)) ?_
      simp [hc, hret, hfull, Sys.wire, Sys.adding]

theorem readerRun_refines (h : s.Sound) {k : ℕ} {ch : Choice}
    (hs : s.readerRun k ch = some s') : Refines s s' (s.readerAction k ch) := by
  have hstep := Sys.readerRun_step hs
  generalize hpc : (s.readers k).pc = pc at hstep
  cases hstep with
  | start hconn =>
    simp only [Sys.readerAction, hpc, hconn]
    exact .stay rfl hpc rfl
  | startNone hconn =>
    simp only [Sys.readerAction, hpc]
    exact .act (.inl (phase_wire hpc)) (wire_setReaderPc s k _)
  | stop hch =>
    simp only [Sys.readerAction, hpc, hch, if_true]
    exact .act (.inl (phase_wire hpc)) (wire_setReaderPc s k _)
  | wake hch =>
    simp only [Sys.readerAction, hpc, if_neg hch]
    exact .stay rfl hpc rfl
  | peekNone _ hnil =>
    simp only [Sys.readerAction, hpc, hnil]
    exact .stay rfl hpc rfl
  | peek _ hcons =>
    simp only [Sys.readerAction, hpc, hcons]
    refine .act ⟨phase_wire hpc, ?_⟩ (wire_setReaderPc s k _)
    simp only [Sys.wire, hcons, List.cons_append, List.head?_cons]
  | @checkClosing p hclosing =>
    simp only [Sys.readerAction, hpc, hclosing, if_true]
    exact .act (.inr ⟨p, phase_wire hpc⟩) (wire_setReaderPc s k _)
  | check hclosing hresp | skip hclosing hresp =>
    simp only [Sys.readerAction, hpc, hclosing, hresp, Bool.false_eq_true, if_false, if_true]
    exact .act (phase_wire hpc) (wire_setReaderPc s k _)
  | skipCount | loadCancelled | uncount | recordNone | record =>
    simp only [Sys.readerAction, hpc]
    exact .stay rfl hpc rfl
  | skipRemove hmu | remove hmu =>
    simp only [Sys.readerAction, hpc]
    refine .act (phase_wire hpc) ?_
    rw [wire_setReaderPc, removePending_wire hmu]
    rfl
  | @skipErrLeft p hc =>
    simp only [Sys.readerAction, hpc]
    refine .act (.inl ⟨phase_wire hpc, rfl⟩) ?_
    have herr : update s.wire.err p (s.wire.err p) = s.wire.err := Function.update_eq_self _ _
    rw [wire_setReaderPc]
    simp only [Wire.next, hc, Bool.not_true, Bool.false_or, herr]
    rfl
  | skipErr hc =>
    simp only [Sys.readerAction, hpc]
    refine .act (.inl ⟨phase_wire hpc, rfl⟩) ?_
    rw [wire_setReaderPc, wire_setErr (by rfl) (by rfl)]
    simp only [Wire.next, hc, Bool.not_false, Bool.true_or]
    rfl
  | reset =>
    simp only [Sys.readerAction, hpc]
    exact .act (phase_wire hpc) (wire_setReaderPc_same (by rw [hpc]; rfl))
  | parse hparse => exact parse_refines hpc hparse
  | @deliver p o c =>
    simp only [Sys.readerAction, hpc]
    refine .act ⟨phase_wire hpc, ?_, ?_, ?_⟩ ?_
    · intro hsend
      simp at hsend
      simp [hsend]
    · -- a reader that saw the cancellation knows that the caller has left
      intro hrelease
      have hc : c = true := by simp at hrelease; exact hrelease.1
      subst hc
      refine ⟨congrArg CallerPc.stage (h.cancelled p (h.saw k p (by rw [hpc]; rfl))), ?_⟩
      unfold Sys.afterDeliver
      cases o.ret <;> cases o.closes <;> simp [ReaderPc.phase]
    · unfold Sys.afterDeliver
      cases o.ret <;> cases c <;> cases o.closes <;> simp [ReaderPc.phase]
    · rw [wire_setReaderPc, deliver_wire]
      rfl
  | @close pc p s₁ r hr =>
    simp only [Sys.readerAction, hpc]
    refine ⟨(wire_setReaderPc_same ?_).trans (closeConn_refines hr), closeAction_enabled _ _⟩
    rw [closeConn_readers hr, hpc]
    cases r <;> cases p <;> rfl
  | sendErr =>
    simp only [Sys.readerAction, hpc]
    refine .act (.inr ⟨phase_wire hpc, rfl⟩) ?_
    rw [wire_setReaderPc, wire_setErr (by rfl) (by rfl)]
    rfl

theorem stop_refines {m : ℕ} {ch : Choice} (hs : s.stop m = some s') :
    Refines s s' (s.action (.stopper m, ch)) := by
  unfold Sys.stop at hs
  simp only [Sys.action]
  split at hs
  case _ hpc =>
    simp only [hpc]
    split at hs <;> cases hs <;> exact .quiet rfl
  case _ pc hpc =>
    simp only [hpc]
    obtain ⟨⟨s₁, r⟩, hr, rfl⟩ := Option.map_eq_some_iff.mp hs
    exact ⟨(closeConn_refines hr :), closeAction_enabled _ _⟩
  case _ => cases hs

/-- The connection follows the protocol, one action a step at most. -/
theorem step_refines (h : s.Sound) {l : Tid × Choice} (hs : s.step cfg l = some s') :
    Refines s s' (s.action l) := by
  obtain ⟨t, ch⟩ := l
  cases t with
  | caller n => exact doPipelined_refines h hs
  | client n => exact releaseResponse_refines hs
  | reader k => exact readerRun_refines h hs
  | stopper m => exact stop_refines hs

/-- What the protocol keeps under a condition on its actions, a step that meets the condition
keeps. -/
theorem step_wire (ok : Wire → Action → Prop) (inv : Wire → Prop)
    (hnext : ∀ w a, inv w → w.Enabled a → ok w a → inv (w.next a)) (h : s.Sound ∧ inv s.wire)
    {l : Tid × Choice} (hok : ∀ a ∈ s.action l, ok s.wire a) (hs : s.step cfg l = some s') :
    s'.Sound ∧ inv s'.wire := by
  refine ⟨step_sound h.1 hs, ?_⟩
  obtain ⟨hwire, henabled⟩ := step_refines h.1 hs
  rw [hwire]
  cases ha : s.action l with
  | none => exact h.2
  | some a => exact hnext _ a h.2 (henabled a ha) (hok a ha)

/-- So does every run of such steps. -/
theorem reaches_wire (ok : Wire → Action → Prop) (inv : Wire → Prop) (hinit : inv Sys.new.wire)
    (hnext : ∀ w a, inv w → w.Enabled a → ok w a → inv (w.next a))
    (h : Guarded.Reaches (Sys.step cfg) (fun s l => ∀ a ∈ s.action l, ok s.wire a) Sys.new s) :
    s.Sound ∧ inv s.wire :=
  h.invariant (fun s => s.Sound ∧ inv s.wire) ⟨Sys.Sound.new, hinit⟩
    fun _ _ _ hinv hok hs => step_wire ok inv hnext hinv hok hs

/-- In every run, only readers that were started do anything. -/
theorem reaches_born {guard : Sys → Tid × Choice → Prop}
    (h : Guarded.Reaches (Sys.step cfg) guard Sys.new s) : s.Sound ∧ s.wire.Born :=
  reaches_wire (fun _ _ => True) Wire.Born (fun _ hk => absurd rfl hk)
    (fun _ _ hw ha _ => hw.next ha) (h.mono fun _ _ _ _ _ => trivial)

end Steps

end BurstHttp.Pipeline
