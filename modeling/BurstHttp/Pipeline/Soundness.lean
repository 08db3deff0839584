/-
What the lock and the program counters of a pipelined connection keep.

* `Sys.Sound` — only the caller that holds `pendingMu` is inside its section, it
  starts a reader only while none is registered, streams that are used exist, a
  request is written at most once, and a cancelled caller has left;
* `step_sound` — every step of every goroutine keeps it.
-/
import BurstHttp.Pipeline.Machine

namespace BurstHttp.Pipeline

open Function (update)

/-- How far a caller has got. -/
@[simp]
def CallerPc.stage : CallerPc → Stage
  | .append | .signal | .wait => .waiting
  | .setRelease | .setCancelled | .returned .transferred => .transferred
  | .returned .ok => .answered
  | .returned .error => .failed
  | .released => .put
  | _ => .before

/-- The caller is inside its section under `pendingMu`. -/
@[simp]
def CallerPc.holds : CallerPc → Bool
  | .recheck _ | .needReader _ | .startStopped _ | .startClosing _ | .startLoad _ => true
  | .count _ | .write _ | .uncount | .unlockFailed | .append => true
  | _ => false

/-- The caller is starting a reader. -/
@[simp]
def CallerPc.starts : CallerPc → Bool
  | .startStopped _ | .startClosing _ | .startLoad _ => true
  | _ => false

/-- The stream a caller has loaded. -/
@[simp]
def CallerPc.target : CallerPc → Option ℕ
  | .lock i | .recheck i | .needReader i | .startStopped i | .startClosing i => some i
  | .startLoad i | .count i | .write i => some i
  | _ => none

/-- The caller has taken the response object off the request, and has not failed. -/
def CallerPc.attached : CallerPc → Bool
  | .idle | .ensure _ _ | .checkClosing | .checkCount | .rotate _ | .prepare | .loadConn
  | .returned .error | .released => false
  | _ => true

/-- What must hold at `pc'` is no more than what holds at `pc`. -/
@[simp]
def CallerPc.leads (pc pc' : CallerPc) : Prop :=
  (pc'.holds = true → pc.holds = true) ∧ (pc'.starts = true → pc.starts = true) ∧
    (pc'.stage = .before → pc.stage = .before) ∧
    (pc'.target = none ∨ pc'.target = pc.target) ∧
    (pc = .returned .transferred → pc' = .returned .transferred)

/-- The request whose cancellation a reader has seen. -/
def ReaderPc.sawCancelled : ReaderPc → Option ℕ
  | .uncount p _ true | .remove p _ true | .record p _ true | .deliver p _ true => some p
  | _ => none

/-- What the lock and the program counters guarantee. -/
structure Sys.Sound (s : Sys) : Prop where
  mutex : ∀ n, (s.callers n).holds = true → s.pendingMu = some n
  starts : ∀ n, (s.callers n).starts = true → s.responseReader = none
  fresh : ∀ n, (s.callers n).stage = .before → (s.pend n).written = none
  conn : ∀ i, s.conn = .stream i → i < s.numStreams
  target : ∀ n i, (s.callers n).target = some i → i < s.numStreams
  cancelled : ∀ p, (s.pend p).cancelled = true → s.callers p = .returned .transferred
  saw : ∀ k p, (s.readers k).pc.sawCancelled = some p → (s.pend p).cancelled = true

namespace Sys.Sound

theorem new : Sys.new.Sound where
  mutex := by simp [Sys.new]
  starts := by simp [Sys.new]
  fresh := by simp [Sys.new]
  conn := by simp [Sys.new]
  target := by simp [Sys.new]
  cancelled := by simp [Sys.new]
  saw := by simp [Sys.new, ReaderPc.sawCancelled]

variable {s s' : Sys}

theorem setCaller (h : s.Sound) {n : ℕ} {pc : CallerPc}
    (hmutex : pc.holds = true → s.pendingMu = some n)
    (hstarts : pc.starts = true → s.responseReader = none)
    (hfresh : pc.stage = .before → (s.pend n).written = none)
    (htarget : ∀ i, pc.target = some i → i < s.numStreams)
    (hcancelled : (s.pend n).cancelled = true → pc = .returned .transferred) :
    (s.setCaller n pc).Sound := by
  -- in each clause, `n` is where it goes and the others are where they were
  have hcases (P : ℕ → CallerPc → Prop) (hn : P n pc) (hm : ∀ m, P m (s.callers m)) (m : ℕ) :
      P m ((s.setCaller n pc).callers m) := by
    rcases eq_or_ne m n with rfl | hmn
    · simpa only [Sys.setCaller, Function.update_self] using hn
    · simpa only [Sys.setCaller, Function.update_of_ne hmn] using hm m
  exact ⟨hcases (fun m pc => pc.holds = true → s.pendingMu = some m) hmutex h.mutex,
    hcases (fun _ pc => pc.starts = true → s.responseReader = none) hstarts h.starts,
    hcases (fun m pc => pc.stage = .before → (s.pend m).written = none) hfresh h.fresh,
    h.conn,
    hcases (fun _ pc => ∀ i, pc.target = some i → i < s.numStreams) htarget h.target,
    hcases (fun m pc => (s.pend m).cancelled = true → pc = .returned .transferred)
      hcancelled h.cancelled,
    h.saw⟩

/-- A caller goes on to a place that asks no more of it. -/
theorem move (h : s.Sound) {n : ℕ} {pc pc' : CallerPc} (hpc : s.callers n = pc)
    (hl : pc.leads pc') : (s.setCaller n pc').Sound := by
  obtain ⟨hmutex, hstarts, hstage, htarget, hcancelled⟩ := hl
  subst hpc
  refine h.setCaller (fun hp => h.mutex n (hmutex hp)) (fun hp => h.starts n (hstarts hp))
    (fun hp => h.fresh n (hstage hp)) (fun i hi => ?_) (fun hc => hcancelled (h.cancelled n hc))
  rcases htarget with ht | ht
  · exact absurd (ht.symm.trans hi) (by simp)
  · exact h.target n i (ht ▸ hi)

theorem setReader (h : s.Sound) {k : ℕ} {r : ResponseReader}
    (hsaw : ∀ p, r.pc.sawCancelled = some p → (s.pend p).cancelled = true) :
    (s.setReader k r).Sound := by
  refine ⟨h.mutex, h.starts, h.fresh, h.conn, h.target, h.cancelled, fun m => ?_⟩
  rcases eq_or_ne m k with rfl | hm
  · simpa only [Sys.setReader, Function.update_self] using hsaw
  · simpa only [Sys.setReader, Function.update_of_ne hm] using h.saw m

theorem setPend (h : s.Sound) {p : ℕ} {x : PendingRequest}
    (hfresh : (s.callers p).stage = .before → x.written = none)
    (hcancelled : x.cancelled = true → s.callers p = .returned .transferred)
    (hsaw : (s.pend p).cancelled = true → x.cancelled = true) : (s.setPend p x).Sound := by
  refine ⟨h.mutex, h.starts, fun m => ?_, h.conn, h.target, fun m => ?_, fun k m hm => ?_⟩
  · rcases eq_or_ne m p with rfl | hm
    · simpa only [Sys.setPend, Function.update_self] using hfresh
    · simpa only [Sys.setPend, Function.update_of_ne hm] using h.fresh m
  · rcases eq_or_ne m p with rfl | hm
    · simpa only [Sys.setPend, Function.update_self] using hcancelled
    · simpa only [Sys.setPend, Function.update_of_ne hm] using h.cancelled m
  · have hold := h.saw k m hm
    rcases eq_or_ne m p with rfl | hne
    · simpa only [Sys.setPend, Function.update_self] using hsaw hold
    · simpa only [Sys.setPend, Function.update_of_ne hne] using hold

/-- A change of a pending request that is no matter of soundness. -/
theorem setPend_same (h : s.Sound) {p : ℕ} {x : PendingRequest}
    (hw : x.written = (s.pend p).written) (hc : x.cancelled = (s.pend p).cancelled) :
    (s.setPend p x).Sound :=
  h.setPend (fun hb => hw ▸ h.fresh p hb) (fun hx => h.cancelled p (hc ▸ hx)) (fun hp => hc ▸ hp)

theorem withLog (h : s.Sound) (log : List Event) : { s with log := log }.Sound :=
  { h with }

theorem lock (h : s.Sound) (n : ℕ) (hmu : s.pendingMu = none) :
    { s with pendingMu := some n }.Sound := by
  refine ⟨fun m hm => ?_, h.starts, h.fresh, h.conn, h.target, h.cancelled, h.saw⟩
  exact absurd (hmu.symm.trans (h.mutex m hm)) (by simp)

theorem unlock {n : ℕ} {pc : CallerPc} (h : (s.setCaller n pc).Sound) (hmu : s.pendingMu = some n)
    (hpc : pc.holds = false) : ({ s with pendingMu := none }.setCaller n pc).Sound := by
  refine ⟨fun m hm => ?_, h.starts, h.fresh, h.conn, h.target, h.cancelled, h.saw⟩
  -- a caller that still held the lock would be `n`, and `n` has let it go
  have hmn : n = m := Option.some_inj.mp (hmu.symm.trans (h.mutex m hm))
  subst hmn
  simp only [Sys.setCaller, Function.update_self, hpc, Bool.false_eq_true] at hm

theorem holds_of_starts {pc : CallerPc} (h : pc.starts = true) : pc.holds = true := by
  cases pc <;> simp_all

/-- Only the caller that holds the lock can be starting a reader. -/
theorem register (h : s.Sound) {n : ℕ} (hn : (s.callers n).holds = true)
    (hns : (s.callers n).starts = false) (k : ℕ) :
    { s with responseReader := some k, numReaders := k + 1 }.Sound := by
  refine ⟨h.mutex, fun m hm => ?_, h.fresh, h.conn, h.target, h.cancelled, h.saw⟩
  have hmn : m = n := Option.some_inj.mp
    ((h.mutex m (holds_of_starts hm)).symm.trans (h.mutex n hn))
  subst hmn
  exact absurd (hm.symm.trans hns) (by simp)

end Sys.Sound

section Steps

variable {cfg : Config} {s s' : Sys}

/-! `closeConn` and `ensureConnection` move no program counter of the goroutines; their own ones
are what they return. -/

theorem closeConn_callers {pc : ClosePc} {r : Option ClosePc}
    (hs : s.closeConn pc = some (s', r)) : s'.callers = s.callers := by
  match pc with
  | .cas | .load | .drop =>
    simp only [Sys.closeConn] at hs
    split at hs <;> cases hs <;> rfl
  | .close _ | .storeNil | .unhealthy | .stop none | .stop (some _) =>
    cases hs
    rfl

theorem closeConn_readers {pc : ClosePc} {r : Option ClosePc}
    (hs : s.closeConn pc = some (s', r)) (k : ℕ) : (s'.readers k).pc = (s.readers k).pc := by
  match pc with
  | .cas | .load | .drop =>
    simp only [Sys.closeConn] at hs
    split at hs <;> cases hs <;> rfl
  | .close _ | .storeNil | .unhealthy | .stop none =>
    cases hs
    rfl
  | .stop (some m) =>
    cases hs
    rcases eq_or_ne k m with rfl | hk
    · simp only [Sys.setReader, Function.update_self]
    · simp only [Sys.setReader, Function.update_of_ne hk]

theorem ensureConnection_callers {n : ℕ} {ch : Choice} {pc : EnsurePc} {r : EnsurePc ⊕ Bool}
    (hs : s.ensureConnection cfg n ch pc = some (s', r)) : s'.callers = s.callers := by
  match pc with
  | .lock | .load | .dial =>
    simp only [Sys.ensureConnection] at hs
    split at hs <;> cases hs <;> rfl
  | .test | .retest | .close _ | .storeNil | .unhealthy | .resetCount | .setHealthy
  | .clearClosing | .clearStopped | .unlock _ =>
    cases hs
    rfl

theorem closeConn_sound (h : s.Sound) {pc : ClosePc} {r : Option ClosePc}
    (hs : s.closeConn pc = some (s', r)) : s'.Sound := by
  match pc with
  | .cas =>
    simp only [Sys.closeConn] at hs
    split at hs <;> cases hs
    · exact h
    · exact { h with }
  | .load =>
    simp only [Sys.closeConn] at hs
    split at hs <;> cases hs <;> exact h
  | .close i =>
    cases hs
    exact { h with }
  | .storeNil =>
    cases hs
    exact ⟨h.1, h.2, h.3, fun i hi => absurd hi (by simp), h.5, h.6, h.7⟩
  | .unhealthy =>
    cases hs
    exact { h with }
  | .drop =>
    simp only [Sys.closeConn] at hs
    split at hs <;> cases hs
    -- the error channels are no matter of soundness
    have hpend (p : ℕ) : (s.dropPending.pend p).written = (s.pend p).written ∧
        (s.dropPending.pend p).cancelled = (s.pend p).cancelled := by
      simp only [Sys.dropPending]
      split <;> exact ⟨rfl, rfl⟩
    refine ⟨h.mutex, fun _ _ => rfl, fun n hn => ?_, h.conn, h.target, fun p hp => ?_,
      fun k p hp => ?_⟩
    · exact (hpend n).1.trans (h.fresh n hn)
    · exact h.cancelled p ((hpend p).2.symm.trans hp)
    · exact (hpend p).2.trans (h.saw k p hp)
  | .stop none =>
    cases hs
    exact h
  | .stop (some k) =>
    cases hs
    exact h.setReader (h.saw k)

theorem ensureConnection_sound (h : s.Sound) {n : ℕ} {ch : Choice} {pc : EnsurePc}
    {r : EnsurePc ⊕ Bool} (hs : s.ensureConnection cfg n ch pc = some (s', r)) :
    s'.Sound := by
  match pc with
  | .test | .retest =>
    cases hs
    exact h
  | .lock =>
    simp only [Sys.ensureConnection] at hs
    split at hs <;> cases hs
    exact { h with }
  | .load =>
    simp only [Sys.ensureConnection] at hs
    split at hs <;> cases hs <;> exact h
  | .close _ | .unhealthy | .resetCount | .setHealthy | .clearClosing | .clearStopped
  | .unlock _ =>
    cases hs
    exact { h with }
  | .storeNil =>
    cases hs
    exact ⟨h.1, h.2, h.3, fun i hi => absurd hi (by simp), h.5, h.6, h.7⟩
  | .dial =>
    simp only [Sys.ensureConnection] at hs
    split at hs <;> cases hs
    · exact h
    · refine ⟨h.mutex, h.starts, h.fresh, fun i hi => ?_, fun m i hi => ?_, h.cancelled,
        h.saw⟩
      · rw [← ConnPtr.stream.inj hi]
        exact Nat.lt_succ_self _
      · exact Nat.lt_succ_of_lt (h.target m i hi)

theorem afterEnsure_leads (rotated : Bool) (pc : EnsurePc) (r : EnsurePc ⊕ Bool) :
    (CallerPc.ensure rotated pc).leads (Sys.afterEnsure rotated r) := by
  rcases r with pc' | ok
  · simp [Sys.afterEnsure]
  · cases ok <;> cases rotated <;> simp [Sys.afterEnsure]

theorem doPipelined_sound (h : s.Sound) {n : ℕ} {ch : Choice}
    (hs : s.doPipelined cfg n ch = some s') : s'.Sound := by
  have hstep := Sys.doPipelined_step hs
  have hmutex := h.mutex n
  have hfresh := h.fresh n
  have htarget := h.target n
  have hcancelled := h.cancelled n
  generalize hpc : s.callers n = pc at hstep hmutex hfresh htarget hcancelled
  cases hstep with
  | idle | setRelease => exact Sys.Sound.move (by exact h.setPend_same rfl rfl) hpc (by simp)
  | ensure hr =>
    exact (ensureConnection_sound h hr).move (ensureConnection_callers hr ▸ hpc)
      (afterEnsure_leads _ _ _)
  | @rotate pc s₁ r hr | @failClose pc s₁ r hr =>
    refine (closeConn_sound h hr).move (closeConn_callers hr ▸ hpc) ?_
    cases r <;> simp
  | checkClosing | prepare | startStopped | startClosing =>
    refine h.move hpc ?_
    split <;> simp
  | overLimit | underLimit | loadNil | recheck | startNone | writeFailed | cancel | takeErr =>
    exact h.move hpc (by simp)
  | loadStream hconn =>
    exact h.setCaller (by simp) (by simp) (fun _ => hfresh rfl)
      (fun j hj => Option.some_inj.mp hj ▸ h.conn _ hconn)
      (fun hc => absurd (hcancelled hc) (by simp))
  | lock hmu =>
    exact (h.lock n hmu).setCaller (fun _ => rfl) (by simp) (fun _ => hfresh rfl) htarget
      (fun hc => absurd (hcancelled hc) (by simp))
  | recheckClosing | unlockFailed => exact (h.move hpc (by simp)).unlock (hmutex rfl) rfl
  | needReader =>
    split
    · case isTrue hnone =>
      exact h.setCaller (fun _ => hmutex rfl) (fun _ => hnone.1) (fun _ => hfresh rfl) htarget
        (fun hc => absurd (hcancelled hc) (by simp))
    · exact h.move hpc (by simp)
  | @startReader i j hconn =>
    have hcount : (s.setCaller n (.count i)).Sound := h.move hpc (by simp)
    have hreg := hcount.register (n := n) (by simp [Sys.setCaller]) (by simp [Sys.setCaller])
      s.numReaders
    exact hreg.setReader (k := s.numReaders) (by simp [ReaderPc.sawCancelled])
  | count =>
    exact Sys.Sound.move (s := { s with activeReqs := s.activeReqs + 1 })
      { h with } hpc (by simp)
  | writeTorn =>
    have h₁ : (s.setCaller n .uncount).Sound := h.move hpc (by simp)
    exact { h₁ with }
  | @write i =>
    have h₁ : (s.setCaller n .append).Sound := h.move hpc (by simp)
    have h₂ := h₁.setPend (p := n) (x := { s.pend n with written := some i })
      (by simp [Sys.setCaller]) (h₁.cancelled n) id
    exact { h₂ with }
  | uncount =>
    exact Sys.Sound.move (s := { s with activeReqs := s.activeReqs - 1 })
      { h with } hpc (by simp)
  | append =>
    exact Sys.Sound.unlock (s := { s with pendingReqs := s.pendingReqs ++ [n] })
      (Sys.Sound.move (s := { s with pendingReqs := s.pendingReqs ++ [n] })
        { h with } hpc (by simp)) (hmutex rfl) rfl
  | signal =>
    exact Sys.Sound.move (s := { s with pendingSignal := true })
      { h with } hpc (by simp)
  | receive => exact Sys.Sound.move (by exact h.setPend_same rfl rfl) hpc (by simp)
  | setCancelled =>
    have hdone : (s.setCaller n (.returned .transferred)).Sound := h.move hpc (by simp)
    exact hdone.setPend (p := n) (x := { s.pend n with cancelled := true }) (hdone.fresh n)
      (fun _ => by simp [Sys.setCaller]) (fun _ => rfl)

theorem releaseResponse_sound (h : s.Sound) {n : ℕ} (hs : s.releaseResponse n = some s') :
    s'.Sound := by
  unfold Sys.releaseResponse at hs
  split at hs <;> cases hs
  case _ hpc => exact (h.withLog _).move hpc (by simp)

/-- A reader goes on to a place where it has seen no cancellation. -/
theorem setReaderPc_sound (h : s.Sound) {k : ℕ} {pc : ReaderPc} (hpc : pc.sawCancelled = none) :
    (s.setReaderPc k pc).Sound :=
  h.setReader fun _ hp => absurd (hpc.symm.trans hp) (by simp)

theorem parse_sound (h : s.Sound) {k p : ℕ} {ch : Choice} (hpc : (s.readers k).pc = .parse p)
    (hs : s.parse k p ch = some s') : s'.Sound := by
  obtain ⟨i, t, log, r, rfl, -, -, hr⟩ := Sys.parse_frame hs
  refine Sys.Sound.setReader (s := { s with log := log }.setStream i t)
    { h with } fun q hq => ?_
  rcases hr with hr | ⟨o, hr⟩ <;> simp [hr, hpc, ReaderPc.sawCancelled] at hq

theorem deliver_sound (h : s.Sound) (k p : ℕ) (o : Parsed) (c : Bool) :
    (s.deliver k p o c).Sound := by
  obtain ⟨log, response, hd⟩ := s.deliver_frame k p o c
  rw [hd]
  exact (h.withLog log).setPend_same rfl rfl

theorem afterDeliver_saw (p : ℕ) (o : Parsed) (c : Bool) :
    (Sys.afterDeliver p o c).sawCancelled = none := by
  unfold Sys.afterDeliver
  split
  · rfl
  · split <;> rfl

theorem readerRun_sound (h : s.Sound) {k : ℕ} {ch : Choice}
    (hs : s.readerRun k ch = some s') : s'.Sound := by
  have hstep := Sys.readerRun_step hs
  have hsaw := h.saw k
  generalize hpc : (s.readers k).pc = pc at hstep hsaw
  cases hstep with
  | start | startNone | stop | peekNone | peek | checkClosing | check | skip | skipErrLeft =>
    exact setReaderPc_sound h rfl
  | wake | skipCount | skipRemove =>
    refine setReaderPc_sound ?_ rfl
    exact { h with }
  | skipErr | sendErr => exact setReaderPc_sound (by exact h.setPend_same rfl rfl) rfl
  | reset => exact setReaderPc_sound (h.withLog _) (by rfl)
  | parse hparse => exact parse_sound h hpc hparse
  | @loadCancelled p o =>
    refine h.setReader fun q hq => ?_
    cases hc : (s.pend p).cancelled with
    | false => simp [hc, ReaderPc.sawCancelled] at hq
    | true =>
      simp only [hc, ReaderPc.sawCancelled, Option.some.injEq] at hq
      exact hq ▸ hc
  | @uncount p o c | @remove p o c | @recordNone p o c | @record p o c =>
    refine Sys.Sound.setReader ?_ fun q hq => hsaw q (by cases c <;> exact hq)
    exact { h with }
  | deliver => exact setReaderPc_sound (deliver_sound h _ _ _ _) (afterDeliver_saw _ _ _)
  | @close pc p s₁ r hr =>
    refine setReaderPc_sound (closeConn_sound h hr) ?_
    cases r <;> cases p <;> rfl

theorem stop_sound (h : s.Sound) {m : ℕ} (hs : s.stop m = some s') : s'.Sound := by
  unfold Sys.stop at hs
  split at hs
  · split at hs <;> cases hs <;> exact { h with }
  · obtain ⟨⟨s₁, r⟩, hr, rfl⟩ := Option.map_eq_some_iff.mp hs
    have h₁ := closeConn_sound h hr
    exact { h₁ with }
  · cases hs

/-- Every step keeps a state sound. -/
theorem step_sound (h : s.Sound) {l : Tid × Choice} (hs : s.step cfg l = some s') :
    s'.Sound := by
  obtain ⟨t, ch⟩ := l
  cases t with
  | caller n => exact doPipelined_sound h hs
  | client n => exact releaseResponse_sound h hs
  | reader k => exact readerRun_sound h hs
  | stopper m => exact stop_sound h hs

/-! ### Whose program counter moves -/

/-- A step of a caller changes no other, and it takes the object off the request where it
loads the stream. -/
theorem doPipelined_callers {n : ℕ} {ch : Choice}
    (hs : s.doPipelined cfg n ch = some s') :
    ∃ pc, s'.callers = update s.callers n pc ∧
      (pc.attached = true → (s.callers n).attached = true ∨ s.callers n = .loadConn) := by
  have hstep := Sys.doPipelined_step hs
  generalize s.callers n = pc at hstep ⊢
  cases hstep with
  | @ensure rotated pc s₁ r hr =>
    refine ⟨_, congrArg (update · n _) (ensureConnection_callers hr), ?_⟩
    rcases r with pc | _ | _ <;> cases rotated <;> simp [Sys.afterEnsure, CallerPc.attached]
  | @rotate pc s₁ r hr =>
    refine ⟨_, congrArg (update · n _) (closeConn_callers hr), ?_⟩
    cases r <;> simp [CallerPc.attached]
  | failClose hr => exact ⟨_, congrArg (update · n _) (closeConn_callers hr), fun _ => .inl rfl⟩
  | loadStream | loadNil => exact ⟨_, rfl, fun _ => .inr rfl⟩
  | idle | checkClosing | overLimit | underLimit | prepare =>
    exact ⟨_, rfl, by (try split) <;> simp [CallerPc.attached]⟩
  | lock | recheckClosing | recheck | needReader | startStopped | startClosing | startReader
  | startNone | count | writeTorn | writeFailed | write | uncount | unlockFailed | append
  | signal | cancel | takeErr | receive | setRelease | setCancelled =>
    exact ⟨_, rfl, fun _ => .inl rfl⟩

theorem readerRun_callers {k : ℕ} {ch : Choice} (hs : s.readerRun k ch = some s') :
    s'.callers = s.callers := by
  have hstep := Sys.readerRun_step hs
  generalize (s.readers k).pc = pc at hstep
  cases hstep with
  | parse hparse =>
    obtain ⟨i, t, log, r, rfl, -⟩ := Sys.parse_frame hparse
    rfl
  | @deliver p o c =>
    obtain ⟨log, response, hd⟩ := s.deliver_frame k p o c
    exact (congrArg Sys.callers hd :)
  | close hr => exact (closeConn_callers hr :)
  | start | startNone | stop | wake | peekNone | peek | checkClosing | check | skip | skipCount
  | skipRemove | skipErrLeft | skipErr | reset | loadCancelled | uncount | remove | recordNone
  | record | sendErr => rfl

theorem stop_callers {m : ℕ} (hs : s.stop m = some s') : s'.callers = s.callers := by
  unfold Sys.stop at hs
  split at hs
  · split at hs <;> cases hs <;> rfl
  · obtain ⟨⟨s₁, r⟩, hx, rfl⟩ := Option.map_eq_some_iff.mp hs
    exact (closeConn_callers hx :)
  · cases hs

theorem step_callers {l : Tid × Choice} (hs : s.step cfg l = some s') {n : ℕ}
    (hcaller : l.1 ≠ .caller n) (hclient : l.1 ≠ .client n) : s'.callers n = s.callers n := by
  obtain ⟨t, ch⟩ := l
  cases t with
  | caller m =>
    obtain ⟨pc, hcallers, -⟩ := doPipelined_callers hs
    rw [hcallers, Function.update_of_ne]
    rintro rfl
    exact hcaller rfl
  | client m =>
    simp only [Sys.step, Sys.releaseResponse] at hs
    split at hs <;> cases hs
    refine Function.update_of_ne ?_ _ _
    rintro rfl
    exact hclient rfl
  | reader k => rw [readerRun_callers hs]
  | stopper m => rw [stop_callers hs]

end Steps

end BurstHttp.Pipeline
