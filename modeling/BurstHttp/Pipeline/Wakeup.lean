/-
No wake-up is lost.

Callers append to `pendingReqs` under `pendingMu` and signal behind it, and
`pendingSignal` holds one signal at most; the reader takes a signal, and then looks at
the queue again and again until it finds it empty.

* `Sys.Awake` — there is one reader at most; and if the queue is not empty, then there
  is a signal, or somebody about to send one, or the reader is about to look;
* `step_awake` — every step outside `closeConn` keeps it;
* `no_lost_wakeup` — so a reader that waits with no signal has nothing to do, or will
  be woken up.
-/
import BurstHttp.Pipeline.Pairing

namespace BurstHttp.Pipeline

open Function (update)
open Guarded (Reaches)

/-- The caller is inside `closeConn`. -/
def CallerPc.inClose : CallerPc → Bool
  | .rotate _ | .failClose _ => true
  | _ => false

/-- The reader has taken a signal, and looks at the queue before it waits again; or it has
stopped. -/
def ReaderPc.awake : ReaderPc → Bool
  | .start | .select => false
  | _ => true

namespace Sys

/-- No goroutine is in `closeConn`. -/
def OutsideClose (s : Sys) (l : Tid × Choice) : Prop :=
  match l.1 with
  | .caller n => (s.callers n).inClose = false
  | .client _ => True
  | .reader k =>
    match (s.readers k).pc with
    | .close _ _ => False
    | _ => True
  | .stopper m =>
    match s.stoppers m with
    | .closing _ => False
    | _ => True

instance (s : Sys) (l : Tid × Choice) : Decidable (s.OutsideClose l) := by
  unfold OutsideClose
  split
  · infer_instance
  · infer_instance
  · split <;> infer_instance
  · split <;> infer_instance

/-- One reader, and a reason for it to look at a queue that is not empty. -/
structure Awake (s : Sys) : Prop where
  single : s.numReaders ≤ 1
  unstarted : s.responseReader = none → s.numReaders = 0
  exited : ∀ k, s.numReaders ≤ k → (s.readers k).pc = .exited
  queue : s.pendingReqs ≠ [] → s.pendingSignal = true ∨ (∃ n, s.callers n = .signal)
    ∨ ∃ k < s.numReaders, (s.readers k).pc.awake = true

namespace Awake

variable {s s' : Sys}

theorem new : Sys.new.Awake where
  single := Nat.zero_le 1
  unstarted := fun _ => rfl
  exited := fun _ _ => rfl
  queue := fun h => absurd rfl h

/-- Steps outside of the readers that do not append. -/
theorem frame (h : s.Awake) (hreader : s'.responseReader = s.responseReader)
    (hnum : s'.numReaders = s.numReaders) (hreaders : s'.readers = s.readers)
    (hreqs : s'.pendingReqs = s.pendingReqs) (hsignal : s'.pendingSignal = s.pendingSignal)
    (hcallers : ∀ n, s.callers n = .signal → s'.callers n = .signal) : s'.Awake := by
  constructor
  · rw [hnum]
    exact h.single
  · rw [hreader, hnum]
    exact h.unstarted
  · rw [hnum, hreaders]
    exact h.exited
  · rw [hreqs, hsignal, hnum, hreaders]
    intro hne
    rcases h.queue hne with hsig | ⟨n, hn⟩ | hk
    · exact .inl hsig
    · exact .inr (.inl ⟨n, hcallers n hn⟩)
    · exact .inr (.inr hk)

/-- A caller goes on that was not about to signal. -/
theorem move (h : s.Awake) {n : ℕ} {pc : CallerPc} (hpc : s.callers n ≠ .signal)
    (hcallers : s'.callers = update s.callers n pc) (hreader : s'.responseReader = s.responseReader)
    (hnum : s'.numReaders = s.numReaders) (hreaders : s'.readers = s.readers)
    (hreqs : s'.pendingReqs = s.pendingReqs) (hsignal : s'.pendingSignal = s.pendingSignal) :
    s'.Awake := by
  refine h.frame hreader hnum hreaders hreqs hsignal ?_
  intro m hm
  have hmn : m ≠ n := by
    rintro rfl
    exact hpc hm
  rw [hcallers, Function.update_of_ne hmn]
  exact hm

/-- A reader goes on.  It may take the signal if it looks at the queue then, and it may go to
wait if the queue is empty. -/
theorem turn (h : s.Awake) {k : ℕ} {r : ResponseReader} (hk : (s.readers k).pc ≠ .exited)
    (hreaders : s'.readers = update s.readers k r) (hcallers : s'.callers = s.callers)
    (hreader : s'.responseReader = s.responseReader) (hnum : s'.numReaders = s.numReaders)
    (hreqs : s'.pendingReqs ≠ [] → s.pendingReqs ≠ [])
    (hsignal : s'.pendingSignal = s.pendingSignal ∨ r.pc.awake = true)
    (hawake : (s.readers k).pc.awake = true → r.pc.awake = true ∨ s'.pendingReqs = []) :
    s'.Awake := by
  have hlt : k < s.numReaders := by
    by_contra hle
    exact hk (h.exited k (Nat.not_lt.mp hle))
  constructor
  · rw [hnum]
    exact h.single
  · rw [hreader, hnum]
    exact h.unstarted
  · intro k' hk'
    rw [hnum] at hk'
    have hne : k' ≠ k := by omega
    rw [hreaders, Function.update_of_ne hne]
    exact h.exited k' hk'
  · intro hne
    by_cases hr : r.pc.awake = true
    · refine .inr (.inr ⟨k, by rw [hnum]; exact hlt, ?_⟩)
      rw [hreaders, Function.update_self]
      exact hr
    · -- a reader that does not look leaves the signal alone, and was not the one to look
      have hsig := hsignal.resolve_right hr
      rw [hsig, hcallers]
      rcases h.queue (hreqs hne) with hs | hn | ⟨k', hk', hpc⟩
      · exact .inl hs
      · exact .inr (.inl hn)
      · have hsame : k' = k := by
          have := h.single
          omega
        rw [hsame] at hpc
        rcases hawake hpc with hr' | hnil
        · exact absurd hr' hr
        · exact absurd hnil hne

end Awake

end Sys

section Steps

variable {cfg : Config} {s s' : Sys}

theorem ensureConnection_awake (h : s.Awake) {n : ℕ} {ch : Choice} {pc : EnsurePc}
    {r : EnsurePc ⊕ Bool} (hs : s.ensureConnection cfg n ch pc = some (s', r)) :
    s'.Awake ∧ s'.callers = s.callers := by
  match pc with
  | .lock | .load | .dial =>
    simp only [Sys.ensureConnection] at hs
    split at hs <;> cases hs <;> exact ⟨h.frame rfl rfl rfl rfl rfl fun _ h => h, rfl⟩
  | .test | .retest | .close _ | .storeNil | .unhealthy | .resetCount | .setHealthy
  | .clearClosing | .clearStopped | .unlock _ =>
    cases hs
    exact ⟨h.frame rfl rfl rfl rfl rfl fun _ h => h, rfl⟩

theorem doPipelined_awake (hsound : s.Sound) (h : s.Awake) {n : ℕ} {ch : Choice}
    (hopen : (s.callers n).inClose = false) (hs : s.doPipelined cfg n ch = some s') : s'.Awake := by
  have hstep := Sys.doPipelined_step hs
  generalize hpc : s.callers n = pc at hopen hstep
  cases hstep with
  | ensure hr =>
    obtain ⟨hawake, hcallers⟩ := ensureConnection_awake h hr
    exact hawake.move (by rw [hcallers, hpc]; simp) rfl rfl rfl rfl rfl rfl
  | rotate | failClose => cases hopen
  | startReader =>
    -- the first reader
    have hnone := hsound.starts n (by rw [hpc]; rfl)
    have hzero := h.unstarted hnone
    constructor
    · exact (congrArg (· + 1) hzero).le
    · intro hnone'
      cases hnone'
    · intro k hk
      have hk' : s.numReaders + 1 ≤ k := hk
      have hne : k ≠ s.numReaders := by omega
      exact (congrArg ResponseReader.pc (Function.update_of_ne hne _ _)).trans
        (h.exited k (by omega))
    · intro hne
      rcases h.queue hne with hsig | ⟨m, hm⟩ | ⟨k, hk, -⟩
      · exact .inl hsig
      · have hmn : m ≠ n := by
          rintro rfl
          rw [hpc] at hm
          cases hm
        exact .inr (.inl ⟨m, (Function.update_of_ne hmn _ _).trans hm⟩)
      · omega
  | append =>
    exact ⟨h.single, h.unstarted, h.exited, fun _ => .inr (.inl ⟨n, Function.update_self _ _ _⟩)⟩
  | signal => exact ⟨h.single, h.unstarted, h.exited, fun _ => .inl rfl⟩
  | idle | checkClosing | overLimit | underLimit | prepare | loadStream | loadNil | lock
  | recheckClosing | recheck | needReader | startStopped | startClosing | startNone | count
  | writeTorn | writeFailed | write | uncount | unlockFailed | cancel | takeErr | receive
  | setRelease | setCancelled =>
    exact h.move (by rw [hpc]; simp) rfl rfl rfl rfl rfl rfl

theorem readerRun_awake (h : s.Awake) {k : ℕ} {ch : Choice}
    (hopen : s.OutsideClose (.reader k, ch)) (hs : s.readerRun k ch = some s') : s'.Awake := by
  have hstep := Sys.readerRun_step hs
  have hlive (hpc : (s.readers k).pc = .exited) : False := by
    rw [hpc] at hstep
    cases hstep
  generalize hpc : (s.readers k).pc = pc at hlive hstep
  rw [← hpc] at hlive
  cases hstep with
  | close => simp only [Sys.OutsideClose, hpc] at hopen
  | skipRemove | remove =>
    refine h.turn hlive rfl rfl rfl rfl ?_ (.inr rfl) fun _ => .inl rfl
    intro hne hnil
    exact hne (by simp [Sys.setReaderPc, Sys.setReader, hnil])
  | parse hparse =>
    obtain ⟨i, t, log, r, rfl, -, -, hr⟩ := Sys.parse_frame hparse
    have hawake : r.pc.awake = true := by
      rcases hr with hr | ⟨o, hr⟩ <;> simp only [hr, hpc, ReaderPc.awake]
    exact h.turn hlive rfl rfl rfl rfl id (.inr hawake) fun _ => .inl hawake
  | @deliver p o c =>
    have hafter : (Sys.afterDeliver p o c).awake = true := by
      unfold Sys.afterDeliver
      repeat' split
      all_goals rfl
    obtain ⟨log, response, hd⟩ := s.deliver_frame k p o c
    rw [hd]
    exact h.turn hlive rfl rfl rfl rfl id (.inr hafter) fun _ => .inl hafter
  | peekNone _ hnil => exact h.turn hlive rfl rfl rfl rfl id (.inl rfl) fun _ => .inr hnil
  | start =>
    refine h.turn hlive rfl rfl rfl rfl id (.inl rfl) ?_
    rw [hpc]
    intro hawake
    cases hawake
  | startNone | stop | wake | peek | checkClosing | check | skip | skipCount | skipErrLeft | skipErr
  | reset | loadCancelled | uncount | recordNone | record | sendErr =>
    exact h.turn hlive rfl rfl rfl rfl id (.inr rfl) fun _ => .inl rfl

theorem step_awake (hsound : s.Sound) (h : s.Awake) {l : Tid × Choice} (hopen : s.OutsideClose l)
    (hs : s.step cfg l = some s') : s'.Awake := by
  obtain ⟨t, ch⟩ := l
  cases t with
  | caller n => exact doPipelined_awake hsound h hopen hs
  | client n =>
    simp only [Sys.step, Sys.releaseResponse] at hs
    split at hs <;> cases hs
    rename_i hpc
    exact h.move (by rw [hpc]; simp) rfl rfl rfl rfl rfl rfl
  | reader k => exact readerRun_awake h hopen hs
  | stopper m =>
    simp only [Sys.step, Sys.stop] at hs
    split at hs
    · split at hs <;> cases hs <;> exact h.frame rfl rfl rfl rfl rfl fun _ h => h
    · rename_i hpc
      simp only [Sys.OutsideClose, hpc] at hopen
    · cases hs

end Steps

/-- **No lost wake-up.**  In every run of any number of callers in which no goroutine enters
`closeConn`: when a reader waits for a signal and there is none, then no request is queued, or
a caller is between its append and its send. -/
theorem no_lost_wakeup (cfg : Config) {s : Sys}
    (hs : Reaches (Sys.step cfg) Sys.OutsideClose Sys.new s) {k : ℕ}
    (hwait : (s.readers k).pc = .select) (hsignal : s.pendingSignal = false) :
    s.pendingReqs = [] ∨ ∃ n, s.callers n = .signal := by
  have hinv : s.Sound ∧ s.Awake :=
    hs.invariant (fun s => s.Sound ∧ s.Awake) ⟨.new, .new⟩ fun _ _ _ hinv hopen hs =>
      ⟨step_sound hinv.1 hs, step_awake hinv.1 hinv.2 hopen hs⟩
  obtain ⟨-, hawake⟩ := hinv
  by_cases hnil : s.pendingReqs = []
  · exact .inl hnil
  rcases hawake.queue hnil with hsig | hn | ⟨k', hk', hpc⟩
  · rw [hsignal] at hsig
    cases hsig
  · exact .inr hn
  · -- the only reader is the one that waits
    have hk : k < s.numReaders := by
      by_contra hle
      have hexited := hawake.exited k (Nat.not_lt.mp hle)
      rw [hwait] at hexited
      cases hexited
    have hsingle := hawake.single
    have hsame : k' = k := by omega
    rw [hsame, hwait] at hpc
    cases hpc

/-- Caller 1 has queued its request, and the reader is already waiting. -/
theorem no_lost_wakeup_appended :
    ∃ s, Reaches (Sys.step rotating) Sys.OutsideClose Sys.new s ∧ (s.readers 0).pc = .select
      ∧ s.pendingSignal = false ∧ s.pendingReqs = [1]
      ∧ (s.pendingReqs = [] ∨ ∃ n, s.callers n = .signal) := by
  obtain ⟨s, hs, hwait, hsignal, hreqs⟩ := Guarded.exists_of_exec (Sys.step rotating)
    Sys.OutsideClose Sys.new (steps (.caller 1) 25 ++ [(Tid.reader 0, Choice.plain)])
    (fun s => (s.readers 0).pc = .select ∧ s.pendingSignal = false ∧ s.pendingReqs = [1])
    (by decide +kernel)
  exact ⟨s, hs, hwait, hsignal, hreqs, no_lost_wakeup rotating hs hwait hsignal⟩

end BurstHttp.Pipeline
