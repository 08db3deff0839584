/-
A queued request has a reader.

`doPipelined` starts a response reader if none is registered, but only if it finds the
connection up: `closing` and `readerStopped` clear and `conn` set.  A redial sets
`healthy` before it clears these, and `closeConn` sets them without `pendingMu`.

* `Sys.Attended` — a caller that goes on to write has a registered reader, and so has
  the queue; `step_attended` — steps that find the connection up where they need a
  reader (`Sys.FindsUp`) keep it;
* `pending_attended` — in runs of such steps no queued request is without a reader;
* `pending_orphaned` — in other runs one may be, and stay so.
-/
import BurstHttp.Pipeline.Pairing

namespace BurstHttp.Pipeline

open Function (update)
open Guarded (Reaches)

/-- The caller tests whether a reader is registered, or starts one. -/
def CallerPc.looks : CallerPc → Bool
  | .needReader _ | .startStopped _ | .startClosing _ | .startLoad _ => true
  | _ => false

/-- The caller is past these tests, and may still queue its request. -/
def CallerPc.writes : CallerPc → Bool
  | .count _ | .write _ | .append => true
  | _ => false

theorem CallerPc.holds_of_writes {pc : CallerPc} (h : pc.writes = true) : pc.holds = true := by
  cases pc <;> first | rfl | cases h

namespace Sys

/-- The connection is up: not being closed, not being redialed. -/
def Up (s : Sys) : Prop :=
  s.closing = false ∧ s.readerStopped = false ∧ s.conn ≠ .unset ∧ s.conn ≠ .null

/-- A caller that looks for a reader while none is registered finds the connection up. -/
def FindsUp (s : Sys) (l : Tid × Choice) : Prop :=
  match l.1 with
  | .caller n => (s.callers n).looks = true → s.responseReader = none → s.Up
  | _ => True

instance (s : Sys) : Decidable s.Up :=
  inferInstanceAs (Decidable (_ ∧ _ ∧ _ ∧ _))

instance (s : Sys) (l : Tid × Choice) : Decidable (s.FindsUp l) :=
  match l with
  | (.caller n, _) =>
    inferInstanceAs (Decidable ((s.callers n).looks = true → s.responseReader = none → s.Up))
  | (.client _, _) | (.reader _, _) | (.stopper _, _) => .isTrue trivial

/-- Who writes or waits in the queue has a registered reader. -/
structure Attended (s : Sys) : Prop where
  writing : ∀ n, (s.callers n).writes = true → s.responseReader ≠ none
  queued : s.pendingReqs ≠ [] → s.responseReader ≠ none

namespace Attended

variable {s s' : Sys}

theorem new : Sys.new.Attended where
  writing := by simp [Sys.new, CallerPc.writes]
  queued := by simp [Sys.new]

/-- Steps that neither queue a request nor take the reader away. -/
theorem frame (h : s.Attended) (hcallers : s'.callers = s.callers)
    (hreader : s'.responseReader = s.responseReader)
    (hreqs : s'.pendingReqs ≠ [] → s.pendingReqs ≠ []) : s'.Attended where
  writing n hn := hreader ▸ h.writing n (hcallers ▸ hn)
  queued hq := hreader ▸ h.queued (hreqs hq)

/-- A caller goes on; it has a reader when it goes on to write. -/
theorem move (h : s.Attended) {n : ℕ} {pc : CallerPc} (hcallers : s'.callers = update s.callers n pc)
    (hreader : s'.responseReader = s.responseReader) (hreqs : s'.pendingReqs = s.pendingReqs)
    (hwrites : pc.writes = true → s.responseReader ≠ none) : s'.Attended := by
  refine ⟨fun m hm => ?_, fun hq => hreader ▸ h.queued (hreqs ▸ hq)⟩
  rw [hreader]
  rcases eq_or_ne m n with rfl | hmn
  · rw [hcallers, Function.update_self] at hm
    exact hwrites hm
  · rw [hcallers, Function.update_of_ne hmn] at hm
    exact h.writing m hm

end Attended

end Sys

section Steps

variable {cfg : Config} {s s' : Sys}

/-- `closeConn` takes the reader away under `pendingMu`, when nobody is writing, and with it
the queue. -/
theorem closeConn_attended (hsound : s.Sound) (h : s.Attended) {pc : ClosePc} {r : Option ClosePc}
    (hs : s.closeConn pc = some (s', r)) : s'.Attended := by
  match pc with
  | .cas | .load =>
    simp only [Sys.closeConn] at hs
    split at hs <;> cases hs <;> exact ⟨h.1, h.2⟩
  | .close _ | .storeNil | .unhealthy | .stop none | .stop (some _) =>
    cases hs
    exact ⟨h.1, h.2⟩
  | .drop =>
    simp only [Sys.closeConn] at hs
    split at hs <;> cases hs
    rename_i hfree
    refine ⟨fun n hn => ?_, fun hq => absurd rfl hq⟩
    have hheld := hsound.mutex n (CallerPc.holds_of_writes hn)
    rw [hfree] at hheld
    cases hheld

theorem ensureConnection_attended (h : s.Attended) {n : ℕ} {ch : Choice} {pc : EnsurePc}
    {r : EnsurePc ⊕ Bool} (hs : s.ensureConnection cfg n ch pc = some (s', r)) :
    s'.Attended := by
  match pc with
  | .lock | .load | .dial =>
    simp only [Sys.ensureConnection] at hs
    split at hs <;> cases hs <;> exact ⟨h.1, h.2⟩
  | .test | .retest | .close _ | .storeNil | .unhealthy | .resetCount | .setHealthy
  | .clearClosing | .clearStopped | .unlock _ =>
    cases hs
    exact ⟨h.1, h.2⟩

theorem doPipelined_attended (hsound : s.Sound) (h : s.Attended) {n : ℕ} {ch : Choice}
    (hup : (s.callers n).looks = true → s.responseReader = none → s.Up)
    (hs : s.doPipelined cfg n ch = some s') : s'.Attended := by
  -- a caller that is starting a reader knows that none is registered
  have hstarting (hstarts : (s.callers n).starts = true) (hlooks : (s.callers n).looks = true) :
      s.responseReader = none ∧ s.Up :=
    ⟨hsound.starts n hstarts, hup hlooks (hsound.starts n hstarts)⟩
  have hstep := Sys.doPipelined_step hs
  have hwriting := h.writing n
  generalize hpc : s.callers n = pc at hup hstarting hstep hwriting
  cases hstep with
  | @ensure rotated pc s₁ r hr =>
    refine (ensureConnection_attended h hr).move rfl rfl rfl ?_
    rcases r with _ | (_ | _) <;> cases rotated <;> simp [Sys.afterEnsure, CallerPc.writes]
  | @rotate pc s₁ r hr | @failClose pc s₁ r hr =>
    refine (closeConn_attended hsound h hr).move rfl rfl rfl ?_
    cases r <;> simp [CallerPc.writes]
  | idle | checkClosing | overLimit | underLimit | prepare | loadStream | loadNil | lock
  | recheckClosing | recheck | writeTorn | writeFailed | uncount | unlockFailed | signal | cancel
  | takeErr | receive | setRelease | setCancelled =>
    exact h.move rfl rfl rfl (by (try split) <;> simp [CallerPc.writes])
  | needReader =>
    refine h.move rfl rfl rfl fun hwrites hnone => ?_
    obtain ⟨-, hstopped, -⟩ := hup rfl hnone
    simp [hnone, hstopped, CallerPc.writes] at hwrites
  | startStopped =>
    obtain ⟨-, -, hstopped, -⟩ := hstarting rfl rfl
    exact h.move rfl rfl rfl (by simp [hstopped, CallerPc.writes])
  | startClosing =>
    obtain ⟨hnone, hclosing, -⟩ := hstarting rfl rfl
    exact h.move rfl rfl rfl (by simp [hnone, hclosing, CallerPc.writes])
  | startReader => exact ⟨fun _ _ => Option.some_ne_none _, fun _ => Option.some_ne_none _⟩
  | startNone hnone =>
    obtain ⟨-, -, -, hunset, hnull⟩ := hstarting rfl rfl
    cases hconn : s.conn <;> simp_all
  | count | write => exact h.move rfl rfl rfl fun _ => hwriting rfl
  | append => exact ⟨fun _ _ => hwriting rfl, fun _ => hwriting rfl⟩

theorem readerRun_attended (hsound : s.Sound) (h : s.Attended) {k : ℕ} {ch : Choice}
    (hs : s.readerRun k ch = some s') : s'.Attended := by
  have hstep := Sys.readerRun_step hs
  generalize (s.readers k).pc = pc at hstep
  cases hstep with
  | skipRemove | remove =>
    refine h.frame rfl rfl fun hne hnil => hne ?_
    simp [hnil, Sys.setReaderPc, Sys.setReader]
  | close hr => exact (closeConn_attended hsound h hr).frame rfl rfl id
  | parse hparse =>
    obtain ⟨i, t, log, r, rfl, -⟩ := Sys.parse_frame hparse
    exact h.frame rfl rfl id
  | @deliver p o c =>
    obtain ⟨log, response, hd⟩ := s.deliver_frame k p o c
    rw [hd]
    exact h.frame rfl rfl id
  | start | startNone | stop | wake | peekNone | peek | checkClosing | check | skip | skipCount
  | skipErrLeft | skipErr | reset | loadCancelled | uncount | recordNone | record | sendErr =>
    exact h.frame rfl rfl id

theorem stop_attended (hsound : s.Sound) (h : s.Attended) {m : ℕ} (hs : s.stop m = some s') :
    s'.Attended := by
  simp only [Sys.stop] at hs
  split at hs
  · split at hs <;> cases hs <;> exact h.frame rfl rfl id
  · obtain ⟨⟨s₁, r⟩, hr, rfl⟩ := Option.map_eq_some_iff.mp hs
    exact (closeConn_attended hsound h hr).frame rfl rfl id
  · cases hs

/-- Steps that find the connection up where they look for a reader keep the queue attended. -/
theorem step_attended (hsound : s.Sound) (h : s.Attended) {l : Tid × Choice} (hup : s.FindsUp l)
    (hs : s.step cfg l = some s') : s'.Attended := by
  obtain ⟨t, ch⟩ := l
  cases t with
  | caller n => exact doPipelined_attended hsound h hup hs
  | client n =>
    simp only [Sys.step, Sys.releaseResponse] at hs
    split at hs <;> cases hs
    exact h.move rfl rfl rfl (by simp [CallerPc.writes])
  | reader k => exact readerRun_attended hsound h hs
  | stopper m => exact stop_attended hsound h hs

end Steps

/-- In every run in which callers find the connection up where they look for a reader, a reader
is registered whenever a request is queued. -/
theorem pending_attended (cfg : Config) (s : Sys)
    (h : Reaches (Sys.step cfg) Sys.FindsUp Sys.new s) (hq : s.pendingReqs ≠ []) :
    s.responseReader ≠ none := by
  have hinv : s.Sound ∧ s.Attended :=
    h.invariant (fun s => s.Sound ∧ s.Attended) ⟨.new, .new⟩ fun _ _ _ hinv hup hs =>
      ⟨step_sound hinv.1 hs, step_attended hinv.1 hinv.2 hup hs⟩
  exact hinv.2.queued hq

/-- Caller 1 has queued its request. -/
theorem pending_attended_queued :
    ∃ s, Reaches (Sys.step rotating) Sys.FindsUp Sys.new s ∧ s.pendingMu = none ∧
      s.pendingReqs = [1] ∧ s.responseReader ≠ none := by
  obtain ⟨s, hs, hfree, hreqs⟩ := Guarded.exists_of_exec (Sys.step rotating) Sys.FindsUp Sys.new
    (steps (.caller 1) 26) (fun s => s.pendingMu = none ∧ s.pendingReqs = [1]) (by decide +kernel)
  exact ⟨s, hs, hfree, hreqs, pending_attended rotating s hs (by simp [hreqs])⟩

/-- Caller 1 has its answer.  Caller 2 rotates the connection away and redials, and has
cleared `closing` but not `readerStopped` when caller 3 finds the connection healthy, starts
no reader, writes and waits.  Caller 2 clears `readerStopped`, finds its context done and
returns. -/
def halfRedialed : List (Tid × Choice) :=
  oneAnswer ++ [(Tid.caller 1, Choice.plain)] ++ steps (.caller 2) 21 ++ steps (.caller 3) 13 ++
    steps (.caller 2) 2 ++ [(Tid.caller 2, Choice.giveUp)]

/-- In other runs a request may be queued with no reader, and nobody left to start one. -/
theorem pending_orphaned :
    ∃ s, Reaches (Sys.step rotating) (fun _ _ => True) Sys.new s ∧ s.pendingMu = none ∧
      s.pendingReqs = [3] ∧ s.responseReader = none ∧ s.callers 3 = .wait ∧
      s.callers 2 = .returned .error := by
  refine Guarded.exists_of_exec (Sys.step rotating) (fun _ _ => True) Sys.new halfRedialed
    (fun s => s.pendingMu = none ∧ s.pendingReqs = [3] ∧ s.responseReader = none ∧
      s.callers 3 = .wait ∧ s.callers 2 = .returned .error) ?_
  decide +kernel

end BurstHttp.Pipeline
