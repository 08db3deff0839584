/-
The rotation of a connection after `MaxRequestsPerConn` requests.

`doPipelined` closes the stream and dials another one when it finds that enough
requests were answered on it.  With a server that answers everything and never fails
a stream (`Sys.Answers`) this is the only reason to close one.

* `Sys.Steady` — what each caller's program counter says about the connection, and
  `Sys.Lined` — what each reader's says about the queue, in runs in which calls do not
  overlap a rotation (`Sys.Apart`);
* `step_apart` — such steps keep both;
* `rotation_loses_nothing` — so no call gets an error from the connection, and a
  rotation closes a stream only when no request on it is waiting;
* `rotation_loses_request` — calls that overlap a rotation may get one.
-/
import BurstHttp.Pipeline.Accounting

namespace BurstHttp.Pipeline

open Function (update)
open Guarded (Reaches)

namespace CallerPc

/-- The caller rotates the connection. -/
def rotates : CallerPc → Bool
  | .rotate _ | .ensure true _ => true
  | _ => false

/-- The rotating caller has set `closing`, and not cleared it yet. -/
def closes : CallerPc → Bool
  | .rotate .cas | .ensure _ .clearStopped | .ensure _ (.unlock _) => false
  | .rotate _ | .ensure true _ => true
  | _ => false

/-- The rotating caller has closed the stream, and `healthy` does not say so yet. -/
def shuts : CallerPc → Bool
  | .rotate .storeNil | .rotate .unhealthy => true
  | _ => false

/-- The rotating caller has yet to drop the queue and the reader. -/
def drops : CallerPc → Bool
  | .rotate (.stop _) => false
  | .rotate _ => true
  | _ => false

/-- The caller has not looked at the connection, or has seen that it is down. -/
def outside : CallerPc → Bool
  | .idle | .returned _ | .released | .ensure false .test | .ensure false .lock => true
  | _ => false

/-- The caller has queued its request and not got anything yet. -/
def waits : CallerPc → Bool
  | .signal | .wait => true
  | _ => false

variable {pc : CallerPc}

theorem rotates_of_closes (h : pc.closes = true) : pc.rotates = true := by
  unfold closes at h
  split at h <;> first | rfl | cases h

theorem rotates_of_shuts (h : pc.shuts = true) : pc.rotates = true := by
  unfold shuts at h
  split at h <;> first | rfl | cases h

theorem rotates_of_drops (h : pc.drops = true) : pc.rotates = true := by
  unfold drops at h
  split at h <;> first | rfl | cases h

theorem outside_of_quiet (h : pc.quiet = true) : pc.outside = true := by
  cases pc <;> first | rfl | cases h

theorem not_rotates_of_outside (h : pc.outside = true) : pc.rotates = false := by
  unfold outside at h
  split at h <;> first | rfl | cases h

theorem sent_of_waits (h : pc.waits = true) : pc.sent = true := by
  cases pc <;> first | rfl | cases h

end CallerPc

/-- The reader has seen a request at the head of the queue. -/
def ReaderPc.checks : ReaderPc → Bool
  | .check _ => true
  | _ => false

namespace Sys

/-! ### The condition -/

/-- The server answers every request, and does not close or fail a stream; nobody calls
`Stop`.  What happens on a stream that the client has closed is left open. -/
def Answers (s : Sys) (l : Tid × Choice) : Prop :=
  match l.1, l.2 with
  | .caller _, .dialError => False
  | .caller n, .writeError _ =>
    ∀ i ∈ (s.callers n).target, (s.streams i).closed = true
  | .reader k, .finish ret cut closes =>
    (s.streams (s.readers k).stream).closed = false → ret = .ok ∧ cut = false ∧ closes = false
  | .stopper _, _ => False
  | _, _ => True

/-- Among the callers below `N`, calls do not overlap a rotation: a call finds that the
connection is due only when the other calls have returned, and none begins until it has rotated
it.  The idle timeout does not pass, no context is done while its request waits, and a reader
goes on with a request only while it is registered. -/
def ApartBelow (N : ℕ) (cfg : Config) (s : Sys) (l : Tid × Choice) : Prop :=
  match l.1 with
  | .caller n =>
    (s.callers n = .idle → ∀ m < N, (s.callers m).rotates = false) ∧
    (s.callers n = .checkCount → cfg.maxRequestsPerConn ≤ s.reqsOnConn →
      ∀ m < N, m ≠ n → (s.callers m).quiet = true) ∧
    (s.callers n = .wait → l.2 ≠ .cancel) ∧ s.usable cfg l.2 = s.healthy
  | .reader k => (s.readers k).pc.checks = true → s.closing = false → s.responseReader = some k
  | _ => True

/-- The same among all callers. -/
def Apart (cfg : Config) (s : Sys) (l : Tid × Choice) : Prop := ∀ N, s.ApartBelow N cfg l

/-! ### The connection -/

/-- `conn` holds a stream that is not closed. -/
def Open (s : Sys) : Prop := ∃ i, s.conn = .stream i ∧ (s.streams i).closed = false

/-- What a place in `ensureConnection` says about the connection. -/
def EnsureFits (s : Sys) (n : ℕ) (rotated : Bool) : EnsurePc → Prop
  | .test | .lock => rotated = true → s.healthy = false
  | .retest => s.connectMu = some n ∧ (rotated = true → s.healthy = false)
  | .load | .close _ | .storeNil | .unhealthy | .dial => s.connectMu = some n ∧ s.healthy = false
  | .resetCount | .setHealthy => s.connectMu = some n ∧ s.healthy = false ∧ s.Open
  | .clearClosing | .clearStopped | .unlock true => s.connectMu = some n ∧ s.healthy = true
  | .unlock false => False

/-- What a caller's program counter says about the connection. -/
def Fits (s : Sys) (n : ℕ) : CallerPc → Prop
  | .idle | .returned _ | .released => True
  | .ensure rotated pc => s.EnsureFits n rotated pc
  | .rotate .drop | .rotate (.stop _) => s.healthy = false
  | .rotate _ | .checkClosing | .checkCount | .prepare | .loadConn | .append | .signal | .wait =>
    s.healthy = true
  | .lock i | .recheck i | .needReader i | .startStopped i | .startClosing i | .startLoad i
  | .count i | .write i => s.healthy = true ∧ s.conn = .stream i
  | .uncount | .unlockFailed | .failClose _ | .setRelease | .setCancelled => False

/-- The connection is as before, but for the callers. -/
structure SameConn (s s' : Sys) : Prop where
  closing : s'.closing = s.closing := by rfl
  healthy : s'.healthy = s.healthy := by rfl
  connectMu : s'.connectMu = s.connectMu := by rfl
  conn : s'.conn = s.conn := by rfl
  responseReader : s'.responseReader = s.responseReader := by rfl
  closed : ∀ i, (s'.streams i).closed = (s.streams i).closed := by exact fun _ => rfl
  stream : ∀ k, (s'.readers k).stream = (s.readers k).stream := by exact fun _ => rfl

/-- Callers know the connection they use; one that rotates it is alone. -/
structure Steady (s : Sys) : Prop where
  fits : ∀ n, s.Fits n (s.callers n)
  apart : ∀ n m, (s.callers n).rotates = true → m ≠ n → (s.callers m).quiet = true
  closing : s.closing = true → ∃ n, (s.callers n).closes = true
  up : s.healthy = true → (∃ n, (s.callers n).shuts = true) ∨ s.Open
  registered : ∀ k, s.responseReader = some k →
    (∃ n, (s.callers n).drops = true) ∨
      (s.healthy = true ∧ s.conn = .stream (s.readers k).stream)

namespace Steady

variable {s s' : Sys}

theorem new : Sys.new.Steady where
  fits _ := trivial
  apart := by simp [Sys.new, CallerPc.rotates]
  closing := by simp [Sys.new]
  up := by simp [Sys.new]
  registered := by simp [Sys.new]

/-- A caller that is under way and does not rotate tells that nobody does. -/
theorem not_rotates (h : s.Steady) {n : ℕ} (hquiet : (s.callers n).quiet = false)
    (hrot : (s.callers n).rotates = false) (m : ℕ) : (s.callers m).rotates = false := by
  by_contra hm
  rw [Bool.not_eq_false] at hm
  by_cases hnm : n = m
  · exact absurd (hrot.symm.trans (hnm ▸ hm)) (by simp)
  · exact absurd (hquiet.symm.trans (h.apart m n hm hnm)) (by simp)

/-- While nobody rotates, the connection is not closing, it is open if it is healthy, and a
registered reader reads from it. -/
theorem in_service (h : s.Steady) (hnone : ∀ m, (s.callers m).rotates = false) :
    s.closing = false ∧ (s.healthy = true → s.Open) ∧
      ∀ k, s.responseReader = some k →
        s.healthy = true ∧ s.conn = .stream (s.readers k).stream := by
  have hno {P : CallerPc → Bool} (hP : ∀ pc, P pc = true → pc.rotates = true) :
      ¬∃ n, P (s.callers n) = true := by
    rintro ⟨n, hn⟩
    exact absurd ((hnone n).symm.trans (hP _ hn)) (by simp)
  refine ⟨?_, fun hup => ?_, fun k hk => ?_⟩
  · by_contra hclosing
    exact hno (fun _ => CallerPc.rotates_of_closes) (h.closing (by simpa using hclosing))
  · exact (h.up hup).resolve_left (hno fun _ => CallerPc.rotates_of_shuts)
  · exact (h.registered k hk).resolve_left (hno fun _ => CallerPc.rotates_of_drops)

/-- What a caller that rotates the connection knows. -/
theorem rotating_alone (h : s.Steady) {n : ℕ} (hrot : (s.callers n).rotates = true) :
    (s.closing = true → (s.callers n).closes = true) ∧
      (s.healthy = true → (s.callers n).shuts = true ∨ s.Open) ∧
      ∀ k, s.responseReader = some k → (s.callers n).drops = true ∨
        (s.healthy = true ∧ s.conn = .stream (s.readers k).stream) := by
  -- whoever rotates is `n`
  have hself {P : CallerPc → Bool} (hP : ∀ pc, P pc = true → pc.rotates = true)
      (hex : ∃ m, P (s.callers m) = true) : P (s.callers n) = true := by
    obtain ⟨m, hm⟩ := hex
    by_cases hmn : m = n
    · exact hmn ▸ hm
    · have hquiet := CallerPc.not_rotates_of_outside
        (CallerPc.outside_of_quiet (h.apart n m hrot hmn))
      exact absurd (hquiet.symm.trans (hP _ hm)) (by simp)
  exact ⟨fun hc => hself (fun _ => CallerPc.rotates_of_closes) (h.closing hc),
    fun hh => (h.up hh).imp_left (hself fun _ => CallerPc.rotates_of_shuts),
    fun k hk => (h.registered k hk).imp_left (hself fun _ => CallerPc.rotates_of_drops)⟩

/-- A caller goes on and changes nothing for those that rotate. -/
theorem keep (h : s.Steady) {n : ℕ} {pc pc' : CallerPc} (hpc : s.callers n = pc)
    (hcallers : s'.callers = update s.callers n pc')
    (hpcs : pc'.rotates = pc.rotates ∧ pc'.shuts = pc.shuts ∧ pc'.drops = pc.drops)
    (hquiet : ∀ m, m ≠ n → (s.callers m).rotates = true → pc'.quiet = true)
    (hclosing : s'.closing = true → s.closing = true ∧ (pc.closes = true → pc'.closes = true))
    (hhealthy : s'.healthy = s.healthy) (hopen : s.Open → s'.Open)
    (hreg : ∀ k, s'.responseReader = some k → (∃ n, (s.callers n).drops = true) ∨
      (s'.healthy = true ∧ s'.conn = .stream (s'.readers k).stream))
    (hfits : s'.Fits n pc') (hothers : ∀ m, m ≠ n → s'.Fits m (s.callers m)) : s'.Steady := by
  subst hpc
  have hself : s'.callers n = pc' := by rw [hcallers, Function.update_self]
  have hother {m : ℕ} (hmn : m ≠ n) : s'.callers m = s.callers m := by
    rw [hcallers, Function.update_of_ne hmn]
  have hex {P : CallerPc → Bool} (hP : P (s.callers n) = true → P pc' = true)
      (h : ∃ m, P (s.callers m) = true) : ∃ m, P (s'.callers m) = true := by
    obtain ⟨m, hm⟩ := h
    by_cases hmn : m = n
    · exact ⟨n, hself ▸ hP (hmn ▸ hm)⟩
    · exact ⟨m, hother hmn ▸ hm⟩
  refine ⟨fun m => ?_, fun m q hm hq => ?_,
    fun hc => hex (hclosing hc).2 (h.closing (hclosing hc).1),
    fun hh => (h.up (hhealthy ▸ hh)).imp (hex (hpcs.2.1 ▸ ·)) hopen,
    fun k hk => (hreg k hk).imp_left (hex (hpcs.2.2 ▸ ·))⟩
  · rcases eq_or_ne m n with rfl | hmn
    · exact hself ▸ hfits
    · exact hother hmn ▸ hothers m hmn
  · rcases eq_or_ne m n with rfl | hmn
    · rw [hother hq]
      exact h.apart m q (hpcs.1 ▸ hself ▸ hm) hq
    · rw [hother hmn] at hm
      rcases eq_or_ne q n with rfl | hqn
      · exact hself ▸ hquiet m hmn hm
      · exact hother hqn ▸ h.apart m q hm hq

/-- What callers say about the connection depends on nothing else. -/
theorem fits_congr (hsame : s.SameConn s') {n : ℕ} {pc : CallerPc} (hfits : s.Fits n pc) :
    s'.Fits n pc := by
  have hopen : s'.Open ↔ s.Open := by simp only [Open, hsame.conn, hsame.closed]
  unfold Fits EnsureFits at hfits ⊢
  simpa only [hsame.healthy, hsame.connectMu, hsame.conn, hopen] using hfits

/-- A caller that does not hold `connectMu` does not rely on it. -/
theorem fits_connectMu {n : ℕ} {pc : CallerPc} (hmu : s.connectMu ≠ some n) (hfits : s.Fits n pc)
    (holder : Option ℕ) : { s with connectMu := holder }.Fits n pc := by
  unfold Fits EnsureFits at hfits ⊢
  split at hfits
  case h_4 => split at hfits <;> first | exact hfits | exact absurd hfits.1 hmu
  all_goals exact hfits

/-- A caller that is under way goes on, and nothing else changes. -/
theorem go (h : s.Steady) {n : ℕ} {pc pc' : CallerPc} (hpc : s.callers n = pc)
    (hcallers : s'.callers = update s.callers n pc') (hsame : s.SameConn s')
    (hpcs : pc'.rotates = pc.rotates ∧ pc'.shuts = pc.shuts ∧ pc'.drops = pc.drops ∧
      (pc.closes = true → pc'.closes = true))
    (hquiet : pc.quiet = true → pc'.quiet = true) (hfits : s.Fits n pc → s.Fits n pc') :
    s'.Steady := by
  refine h.keep hpc hcallers ⟨hpcs.1, hpcs.2.1, hpcs.2.2.1⟩ (fun m hmn hm => ?_)
    (fun hc => ⟨hsame.closing ▸ hc, hpcs.2.2.2⟩) hsame.healthy
    (fun ⟨i, hi, hio⟩ => ⟨i, hsame.conn ▸ hi, (hsame.closed i).trans hio⟩) ?_ ?_ fun m _ => ?_
  · exact hquiet (hpc ▸ h.apart m n hm hmn.symm)
  · simp only [hsame.responseReader, hsame.healthy, hsame.conn, hsame.stream]
    exact h.registered
  · exact fits_congr hsame (hfits (hpc ▸ h.fits n))
  · exact fits_congr hsame (h.fits m)

/-- Callers that are outside say nothing about the connection. -/
theorem fits_outside {n : ℕ} {pc : CallerPc} (h : pc.outside = true) : s.Fits n pc := by
  unfold CallerPc.outside at h
  split at h <;> first | trivial | exact fun hr => absurd hr (by simp)

/-- A caller goes on, while all others are outside. -/
theorem solo {n : ℕ} {pc : CallerPc} (hout : ∀ m, m ≠ n → (s.callers m).outside = true)
    (hcallers : s'.callers = update s.callers n pc) (hfits : s'.Fits n pc)
    (hrot : pc.rotates = true → ∀ m, m ≠ n → (s.callers m).quiet = true)
    (hclosing : s'.closing = true → pc.closes = true)
    (hup : s'.healthy = true → pc.shuts = true ∨ s'.Open)
    (hreg : ∀ k, s'.responseReader = some k → pc.drops = true ∨
      (s'.healthy = true ∧ s'.conn = .stream (s'.readers k).stream)) : s'.Steady := by
  have hself : s'.callers n = pc := by rw [hcallers, Function.update_self]
  have hother {m : ℕ} (hmn : m ≠ n) : s'.callers m = s.callers m := by
    rw [hcallers, Function.update_of_ne hmn]
  refine ⟨fun m => ?_, fun m q hm hq => ?_, fun hc => ⟨n, hself ▸ hclosing hc⟩,
    fun hh => (hup hh).imp (fun hs => ⟨n, hself ▸ hs⟩) id,
    fun k hk => (hreg k hk).imp (fun hd => ⟨n, hself ▸ hd⟩) id⟩
  · rcases eq_or_ne m n with rfl | hmn
    · exact hself ▸ hfits
    · exact hother hmn ▸ fits_outside (hout m hmn)
  · rcases eq_or_ne m n with rfl | hmn
    · rw [hother hq]
      exact hrot (hself ▸ hm) q hq
    · rw [hother hmn, CallerPc.not_rotates_of_outside (hout m hmn)] at hm
      cases hm

/-- Nothing of this changes. -/
theorem frame (h : s.Steady) (hcallers : s'.callers = s.callers) (hsame : s.SameConn s') :
    s'.Steady := by
  refine ⟨fun n => ?_, hcallers ▸ h.apart, hcallers ▸ hsame.closing ▸ h.closing, ?_, ?_⟩
  · rw [hcallers]
    exact fits_congr hsame (h.fits n)
  · rw [hcallers, hsame.healthy]
    simp only [Open, hsame.conn, hsame.closed]
    exact h.up
  · simp only [hcallers, hsame.healthy, hsame.conn, hsame.responseReader, hsame.stream]
    exact h.registered

/-- A caller that holds `connectMu` and dials: the others are outside, no reader is registered,
and if `closing` is set, it is the caller that rotates. -/
theorem dialing (h : s.Steady) {n : ℕ} {rotated : Bool} {pc : EnsurePc}
    (hpc : s.callers n = .ensure rotated pc) (hmu : s.connectMu = some n)
    (hdown : s.healthy = false) :
    (∀ m, m ≠ n → (s.callers m).outside = true) ∧ s.responseReader = none ∧
      (s.closing = true → rotated = true) := by
  have hup : ¬s.healthy = true := by simp [hdown]
  cases rotated with
  | true =>
    have hrot : (s.callers n).rotates = true := by rw [hpc]; rfl
    refine ⟨fun m hmn => CallerPc.outside_of_quiet (h.apart n m hrot hmn), ?_, fun _ => rfl⟩
    refine Option.eq_none_iff_forall_ne_some.mpr fun k hk => ?_
    rcases (h.rotating_alone hrot).2.2 k hk with hd | ⟨hh, -⟩
    · rw [hpc] at hd
      cases hd
    · exact hup hh
  | false =>
    have hnone := h.not_rotates (n := n) (by rw [hpc]; rfl) (by rw [hpc]; rfl)
    obtain ⟨hnc, -, hreg⟩ := h.in_service hnone
    refine ⟨fun m hmn => ?_, ?_, fun hc => absurd (hnc.symm.trans hc) (by simp)⟩
    · -- the others neither hold the lock nor have found the connection healthy
      have hmu' : s.connectMu ≠ some m := by
        rw [hmu]
        exact fun heq => hmn (Option.some_inj.mp heq).symm
      have hfits := h.fits m
      have hrot := hnone m
      generalize s.callers m = pc at hfits hrot
      unfold Fits EnsureFits at hfits
      split at hfits
      case h_4 rotated' pc' =>
        cases rotated' with
        | true => cases hrot
        | false =>
          split at hfits <;> first | rfl | exact absurd hfits.1 hmu' | exact absurd hfits id
      all_goals first | rfl | exact absurd hfits hup | exact absurd hfits.1 hup |
        exact absurd hfits id | cases hrot
    · exact Option.eq_none_iff_forall_ne_some.mpr fun k hk => hup (hreg k hk).1

end Steady

/-! ### The queue -/

/-- The request is sent, and not queued any more. -/
def Behind (s : Sys) (p : ℕ) : Prop := p ∉ s.pendingReqs ∧ (s.callers p).sent = true

/-- What a reader's program counter says about the queue. -/
def Reads (s : Sys) (k : ℕ) : ReaderPc → Prop
  | .start | .select | .peek | .exited => True
  | .check p => s.responseReader = some k → p ∈ s.pendingReqs
  | .skipCount p | .skipRemove p =>
    s.responseReader = some k ∧ p ∈ s.pendingReqs ∧ (s.pend p).hasResp = false
  | .skipErr p => s.Behind p ∧ (s.pend p).hasResp = false
  | .reset p | .parse p => s.responseReader = some k ∧ p ∈ s.pendingReqs
  | .loadCancelled p o | .uncount p o _ | .remove p o _ =>
    s.responseReader = some k ∧ p ∈ s.pendingReqs ∧ o.ret ≠ .early ∧ o.closes = false
  | .record p o _ | .deliver p o _ => s.Behind p ∧ o.ret ≠ .early ∧ o.closes = false
  | .close _ _ | .sendErr _ => False

/-- Queued requests wait and have got nothing; the registered reader alone takes them; only
requests without a response object get an error. -/
structure Lined (s : Sys) : Prop where
  nodup : s.pendingReqs.Nodup
  queued : ∀ p ∈ s.pendingReqs,
    (s.callers p).waits = true ∧ (s.pend p).response = false ∧ (s.pend p).err = false
  reads : ∀ k, s.Reads k (s.readers k).pc
  fresh : ∀ n, (s.callers n).sent = false → (s.pend n).response = false ∧ (s.pend n).err = false
  excused : ∀ p, (s.pend p).err = true → (s.pend p).hasResp = false

/-- The queue and the requests are as before. -/
structure SameQueue (s s' : Sys) : Prop where
  pendingReqs : s'.pendingReqs = s.pendingReqs := by rfl
  responseReader : s'.responseReader = s.responseReader := by rfl
  pc : ∀ k, (s'.readers k).pc = (s.readers k).pc := by exact fun _ => rfl
  pend : s'.pend = s.pend := by rfl

namespace Lined

variable {s s' : Sys}

theorem new : Sys.new.Lined where
  nodup := List.nodup_nil
  queued := by simp [Sys.new]
  reads _ := trivial
  fresh _ _ := ⟨rfl, rfl⟩
  excused := by simp [Sys.new]

/-- What a reader says stays true when requests are added to the queue. -/
theorem reads_mono {k : ℕ} {pc : ReaderPc} (h : s.Reads k pc)
    (hreg : s'.responseReader = s.responseReader)
    (hmem : ∀ p ∈ s.pendingReqs, p ∈ s'.pendingReqs) (hbehind : ∀ p, s.Behind p → s'.Behind p)
    (hresp : ∀ p, p ∈ s.pendingReqs ∨ s.Behind p → (s'.pend p).hasResp = (s.pend p).hasResp) :
    s'.Reads k pc := by
  cases pc with
  | start | select | peek | exited => trivial
  | check p => exact fun hk => hmem p (h (hreg ▸ hk))
  | skipCount p | skipRemove p =>
    exact ⟨hreg ▸ h.1, hmem p h.2.1, (hresp p (.inl h.2.1)).trans h.2.2⟩
  | skipErr p => exact ⟨hbehind p h.1, (hresp p (.inr h.1)).trans h.2⟩
  | reset p | parse p => exact ⟨hreg ▸ h.1, hmem p h.2⟩
  | loadCancelled p o | uncount p o c | remove p o c => exact ⟨hreg ▸ h.1, hmem p h.2.1, h.2.2⟩
  | record p o c | deliver p o c => exact ⟨hbehind p h.1, h.2⟩
  | close pc p | sendErr p => exact h

/-- What a reader says that is not registered is about requests it has removed. -/
theorem reads_unregistered {k : ℕ} {pc : ReaderPc} (h : s.Reads k pc)
    (hidle : s.responseReader = some k → s.pendingReqs = [])
    (hreg : s'.responseReader ≠ some k) (hbehind : ∀ p, s.Behind p → s'.Behind p)
    (hresp : ∀ p, s.Behind p → (s'.pend p).hasResp = (s.pend p).hasResp) : s'.Reads k pc := by
  have hno {p : ℕ} (hk : s.responseReader = some k) (hp : p ∈ s.pendingReqs) : False := by
    rw [hidle hk] at hp
    cases hp
  cases pc with
  | start | select | peek | exited => trivial
  | check p => exact fun hk => absurd hk hreg
  | skipCount p | skipRemove p => exact (hno h.1 h.2.1).elim
  | skipErr p => exact ⟨hbehind p h.1, (hresp p h.1).trans h.2⟩
  | reset p | parse p => exact (hno h.1 h.2).elim
  | loadCancelled p o | uncount p o c | remove p o c => exact (hno h.1 h.2.1).elim
  | record p o c | deliver p o c => exact ⟨hbehind p h.1, h.2⟩
  | close pc p | sendErr p => exact h

/-- A caller goes on; it leaves the queue only if its request is not in it. -/
theorem move (h : s.Lined) {n : ℕ} {pc pc' : CallerPc} (hpc : s.callers n = pc)
    (hcallers : s'.callers = update s.callers n pc') (hsame : s.SameQueue s')
    (hwaits : pc.waits = true → n ∈ s.pendingReqs → pc'.waits = true)
    (hsent : pc.sent = true → pc'.sent = true) : s'.Lined := by
  subst hpc
  obtain ⟨hreqs, hreg, hreaders, hpend⟩ := hsame
  have hall {P : CallerPc → Bool} (m : ℕ) (hP : m = n → P (s.callers n) = true → P pc' = true)
      (hm : P (s.callers m) = true) : P (s'.callers m) = true := by
    rw [hcallers]
    rcases eq_or_ne m n with rfl | hmn
    · rw [Function.update_self]
      exact hP rfl hm
    · rwa [Function.update_of_ne hmn]
  refine ⟨hreqs ▸ h.nodup, fun p hp => ?_, fun k => ?_, fun m hm => ?_, hpend ▸ h.excused⟩
  · rw [hpend]
    have hq : p ∈ s.pendingReqs := hreqs ▸ hp
    exact (h.queued p hq).imp_left (hall p fun hpn hw => hwaits hw (hpn ▸ hq))
  · rw [hreaders]
    refine reads_mono (h.reads k) hreg (fun p hp => hreqs ▸ hp) (fun p hp => ?_)
      (fun p _ => by rw [hpend])
    exact ⟨hreqs ▸ hp.1, hall p (fun _ => hsent) hp.2⟩
  · rw [hpend]
    refine h.fresh m ?_
    by_contra hs
    exact absurd (hm.symm.trans (hall m (fun _ => hsent) (by simpa using hs))) (by simp)

/-- Nothing of this changes. -/
theorem frame (h : s.Lined) (hcallers : s'.callers = s.callers) (hsame : s.SameQueue s') :
    s'.Lined := by
  obtain ⟨hreqs, hreg, hreaders, hpend⟩ := hsame
  refine ⟨hreqs ▸ h.nodup, ?_, fun k => ?_, ?_, hpend ▸ h.excused⟩
  · rw [hreqs, hcallers, hpend]
    exact h.queued
  · rw [hreaders]
    refine reads_mono (h.reads k) hreg (fun p hp => hreqs ▸ hp) (fun p hp => ?_)
      (fun p _ => by rw [hpend])
    exact ⟨hreqs ▸ hp.1, hcallers ▸ hp.2⟩
  · rw [hcallers, hpend]
    exact h.fresh

/-- A request changes that is not in the queue. -/
theorem setPend (h : s.Lined) {p : ℕ} {x : PendingRequest} (hp : p ∉ s.pendingReqs)
    (hresp : s.Behind p → x.hasResp = (s.pend p).hasResp)
    (hfresh : (s.callers p).sent = false → x.response = false ∧ x.err = false)
    (hexcused : x.err = true → x.hasResp = false) : (s.setPend p x).Lined := by
  have hself : (s.setPend p x).pend p = x := by simp [Sys.setPend]
  have hother {q : ℕ} (hqp : q ≠ p) : (s.setPend p x).pend q = s.pend q := by
    simp [Sys.setPend, hqp]
  refine ⟨h.nodup, fun q hq => ?_, fun k => ?_, fun n hn => ?_, fun q hq => ?_⟩
  · rw [hother (fun hqp => hp (hqp ▸ hq))]
    exact h.queued q hq
  · refine reads_mono (h.reads k) rfl (fun _ => id) (fun _ => id) (fun q hq => ?_)
    by_cases hqp : q = p
    · subst hqp
      rw [hself]
      exact hresp (hq.resolve_left hp)
    · rw [hother hqp]
  · by_cases hnp : n = p
    · subst hnp
      rw [hself]
      exact hfresh hn
    · rw [hother hnp]
      exact h.fresh n hn
  · by_cases hqp : q = p
    · subst hqp
      rw [hself] at hq ⊢
      exact hexcused hq
    · rw [hother hqp] at hq ⊢
      exact h.excused q hq

/-- A reader goes on. -/
theorem setReader {k : ℕ} {r : ResponseReader} (h : s.Lined) (hr : s.Reads k r.pc) :
    (s.setReader k r).Lined := by
  refine ⟨h.nodup, h.queued, fun m => ?_, h.fresh, h.excused⟩
  rcases eq_or_ne m k with rfl | hmk
  · simp only [Sys.setReader, Function.update_self]
    exact reads_mono hr rfl (fun _ => id) (fun _ => id) (fun _ _ => rfl)
  · simp only [Sys.setReader, Function.update_of_ne hmk]
    exact reads_mono (h.reads m) rfl (fun _ => id) (fun _ => id) (fun _ _ => rfl)

/-- The written request of a caller is queued. -/
theorem append (h : s.Lined) {n : ℕ} (hpc : s.callers n = .append) :
    ({ s with pendingReqs := s.pendingReqs ++ [n], pendingMu := none }.setCaller n
      .signal).Lined := by
  have hsent : (s.callers n).sent = false := by rw [hpc]; rfl
  have hline : n ∉ s.pendingReqs := fun hq => by
    have := (h.queued n hq).1
    rw [hpc] at this
    cases this
  have hother {m : ℕ} (hmn : m ≠ n) : (s.setCaller n .signal).callers m = s.callers m := by
    simp only [Sys.setCaller, Function.update_of_ne hmn]
  have hne {m : ℕ} (hm : (s.callers m).sent = true) : m ≠ n := by
    rintro rfl
    exact absurd (hsent.symm.trans hm) (by simp)
  refine ⟨List.nodup_append_comm.mp (List.nodup_cons.mpr ⟨hline, h.nodup⟩ :), fun p hp => ?_,
    fun k => ?_, fun m hm => ?_, h.excused⟩
  · rcases List.mem_append.mp hp with hq | hn
    · obtain ⟨hwaits, hrest⟩ := h.queued p hq
      refine ⟨?_, hrest⟩
      exact (congrArg CallerPc.waits (hother (hne (CallerPc.sent_of_waits hwaits)))).trans hwaits
    · obtain rfl := List.mem_singleton.mp hn
      exact ⟨by simp [Sys.setCaller, CallerPc.waits], h.fresh p hsent⟩
  · refine reads_mono (h.reads k) rfl (fun p hp => List.mem_append_left _ hp)
      (fun p hp => ⟨?_, ?_⟩) (fun _ _ => rfl)
    · have hpn := hne hp.2
      simp only [Sys.setCaller, List.mem_append, List.mem_singleton, not_or]
      exact ⟨hp.1, hpn⟩
    · exact (congrArg CallerPc.sent (hother (hne hp.2))).trans hp.2
  · refine h.fresh m ?_
    rcases eq_or_ne m n with rfl | hmn
    · exact hsent
    · exact (congrArg CallerPc.sent (hother hmn)).symm.trans hm

/-- The queue is dropped while it is empty. -/
theorem drop (h : s.Lined) (hnil : s.pendingReqs = []) : s.dropPending.Lined := by
  have hpend : s.dropPending.pend = s.pend := by simp [dropPending, hnil]
  refine ⟨List.nodup_nil, fun p hp => absurd hp List.not_mem_nil, fun k => ?_, hpend ▸ h.fresh,
    hpend ▸ h.excused⟩
  exact reads_unregistered (h.reads k) (fun _ => hnil) (fun hk => by cases hk)
    (fun p hp => ⟨List.not_mem_nil, hp.2⟩) (fun p _ => by rw [hpend])

/-- A caller starts a reader, while none is registered. -/
theorem register (h : s.Lined) (hnone : s.responseReader = none) {j : ℕ} :
    { s with
      responseReader := some s.numReaders
      numReaders := s.numReaders + 1
      readers := update s.readers s.numReaders { stream := j, pc := .start } }.Lined := by
  refine ⟨h.nodup, h.queued, fun k => ?_, h.fresh, h.excused⟩
  rcases eq_or_ne k s.numReaders with rfl | hk
  · simp only [Function.update_self]
    trivial
  · simp only [Function.update_of_ne hk]
    refine reads_unregistered (h.reads k) (fun hreg => ?_) (fun hreg => ?_) (fun _ => id)
      (fun _ _ => rfl)
    · exact absurd (hnone.symm.trans hreg) (by simp)
    · exact hk (Option.some_inj.mp hreg).symm

/-- The registered reader takes a request off the queue. -/
theorem remove (h : s.Lined) {k p : ℕ} (hreg : s.responseReader = some k) (hp : p ∈ s.pendingReqs)
    {r : ResponseReader}
    (hr : { s with pendingReqs := s.pendingReqs.erase p }.Behind p →
      { s with pendingReqs := s.pendingReqs.erase p }.Reads k r.pc) :
    ({ s with pendingReqs := s.pendingReqs.erase p }.setReader k r).Lined := by
  refine ⟨h.nodup.erase p, fun q hq => h.queued q (List.mem_of_mem_erase hq), fun m => ?_, h.fresh,
    h.excused⟩
  rcases eq_or_ne m k with rfl | hmk
  · have hbehind : { s with pendingReqs := s.pendingReqs.erase p }.Behind p :=
      ⟨h.nodup.not_mem_erase, CallerPc.sent_of_waits (h.queued p hp).1⟩
    simp only [Sys.setReader, Function.update_self]
    exact reads_mono (hr hbehind) rfl (fun _ => id) (fun _ => id) (fun _ _ => rfl)
  · simp only [Sys.setReader, Function.update_of_ne hmk]
    have hother : s.responseReader ≠ some m := by
      rw [hreg]
      exact fun heq => hmk (Option.some_inj.mp heq).symm
    exact reads_unregistered (h.reads m) (fun hm => absurd hm hother) hother
      (fun q hq => ⟨fun hmem => hq.1 (List.mem_of_mem_erase hmem), hq.2⟩) (fun _ _ => rfl)

end Lined

end Sys

section Steps

variable {cfg : Config} {s s' : Sys}

/-- A step of `ensureConnection`. -/
theorem ensureConnection_steady (h : s.Steady) {n : ℕ} {ch : Choice} {rotated : Bool}
    {pc : EnsurePc} {r : EnsurePc ⊕ Bool} (hpc : s.callers n = .ensure rotated pc)
    (hdial : ch ≠ .dialError) (husable : s.usable cfg ch = s.healthy)
    (hs : s.ensureConnection cfg n ch pc = some (s', r)) :
    (s'.setCaller n (Sys.afterEnsure rotated r)).Steady := by
  have hfits : s.EnsureFits n rotated pc := by
    have := h.fits n
    rwa [hpc] at this
  have hquiet (m : ℕ) (hmn : m ≠ n) (hm : (s.callers m).rotates = true) : False := by
    have := h.apart m n hm hmn.symm
    rw [hpc] at this
    cases this
  have hapart (q : EnsurePc) (hrot : (Sys.afterEnsure rotated (.inl q)).rotates = true) (m : ℕ)
      (hmn : m ≠ n) : (s.callers m).quiet = true := by
    refine h.apart n m ?_ hmn
    rw [hpc]
    cases rotated <;> exact hrot
  match pc with
  | .test =>
    simp only [Sys.ensureConnection, husable, Option.some.injEq, Prod.mk.injEq] at hs
    obtain ⟨rfl, rfl⟩ := hs
    cases hh : s.healthy with
    | true =>
      have hrot : rotated = false := by
        by_contra hrot
        exact absurd (hh.symm.trans (hfits (by simpa using hrot))) (by simp)
      subst hrot
      exact h.go hpc rfl {} (by decide) (by decide) fun _ => hh
    | false =>
      exact h.go hpc rfl {} (by cases rotated <;> decide) (fun hq => by cases hq) fun _ _ => hh
  | .lock =>
    simp only [Sys.ensureConnection] at hs
    split at hs <;> cases hs
    rename_i hfree
    refine h.keep hpc rfl (by cases rotated <;> decide) (fun m hmn hm => (hquiet m hmn hm).elim)
      (fun hc => ⟨hc, by cases rotated <;> decide⟩) rfl id h.registered ⟨rfl, hfits⟩ fun m hmn => ?_
    exact Sys.Steady.fits_connectMu (by simp [hfree]) (h.fits m) _
  | .retest =>
    simp only [Sys.ensureConnection, husable, Option.some.injEq, Prod.mk.injEq] at hs
    obtain ⟨rfl, rfl⟩ := hs
    cases hh : s.healthy with
    | true =>
      have hrot : rotated = false := by
        by_contra hrot
        exact absurd (hh.symm.trans (hfits.2 (by simpa using hrot))) (by simp)
      subst hrot
      exact h.go hpc rfl {} (by decide) (by decide) fun _ => ⟨hfits.1, hh⟩
    | false =>
      exact h.go hpc rfl {}
        (by cases rotated <;> decide) (fun hq => by cases hq) fun _ => ⟨hfits.1, hh⟩
  | .load =>
    simp only [Sys.ensureConnection] at hs
    split at hs <;> cases hs <;>
    exact h.go hpc rfl {}
        (by cases rotated <;> exact ⟨rfl, rfl, rfl, id⟩) (by simp [CallerPc.quiet]) id
  | .close _ | .storeNil | .unhealthy =>
    cases hs
    obtain ⟨hout, hreg, hclosing⟩ := h.dialing hpc hfits.1 hfits.2
    refine Sys.Steady.solo hout rfl ⟨hfits.1, ?_⟩ (hapart _) (fun hc => ?_)
      (fun hh => ?_) (fun k hk => ?_)
    · first | exact hfits.2 | rfl
    · obtain rfl := hclosing hc
      rfl
    · first | cases hh | exact absurd (hfits.2.symm.trans hh) (by simp)
    · exact absurd (hreg.symm.trans hk) (by simp)
  | .dial =>
    obtain ⟨hout, hreg, hclosing⟩ := h.dialing hpc hfits.1 hfits.2
    rw [Sys.ensureConnection, if_neg hdial] at hs
    cases hs
    refine Sys.Steady.solo hout rfl ⟨hfits.1, hfits.2, s.numStreams, rfl, ?_⟩ (hapart _)
      (fun hc => ?_) (fun hh => ?_) (fun k hk => ?_)
    · simp [Sys.setCaller]
    · obtain rfl := hclosing hc
      rfl
    · exact absurd (hfits.2.symm.trans hh) (by simp)
    · exact absurd (hreg.symm.trans hk) (by simp)
  | .resetCount =>
    cases hs
    exact h.go hpc rfl {} (by cases rotated <;> decide) (fun hq => by cases hq) id
  | .setHealthy =>
    cases hs
    obtain ⟨hout, hreg, hclosing⟩ := h.dialing hpc hfits.1 hfits.2.1
    refine Sys.Steady.solo hout rfl ⟨hfits.1, rfl⟩ (hapart _)
      (fun hc => ?_) (fun _ => .inr hfits.2.2) (fun k hk => ?_)
    · obtain rfl := hclosing hc
      rfl
    · exact absurd (hreg.symm.trans hk) (by simp)
  | .clearClosing =>
    cases hs
    exact h.keep hpc rfl (by cases rotated <;> decide) (fun m hmn hm => (hquiet m hmn hm).elim)
      (fun hc => by cases hc) rfl id h.registered hfits fun m _ => h.fits m
  | .clearStopped =>
    cases hs
    exact h.go hpc rfl {} (by cases rotated <;> decide) (fun hq => by cases hq) id
  | .unlock false => exact absurd hfits id
  | .unlock true =>
    cases hs
    cases rotated with
    | false =>
      refine h.keep hpc rfl ⟨rfl, rfl, rfl⟩ (fun m hmn hm => (hquiet m hmn hm).elim)
        (fun hc => ⟨hc, by decide⟩) rfl id h.registered hfits.2 fun m hmn => ?_
      refine Sys.Steady.fits_connectMu ?_ (h.fits m) _
      rw [hfits.1]
      exact fun heq => hmn (Option.some_inj.mp heq).symm
    | true =>
      -- the rotation ends
      have hrot : (s.callers n).rotates = true := by rw [hpc]; rfl
      obtain ⟨hclosing, hup, hreg⟩ := h.rotating_alone hrot
      rw [hpc] at hclosing hup hreg
      exact Sys.Steady.solo (fun m hmn => CallerPc.outside_of_quiet (h.apart n m hrot hmn)) rfl
        hfits.2 (fun hr => by cases hr) hclosing hup hreg

/-- A step of the `closeConn` of a rotation. -/
theorem closeConn_steady (h : s.Steady) {n : ℕ} {pc : ClosePc} {r : Option ClosePc}
    (hpc : s.callers n = .rotate pc) (hs : s.closeConn pc = some (s', r)) :
    (s'.setCaller n (r.elim (.ensure true .test) .rotate)).Steady := by
  have hrot : (s.callers n).rotates = true := by rw [hpc]; rfl
  have hquiet (m : ℕ) (hmn : m ≠ n) := h.apart n m hrot hmn
  have hout (m : ℕ) (hmn : m ≠ n) := CallerPc.outside_of_quiet (hquiet m hmn)
  obtain ⟨hclosing, hup, hreg⟩ := h.rotating_alone hrot
  have hfits := h.fits n
  rw [hpc] at hclosing hup hreg hfits
  match pc with
  | .cas =>
    have hopen : s.closing = false := by
      by_contra hc
      cases hclosing (by simpa using hc)
    simp only [Sys.closeConn, hopen] at hs
    cases hs
    exact Sys.Steady.solo hout rfl hfits (fun _ => hquiet) (fun _ => rfl)
      (fun hh => .inr ((hup hh).resolve_left (by decide))) (fun _ _ => .inl rfl)
  | .load =>
    obtain ⟨i, hi, hio⟩ := (hup hfits).resolve_left (by decide)
    simp only [Sys.closeConn, hi] at hs
    cases hs
    exact Sys.Steady.solo hout rfl hfits (fun _ => hquiet) (fun _ => rfl)
      (fun _ => .inr ⟨i, hi, hio⟩) (fun _ _ => .inl rfl)
  | .close _ | .storeNil =>
    cases hs
    exact Sys.Steady.solo hout rfl hfits (fun _ => hquiet) (fun _ => rfl) (fun _ => .inl rfl)
      (fun _ _ => .inl rfl)
  | .unhealthy =>
    cases hs
    exact Sys.Steady.solo hout rfl rfl (fun _ => hquiet) (fun _ => rfl) (fun hh => by cases hh)
      (fun _ _ => .inl rfl)
  | .drop =>
    simp only [Sys.closeConn] at hs
    split at hs <;> cases hs
    exact Sys.Steady.solo hout rfl hfits (fun _ => hquiet) (fun _ => rfl)
      (fun hh => absurd (hfits.symm.trans hh) (by simp)) (fun k hk => by cases hk)
  | .stop rr =>
    have hnone (k : ℕ) : s.responseReader ≠ some k := fun hk => by
      rcases hreg k hk with hd | ⟨hh, -⟩
      · cases hd
      · exact absurd (hfits.symm.trans hh) (by simp)
    cases rr <;>
    · cases hs
      exact Sys.Steady.solo hout rfl (fun _ => hfits) (fun _ => hquiet) (fun _ => rfl)
        (fun hh => absurd (hfits.symm.trans hh) (by simp)) (fun k hk => absurd hk (hnone k))

/-- A step of a caller. -/
theorem doPipelined_steady (h : s.Steady) {n : ℕ} {ch : Choice}
    (hans : s.Answers (.caller n, ch)) (hapart : s.Apart cfg (.caller n, ch))
    (hs : s.doPipelined cfg n ch = some s') : s'.Steady := by
  have hstep := Sys.doPipelined_step hs
  have hfits := h.fits n
  have hservice (hquiet : (s.callers n).quiet = false) (hrot : (s.callers n).rotates = false) :=
    h.in_service (h.not_rotates hquiet hrot)
  generalize hpc : s.callers n = pc at hfits hservice hstep
  cases hstep with
  | idle =>
    have hnone (m : ℕ) : (s.callers m).rotates = false := by
      exact (hapart (m + 1)).1 hpc m (Nat.lt_succ_self m)
    refine h.keep hpc rfl ⟨rfl, rfl, rfl⟩ (fun m _ hm => ?_) (fun hc => ⟨hc, id⟩) rfl id
      h.registered (fun hr => by cases hr) fun m _ => h.fits m
    exact absurd ((hnone m).symm.trans hm) (by simp)
  | ensure hr =>
    refine ensureConnection_steady h hpc ?_ (hapart 0).2.2.2 hr
    rintro rfl
    exact hans
  | checkClosing | prepare =>
    refine h.go hpc rfl {} ?_ (fun hq => by cases hq) fun _ => ?_
    · split <;> exact ⟨rfl, rfl, rfl, id⟩
    · split
      · trivial
      · exact hfits
  | overLimit _ hdue =>
    -- the connection is due, and the other calls have returned
    obtain ⟨hnc, hup, hreg⟩ := hservice rfl rfl
    have hquiet (m : ℕ) (hmn : m ≠ n) : (s.callers m).quiet = true := by
      exact (hapart (m + 1)).2.1 hpc hdue m (Nat.lt_succ_self m) hmn
    exact Sys.Steady.solo (fun m hmn => CallerPc.outside_of_quiet (hquiet m hmn)) rfl hfits
      (fun _ => hquiet) (fun hc => absurd (hnc.symm.trans hc) (by simp)) (fun hh => .inr (hup hh))
      (fun _ _ => .inl rfl)
  | underLimit =>
    exact h.go hpc rfl {} (by decide) (by decide) fun _ => hfits
  | rotate hr => exact closeConn_steady h hpc hr
  | loadStream hconn =>
    exact h.go hpc rfl {} ⟨rfl, rfl, rfl, id⟩ (fun hq => by cases hq) fun _ => ⟨hfits, hconn⟩
  | loadNil | recheckClosing | takeErr | receive =>
    exact h.go hpc rfl {} ⟨rfl, rfl, rfl, id⟩ (fun hq => by cases hq) fun _ => trivial
  | lock | recheck | count | append | signal =>
    exact h.go hpc rfl {} ⟨rfl, rfl, rfl, id⟩ (fun hq => by cases hq) fun hf => hf
  | needReader | startStopped | startClosing =>
    refine h.go hpc rfl {} ?_ (fun hq => by cases hq) fun hf => ?_
    · split <;> exact ⟨rfl, rfl, rfl, id⟩
    · split <;> exact hf
  | startReader hconn =>
    refine h.keep hpc rfl ⟨rfl, rfl, rfl⟩ (fun m hmn hm => ?_) (fun hc => ⟨hc, id⟩) rfl id
      (fun k hk => .inr ⟨hfits.1, ?_⟩) hfits fun m _ => h.fits m
    · have := h.apart m n hm hmn.symm
      rw [hpc] at this
      cases this
    · obtain rfl := Option.some_inj.mp hk
      simpa [Sys.setCaller] using hconn
  | startNone hnone => exact absurd hfits.2 (hnone _)
  | @writeTorn i hch | @writeFailed i hch =>
    -- the server does not fail the write on an open stream
    subst hch
    obtain ⟨j, hj, hopen⟩ := (hservice rfl rfl).2.1 hfits.1
    obtain rfl : i = j := ConnPtr.stream.inj (hfits.2.symm.trans hj)
    exact absurd (hopen.symm.trans (hans i (by rw [hpc]; rfl))) (by simp)
  | @write i =>
    refine h.go hpc rfl { closed := fun m => ?_ } ⟨rfl, rfl, rfl, id⟩
      (fun hq => by cases hq) fun _ => hfits.1
    rcases eq_or_ne m i with rfl | hm
    · simp [Sys.setCaller, Sys.setPend, Sys.setStream]
    · simp [Sys.setCaller, Sys.setPend, Sys.setStream, Function.update_of_ne hm]
  | cancel hch => exact absurd hch ((hapart 0).2.2.1 hpc)
  | uncount | unlockFailed | failClose | setRelease | setCancelled => exact absurd hfits id

/-- A reader that does not close the connection leaves it as it is. -/
theorem readerRun_steady (h : s.Steady) {k : ℕ} {ch : Choice}
    (hlive : ∀ pc p, (s.readers k).pc ≠ .close pc p) (hs : s.readerRun k ch = some s') :
    s'.Steady := by
  have hmove {s₁ : Sys} {r : ResponseReader} (h₁ : s₁.Steady)
      (hr : r.stream = (s₁.readers k).stream) : (s₁.setReader k r).Steady := by
    refine h₁.frame rfl { stream := fun m => ?_ }
    rcases eq_or_ne m k with rfl | hm
    · simp only [Sys.setReader, Function.update_self, hr]
    · simp only [Sys.setReader, Function.update_of_ne hm]
  have hstream {i : ℕ} {t : Stream} {log : List Event} (ht : t.closed = (s.streams i).closed) :
      ({ s with log := log }.setStream i t).Steady := by
    refine h.frame rfl { closed := fun j => ?_ }
    rcases eq_or_ne j i with rfl | hj
    · simp only [Sys.setStream, Function.update_self, ht]
    · simp only [Sys.setStream, Function.update_of_ne hj]
  have hstep := Sys.readerRun_step hs
  generalize (s.readers k).pc = pc at hlive hstep
  cases hstep with
  | @close pc p => exact absurd rfl (hlive pc p)
  | parse hparse =>
    obtain ⟨i, t, log, r, rfl, hclosed, hstays, -⟩ := Sys.parse_frame hparse
    exact hmove (hstream hclosed) hstays
  | @deliver p o c =>
    obtain ⟨log, response, hd⟩ := s.deliver_frame k p o c
    rw [hd]
    exact hmove (h.frame rfl {}) rfl
  | start | startNone | stop | wake | peekNone | peek | checkClosing | check | skip | skipCount
  | skipRemove | skipErrLeft | skipErr | reset | loadCancelled | uncount | remove | recordNone
  | record | sendErr =>
    exact hmove (h.frame rfl {}) rfl

/-- `closeConn` drops the queue only while it is empty. -/
theorem closeConn_lined (h : s.Lined) {pc : ClosePc} {r : Option ClosePc}
    (hdrop : pc = .drop → s.pendingReqs = []) (hs : s.closeConn pc = some (s', r)) :
    s'.Lined := by
  match pc with
  | .cas | .load =>
    simp only [Sys.closeConn] at hs
    split at hs <;> cases hs <;> exact h.frame rfl {}
  | .close _ | .storeNil | .unhealthy | .stop none =>
    cases hs
    exact h.frame rfl {}
  | .drop =>
    simp only [Sys.closeConn] at hs
    split at hs <;> cases hs
    exact h.drop (hdrop rfl)
  | .stop (some k) =>
    cases hs
    exact h.setReader (h.reads k)

theorem ensureConnection_lined (h : s.Lined) {n : ℕ} {ch : Choice} {pc : EnsurePc}
    {r : EnsurePc ⊕ Bool} (hs : s.ensureConnection cfg n ch pc = some (s', r)) :
    s'.Lined := by
  match pc with
  | .lock | .load | .dial =>
    simp only [Sys.ensureConnection] at hs
    split at hs <;> cases hs <;> exact h.frame rfl {}
  | .test | .retest | .close _ | .storeNil | .unhealthy | .resetCount | .setHealthy
  | .clearClosing | .clearStopped | .unlock _ =>
    cases hs
    exact h.frame rfl {}

/-- While a caller rotates the connection, nothing is queued. -/
theorem queue_empty (hst : s.Steady) (h : s.Lined) {n : ℕ}
    (hrot : (s.callers n).rotates = true) : s.pendingReqs = [] := by
  refine List.eq_nil_iff_forall_not_mem.mpr fun p hp => ?_
  have hwaits := (h.queued p hp).1
  have hpn : p ≠ n := by
    rintro rfl
    cases hpc : s.callers p <;> simp [hpc, CallerPc.rotates, CallerPc.waits] at hrot hwaits
  have hquiet := hst.apart n p hrot hpn
  cases hpc : s.callers p <;> simp [hpc, CallerPc.quiet, CallerPc.waits] at hquiet hwaits

theorem doPipelined_lined (hsound : s.Sound) (hst : s.Steady) (h : s.Lined) {n : ℕ} {ch : Choice}
    (hcancel : s.callers n = .wait → ch ≠ .cancel) (hs : s.doPipelined cfg n ch = some s') :
    s'.Lined := by
  have hfits := hst.fits n
  -- a caller that is not in the queue may change its own request
  have hout (hw : (s.callers n).waits = false) : n ∉ s.pendingReqs := fun hq =>
    absurd (hw.symm.trans (h.queued n hq).1) (by simp)
  -- a caller that has got something is not in the queue any more
  have hgone (hgot : (s.pend n).response = true ∨ (s.pend n).err = true) : n ∉ s.pendingReqs := by
    intro hq
    obtain ⟨-, hresp, herr⟩ := h.queued n hq
    simp [hresp, herr] at hgot
  have hstep := Sys.doPipelined_step hs
  generalize hpc : s.callers n = pc at hfits hout hcancel hstep
  cases hstep with
  | idle =>
    have hsent : (s.callers n).sent = false := by rw [hpc]; rfl
    obtain ⟨hresp, herr⟩ := h.fresh n hsent
    have h₁ := h.setPend (x := { s.pend n with hasResp := ch != .noResp }) (hout rfl)
      (fun hb => absurd (hsent.symm.trans hb.2) (by simp)) (fun _ => ⟨hresp, herr⟩)
      (fun he => absurd (herr.symm.trans he) (by simp))
    exact h₁.move hpc rfl {} (fun hw => by cases hw) (fun hw => by cases hw)
  | ensure hr =>
    exact (ensureConnection_lined h hr).move (ensureConnection_callers hr ▸ hpc) rfl {}
      (fun hw => by cases hw) (fun hw => by cases hw)
  | rotate hr =>
    have h₁ := closeConn_lined h
      (fun _ => queue_empty hst h (n := n) (by rw [hpc]; rfl)) hr
    exact h₁.move (closeConn_callers hr ▸ hpc) rfl {} (fun hw => by cases hw)
      (fun hw => by cases hw)
  | checkClosing | overLimit | underLimit | prepare | loadStream | loadNil | lock
  | recheckClosing | recheck | needReader | startStopped | startClosing | startNone | count
  | writeTorn | writeFailed =>
    exact h.move hpc rfl {} (fun hw => by cases hw) (fun hw => by cases hw)
  | startReader =>
    exact (h.register (hsound.starts n (by rw [hpc]; rfl))).move hpc rfl {}
      (fun hw => by cases hw) (fun hw => by cases hw)
  | @write i =>
    have h₁ := h.setPend (x := { s.pend n with written := some i }) (hout rfl) (fun _ => rfl)
      (h.fresh n) (h.excused n)
    exact h₁.move hpc rfl {} (fun hw => by cases hw) (fun hw => by cases hw)
  | append => exact h.append hpc
  | signal => exact h.move hpc rfl {} (fun _ _ => rfl) (fun _ => rfl)
  | cancel hch => exact absurd hch (hcancel rfl)
  | takeErr _ herr =>
    exact h.move hpc rfl {} (fun _ hq => absurd hq (hgone (.inr herr))) (fun _ => rfl)
  | receive _ _ hresp =>
    have h₁ := h.setPend (x := { s.pend n with response := false }) (hgone (.inl hresp))
      (fun _ => rfl) (fun hns => ⟨rfl, (h.fresh n hns).2⟩) (h.excused n)
    exact h₁.move hpc rfl {} (fun _ hq => absurd hq (hgone (.inl hresp))) (fun _ => rfl)
  | uncount | unlockFailed | failClose | setRelease | setCancelled => exact absurd hfits id

/-- The stream a queued request is answered on is open, and the registered reader's. -/
theorem source_open (hst : s.Steady) (h : s.Lined) {k p : ℕ} (hreg : s.responseReader = some k)
    (hp : p ∈ s.pendingReqs) : (s.streams (s.readers k).stream).closed = false := by
  have hwaits := (h.queued p hp).1
  have hnone := hst.not_rotates (n := p)
    (by cases hpc : s.callers p <;> simp [hpc, CallerPc.waits, CallerPc.quiet] at hwaits ⊢)
    (by cases hpc : s.callers p <;> simp [hpc, CallerPc.waits, CallerPc.rotates] at hwaits ⊢)
  obtain ⟨-, hup, hsource⟩ := hst.in_service hnone
  obtain ⟨hhealthy, hconn⟩ := hsource k hreg
  obtain ⟨i, hi, hopen⟩ := hup hhealthy
  rw [hconn] at hi
  rwa [ConnPtr.stream.inj hi]

theorem readerRun_lined (hst : s.Steady) (h : s.Lined) {k : ℕ} {ch : Choice}
    (hans : s.Answers (.reader k, ch)) (hapart : s.Apart cfg (.reader k, ch))
    (hs : s.readerRun k ch = some s') : s'.Lined := by
  have hstep := Sys.readerRun_step hs
  have hreads := h.reads k
  generalize hpc : (s.readers k).pc = pc at hreads hstep
  cases hstep with
  | start | startNone | stop | wake | peekNone | checkClosing | skipErrLeft =>
    exact Sys.Lined.setReader (h.frame rfl {}) trivial
  | peek _ hline => exact h.setReader fun _ => by simp [hline]
  | check hopen =>
    have hk := hapart 0 (by rw [hpc]; rfl) hopen
    exact h.setReader ⟨hk, hreads hk⟩
  | skip hopen hresp =>
    have hk := hapart 0 (by rw [hpc]; rfl) hopen
    exact h.setReader ⟨hk, hreads hk, hresp⟩
  | skipCount | reset | loadCancelled | uncount | recordNone | record =>
    exact Sys.Lined.setReader (h.frame rfl {}) hreads
  | skipRemove | remove => exact h.remove hreads.1 hreads.2.1 fun hb => ⟨hb, hreads.2.2⟩
  | @skipErr p =>
    have h₁ := h.setPend (x := { s.pend p with err := true }) hreads.1.1 (fun _ => rfl)
      (fun hns => absurd (hns.symm.trans hreads.1.2) (by simp)) (fun _ => hreads.2)
    exact h₁.setReader trivial
  | parse hparse =>
    have hopen := source_open hst h hreads.1 hreads.2
    simp only [Sys.parse] at hparse
    split at hparse
    · split at hparse <;> cases hparse
      refine Sys.Lined.setReader (h.frame rfl {}) ?_
      simp only [hpc]
      exact hreads
    · -- the server's answer is complete, and the stream stays
      obtain ⟨rfl, -, rfl⟩ := hans hopen
      repeat' split at hparse
      all_goals cases hparse
      all_goals
        exact Sys.Lined.setReader (h.frame rfl {}) ⟨hreads.1, hreads.2, by simp, rfl⟩
    · cases hparse
  | @deliver p o c =>
    obtain ⟨⟨hline, hsent⟩, hret, hcloses⟩ := hreads
    simp only [Sys.afterDeliver, if_neg hret, hcloses]
    refine Sys.Lined.setReader ?_ trivial
    obtain ⟨log, response, hd⟩ := s.deliver_frame k p o c
    rw [hd]
    have h₁ := h.setPend (x := { s.pend p with response := response }) hline (fun _ => rfl)
      (fun hns => absurd (hns.symm.trans hsent) (by simp)) (h.excused p)
    exact h₁.frame rfl {}
  | close | sendErr => exact absurd hreads id

/-- Steps of calls that do not overlap a rotation keep both invariants. -/
theorem step_apart (hsound : s.Sound) (hst : s.Steady) (h : s.Lined) {l : Tid × Choice}
    (hans : s.Answers l) (hapart : s.Apart cfg l) (hs : s.step cfg l = some s') :
    s'.Steady ∧ s'.Lined := by
  obtain ⟨t, ch⟩ := l
  cases t with
  | caller n =>
    exact ⟨doPipelined_steady hst hans hapart hs,
      doPipelined_lined hsound hst h (hapart 0).2.2.1 hs⟩
  | client n =>
    simp only [Sys.step, Sys.releaseResponse] at hs
    split at hs <;> cases hs
    case _ hpc =>
      exact ⟨hst.go hpc rfl {} (by decide) (by decide)
        (fun _ => trivial), h.move hpc rfl {} (fun hw => by cases hw) (by decide)⟩
  | reader k =>
    refine ⟨readerRun_steady hst (fun pc p hpc => ?_) hs, readerRun_lined hst h hans hapart hs⟩
    have hreads := h.reads k
    rw [hpc] at hreads
    exact hreads
  | stopper m => exact absurd hans id

/-- The step gives caller `n` an error of the connection: not for a context that was done
before, and not for want of a response object. -/
def Sys.Fails (cfg : Config) (s : Sys) (l : Tid × Choice) (n : ℕ) : Prop :=
  (∃ s' ∈ s.step cfg l, s'.callers n = .returned .error) ∧ s.callers n ≠ .returned .error ∧
    l.2 ≠ .giveUp ∧ (s.pend n).hasResp = true

instance (cfg : Config) (s : Sys) (l : Tid × Choice) (n : ℕ) : Decidable (s.Fails cfg l n) :=
  inferInstanceAs (Decidable (_ ∧ _ ∧ _ ∧ _))

theorem ensureConnection_ok (hst : s.Steady) {n : ℕ} {ch : Choice} {rotated : Bool} {pc : EnsurePc}
    {r : EnsurePc ⊕ Bool} (hpc : s.callers n = .ensure rotated pc)
    (hs : s.ensureConnection cfg n ch pc = some (s', r)) :
    Sys.afterEnsure rotated r ≠ .returned .error := by
  have hfits := hst.fits n
  rw [hpc] at hfits
  match pc with
  | .unlock false => exact absurd hfits id
  | .test =>
    cases hs
    split <;> cases rotated <;> simp [Sys.afterEnsure]
  | .lock | .load | .dial =>
    simp only [Sys.ensureConnection] at hs
    split at hs <;> cases hs <;> simp [Sys.afterEnsure]
  | .retest | .close _ | .storeNil | .unhealthy | .resetCount | .setHealthy | .clearClosing
  | .clearStopped =>
    cases hs
    simp [Sys.afterEnsure]
  | .unlock true =>
    cases hs
    cases rotated <;> simp [Sys.afterEnsure]

/-- The errors of a connection arise where it is found closing or gone, where the write fails,
and where a waiting caller is sent one. -/
theorem step_not_fails (hst : s.Steady) (h : s.Lined) {l : Tid × Choice}
    (hans : s.Answers l) (hapart : s.Apart cfg l) (n : ℕ) : ¬s.Fails cfg l n := by
  rintro ⟨⟨s', hs, herror⟩, hbefore, hgiveUp, hresp⟩
  obtain ⟨t, ch⟩ := l
  rw [Option.mem_def] at hs
  by_cases hother : t ≠ .caller n ∧ t ≠ .client n
  · rw [step_callers hs hother.1 hother.2] at herror
    exact hbefore herror
  by_cases hclient : t = .client n
  · subst hclient
    simp only [Sys.step, Sys.releaseResponse] at hs
    cases hs
  obtain rfl : t = .caller n := by
    by_contra hcaller
    exact hother ⟨hcaller, hclient⟩
  replace hs : s.doPipelined cfg n ch = some s' := hs
  have hfits := hst.fits n
  have hservice (hquiet : (s.callers n).quiet = false) (hrot : (s.callers n).rotates = false) :=
    hst.in_service (hst.not_rotates hquiet hrot)
  have hself (s₁ : Sys) (pc : CallerPc) : (s₁.setCaller n pc).callers n = pc := by
    simp [Sys.setCaller]
  have hstep := Sys.doPipelined_step hs
  generalize hpc : s.callers n = pc at hfits hservice hstep
  cases hstep with
  | ensure hr =>
    rw [hself] at herror
    exact ensureConnection_ok hst hpc hr herror
  | @rotate pc s₁ r =>
    rw [hself] at herror
    cases r <;> cases herror
  | checkClosing =>
    rw [hself, (hservice rfl rfl).1] at herror
    cases herror
  | prepare =>
    rw [hself, if_neg hgiveUp] at herror
    cases herror
  | loadNil hnone =>
    obtain ⟨i, hi, -⟩ := (hservice rfl rfl).2.1 hfits
    exact hnone i hi
  | recheckClosing hclosing => exact absurd ((hservice rfl rfl).1.symm.trans hclosing) (by simp)
  | needReader | startStopped | startClosing =>
    rw [hself] at herror
    split at herror <;> cases herror
  | takeErr _ herr => exact absurd ((h.excused n herr).symm.trans hresp) (by simp)
  | idle | overLimit | underLimit | loadStream | lock | recheck | startReader | startNone | count
  | writeTorn | writeFailed | write | append | signal | cancel | receive =>
    rw [hself] at herror
    cases herror
  | uncount | unlockFailed | failClose | setRelease | setCancelled => exact absurd hfits id

end Steps

/-- In every run with such a server in which calls do not overlap a rotation, no call gets an
error of the connection, and a rotation closes a stream only when no request that was written
on it is still waiting. -/
theorem rotation_loses_nothing (cfg : Config) (s : Sys)
    (h : Reaches (Sys.step cfg) (fun s l => s.Answers l ∧ s.Apart cfg l) Sys.new s) :
    (∀ l n, s.Answers l → s.Apart cfg l → ¬s.Fails cfg l n) ∧
      ∀ n i, s.callers n = .rotate (.close i) → ∀ p, (s.pend p).written = some i →
        (s.callers p).stage ≠ .waiting := by
  obtain ⟨-, hst, hl⟩ : s.Sound ∧ s.Steady ∧ s.Lined :=
    h.invariant (fun s => s.Sound ∧ s.Steady ∧ s.Lined) ⟨.new, .new, .new⟩
      fun _ _ _ ⟨hsound, hst, hl⟩ ⟨hans, hapart⟩ hs =>
        ⟨step_sound hsound hs, step_apart hsound hst hl hans hapart hs⟩
  refine ⟨fun l n hans hapart => step_not_fails hst hl hans hapart n, fun n i hpc p _ => ?_⟩
  by_cases hpn : p = n
  · rw [hpn, hpc]
    exact fun hstage => by cases hstage
  · have hquiet := hst.apart n p (by rw [hpc]; rfl) hpn
    cases hp : s.callers p with
    | returned ret => cases ret <;> decide
    | idle | released => decide
    | _ => simp [hp, CallerPc.quiet] at hquiet

/-! ### Runs -/

instance (s : Sys) (l : Tid × Choice) : Decidable (s.Answers l) :=
  match l with
  | (.caller _, .dialError) => .isFalse id
  | (.caller n, .writeError _) =>
    inferInstanceAs (Decidable (∀ i ∈ (s.callers n).target, (s.streams i).closed = true))
  | (.reader k, .finish ret cut closes) => inferInstanceAs (Decidable
      ((s.streams (s.readers k).stream).closed = false → ret = .ok ∧ cut = false ∧ closes = false))
  | (.stopper _, _) => .isFalse id
  | (.client _, _) => .isTrue trivial
  | (.caller _, .plain) | (.caller _, .noResp) | (.caller _, .expired) | (.caller _, .giveUp)
  | (.caller _, .mistaken _) | (.caller _, .cancel) | (.caller _, .takeErr) | (.caller _, .stop)
  | (.caller _, .fetch _) | (.caller _, .finish _ _ _) => .isTrue trivial
  | (.reader _, .plain) | (.reader _, .noResp) | (.reader _, .expired) | (.reader _, .dialError)
  | (.reader _, .giveUp) | (.reader _, .writeError _) | (.reader _, .mistaken _)
  | (.reader _, .cancel) | (.reader _, .takeErr) | (.reader _, .stop) | (.reader _, .fetch _) =>
    .isTrue trivial

instance (N : ℕ) (cfg : Config) (s : Sys) (l : Tid × Choice) : Decidable (s.ApartBelow N cfg l) :=
  match l with
  | (.caller n, ch) => inferInstanceAs (Decidable
      ((s.callers n = .idle → ∀ m < N, (s.callers m).rotates = false) ∧
      (s.callers n = .checkCount → cfg.maxRequestsPerConn ≤ s.reqsOnConn →
        ∀ m < N, m ≠ n → (s.callers m).quiet = true) ∧
      (s.callers n = .wait → ch ≠ .cancel) ∧ s.usable cfg ch = s.healthy))
  | (.reader k, _) => inferInstanceAs (Decidable
      ((s.readers k).pc.checks = true → s.closing = false → s.responseReader = some k))
  | (.client _, _) | (.stopper _, _) => .isTrue trivial

/-- Calls that have not begun overlap nothing. -/
theorem apart_of_below {cfg : Config} {s : Sys} {l : Tid × Choice} {N : ℕ}
    (hidle : ∀ n, N ≤ n → s.callers n = .idle) (h : s.ApartBelow N cfg l) : s.Apart cfg l := by
  intro M
  obtain ⟨t, ch⟩ := l
  cases t with
  | caller n =>
    obtain ⟨hbegin, hdue, hrest⟩ := h
    refine ⟨fun hpc m _ => ?_, fun hpc hle m _ hmn => ?_, hrest⟩
    · by_cases hm : m < N
      · exact hbegin hpc m hm
      · rw [hidle m (by omega)]
        rfl
    · by_cases hm : m < N
      · exact hdue hpc hle m hm hmn
      · rw [hidle m (by omega)]
        rfl
  | reader k => exact h
  | client n | stopper m => trivial

/-- A run of callers below `N` that keeps the condition, and has a decidable outcome. -/
theorem exists_apart (cfg : Config) (N : ℕ) (labels : List (Tid × Choice)) (P : Sys → Prop)
    [DecidablePred P]
    (h : (Guarded.exec (Sys.step cfg)
      (fun s l => (s.Answers l ∧ s.ApartBelow N cfg l) ∧ l.1.below N = true) labels Sys.new).any
      (fun s => decide (P s)) = true) :
    ∃ s, Reaches (Sys.step cfg) (fun s l => s.Answers l ∧ s.Apart cfg l) Sys.new s ∧ P s := by
  obtain ⟨s, hs, hP⟩ := Guarded.exists_of_exec _ _ _ labels P h
  refine ⟨s, hs.mono_of_invariant (fun s => s.Sound ∧ ∀ n, N ≤ n → s.callers n = .idle)
    ⟨.new, fun _ _ => rfl⟩ (fun _ _ _ hinv hg => step_idle hinv hg.2)
    fun _ _ hinv hg => ⟨hg.1.1, apart_of_below hinv.2 hg.1.2⟩, hP⟩

/-- Caller 1 has its answer, and caller 2 rotates the connection away. -/
theorem rotation_loses_nothing_second :
    ∃ s, Reaches (Sys.step rotating) (fun s l => s.Answers l ∧ s.Apart rotating l) Sys.new s ∧
      s.callers 2 = .rotate (.close 0) ∧ (s.pend 1).written = some 0 ∧
      (s.callers 1).stage ≠ .waiting := by
  obtain ⟨s, hs, hpc, hwritten⟩ := exists_apart rotating 3
    (oneAnswer ++ [(Tid.caller 1, Choice.plain)] ++ steps (.caller 2) 6)
    (fun s => s.callers 2 = .rotate (.close 0) ∧ (s.pend 1).written = some 0) (by decide +kernel)
  exact ⟨s, hs, hpc, hwritten, (rotation_loses_nothing rotating s hs).2 2 0 hpc 1 hwritten⟩

/-- Callers 1 and 2 have written on stream 0, and reader 0 has delivered the answer to request
1 when caller 3 finds that the connection is due, and closes it. -/
def rotatedEarly : List (Tid × Choice) :=
  steps (.caller 1) 26 ++ steps (.caller 2) 13 ++ steps (.reader 0) 5 ++
    [(Tid.reader 0, Choice.fetch 1), (.reader 0, .finish .ok false false)] ++ steps (.reader 0) 5 ++
    steps (.caller 3) 10

/-- With such a server, a caller whose request was written on the stream and waits for its
answer gets the error of a rotation. -/
theorem rotation_loses_request :
    ∃ s, Reaches (Sys.step rotating) Sys.Answers Sys.new s ∧ s.callers 2 = .wait ∧
      (s.pend 2).written = some 0 ∧ s.Answers (.caller 2, .takeErr) ∧
      s.Fails rotating (.caller 2, .takeErr) 2 := by
  refine Guarded.exists_of_exec (Sys.step rotating) Sys.Answers Sys.new rotatedEarly
    (fun s => s.callers 2 = .wait ∧ (s.pend 2).written = some 0 ∧ s.Answers (.caller 2, .takeErr) ∧
      s.Fails rotating (.caller 2, .takeErr) 2) ?_
  decide +kernel

end BurstHttp.Pipeline
