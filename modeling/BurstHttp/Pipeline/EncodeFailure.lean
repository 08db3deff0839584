/-
A request that cannot be encoded, on a pipelined connection (connection.go,
`doPipelined`, `writeRequest`, `closeConn`).

`doPipelined` treats every error of `writeRequest` alike and closes the connection, also
when the encoders have run out of room and no byte was written.

* `Sys.Alone` — what a caller does when no other goroutine runs;
* `Sys.Unharmed` — what such a call should leave as it was;
* `Sys.Warned`, `doPipelined_warned` — a request that leaves the queue has got an error;
* `Sys.GivingUp`, `doPipelined_givingUp` — the way from the write to the return;
* `encodeFailure_harms` — at its end the connection is closed.
-/
import BurstHttp.BufferRoom
import BurstHttp.Lib.Guarded
import BurstHttp.Pipeline.Pairing

namespace BurstHttp.Pipeline

open Function (update)
open Guarded (Reaches)

/-- Caller `n` takes steps, and nobody else does. -/
def Sys.Alone (cfg : Config) (n : ℕ) (s s' : Sys) : Prop :=
  Reaches (fun s ch => s.doPipelined cfg n ch) (fun _ _ => True) s s'

/-- How the write of a request ends when the network does not fail; an encoder that has no
room leaves no byte on the wire. -/
def writeChoice : Except EncodeErr (Bytes × Bytes) → Choice
  | .error _ => .writeError false
  | .ok _ => .plain

/-- The connection is open and in use as before, and no pending request has got an error. -/
structure Sys.Unharmed (s s' : Sys) : Prop where
  conn : s'.conn = s.conn
  isOpen : ∃ i, s'.conn = .stream i ∧ (s'.streams i).closed = false
  healthy : s'.healthy = true
  pendingReqs : s'.pendingReqs = s.pendingReqs
  activeReqs : s'.activeReqs = s.activeReqs
  err : ∀ p ∈ s.pendingReqs, (s'.pend p).err = (s.pend p).err

/-! ### The other requests -/

/-- Of the requests `ps`, those that are not in the queue any more have got an error. -/
def Sys.Warned (ps : List ℕ) (s : Sys) : Prop :=
  ∀ p ∈ ps, p ∈ s.pendingReqs ∨ (s.pend p).err = true

variable {cfg : Config} {s s' : Sys} {ps : List ℕ}

theorem Sys.Warned.frame (h : s.Warned ps) (hqueue : s.pendingReqs ⊆ s'.pendingReqs)
    (herr : ∀ p, (s.pend p).err = true → (s'.pend p).err = true) : s'.Warned ps :=
  fun p hp => (h p hp).imp (fun hq => hqueue hq) (herr p)

/-- A change of a request that keeps its error. -/
theorem Sys.Warned.setPend (h : s.Warned ps) {n : ℕ} {x : PendingRequest}
    (hx : x.err = (s.pend n).err) : (s.setPend n x).Warned ps := by
  refine h.frame (List.Subset.refl _) ?_
  refine (Function.forall_update_iff s.pend
    fun p (x : PendingRequest) => (s.pend p).err = true → x.err = true).mpr ⟨?_, fun _ _ hp => hp⟩
  intro hn
  rw [hx, hn]

theorem closeConn_warned (h : s.Warned ps) {pc : ClosePc} {r : Option ClosePc}
    (hs : s.closeConn pc = some (s', r)) : s'.Warned ps := by
  match pc with
  | .cas | .load =>
    simp only [Sys.closeConn] at hs
    split at hs <;> cases hs <;> exact h
  | .close _ | .storeNil | .unhealthy | .stop none | .stop (some _) =>
    cases hs
    exact h
  | .drop =>
    simp only [Sys.closeConn] at hs
    split at hs <;> cases hs
    -- whoever is in the queue gets the error now
    intro p hp
    right
    show (if p ∈ s.pendingReqs then { s.pend p with err := true } else s.pend p).err = true
    split
    · rfl
    · rename_i hq
      exact (h p hp).resolve_left hq

theorem ensureConnection_warned (h : s.Warned ps) {n : ℕ} {ch : Choice} {pc : EnsurePc}
    {r : EnsurePc ⊕ Bool} (hs : s.ensureConnection cfg n ch pc = some (s', r)) : s'.Warned ps := by
  match pc with
  | .lock | .load | .dial =>
    simp only [Sys.ensureConnection] at hs
    split at hs <;> cases hs <;> exact h
  | .test | .retest | .close _ | .storeNil | .unhealthy | .resetCount | .setHealthy
  | .clearClosing | .clearStopped | .unlock _ =>
    cases hs
    exact h

theorem doPipelined_warned (h : s.Warned ps) {n : ℕ} {ch : Choice}
    (hs : s.doPipelined cfg n ch = some s') : s'.Warned ps := by
  have hstep := Sys.doPipelined_step hs
  generalize s.callers n = pc at hstep
  cases hstep with
  | idle | write | receive | setRelease | setCancelled => exact h.setPend rfl
  | ensure hr => exact (ensureConnection_warned h hr :)
  | rotate hr | failClose hr => exact (closeConn_warned h hr :)
  | append => exact h.frame (List.subset_append_left _ _) fun _ hp => hp
  | checkClosing | overLimit | underLimit | prepare | loadStream | loadNil | lock
  | recheckClosing | recheck | needReader | startStopped | startClosing | startReader | startNone
  | count | writeTorn | writeFailed | uncount | unlockFailed | signal | cancel | takeErr =>
    exact h

/-! ### The caller -/

/-- The caller has seen under `pendingMu` that nobody is closing the connection. -/
def CallerPc.rechecked : CallerPc → Bool
  | .needReader _ | .startStopped _ | .startClosing _ | .startLoad _ | .count _ | .write _ => true
  | _ => false

/-- As long as the caller is alone, what it has seen stays true. -/
theorem doPipelined_rechecked {n : ℕ} {ch : Choice}
    (h : (s.callers n).rechecked = true → s.closing = false)
    (hs : s.doPipelined cfg n ch = some s') :
    (s'.callers n).rechecked = true → s'.closing = false := by
  -- `pc` is where the caller goes on
  have hmove {s₁ : Sys} {pc : CallerPc} (hclosing : pc.rechecked = true → s₁.closing = false) :
      ((s₁.setCaller n pc).callers n).rechecked = true → (s₁.setCaller n pc).closing = false := by
    simpa only [Sys.setCaller, Function.update_self] using hclosing
  -- and elsewhere there is nothing to show
  have hleave {s₁ : Sys} {pc : CallerPc} (hpc : pc.rechecked = false) :
      ((s₁.setCaller n pc).callers n).rechecked = true → (s₁.setCaller n pc).closing = false :=
    hmove fun htrue => absurd (hpc.symm.trans htrue) Bool.false_ne_true
  have hstep := Sys.doPipelined_step hs
  generalize s.callers n = pc at h hstep
  cases hstep with
  | checkClosing | prepare =>
    refine hleave ?_
    split <;> rfl
  | @ensure rotated pc s₁ r =>
    refine hleave ?_
    rcases r with pc | _ | _ <;> cases rotated <;> rfl
  | @rotate pc s₁ r | @failClose pc s₁ r =>
    refine hleave ?_
    rcases r with _ | pc <;> rfl
  | recheck hclosing => exact hmove fun _ => hclosing
  | needReader | startStopped | startClosing | startReader | startNone | count =>
    exact hmove fun _ => h rfl
  | idle | overLimit | underLimit | loadStream | loadNil | lock | recheckClosing | writeTorn
  | writeFailed | write | uncount | unlockFailed | append | signal | cancel | takeErr | receive
  | setRelease | setCancelled => exact hleave rfl

/-- What `closeConn` has done already. -/
def Sys.Closing (s : Sys) : ClosePc → Prop
  | .cas => s.closing = false
  | .load | .close _ | .storeNil | .unhealthy => True
  | .drop => s.healthy = false
  | .stop _ => s.healthy = false ∧ s.pendingReqs = []

/-- A call of `closeConn` that has got the flag closes the connection. -/
theorem closeConn_closing {pc : ClosePc} {r : Option ClosePc} (h : s.Closing pc)
    (hs : s.closeConn pc = some (s', r)) :
    r.elim (s'.healthy = false ∧ s'.pendingReqs = []) s'.Closing := by
  match pc with
  | .cas =>
    simp only [Sys.closeConn, if_neg (Bool.eq_false_iff.mp h)] at hs
    cases hs
    trivial
  | .load =>
    simp only [Sys.closeConn] at hs
    split at hs <;> cases hs <;> trivial
  | .close _ | .storeNil =>
    cases hs
    trivial
  | .unhealthy =>
    cases hs
    rfl
  | .drop =>
    simp only [Sys.closeConn] at hs
    split at hs <;> cases hs
    exact ⟨h, rfl⟩
  | .stop none | .stop (some _) =>
    cases hs
    exact h

/-- Where a caller is after a write that has failed, and what it has done there. -/
def Sys.GivingUp (n : ℕ) (s : Sys) : Prop :=
  match s.callers n with
  | .uncount | .unlockFailed => s.closing = false
  | .failClose pc => s.Closing pc
  | .returned .error => s.healthy = false ∧ s.pendingReqs = []
  | _ => False

theorem doPipelined_givingUp {n : ℕ} {ch : Choice} (h : s.GivingUp n)
    (hs : s.doPipelined cfg n ch = some s') : s'.GivingUp n := by
  have hstep := Sys.doPipelined_step hs
  unfold Sys.GivingUp at h
  split at h
  case h_1 hpc =>
    rw [hpc] at hstep
    cases hstep
    simpa [Sys.GivingUp, Sys.setCaller] using h
  case h_2 hpc =>
    rw [hpc] at hstep
    cases hstep
    simpa [Sys.GivingUp, Sys.setCaller, Sys.Closing] using h
  case h_3 pc hpc =>
    rw [hpc] at hstep
    cases hstep with
    | @failClose _ s₁ r hr =>
      have hclosing := closeConn_closing h hr
      simp only [Sys.GivingUp, Sys.setCaller, Function.update_self]
      rcases r with _ | pc'
      · exact hclosing
      · cases pc' <;> exact hclosing
  case h_4 hpc =>
    rw [hpc] at hstep
    cases hstep
  case h_5 => exact h.elim

/-- The write that has failed. -/
theorem doPipelined_unencoded {n i : ℕ} (hwrite : s.callers n = .write i)
    {r : Except EncodeErr (Bytes × Bytes)} {e : EncodeErr} (hr : r = .error e) :
    s.doPipelined cfg n (writeChoice r) = some (s.setCaller n .uncount) := by
  simp only [Sys.doPipelined, hwrite, hr, writeChoice, Bool.false_eq_true, if_false]

/-- **A failed encoding harms everybody.**  Whatever the connection is doing and whoever waits for
an answer on it: a call of `doPipelined` whose request has no room in the buffers leaves the
connection closed, with an error for every request that was pending. -/
theorem encodeFailure_harms (cfg : Config) (n i : ℕ) {s s₁ s₂ s' : Sys} (c : Sender)
    (buf : WriteBuf) (req : Outgoing) (body : Bytes) (compressed : Bool) (e : EncodeErr)
    (hencode : c.writeRequest buf req body compressed = .error e)
    (hcall : s.callers n = .checkClosing) (hbefore : Sys.Alone cfg n s s₁)
    (hwrite : s₁.callers n = .write i)
    (hfail : s₁.doPipelined cfg n (writeChoice (c.writeRequest buf req body compressed)) = some s₂)
    (hafter : Sys.Alone cfg n s₂ s') (hret : s'.callers n = .returned .error) :
    ¬ s.Unharmed s' ∧ s'.healthy = false ∧ s'.pendingReqs = []
      ∧ ∀ p ∈ s.pendingReqs, (s'.pend p).err = true := by
  have hclosing : s₁.closing = false := by
    refine Reaches.invariant hbefore (fun s => (s.callers n).rechecked = true → s.closing = false)
      ?_ (fun _ _ _ h _ hs => doPipelined_rechecked h hs) (by rw [hwrite]; rfl)
    rw [hcall]
    exact nofun
  have hwarned : s'.Warned s.pendingReqs := by
    have hstart : s.Warned s.pendingReqs := fun p hp => .inl hp
    have hs₁ := Reaches.invariant hbefore (Sys.Warned s.pendingReqs) hstart
      fun _ _ _ h _ hs => doPipelined_warned h hs
    exact Reaches.invariant hafter (Sys.Warned s.pendingReqs) (doPipelined_warned hs₁ hfail)
      fun _ _ _ h _ hs => doPipelined_warned h hs
  have hgiving : s₂.GivingUp n := by
    rw [doPipelined_unencoded hwrite hencode] at hfail
    cases hfail
    simpa [Sys.GivingUp, Sys.setCaller] using hclosing
  have hleft : s'.GivingUp n :=
    Reaches.invariant hafter (Sys.GivingUp n) hgiving fun _ _ _ h _ hs => doPipelined_givingUp h hs
  simp only [Sys.GivingUp, hret] at hleft
  obtain ⟨hhealthy, hqueue⟩ := hleft
  refine ⟨?_, hhealthy, hqueue, ?_⟩
  · intro h
    rw [h.healthy] at hhealthy
    cases hhealthy
  · intro p hp
    refine (hwarned p hp).resolve_left ?_
    rw [hqueue]
    exact List.not_mem_nil

/-! ### A run -/

/-- Callers 1 and 2 wait for their answers, and caller 3 calls `doPipelined`. -/
def busy : Sys :=
  Guarded.final (Sys.step rotating) (fun _ _ => True)
    (steps (.caller 1) 26 ++ steps (.caller 2) 13 ++ steps (.caller 3) 2) Sys.new

/-- Caller 3 is about to write. -/
def busyWriting : Sys :=
  Guarded.final (fun s ch => s.doPipelined rotating 3 ch) (fun _ _ => True)
    (List.replicate 8 .plain) busy

/-- Its write has failed, and it has returned. -/
def busyFailed : Sys :=
  Guarded.final (fun s ch => s.doPipelined rotating 3 ch) (fun _ _ => True)
    (List.replicate 9 .plain) (busyWriting.setCaller 3 .uncount)

theorem encodeFailure_harms_busy :
    busy.pendingReqs = [1, 2] ∧ busyFailed.callers 3 = .returned .error
      ∧ ¬ busy.Unharmed busyFailed := by
  have hencode := longCredentials_writeRequest ⟨List.replicate (16 * 1024) 0, List.length_replicate⟩
  have hwrite : busyWriting.callers 3 = .write 0 := by decide +kernel
  have hret : busyFailed.callers 3 = .returned .error := by decide +kernel
  refine ⟨by decide +kernel, hret, ?_⟩
  exact (encodeFailure_harms rotating 3 0 longCredentials _ getIndex [] false .part3 hencode
    (by decide +kernel) (Guarded.reaches_final _ _ _ _) hwrite
    (doPipelined_unencoded hwrite hencode) (Guarded.reaches_final _ _ _ _) hret).1

/-- Before the call the connection is open, and two callers wait; when it has returned, the
connection is closed, and both have got an error. -/
theorem encodeFailure_drops_busy :
    Reaches (Sys.step rotating) (fun _ _ => True) Sys.new busy
      ∧ busy.healthy = true ∧ busy.pendingReqs = [1, 2]
      ∧ Sys.Alone rotating 3 busy busyWriting
      ∧ busyWriting.callers 3 = .write 0
      ∧ (∀ buf, busyWriting.doPipelined rotating 3
          (writeChoice (longCredentials.writeRequest buf getIndex [] false))
        = some (busyWriting.setCaller 3 .uncount))
      ∧ Sys.Alone rotating 3 (busyWriting.setCaller 3 .uncount) busyFailed
      ∧ busyFailed.callers 3 = .returned .error
      ∧ busyFailed.healthy = false ∧ busyFailed.pendingReqs = []
      ∧ (busyFailed.pend 1).err = true ∧ (busyFailed.pend 2).err = true := by
  have hwrite : busyWriting.callers 3 = .write 0 := by decide +kernel
  exact ⟨Guarded.reaches_final _ _ _ _, by decide +kernel, by decide +kernel,
    Guarded.reaches_final _ _ _ _, hwrite,
    fun buf => doPipelined_unencoded hwrite (longCredentials_writeRequest buf),
    Guarded.reaches_final _ _ _ _, by decide +kernel⟩

end BurstHttp.Pipeline
