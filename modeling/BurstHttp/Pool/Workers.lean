/-
The goroutines of a pool as workers at the list of connections.

The goroutines of a pool are workers at a list that is kept without a lock
(`Roster`): `createConnection` reserves a place in `activeCount`, dials, appends the
connection and counts it in `idleCount`; `removeUnhealthyConnections` swaps a
shorter list in, stops what it was given and subtracts what it has removed; `Stop`
and `GracefulStop` clear the list.

* `System.roster` — the protocol's view of a pool;
* `HostPool.caller_move` — a step of a caller is an act at its host pool;
* `System.step_acted` — a step of the pool is an act of one worker;
* `System.step_frame` — whose program counters a step changes.
-/
import BurstHttp.Lib.Roster
import BurstHttp.Pool.System
import Mathlib.Data.Fintype.Sum
import Mathlib.Tactic.DeriveFintype

namespace BurstHttp.Pool

open Function (update)
open Roster (Acts Deed Duty Shared)

/-! ### The abstraction -/

/-- The goroutines of a pool. -/
inductive Worker (N R : ℕ)
  | caller (n : Fin N)
  | remover (r : Fin R)
  | evictor
  | stopper
  | graceful
  deriving DecidableEq, Fintype

/-- What is left to stop while `Stop` is called on `c`, with `rest` behind it. -/
def StopPc.left (c : ℕ) (rest : List ℕ) : StopPc → List ℕ
  | .cas => c :: rest
  | .closing | .unhealthy => rest

def RemovePc.duty (unhealthy : List ℕ) : RemovePc → Duty ℕ
  | .load | .cas _ => .looking unhealthy
  | .stop removed c rest pc => .taken removed (pc.left c rest)
  | .active removed => .taken removed []
  | .idle removed => .settling removed

def CallerPc.duty : CallerPc → Duty ℕ
  | .removing _ sc pc | .removingLate sc _ pc | .anyRemoving _ sc _ pc => pc.duty sc.unhealthy
  | .createNew _ | .undo _ => .reserved
  | .dialing _ c _ => .making c
  | .publishLoad _ c | .publish _ c _ => .ready c
  | .created _ => .entered
  | _ => .free

def EvictPc.duty : EvictPc → Duty ℕ
  | .removing idle pc => pc.duty idle
  | _ => .free

def StopAllPc.duty : StopAllPc → Duty ℕ
  | .swap => .free
  | .stop c rest pc => .clearing (pc.left c rest)
  | .done => .clearing []

def GracefulPc.duty : GracefulPc → Duty ℕ
  | .stop _ c rest pc => .clearing (pc.left c rest)
  | .done _ => .clearing []
  | _ => .free

/-- `createConnection` has dialed, and looks for the list. -/
def CallerPc.publishing : CallerPc → Bool
  | .publishLoad _ _ => true
  | _ => false

namespace HostPool

variable {N : ℕ}

/-- The cells of the protocol, where `dialed` has been dialed. -/
def books (s : HostPool N) (dialed : List ℕ) : Shared ℕ :=
  { listed := s.connections.map Slice.conns
    places := s.activeCount
    size := s.idleCount
    made := fun c => decide (c < s.numConns)
    sound := fun c => decide (c ∈ dialed)
    dismissed := fun c => (s.slots c).stopped }

end HostPool

namespace System

variable {N R : ℕ}

def duty (s : System N R) : Worker N R → Duty ℕ
  | .caller n => (s.pool.callers n).duty
  | .remover r => (s.removers r).elim .free fun x => x.2.duty x.1
  | .evictor => s.pool.evictor.duty
  | .stopper => s.pool.stopper.duty
  | .graceful => s.graceful.duty

/-- The protocol's view of a pool. -/
def roster (s : System N R) : Roster.State (Worker N R) ℕ := ⟨s.pool.books s.dialed, s.duty⟩

end System

/-! ### Stopping and removing -/

namespace HostPool

variable {N : ℕ} {s t s' : HostPool N} {n : Fin N} {pc : CallerPc} {limit : ℤ} {dialed : List ℕ}

theorem dismissed_setSlot (s : HostPool N) (c : ℕ) (x : Slot) (dialed : List ℕ) :
    (s.setSlot c x).books dialed =
      { s.books dialed with dismissed := update (s.books dialed).dismissed c x.stopped } := by
  unfold books setSlot
  congr
  funext d
  rcases eq_or_ne d c with rfl | hd
  · simp only [Function.update_self]
  · simp only [Function.update_of_ne hd]

theorem books_setSlot {c : ℕ} {x : Slot} (hx : x.stopped = (s.slots c).stopped) :
    (s.setSlot c x).books dialed = s.books dialed := by
  rw [dismissed_setSlot, hx]
  show { s.books dialed with
    dismissed := update (s.books dialed).dismissed c ((s.books dialed).dismissed c) } = _
  rw [Function.update_eq_self]

/-- `Stop` marks a connection in its first step. -/
theorem stopConn_books_cas (s : HostPool N) (c : ℕ) :
    (s.stopConn c .cas).1.books dialed =
      { s.books dialed with dismissed := update (s.books dialed).dismissed c true } := by
  rw [stopConn]
  split
  case isTrue hstopped =>
    have hmark : true = (s.books dialed).dismissed c := hstopped.symm
    rw [hmark, Function.update_eq_self]
  case isFalse => exact dismissed_setSlot s c _ dialed

theorem stopConn_books (s : HostPool N) (c : ℕ) {pc : StopPc} (hpc : pc ≠ .cas) :
    (s.stopConn c pc).1.books dialed = s.books dialed := by
  cases pc with
  | cas => exact absurd rfl hpc
  | closing =>
    rw [stopConn]
    split
    · rfl
    · exact books_setSlot rfl
  | unhealthy => exact books_setSlot rfl

/-- `Stop` does not come back to its first step. -/
theorem stopConn_snd_ne (s : HostPool N) (c : ℕ) (pc : StopPc) :
    (s.stopConn c pc).2 ≠ some .cas := by
  cases pc with
  | cas | closing =>
    rw [stopConn]
    split <;> simp
  | unhealthy => simp [stopConn]

theorem stopConn_left {c : ℕ} {pc pc' : StopPc} (h : (s.stopConn c pc).2 = some pc')
    (rest : List ℕ) : pc'.left c rest = rest := by
  cases pc' with
  | cas => exact absurd h (stopConn_snd_ne s c pc)
  | closing | unhealthy => rfl

/-- A step of `removeUnhealthyConnections` is an act of a worker. -/
theorem remove_acts (limit : ℤ) (dialed : List ℕ) (s : HostPool N) (unhealthy : List ℕ)
    (pc : RemovePc) :
    Acts limit (s.books dialed) .plain (pc.duty unhealthy)
      ((s.remove unhealthy pc).1.books dialed)
      ((s.remove unhealthy pc).2.elim .free (RemovePc.duty unhealthy)) := by
  cases pc with
  | load =>
    rw [remove]
    split
    · exact .leave unhealthy
    · split
      · exact .quiet _
      · exact .leave unhealthy
  | cas old =>
    rw [remove]
    split
    case isTrue hold =>
      have hlisted : (s.books dialed).listed = some old.conns := by rw [books, hold]; rfl
      cases unhealthy with
      | nil => exact .take [] old.conns hlisted
      | cons c rest => exact .take (c :: rest) old.conns hlisted
    case isFalse => exact .quiet _
  | stop removed c rest pc =>
    -- what is left to stop when this connection has been
    have hnext : (s.remove unhealthy (.stop removed c rest pc)).2.elim .free
        (RemovePc.duty unhealthy) = .taken removed rest := by
      cases hx : (s.stopConn c pc).2 with
      | some pc' =>
        simp only [remove, hx]
        exact congrArg (Duty.taken removed) (stopConn_left hx rest)
      | none =>
        simp only [remove, hx]
        cases rest <;> rfl
    rw [hnext]
    show Acts limit _ .plain (.taken removed (pc.left c rest)) ((s.stopConn c pc).1.books dialed) _
    cases pc with
    | cas =>
      rw [stopConn_books_cas]
      exact .dismiss removed c rest
    | closing | unhealthy =>
      rw [stopConn_books s c (by simp)]
      exact .quiet _
  | active removed => exact .giveBack removed
  | idle removed => exact .settle removed

/-- The same for a goroutine that goes on at `f` in `removeUnhealthyConnections`, and at `b`
when it has returned; `duty` is what it has to do then. -/
theorem remove_acts_elim {β : Type} (duty : β → Duty ℕ) (limit : ℤ) (dialed : List ℕ)
    (s : HostPool N) {unhealthy : List ℕ} (pc : RemovePc) {f : RemovePc → β} {b : β}
    (hf : ∀ p, duty (f p) = p.duty unhealthy) (hb : duty b = .free) :
    Acts limit (s.books dialed) .plain (pc.duty unhealthy)
      ((s.remove unhealthy pc).1.books dialed) (duty ((s.remove unhealthy pc).2.elim b f)) := by
  have hacts := remove_acts limit dialed s unhealthy pc
  cases hx : (s.remove unhealthy pc).2 with
  | none =>
    rw [hx] at hacts
    exact hb.symm ▸ hacts
  | some p =>
    rw [hx] at hacts
    exact (hf p).symm ▸ hacts

theorem ensureConnection_books {c : ℕ} {ch : Choice} {pc : EnsurePc}
    {x : HostPool N × (EnsurePc ⊕ Bool)} (h : s.ensureConnection c ch pc = some x) :
    x.1.books dialed = s.books dialed := by
  cases pc with
  | test | retest | dial =>
    cases h
    rfl
  | lock =>
    rw [ensureConnection] at h
    split at h
    · cases h
    · cases h
      exact books_setSlot rfl
  | unhealthy | setHealthy | clearClosing | unlock ok =>
    cases h
    exact books_setSlot rfl

/-! ### Callers -/

/-- `t` has the goroutines of `s`. -/
structure SameWorkers (s t : HostPool N) : Prop where
  callers : t.callers = s.callers
  evictor : t.evictor = s.evictor
  stopper : t.stopper = s.stopper

theorem SameWorkers.refl (s : HostPool N) : SameWorkers s s := ⟨rfl, rfl, rfl⟩

theorem stopConn_workers (s : HostPool N) (c : ℕ) (pc : StopPc) :
    SameWorkers s (s.stopConn c pc).1 := by
  cases pc with
  | cas | closing =>
    rw [stopConn]
    split <;> exact ⟨rfl, rfl, rfl⟩
  | unhealthy => exact ⟨rfl, rfl, rfl⟩

theorem remove_workers (s : HostPool N) (unhealthy : List ℕ) (pc : RemovePc) :
    SameWorkers s (s.remove unhealthy pc).1 := by
  cases pc with
  | load =>
    rw [remove]
    split
    · exact .refl s
    · split <;> exact .refl s
  | cas old =>
    rw [remove]
    split <;> exact ⟨rfl, rfl, rfl⟩
  | stop removed c rest pc => exact stopConn_workers s c pc
  | active removed | idle removed => exact ⟨rfl, rfl, rfl⟩

theorem ensureConnection_workers {c : ℕ} {ch : Choice} {pc : EnsurePc}
    {x : HostPool N × (EnsurePc ⊕ Bool)} (h : s.ensureConnection c ch pc = some x) :
    SameWorkers s x.1 := by
  cases pc with
  | lock =>
    rw [ensureConnection] at h
    split at h
    · cases h
    · cases h
      exact ⟨rfl, rfl, rfl⟩
  | test | retest | dial | unhealthy | setHealthy | clearClosing | unlock ok =>
    cases h
    exact ⟨rfl, rfl, rfl⟩

/-- A caller that is about to reserve a place has seen that there is one. -/
def Within (limit : ℤ) (pc : CallerPc) : Prop := ∀ a cur, pc = .createCas a cur → cur < limit

/-- The step from `s` to `s'` is an act of caller `n`, if there is a place for what it makes. -/
structure Move (limit : ℤ) (dialed : List ℕ) (s : HostPool N) (n : Fin N) (s' : HostPool N) :
    Prop where
  others : ∀ m, m ≠ n → s'.callers m = s.callers m
  evictor : s'.evictor = s.evictor
  stopper : s'.stopper = s.stopper
  within : Within limit (s'.callers n)
  acts : Within limit (s.callers n) → ∃ deed, Acts limit (s.books dialed) deed (s.callers n).duty
      (s'.books (dialedAfter dialed (s.callers n) (s'.callers n))) (s'.callers n).duty
    ∧ deed ≠ .clear
    ∧ (deed = .giveUp → s.connections = none ∧ (s.callers n).publishing = true)

theorem setCaller_self (s : HostPool N) (n : Fin N) (pc : CallerPc) :
    (s.setCaller n pc).callers n = pc := Function.update_self ..

/-- A caller has acted and goes on at `pc`. -/
theorem Move.goOn (hsame : SameWorkers s t) (hwithin : Within limit pc)
    (hacts : Within limit (s.callers n) → Acts limit (s.books dialed) .plain (s.callers n).duty
      (t.books (dialedAfter dialed (s.callers n) pc)) pc.duty) :
    Move limit dialed s n (t.setCaller n pc) := by
  have hpc := setCaller_self t n pc
  refine ⟨fun m hm => ?_, hsame.evictor, hsame.stopper, hpc.symm ▸ hwithin, fun hw =>
    ⟨.plain, ?_, by simp, by simp⟩⟩
  · exact (Function.update_of_ne hm pc t.callers).trans (congrFun hsame.callers m)
  · rw [hpc]
    exact hacts hw

/-- The program counters of a caller that has nothing to do with the list, but may be
going to remove connections. -/
structure Light (limit : ℤ) (pc : CallerPc) : Prop where
  within : Within limit pc
  duty : pc.duty = .free ∨ ∃ unhealthy, pc.duty = .looking unhealthy

theorem light_of_free {pc : CallerPc} (hduty : pc.duty = .free)
    (hpc : ∀ a cur, pc ≠ .createCas a cur) : Light limit pc :=
  ⟨fun a cur h => absurd h (hpc a cur), .inl hduty⟩

theorem scanned_duty (a : ℕ) (sc : Scan) : (scanned a sc).duty = .free := by
  unfold scanned
  split
  · rfl
  · split_ifs <;> rfl

theorem scanned_within (a : ℕ) (sc : Scan) : Within limit (scanned a sc) := by
  intro b cur h
  unfold scanned at h
  split at h
  · cases h
  · split_ifs at h

theorem resume_light (a : ℕ) (sc : Scan) : Light limit (resume a sc) := by
  unfold resume
  generalize (if sc.second then sc.conns.length else sc.maxScan) = bound
  split_ifs
  · exact light_of_free rfl (by simp)
  · exact ⟨fun _ _ h => (by cases h), .inr ⟨_, rfl⟩⟩
  · exact light_of_free rfl (by simp)
  · exact ⟨scanned_within a sc, .inl (scanned_duty a sc)⟩

theorem anyResume_light (a : ℕ) (sc : Scan) : Light limit (anyResume a sc) := by
  unfold anyResume
  split_ifs
  · exact light_of_free rfl (by simp)
  · exact ⟨fun _ _ h => (by cases h), .inr ⟨_, rfl⟩⟩

theorem check_light (s : HostPool N) (a : ℕ) (sc : Scan) (c : ℕ) (ch : Choice) (pc : CheckPc) :
    Light limit (s.check a sc c ch pc) := by
  cases pc with
  | healthy | stopped | healthyAgain | stoppedAgain =>
    rw [check]
    split_ifs
    · first | exact resume_light a _ | exact light_of_free rfl (by simp)
    · first | exact resume_light a _ | exact light_of_free rfl (by simp)
  | active =>
    rw [check]
    split_ifs
    · exact light_of_free rfl (by simp)
    · exact light_of_free rfl (by simp)
    · exact resume_light a sc.skip
  | score => cases ch <;> exact resume_light a _

theorem withConns_light {f : List ℕ → CallerPc} {empty : CallerPc}
    (hf : ∀ conns, Light limit (f conns)) (hempty : Light limit empty) :
    Light limit (s.withConns f empty) := by
  unfold withConns
  split
  · exact hempty
  · split
    · exact hempty
    · exact hf _

/-- A caller that has nothing to do with the list goes on looking. -/
theorem Move.look (hsame : SameWorkers s t) (hbooks : t.books dialed = s.books dialed)
    (hfree : (s.callers n).duty = .free) (hpc : Light limit pc) :
    Move limit dialed s n (t.setCaller n pc) := by
  have hdialed : dialedAfter dialed (s.callers n) pc = dialed := by
    cases h : s.callers n with
    | dialing a c pc =>
      rw [h] at hfree
      cases hfree
    | _ => rfl
  refine .goOn hsame hpc.within fun _ => ?_
  rw [hdialed, hbooks, hfree]
  rcases hpc.duty with hduty | ⟨unhealthy, hduty⟩
  · rw [hduty]
    exact .quiet _
  · rw [hduty]
    exact .look unhealthy

/-- A caller in `removeUnhealthyConnections` goes on in it, or at `pc`. -/
theorem Move.remove {unhealthy : List ℕ} {rpc : RemovePc} {f : RemovePc → CallerPc}
    (hduty : (s.callers n).duty = rpc.duty unhealthy) (hf : ∀ p, (f p).duty = p.duty unhealthy)
    (hw : ∀ p, Within limit (f p)) (hpc : pc.duty = .free) (hwithin : Within limit pc) :
    Move limit dialed s n
      ((s.remove unhealthy rpc).1.setCaller n ((s.remove unhealthy rpc).2.elim pc f)) := by
  have hdialed (p : CallerPc) : dialedAfter dialed (s.callers n) p = dialed := by
    cases h : s.callers n with
    | dialing a c pc =>
      rw [h] at hduty
      cases rpc <;> cases hduty
    | _ => rfl
  refine .goOn (remove_workers s unhealthy rpc) ?_ fun _ => ?_
  · cases (s.remove unhealthy rpc).2 with
    | none => exact hwithin
    | some p => exact hw p
  · rw [hdialed, hduty]
    exact remove_acts_elim CallerPc.duty limit dialed s rpc hf hpc

theorem within_of_ne {pc : CallerPc} (h : ∀ a cur, pc ≠ .createCas a cur) : Within limit pc :=
  fun a cur hpc => absurd hpc (h a cur)

/-- A new connection takes the place reserved for it. -/
theorem Move.make {a : ℕ} (hpc : s.callers n = .createNew a) :
    Move limit dialed s n ({ s with
      numConns := s.numConns + 1
      slots := update s.slots s.numConns {} }.setCaller n (.dialing a s.numConns .test)) := by
  refine .goOn ⟨rfl, rfl, rfl⟩ (within_of_ne (by simp)) fun _ => ?_
  rw [hpc]
  have hbooks : HostPool.books { s with
      numConns := s.numConns + 1, slots := update s.slots s.numConns {} } dialed
      = { s.books dialed with
          made := update (s.books dialed).made s.numConns true
          dismissed := update (s.books dialed).dismissed s.numConns false } := by
    unfold books
    congr
    · funext c
      rcases Nat.lt_trichotomy c s.numConns with hc | rfl | hc
      · rw [Function.update_of_ne (by omega)]
        simp only [decide_eq_decide]
        omega
      · simp
      · rw [Function.update_of_ne (by omega)]
        simp only [decide_eq_decide]
        omega
    · funext c
      rcases eq_or_ne c s.numConns with rfl | hc
      · simp
      · simp [Function.update_of_ne hc]
  show Acts _ _ _ _ (HostPool.books { s with
      numConns := s.numConns + 1, slots := update s.slots s.numConns {} } dialed) _
  rw [hbooks]
  exact .make s.numConns (by simp [books])

/-- `createConnection` has dialed, or failed to, or goes on dialing. -/
theorem Move.dial {a c : ℕ} {ch : Choice} {epc : EnsurePc} {x : HostPool N × (EnsurePc ⊕ Bool)}
    (hpc : s.callers n = .dialing a c epc) (hx : s.ensureConnection c ch epc = some x) :
    Move limit dialed s n (x.1.setCaller n (afterDial a c x.2)) := by
  have hbooks (l : List ℕ) : x.1.books l = s.books l := ensureConnection_books hx
  refine .goOn (ensureConnection_workers hx) ?_ fun _ => ?_
  · rcases x.2 with epc | _ | _
    · exact within_of_ne (by simp [afterDial])
    · exact within_of_ne (by simp [afterDial])
    · exact within_of_ne (by simp [afterDial])
  · rw [hbooks, hpc]
    rcases x.2 with epc | _ | _
    · exact .quiet _
    · exact .fail c
    · have hsound : s.books (c :: dialed)
          = { s.books dialed with sound := update (s.books dialed).sound c true } := by
        unfold books
        congr
        funext d
        rcases eq_or_ne d c with rfl | hd
        · simp
        · simp [hd]
      show Acts _ _ _ _ (s.books (c :: dialed)) _
      rw [hsound]
      exact .succeed c

/-- `createConnection` looks for the list to append to. -/
theorem Move.publishLoad {a c : ℕ} (hpc : s.callers n = .publishLoad a c) :
    Move limit dialed s n (s.setCaller n (s.connections.elim (.undo a) (.publish a c))) := by
  cases hconn : s.connections with
  | some old =>
    refine .goOn (.refl s) (within_of_ne (by simp)) fun _ => ?_
    rw [hpc]
    exact .quiet _
  | none =>
    have hself := setCaller_self s n (.undo a)
    refine ⟨fun m hm => Function.update_of_ne hm _ s.callers, rfl, rfl, ?_, fun _ => ⟨.giveUp, ?_,
      by simp, fun _ => ⟨hconn, by rw [hpc]; rfl⟩⟩⟩
    · show Within limit ((s.setCaller n (.undo a)).callers n)
      rw [hself]
      exact within_of_ne (by simp)
    · show Acts _ _ _ _ (s.books (dialedAfter dialed _ ((s.setCaller n (.undo a)).callers n)))
        ((s.setCaller n (.undo a)).callers n).duty
      rw [hself, hpc]
      exact .giveUp c (by simp [books, hconn])

/-- `createConnection` appends the connection. -/
theorem Move.publish {a c : ℕ} {old : Slice} (hpc : s.callers n = .publish a c old)
    (hold : s.connections = some old) :
    Move limit dialed s n ({ s with
      connections := some ⟨s.nextPtr, old.conns ++ [c]⟩
      nextPtr := s.nextPtr + 1 }.setCaller n (.created c)) := by
  refine .goOn ⟨rfl, rfl, rfl⟩ (within_of_ne (by simp)) fun _ => ?_
  rw [hpc]
  exact .enter c old.conns (by simp [books, hold])

/-- A step of `GetConnection` and `Do` without pipelining is an act of the caller. -/
theorem caller_move {ch : Choice} (hs : s.caller limit n ch = some s') :
    Move limit dialed s n s' := by
  unfold caller at hs
  generalize hpc : s.callers n = pc at hs
  have hduty : (s.callers n).duty = pc.duty := by rw [hpc]
  -- getIdleConnection only looks at the list; it takes part in the removal of what it rejects
  cases pc with
  | idle =>
    cases hs
    exact .look (.refl s) rfl hduty (light_of_free rfl (by simp))
  | idleLoad a | anyLoad a =>
    cases hs
    exact .look (.refl s) rfl hduty
      (withConns_light (fun _ => light_of_free rfl (by simp)) (light_of_free rfl (by simp)))
  | idleIndex a conns =>
    cases hs
    exact .look (.refl s) rfl hduty (resume_light a _)
  | check a sc pc =>
    obtain ⟨c, -, rfl⟩ := Option.map_eq_some_iff.mp hs
    exact .look (.refl s) rfl hduty (check_light s a sc c ch pc)
  | removing a sc pc =>
    cases hs
    refine .remove hduty (fun _ => rfl) (fun _ => within_of_ne (by simp)) ?_ ?_
    · split
      · rfl
      · exact scanned_duty a sc
    · split
      · exact within_of_ne (by simp)
      · exact scanned_within a sc
  | claim a sc c idx =>
    dsimp only at hs
    split at hs <;> cases hs
    · exact .look ⟨rfl, rfl, rfl⟩ (books_setSlot rfl) hduty (light_of_free rfl (by simp))
    · refine .look (.refl s) rfl hduty ?_
      split
      · exact resume_light a sc.skip
      · exact light_of_free rfl (by simp)
  | mark sc c idx =>
    cases hs
    exact .look ⟨rfl, rfl, rfl⟩ (books_setSlot rfl) hduty (light_of_free rfl (by simp))
  | storeIndex sc c idx =>
    cases hs
    refine .look ⟨rfl, rfl, rfl⟩ rfl hduty ?_
    split
    · exact ⟨within_of_ne (by simp), .inr ⟨_, rfl⟩⟩
    · exact light_of_free rfl (by simp)
  | removingLate sc c pc =>
    cases hs
    exact .remove hduty (fun _ => rfl) (fun _ => within_of_ne (by simp)) rfl (within_of_ne (by simp))
  -- createConnection: the test of the limit and the reservation are two steps
  | createLoad a =>
    cases hs
    refine .look (.refl s) rfl hduty ?_
    split
    · exact light_of_free rfl (by simp)
    · case _ hroom =>
      refine ⟨fun b cur h => ?_, .inl rfl⟩
      obtain ⟨-, rfl⟩ : a = b ∧ s.activeCount = cur := by simpa using h
      omega
  | createCas a cur =>
    dsimp only at hs
    split at hs <;> cases hs
    · case _ hcur =>
      refine .goOn ⟨rfl, rfl, rfl⟩ (within_of_ne (by simp)) fun hwithin => ?_
      have hroom : s.activeCount < limit := hcur.symm ▸ hwithin a cur hpc
      rw [hpc]
      show Acts _ _ _ _ { s.books dialed with places := cur + 1 } _
      rw [← hcur]
      exact .reserve hroom
    · exact .look (.refl s) rfl hduty (light_of_free rfl (by simp))
  | createNew a =>
    cases hs
    exact .make hpc
  | dialing a c pc =>
    obtain ⟨x, hx, rfl⟩ := Option.map_eq_some_iff.mp hs
    exact .dial hpc hx
  | undo a =>
    cases hs
    refine .goOn ⟨rfl, rfl, rfl⟩ (within_of_ne (by simp)) fun _ => ?_
    rw [hpc]
    exact .release
  | publishLoad a c =>
    cases hs
    exact .publishLoad hpc
  | publish a c old =>
    dsimp only at hs
    split at hs <;> cases hs
    · case _ hold => exact .publish hpc hold
    · refine .goOn (.refl s) (within_of_ne (by simp)) fun _ => ?_
      rw [hpc]
      exact .quiet _
  | created c =>
    cases hs
    refine .goOn ⟨rfl, rfl, rfl⟩ (within_of_ne (by simp)) fun _ => ?_
    rw [hpc]
    exact .count
  -- getAnyConnection
  | elapsed a | sleep a =>
    cases hs
    refine .look (.refl s) rfl hduty ?_
    split <;> exact light_of_free rfl (by simp)
  | anyIndex a conns | got c =>
    cases hs
    exact .look (.refl s) rfl hduty (light_of_free rfl (by simp))
  | anyHealthy a sc | anyStopped a sc =>
    obtain ⟨c, -, rfl⟩ := Option.map_eq_some_iff.mp hs
    refine .look (.refl s) rfl hduty ?_
    split
    · first | exact anyResume_light a _ | exact light_of_free rfl (by simp)
    · first | exact anyResume_light a _ | exact light_of_free rfl (by simp)
  | anyStore a sc c =>
    cases hs
    refine .look ⟨rfl, rfl, rfl⟩ rfl hduty ?_
    split
    · exact light_of_free rfl (by simp)
    · exact ⟨within_of_ne (by simp), .inr ⟨_, rfl⟩⟩
  | anyRemoving a sc found pc =>
    cases hs
    refine .remove hduty (fun _ => rfl) (fun _ => within_of_ne (by simp)) ?_ ?_
    · cases found <;> rfl
    · cases found <;> exact within_of_ne (by simp)
  -- Do has nothing to do with the list
  | gotNil | done => cases hs
  | ensure c pc =>
    obtain ⟨x, hx, rfl⟩ := Option.map_eq_some_iff.mp hs
    refine .look (ensureConnection_workers hx) (ensureConnection_books hx) hduty ?_
    rcases x.2 with epc | _ | _
    · exact light_of_free rfl (by simp [afterEnsure])
    · exact light_of_free rfl (by simp [afterEnsure])
    · exact light_of_free rfl (by simp [afterEnsure])
  | swap c =>
    dsimp only at hs
    split at hs <;> cases hs
    · exact .look ⟨rfl, rfl, rfl⟩ (books_setSlot rfl) hduty (light_of_free rfl (by simp))
    · exact .look (.refl s) rfl hduty (light_of_free rfl (by simp))
  | count c | leave c =>
    cases hs
    exact .look ⟨rfl, rfl, rfl⟩ (books_setSlot rfl) hduty (light_of_free rfl (by simp))
  | inside c =>
    dsimp only at hs
    split at hs
    · case _ b =>
      cases hs
      have hself := Function.update_eq_self n s.callers
      have hmove : Move limit dialed s n
          ((s.setSlot c { s.slots c with healthy := b }).setCaller n (s.callers n)) :=
        .look ⟨rfl, rfl, rfl⟩ (books_setSlot rfl) hduty (hpc ▸ light_of_free rfl (by simp))
      rwa [setCaller, show (s.setSlot c { s.slots c with healthy := b }).callers = s.callers from rfl,
        hself] at hmove
    · cases hs
      exact .look (.refl s) rfl hduty (light_of_free rfl (by simp))

/-! ### The other goroutines -/

theorem evictNext_duty (rest idle : List ℕ) :
    (evictNext rest idle).duty = .free ∨ ∃ batch, (evictNext rest idle).duty = .looking batch := by
  unfold evictNext
  split_ifs
  · exact .inl rfl
  · exact .inr ⟨idle, rfl⟩
  · exact .inl rfl

/-- The evictor leaves the other goroutines alone. -/
theorem evict_same {ch : Choice} (hs : s.evict ch = some s') :
    s'.callers = s.callers ∧ s'.stopper = s.stopper := by
  unfold evict at hs
  split at hs <;> cases hs
  case h_6 idle pc _ =>
    have hsame := remove_workers s idle pc
    exact ⟨hsame.callers, hsame.stopper⟩
  all_goals exact ⟨rfl, rfl⟩

/-- A step of the evictor is an act of it. -/
theorem evict_acts {ch : Choice} (hs : s.evict ch = some s') :
    Acts limit (s.books dialed) .plain s.evictor.duty (s'.books dialed) s'.evictor.duty := by
  have hlook (pc : EvictPc) (hpc : pc.duty = .free ∨ ∃ batch, pc.duty = .looking batch) :
      Acts limit (s.books dialed) .plain .free (s.books dialed) pc.duty := by
    rcases hpc with hpc | ⟨batch, hpc⟩
    · rw [hpc]
      exact .quiet _
    · rw [hpc]
      exact .look batch
  unfold evict at hs
  split at hs
  case h_1 hpc =>
    cases hs
    rw [hpc]
    refine hlook _ ?_
    cases s.connections with
    | none => exact .inl rfl
    | some old => exact evictNext_duty old.conns []
  case h_2 c rest idle hpc | h_3 c rest idle hpc | h_4 c rest idle hpc | h_5 c rest idle hpc =>
    cases hs
    rw [hpc]
    refine hlook _ ?_
    split
    · first | exact .inl rfl | exact evictNext_duty rest _
    · first | exact .inl rfl | exact evictNext_duty rest _
  case h_6 idle pc hpc =>
    cases hs
    rw [hpc]
    exact remove_acts_elim EvictPc.duty limit dialed s pc (fun _ => rfl) rfl
  all_goals cases hs

/-- What is left to stop behind the step at `pc`. -/
theorem stopConn_acts (s : HostPool N) (c : ℕ) (rest : List ℕ) (pc : StopPc) :
    Acts limit (s.books dialed) .plain (.clearing (pc.left c rest))
      ((s.stopConn c pc).1.books dialed) (.clearing rest) := by
  cases pc with
  | cas =>
    rw [stopConn_books_cas]
    exact .dismissLast c rest
  | closing | unhealthy =>
    rw [stopConn_books s c (by simp)]
    exact .quiet _

/-- `Stop` leaves the other goroutines alone. -/
theorem stop_same (hs : s.stop = some s') : s'.callers = s.callers ∧ s'.evictor = s.evictor := by
  unfold stop at hs
  split at hs <;> cases hs
  · exact ⟨rfl, rfl⟩
  · case _ c rest pc _ =>
    have hsame := stopConn_workers s c pc
    exact ⟨hsame.callers, hsame.evictor⟩

/-- A step of `Stop` is an act of it. -/
theorem stop_acts (hs : s.stop = some s') :
    ∃ deed, Acts limit (s.books dialed) deed s.stopper.duty (s'.books dialed) s'.stopper.duty
      ∧ deed ≠ .giveUp := by
  unfold stop at hs
  split at hs
  · case _ hpc =>
    cases hs
    refine ⟨.clear, ?_, by simp⟩
    rw [hpc]
    have hclear : Acts limit (s.books dialed) .clear .free _ _ := .clear
    -- the duty is to stop what was listed
    have hlisted : (s.books dialed).listed = s.connections.map Slice.conns := rfl
    rw [hlisted] at hclear
    rcases hconn : s.connections with _ | ⟨ptr, _ | ⟨c, rest⟩⟩ <;> rw [hconn] at hclear <;>
      exact hclear
  · case _ c rest pc hpc =>
    cases hs
    refine ⟨.plain, ?_, by simp⟩
    rw [hpc]
    have hacts : Acts limit (s.books dialed) .plain _ _ _ := stopConn_acts s c rest pc
    cases hx : (s.stopConn c pc).2 with
    | some pc' =>
      show Acts _ _ _ _ _ (.clearing (pc'.left c rest))
      rw [stopConn_left hx]
      exact hacts
    | none => cases rest <;> exact hacts
  · cases hs

end HostPool

/-! ### The pool as a whole -/

/-- The steps of `Stop` and of `GracefulStop`. -/
def Label.Stops {N R : ℕ} : Label N R → Prop
  | .stopper | .graceful _ _ => True
  | _ => False

instance {N R : ℕ} : DecidablePred (@Label.Stops N R)
  | .stopper | .graceful _ _ => .isTrue trivial
  | .caller _ _ | .remover _ _ | .evictor _ | .evictorExit | .reader _ _ | .tune _ _ =>
    .isFalse id

namespace System

open HostPool (Light Move SameWorkers Within light_of_free resume_light within_of_ne)

variable {N R : ℕ} {cfg : Config} {s s' : System N R} {n : Fin N} {limit : ℤ}

/-- With pipelining callers have no more to do with the list. -/
theorem pipelined_move {ch : Choice} {p : HostPool N}
    (hs : s.pipelined limit n ch = some p) : Move limit s.dialed s.pool n p := by
  unfold pipelined at hs
  dsimp only at hs
  split at hs
  · case _ a sc hpc =>
    obtain ⟨c, -, rfl⟩ := Option.map_eq_some_iff.mp hs
    refine .look (.refl _) rfl (by rw [hpc]; rfl) ?_
    generalize (if s.depth c ≤ 0 then (10 : ℤ) else s.depth c) = depth
    split_ifs
    · exact light_of_free rfl (by simp)
    · exact light_of_free rfl (by simp)
    · exact resume_light a sc.skip
  · case _ a sc c idx hpc =>
    cases hs
    exact .look (.refl _) rfl (by rw [hpc]; rfl) (light_of_free rfl (by simp))
  · case _ c hpc =>
    cases hs
    refine .look (.refl _) rfl (by rw [hpc]; rfl) ?_
    split <;> exact light_of_free rfl (by simp)
  · case _ c hpc =>
    have hfree : (s.pool.callers n).duty = .free := by rw [hpc]; rfl
    split at hs
    · case _ b =>
      have hcaller : s.pool.caller limit n (.setHealthy b) = some p := by
        rw [HostPool.caller, hpc]
        exact hs
      exact HostPool.caller_move hcaller
    · cases hs
      exact .look (.refl _) rfl hfree (light_of_free rfl (by simp))
    · cases hs
      exact .look (.refl _) rfl hfree (light_of_free rfl (by simp))
  · exact HostPool.caller_move hs

/-- A step of a caller is an act at its host pool, and changes no other goroutine. -/
structure Calls (cfg : Config) (s : System N R) (n : Fin N) (s' : System N R) : Prop where
  move : Move cfg.limit s.dialed s.pool n s'.pool
  dialed : s'.dialed = dialedAfter s.dialed (s.pool.callers n) (s'.pool.callers n)
  removers : s'.removers = s.removers
  graceful : s'.graceful = s.graceful
  begun : s'.begun = s.begun
  warm : ∀ m, (s'.warm m).isNone = (s.warm m).isNone

theorem warmUp_calls {k : ℕ} {ch : Choice} (hk : s.warm n = some k)
    (hs : s.warmUp cfg.limit n k ch = some s') :
    Move cfg.limit s.dialed s.pool n s'.pool ∧ s'.removers = s.removers
      ∧ s'.graceful = s.graceful ∧ s'.begun = s.begun
      ∧ ∀ m, (s'.warm m).isNone = (s.warm m).isNone := by
  have hlook (pc : CallerPc) (hfree : (s.pool.callers n).duty = .free) (hpc : pc.duty = .free)
      (hne : ∀ a cur, pc ≠ .createCas a cur) :
      Move cfg.limit s.dialed s.pool n (s.pool.setCaller n pc) :=
    .look (.refl _) rfl hfree (light_of_free hpc hne)
  have hturn (j : ℕ) (m : Fin N) : (update s.warm n (some j) m).isNone = (s.warm m).isNone := by
    rcases eq_or_ne m n with rfl | hm
    · rw [Function.update_self, hk]
      rfl
    · rw [Function.update_of_ne hm]
  unfold warmUp at hs
  split at hs
  case h_1 hpc | h_2 c hpc =>
    have hfree : (s.pool.callers n).duty = .free := by rw [hpc]; rfl
    split at hs <;> cases hs
    · exact ⟨hlook .done hfree rfl (by simp), rfl, rfl, rfl, fun _ => rfl⟩
    · exact ⟨hlook _ hfree rfl (by simp), rfl, rfl, rfl, hturn _⟩
  case h_3 a hpc =>
    cases hs
    exact ⟨hlook .done (by rw [hpc]; rfl) rfl (by simp), rfl, rfl, rfl, fun _ => rfl⟩
  case h_4 =>
    obtain ⟨p, hp, rfl⟩ := Option.map_eq_some_iff.mp hs
    exact ⟨HostPool.caller_move hp, rfl, rfl, rfl, fun _ => rfl⟩

theorem caller_calls {ch : Choice} (hs : s.caller cfg n ch = some s') : Calls cfg s n s' := by
  obtain ⟨t, ht, rfl⟩ := Option.map_eq_some_iff.mp hs
  split at ht
  · case _ k hk =>
    obtain ⟨hmove, hremovers, hgraceful, hbegun, hwarm⟩ := warmUp_calls hk ht
    exact ⟨hmove, rfl, hremovers, hgraceful, hbegun, hwarm⟩
  · obtain ⟨p, hp, rfl⟩ := Option.map_eq_some_iff.mp ht
    split at hp
    · exact ⟨pipelined_move hp, rfl, rfl, rfl, rfl, fun _ => rfl⟩
    · exact ⟨HostPool.caller_move hp, rfl, rfl, rfl, rfl, fun _ => rfl⟩

/-- `createConnection` finds no list for the connection it has dialed. -/
def GivesUp (s : System N R) : Label N R → Prop
  | .caller n _ => s.pool.connections = none ∧ (s.pool.callers n).publishing = true
  | _ => False

/-- `GracefulStop` leaves the other goroutines alone. -/
theorem gracefulStop_same {late : Bool} {others : ℤ} (hs : s.gracefulStop late others = some s') :
    SameWorkers s.pool s'.pool ∧ s'.removers = s.removers ∧ s'.warm = s.warm := by
  unfold gracefulStop at hs
  split at hs
  case h_2 hpc =>
    split at hs <;> cases hs
    exact ⟨⟨rfl, rfl, rfl⟩, rfl, rfl⟩
  case h_8 ok c rest pc hpc =>
    cases hs
    exact ⟨HostPool.stopConn_workers s.pool c pc, rfl, rfl⟩
  case h_9 => cases hs
  all_goals
    cases hs
    exact ⟨⟨rfl, rfl, rfl⟩, rfl, rfl⟩

/-- A step of `GracefulStop` is an act of it. -/
theorem gracefulStop_acts {late : Bool} {others : ℤ} (hs : s.gracefulStop late others = some s') :
    ∃ deed, Acts limit (s.pool.books s.dialed) deed s.graceful.duty (s'.pool.books s'.dialed)
      s'.graceful.duty ∧ deed ≠ .giveUp := by
  unfold gracefulStop at hs
  split at hs
  case h_1 hpc | h_4 hpc | h_5 c rest total hpc =>
    cases hs
    rw [hpc]
    exact ⟨.plain, .quiet _, by simp⟩
  case h_2 hpc =>
    split at hs <;> cases hs
    rw [hpc]
    exact ⟨.plain, .quiet _, by simp⟩
  case h_3 hpc | h_6 total hpc =>
    cases hs
    refine ⟨.plain, ?_, by simp⟩
    rw [hpc]
    dsimp only
    split <;> exact .quiet _
  case h_7 ok hpc =>
    cases hs
    refine ⟨.clear, ?_, by simp⟩
    rw [hpc]
    have hclear : Acts limit (s.pool.books s.dialed) .clear .free _ _ := .clear
    have hlisted : (s.pool.books s.dialed).listed = s.pool.connections.map Slice.conns := rfl
    rw [hlisted] at hclear
    rcases hconn : s.pool.connections with _ | ⟨ptr, _ | ⟨c, rest⟩⟩ <;> rw [hconn] at hclear <;>
      exact hclear
  case h_8 ok c rest pc hpc =>
    cases hs
    refine ⟨.plain, ?_, by simp⟩
    rw [hpc]
    have hacts : Acts limit (s.pool.books s.dialed) .plain _ _ _ :=
      HostPool.stopConn_acts s.pool c rest pc
    cases hx : (s.pool.stopConn c pc).2 with
    | some pc' =>
      show Acts _ _ _ _ _ (.clearing (pc'.left c rest))
      rw [HostPool.stopConn_left hx]
      exact hacts
    | none => cases rest <;> exact hacts
  case h_9 => cases hs

/-- What a step does to the list and the counters is an act of one worker. -/
structure Acted (cfg : Config) (s s' : System N R) (l : Label N R) (w : Worker N R) (deed : Deed) :
    Prop where
  acts : Acts cfg.limit s.roster.shared deed (s.duty w) s'.roster.shared (s'.duty w)
  others : ∀ v, v ≠ w → s'.duty v = s.duty v
  clear : deed = .clear → l.Stops
  giveUp : deed = .giveUp → s.GivesUp l

theorem Acted.duty {l : Label N R} {w : Worker N R} {deed : Deed} (h : Acted cfg s s' l w deed) :
    s'.roster = ⟨s'.roster.shared, update s.roster.duty w (s'.duty w)⟩ := by
  have hduty : s'.duty = update s.duty w (s'.duty w) :=
    Function.eq_update_iff.mpr ⟨rfl, h.others⟩
  conv_lhs => rw [roster, hduty]
  rfl

/-- A step that no worker at the list has a part in. -/
theorem Acted.quiet {l : Label N R} (h : s'.roster = s.roster) : Acted cfg s s' l .evictor .plain := by
  have hduty : s'.duty = s.duty := congrArg Roster.State.duty h
  refine ⟨?_, fun v _ => congrFun hduty v, by simp, by simp⟩
  rw [h, hduty]
  exact .quiet _

theorem caller_acted {ch : Choice} (hwithin : Within cfg.limit (s.pool.callers n))
    (hs : s.caller cfg n ch = some s') :
    ∃ deed, Acted cfg s s' (.caller n ch) (.caller n) deed := by
  have hcalls := caller_calls hs
  have hmove := hcalls.move
  obtain ⟨deed, hacts, hclear, hgive⟩ := hmove.acts hwithin
  refine ⟨deed, ?_, fun v hv => ?_, fun h => absurd h hclear, hgive⟩
  · show Acts _ _ _ _ (s'.pool.books s'.dialed) _
    rw [hcalls.dialed]
    exact hacts
  · cases v with
    | caller m =>
      have hm : m ≠ n := fun h => hv (h ▸ rfl)
      exact congrArg CallerPc.duty (hmove.others m hm)
    | remover r => simp only [duty, hcalls.removers]
    | evictor => simp only [duty, hmove.evictor]
    | stopper => simp only [duty, hmove.stopper]
    | graceful => simp only [duty, hcalls.graceful]

theorem remover_acted (cfg : Config) (s : System N R) (r : Fin R) (batch : List ℕ) :
    Acted cfg s (s.remover r batch) (.remover r batch) (.remover r) .plain := by
  unfold remover
  split
  · case _ hnone =>
    refine ⟨?_, fun v hv => ?_, by simp, by simp⟩
    · simp only [duty, hnone, Function.update_self]
      exact .look batch
    · cases v with
      | remover q =>
        have hq : q ≠ r := fun h => hv (h ▸ rfl)
        simp only [duty, Function.update_of_ne hq]
      | caller m | evictor | stopper | graceful => rfl
  · case _ unhealthy pc hsome =>
    have hsame := HostPool.remove_workers s.pool unhealthy pc
    have hacts := HostPool.remove_acts cfg.limit s.dialed s.pool unhealthy pc
    refine ⟨?_, fun v hv => ?_, by simp, by simp⟩
    · simp only [duty, hsome, Function.update_self]
      cases hx : (s.pool.remove unhealthy pc).2 with
      | none =>
        rw [hx] at hacts
        exact hacts
      | some p =>
        rw [hx] at hacts
        exact hacts
    · cases v with
      | remover q =>
        have hq : q ≠ r := fun h => hv (h ▸ rfl)
        simp only [duty, Function.update_of_ne hq]
      | caller m => simp only [duty, hsame.callers]
      | evictor => simp only [duty, hsame.evictor]
      | stopper => simp only [duty, hsame.stopper]
      | graceful => rfl

theorem evictor_acted {ch : Choice} {p : HostPool N} (hp : s.pool.evict ch = some p) :
    Acted cfg s { s with pool := p } (.evictor ch) .evictor .plain := by
  obtain ⟨hcallers, hstopper⟩ := HostPool.evict_same hp
  refine ⟨HostPool.evict_acts hp, fun v hv => ?_, by simp, by simp⟩
  cases v with
  | caller m => simp only [duty, hcallers]
  | evictor => exact absurd rfl hv
  | stopper => simp only [duty, hstopper]
  | remover r | graceful => rfl

theorem stopper_acted {p : HostPool N} (hp : s.pool.stop = some p) :
    ∃ deed, Acted cfg s { s with pool := p } .stopper .stopper deed := by
  obtain ⟨deed, hacts, hgive⟩ := HostPool.stop_acts hp
  obtain ⟨hcallers, hevictor⟩ := HostPool.stop_same hp
  refine ⟨deed, hacts, fun v hv => ?_, fun _ => trivial, fun h => absurd h hgive⟩
  cases v with
  | caller m => simp only [duty, hcallers]
  | evictor => simp only [duty, hevictor]
  | stopper => exact absurd rfl hv
  | remover r | graceful => rfl

theorem graceful_acted {late : Bool} {others : ℤ} (hs : s.gracefulStop late others = some s') :
    ∃ deed, Acted cfg s s' (.graceful late others) .graceful deed := by
  obtain ⟨deed, hacts, hgive⟩ := gracefulStop_acts hs
  obtain ⟨hsame, hremovers, -⟩ := gracefulStop_same hs
  refine ⟨deed, hacts, fun v hv => ?_, fun _ => trivial, fun h => absurd h hgive⟩
  cases v with
  | caller m => simp only [duty, hsame.callers]
  | remover r => simp only [duty, hremovers]
  | evictor => simp only [duty, hsame.evictor]
  | stopper => simp only [duty, hsame.stopper]
  | graceful => exact absurd rfl hv

/-- A step of the pool is an act of one worker. -/
theorem step_acted {l : Label N R} (hwithin : ∀ n, Within cfg.limit (s.pool.callers n))
    (hs : s.step cfg l = some s') : ∃ w deed, Acted cfg s s' l w deed := by
  cases l with
  | caller n ch => exact ⟨_, caller_acted (hwithin n) hs⟩
  | remover r batch =>
    cases hs
    exact ⟨_, _, remover_acted cfg s r batch⟩
  | evictor ch =>
    rw [step] at hs
    split at hs
    · obtain ⟨p, hp, rfl⟩ := Option.map_eq_some_iff.mp hs
      exact ⟨_, _, evictor_acted hp⟩
    · cases hs
  | evictorExit =>
    rw [step] at hs
    split at hs
    · split at hs <;> cases hs
      exact ⟨_, _, .quiet rfl⟩
    · cases hs
  | stopper =>
    change s.stop = some s' at hs
    unfold stop at hs
    split at hs
    · cases hs
      exact ⟨_, _, .quiet rfl⟩
    · split at hs
      · cases hs
      · obtain ⟨p, hp, rfl⟩ := Option.map_eq_some_iff.mp hs
        exact ⟨_, stopper_acted hp⟩
  | graceful late others => exact ⟨_, graceful_acted hs⟩
  | reader c ch =>
    rw [step] at hs
    split at hs <;> cases hs
    refine ⟨_, _, .quiet ?_⟩
    have hbooks : (s.reader c ch).pool.books s.dialed = s.pool.books s.dialed := by
      unfold reader
      dsimp only
      split <;> exact HostPool.books_setSlot rfl
    exact congrArg (Roster.State.mk · s.duty) hbooks
  | tune c depth =>
    cases hs
    exact ⟨_, _, .quiet rfl⟩

/-- Who changes what: callers their own program counters, the evictor and `GracefulStop`
theirs. -/
structure StepFrame (l : Label N R) (s s' : System N R) : Prop where
  callers : (∀ n ch, l ≠ .caller n ch) → s'.pool.callers = s.pool.callers
  warm : ∀ n, (s'.warm n).isNone = (s.warm n).isNone
  evictor : (∀ ch, l ≠ .evictor ch) → s'.pool.evictor = s.pool.evictor
  graceful : (∀ late others, l ≠ .graceful late others) →
    s'.graceful = s.graceful ∧ s'.begun = s.begun

theorem step_frame {l : Label N R} (hs : s.step cfg l = some s') : StepFrame l s s' := by
  cases l with
  | caller n ch =>
    have hcalls := caller_calls hs
    exact ⟨fun hl => absurd rfl (hl n ch), hcalls.warm, fun _ => hcalls.move.evictor,
      fun _ => ⟨hcalls.graceful, hcalls.begun⟩⟩
  | remover r batch =>
    cases hs
    unfold remover
    split
    · exact ⟨fun _ => rfl, fun _ => rfl, fun _ => rfl, fun _ => ⟨rfl, rfl⟩⟩
    · case _ unhealthy pc _ =>
      have hsame := HostPool.remove_workers s.pool unhealthy pc
      exact ⟨fun _ => hsame.callers, fun _ => rfl, fun _ => hsame.evictor, fun _ => ⟨rfl, rfl⟩⟩
  | evictor ch =>
    rw [step] at hs
    split at hs
    · obtain ⟨p, hp, rfl⟩ := Option.map_eq_some_iff.mp hs
      exact ⟨fun _ => (HostPool.evict_same hp).1, fun _ => rfl, fun hl => absurd rfl (hl ch),
        fun _ => ⟨rfl, rfl⟩⟩
    · cases hs
  | evictorExit =>
    rw [step] at hs
    split at hs
    · split at hs <;> cases hs
      exact ⟨fun _ => rfl, fun _ => rfl, fun _ => rfl, fun _ => ⟨rfl, rfl⟩⟩
    · cases hs
  | stopper =>
    change s.stop = some s' at hs
    unfold stop at hs
    split at hs
    · cases hs
      exact ⟨fun _ => rfl, fun _ => rfl, fun _ => rfl, fun _ => ⟨rfl, rfl⟩⟩
    · split at hs
      · cases hs
      · obtain ⟨p, hp, rfl⟩ := Option.map_eq_some_iff.mp hs
        obtain ⟨hcallers, hevictor⟩ := HostPool.stop_same hp
        exact ⟨fun _ => hcallers, fun _ => rfl, fun _ => hevictor, fun _ => ⟨rfl, rfl⟩⟩
  | graceful late others =>
    obtain ⟨hsame, -, hwarm⟩ := gracefulStop_same hs
    exact ⟨fun _ => hsame.callers, fun n => by rw [hwarm], fun _ => hsame.evictor,
      fun hl => absurd rfl (hl late others)⟩
  | reader c ch =>
    rw [step] at hs
    split at hs <;> cases hs
    exact ⟨fun _ => rfl, fun _ => rfl, fun _ => rfl, fun _ => ⟨rfl, rfl⟩⟩
  | tune c depth =>
    cases hs
    exact ⟨fun _ => rfl, fun _ => rfl, fun _ => rfl, fun _ => ⟨rfl, rfl⟩⟩

/-- Callers keep to the bound. -/
theorem step_within {l : Label N R} (hwithin : ∀ n, Within cfg.limit (s.pool.callers n))
    (hs : s.step cfg l = some s') (n : Fin N) : Within cfg.limit (s'.pool.callers n) := by
  by_cases hl : ∃ m ch, l = .caller m ch
  · obtain ⟨m, ch, rfl⟩ := hl
    have hmove := (caller_calls hs).move
    rcases eq_or_ne n m with rfl | hn
    · exact hmove.within
    · rw [hmove.others n hn]
      exact hwithin n
  · push Not at hl
    rw [(step_frame hs).callers hl]
    exact hwithin n

end System

end BurstHttp.Pool
