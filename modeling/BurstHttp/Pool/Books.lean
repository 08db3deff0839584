/-
The list of connections of a host pool and the counters beside it.

* `list_balanced` — whatever goroutines do side by side without stopping the pool,
  the list has no duplicates, `activeCount` is its length with the creations and
  removals under way, both are at most `maxIdle`, and between calls both counters are
  the length of the list;
* `poolSize_bounds_iff` — which configurations keep the connections of a host within
  `PoolSize`;
* `poolSize_exceeded` — one that does not.
-/
import BurstHttp.Lib.Guarded
import BurstHttp.Pool.Workers
import Mathlib.Algebra.BigOperators.Ring.Finset
import Mathlib.Data.Fintype.BigOperators

namespace BurstHttp.Pool

open Function (update)
open Roster (Duty)

namespace System

open HostPool (Within within_of_ne)

variable {N R : ℕ} {cfg : Config} {s : System N R}

/-! ### Runs without `Stop` -/

/-- Whatever goroutines have done, the counters are right. -/
theorem balanced_of_reaches {warm : Fin N → Option ℕ} {depth : ℕ → ℤ} {evicting : Bool}
    (h : Guarded.Reaches (step cfg) (fun _ l => ¬l.Stops) (new warm depth evicting) s) :
    ∃ conns, Roster.Balanced cfg.limit s.roster conns := by
  refine (h.invariant (fun s => (∀ n, Within cfg.limit (s.pool.callers n))
    ∧ ∃ conns, Roster.Balanced cfg.limit s.roster conns) ⟨fun n => ?_, [], ?_⟩ ?_).2
  · exact within_of_ne (by simp [new, HostPool.new])
  · exact .start rfl rfl rfl fun w => by cases w <;> rfl
  · intro s l s' ⟨hwithin, conns, hb⟩ hguard hs
    obtain ⟨w, deed, hacted⟩ := step_acted hwithin hs
    refine ⟨step_within hwithin hs, ?_⟩
    rw [hacted.duty]
    exact hb.next hacted.acts fun h => hguard (hacted.clear h)

end System

/-- A creation has reserved its place, and has not appended its connection or given the
place back. -/
def CallerPc.creating : CallerPc → Bool
  | .createNew _ | .dialing _ _ _ | .publishLoad _ _ | .publish _ _ _ | .undo _ => true
  | _ => false

/-- What a removal has swapped out and not subtracted from `activeCount`. -/
def RemovePc.unsubtracted : RemovePc → ℕ
  | .stop removed _ _ _ | .active removed => removed
  | _ => 0

def CallerPc.unsubtracted : CallerPc → ℕ
  | .removing _ _ pc | .removingLate _ _ pc | .anyRemoving _ _ _ pc => pc.unsubtracted
  | _ => 0

def EvictPc.unsubtracted : EvictPc → ℕ
  | .removing _ pc => pc.unsubtracted
  | _ => 0

/-- A caller is in `createConnection` or in `removeUnhealthyConnections`. -/
def CallerPc.inCall : CallerPc → Bool
  | .createLoad _ | .createCas _ _ | .createNew _ | .dialing _ _ _ | .undo _ | .publishLoad _ _
  | .publish _ _ _ | .created _ | .removing _ _ _ | .removingLate _ _ _
  | .anyRemoving _ _ _ _ => true
  | _ => false

def EvictPc.inCall : EvictPc → Bool
  | .removing _ _ => true
  | _ => false

namespace System

variable {N R : ℕ} {cfg : Config} {s : System N R}

/-- The creations between their reservation and their append or rollback. -/
def creations (s : System N R) : ℕ := ∑ n, if (s.pool.callers n).creating then 1 else 0

/-- What removals have swapped out and not yet subtracted. -/
def removals (s : System N R) : ℕ :=
  ∑ n, (s.pool.callers n).unsubtracted + ∑ r, (s.removers r).elim 0 (fun x => x.2.unsubtracted)
    + s.pool.evictor.unsubtracted

/-- No call of `createConnection` or `removeUnhealthyConnections` is in progress. -/
def NoCalls (s : System N R) : Prop :=
  (∀ n, (s.pool.callers n).inCall = false) ∧ (∀ r, s.removers r = none)
    ∧ s.pool.evictor.inCall = false

instance (s : System N R) : Decidable s.NoCalls := inferInstanceAs (Decidable (_ ∧ _))

theorem removePc_places (unhealthy : List ℕ) (pc : RemovePc) :
    (pc.duty unhealthy).places = pc.unsubtracted := by
  cases pc <;> rfl

theorem callerPc_places (pc : CallerPc) :
    pc.duty.places = (if pc.creating then 1 else 0) + pc.unsubtracted := by
  cases pc with
  | removing a sc pc | removingLate sc c pc | anyRemoving a sc found pc =>
    simp [CallerPc.duty, CallerPc.creating, CallerPc.unsubtracted, removePc_places]
  | _ => rfl

theorem evictPc_places (pc : EvictPc) : pc.duty.places = pc.unsubtracted := by
  cases pc with
  | removing idle pc => exact removePc_places idle pc
  | _ => rfl

theorem sum_worker (f : Worker N R → ℕ) :
    ∑ w, f w = ∑ n, f (.caller n) + ∑ r, f (.remover r) + f .evictor + f .stopper + f .graceful := by
  rw [← Fintype.sum_equiv (Worker.proxyTypeEquiv N R) (fun x => f (Worker.proxyTypeEquiv N R x)) f
    fun _ => rfl]
  simp only [Fintype.sum_sum_type, Fintype.sum_unique]
  show ∑ n, f (.caller n) + (∑ r, f (.remover r) + (f .evictor + (f .stopper + f .graceful))) = _
  omega

/-- The places that are taken and not by listed connections. -/
theorem sum_places (s : System N R) :
    ∑ w, (s.duty w).places = s.creations + s.removals := by
  have hcallers : ∑ n, (s.pool.callers n).duty.places
      = s.creations + ∑ n, (s.pool.callers n).unsubtracted := by
    simp only [callerPc_places, Finset.sum_add_distrib]
    rfl
  have hremovers (r : Fin R) : (s.duty (.remover r)).places
      = (s.removers r).elim 0 fun x => x.2.unsubtracted := by
    rw [duty]
    cases s.removers r with
    | none => rfl
    | some x => exact removePc_places x.1 x.2
  have hstopper : s.pool.stopper.duty.places = 0 := by cases s.pool.stopper <;> rfl
  have hgraceful : s.graceful.duty.places = 0 := by cases s.graceful <;> rfl
  rw [sum_worker]
  simp only [hremovers]
  simp only [duty, hcallers, evictPc_places, hstopper, hgraceful, removals]
  omega

theorem callerPc_free {pc : CallerPc} (h : pc.inCall = false) : pc.duty = .free := by
  cases pc <;> first | rfl | cases h

/-- Outside of all calls callers, removers and the evictor have nothing to do. -/
theorem NoCalls.duty_free (h : s.NoCalls) :
    (∀ n, s.duty (.caller n) = .free) ∧ (∀ r, s.duty (.remover r) = .free)
      ∧ s.duty .evictor = .free := by
  obtain ⟨hcallers, hremovers, hevictor⟩ := h
  refine ⟨fun n => callerPc_free (hcallers n), fun r => ?_, ?_⟩
  · rw [duty, hremovers r]
    rfl
  · rw [duty]
    cases hpc : s.pool.evictor with
    | removing idle pc =>
      rw [hpc] at hevictor
      cases hevictor
    | _ => rfl

/-- Then nobody owes anything. -/
theorem NoCalls.owes_nothing (h : s.NoCalls) (w : Worker N R) :
    (s.duty w).places = 0 ∧ (s.duty w).ahead = 0 := by
  obtain ⟨hcallers, hremovers, hevictor⟩ := h.duty_free
  cases w with
  | caller n =>
    rw [hcallers n]
    exact ⟨rfl, rfl⟩
  | remover r =>
    rw [hremovers r]
    exact ⟨rfl, rfl⟩
  | evictor =>
    rw [hevictor]
    exact ⟨rfl, rfl⟩
  | stopper =>
    unfold duty
    cases s.pool.stopper <;> exact ⟨rfl, rfl⟩
  | graceful =>
    unfold duty
    cases s.graceful <;> exact ⟨rfl, rfl⟩

end System

theorem wrap32_le {x : ℤ} (hx : 0 ≤ x) : wrap32 x ≤ x := by
  unfold wrap32
  rw [Int.bmod_def]
  split <;> omega

theorem Config.maxIdle_pos (cfg : Config) : 0 < cfg.maxIdle := by
  unfold maxIdle
  split_ifs <;> omega

/-- What the bound comes to: it is an `int32`. -/
theorem Config.limit_le (cfg : Config) : max cfg.limit 0 ≤ cfg.maxIdle := by
  have hpos := cfg.maxIdle_pos
  exact max_le (wrap32_le hpos.le) hpos.le

/-- **The books of a host pool.**  Whatever `createConnection` and
`removeUnhealthyConnections` do side by side, as long as the pool is not stopped, the list
has no duplicates, `activeCount` is the length of the list with the creations and the
removals under way, neither goes beyond `maxIdle`, and between calls both counters are the
length of the list. -/
theorem list_balanced (cfg : Config) {N R : ℕ} (warm : Fin N → Option ℕ) (depth : ℕ → ℤ)
    (evicting : Bool) {s : System N R}
    (h : Guarded.Reaches (System.step cfg) (fun _ l => ¬l.Stops) (System.new warm depth evicting) s) :
    ∃ old, s.pool.connections = some old ∧ old.conns.Nodup
      ∧ s.pool.activeCount = old.conns.length + s.creations + s.removals
      ∧ old.conns.length ≤ cfg.maxIdle ∧ s.pool.activeCount ≤ cfg.maxIdle
      ∧ (s.NoCalls →
          s.pool.activeCount = old.conns.length ∧ s.pool.idleCount = old.conns.length) := by
  obtain ⟨conns, hb⟩ := System.balanced_of_reaches h
  obtain ⟨old, hold, rfl⟩ := Option.map_eq_some_iff.mp hb.listed
  have hplaces := hb.places
  have hlimit := cfg.limit_le
  have hbound : s.pool.activeCount ≤ max cfg.limit 0 := hb.bounded
  have hsum := s.sum_places
  have hcount : s.pool.activeCount = old.conns.length + s.creations + s.removals := by
    rw [add_assoc, ← Nat.cast_add, ← hsum, Nat.cast_sum]
    exact hplaces
  refine ⟨old, hold, hb.nodup, hcount, by omega, by omega, fun hrest => ?_⟩
  exact hb.at_rest (fun w => (hrest.owes_nothing w).1) fun w => (hrest.owes_nothing w).2

/-- A `WarmUp` of two turns, in its second. -/
def secondTurn : List (Label 1 0) := List.replicate 18 (.caller 0 .plain)

theorem list_balanced_secondTurn :
    ∃ s : System 1 0, s.creations = 1 ∧ s.pool.connections.map Slice.conns = some [0]
      ∧ ∃ old, s.pool.connections = some old ∧ old.conns.Nodup
        ∧ s.pool.activeCount = old.conns.length + s.creations + s.removals
        ∧ old.conns.length ≤ Config.maxIdle {} ∧ s.pool.activeCount ≤ Config.maxIdle {}
        ∧ (s.NoCalls →
            s.pool.activeCount = old.conns.length ∧ s.pool.idleCount = old.conns.length) := by
  obtain ⟨s, hs, hcreations, hlist⟩ := Guarded.exists_of_exec (System.step {})
    (fun _ (l : Label 1 0) => ¬l.Stops) (System.new (fun _ => some 2) (fun _ => 10) false) secondTurn
    (fun s => s.creations = 1 ∧ s.pool.connections.map Slice.conns = some [0]) (by decide +kernel)
  exact ⟨s, hcreations, hlist, list_balanced {} _ _ _ hs⟩

/-! ### The bound -/

/-- A connection that is being dialed, or is dialed and not listed yet. -/
def CallerPc.unlisted : CallerPc → Bool
  | .dialing _ _ _ | .publishLoad _ _ | .publish _ _ _ => true
  | _ => false

/-- The connections that are being dialed. -/
def System.unlisted {N R : ℕ} (s : System N R) : ℕ :=
  ∑ n, if (s.pool.callers n).unlisted then 1 else 0

/-- They have a place each. -/
theorem System.unlisted_add_le {N R : ℕ} {limit : ℤ} (s : System N R) {conns : List ℕ}
    (hb : Roster.Balanced limit s.roster conns) :
    (conns.length : ℤ) + s.unlisted ≤ s.pool.activeCount := by
  let f : Worker N R → ℕ
    | .caller n => if (s.pool.callers n).unlisted then 1 else 0
    | _ => 0
  have hf (w : Worker N R) : f w ≤ (s.duty w).places := by
    cases w with
    | caller n =>
      show (if (s.pool.callers n).unlisted then 1 else 0) ≤ (s.pool.callers n).duty.places
      cases s.pool.callers n <;> simp [CallerPc.unlisted, CallerPc.duty, Duty.places]
    | _ => exact Nat.zero_le _
  have hsum : ∑ w, f w = s.unlisted := by
    rw [sum_worker]
    simp [f, System.unlisted]
  have hle := hb.length_add_le f hf
  rw [← Nat.cast_sum, hsum] at hle
  exact hle

/-- A `WarmUp` alone: where it is, the turns it has left, and what it has done. -/
structure Warming (s : System 1 0) (pc : CallerPc) (j : ℕ) (count : ℤ) (old : Slice) : Prop where
  caller : s.pool.callers 0 = pc
  warm : s.warm 0 = some j
  count : s.pool.activeCount = count
  listed : s.pool.connections = some old

section Warming

variable {cfg : Config} {s : System 1 0} {pc : CallerPc} {j : ℕ} {count : ℤ} {old : Slice}

/-- A step inside of `createConnection`, to `pc'`. -/
theorem Warming.next (cfg : Config) (h : Warming s pc j count old) (hin : pc.inCall = true)
    (ch : Choice) (t : HostPool 1) (pc' : CallerPc) {count' : ℤ} {old' : Slice}
    (hp : s.pool.caller cfg.limit 0 ch = some (t.setCaller 0 pc'))
    (ht : t.activeCount = count' ∧ t.connections = some old') :
    ∃ s', Guarded.Reaches (System.step cfg) (fun _ l => ¬l.Stops) s s'
      ∧ Warming s' pc' j count' old' ∧ s'.pool.slots = t.slots := by
  have hwarm : s.warmUp cfg.limit 0 j ch = some { s with pool := t.setCaller 0 pc' } := by
    unfold System.warmUp
    rw [h.caller]
    cases pc <;> first | (dsimp only; rw [hp]; rfl) | cases hin
  have hstep : s.step cfg (.caller 0 ch) = some { s with
      pool := t.setCaller 0 pc'
      dialed := dialedAfter s.dialed (s.pool.callers 0) ((t.setCaller 0 pc').callers 0) } := by
    simp only [System.step, System.caller, h.warm, hwarm, Option.map_some]
  refine ⟨_, .tail _ .refl id hstep, ⟨?_, h.warm, ht.1, ht.2⟩, rfl⟩
  exact HostPool.setCaller_self t 0 pc'

/-- A step of the dial. -/
theorem Warming.dial (cfg : Config) {a c : ℕ} {epc : EnsurePc}
    (h : Warming s (.dialing a c epc) j count old) (ch : Choice)
    {x : HostPool 1 × (EnsurePc ⊕ Bool)} (hx : s.pool.ensureConnection c ch epc = some x) :
    ∃ s', Guarded.Reaches (System.step cfg) (fun _ l => ¬l.Stops) s s'
      ∧ Warming s' (afterDial a c x.2) j count old ∧ s'.pool.slots = x.1.slots := by
  have hkeep : x.1.activeCount = s.pool.activeCount ∧ x.1.connections = s.pool.connections := by
    cases epc with
    | lock =>
      rw [HostPool.ensureConnection] at hx
      split at hx <;> cases hx
      exact ⟨rfl, rfl⟩
    | _ =>
      cases hx
      exact ⟨rfl, rfl⟩
  refine h.next cfg rfl ch x.1 _ ?_ ⟨hkeep.1.trans h.count, hkeep.2.trans h.listed⟩
  simp only [HostPool.caller, h.caller, hx, Option.map_some]

/-- Nobody is in the way of the dial of a new connection. -/
theorem Warming.dialed (cfg : Config) {a c : ℕ} (h : Warming s (.dialing a c .test) j count old)
    (hmu : (s.pool.slots c).connectMu = false) :
    ∃ s', Guarded.Reaches (System.step cfg) (fun _ l => ¬l.Stops) s s'
      ∧ Warming s' (.publishLoad a c) j count old := by
  -- it is not usable yet, whether it looks healthy or not, when the idle timeout has passed
  obtain ⟨s₁, hr₁, h₁, hslots⟩ := h.dial cfg .expired (x := (s.pool, .inl .lock))
    (by simp [HostPool.ensureConnection, HostPool.usable])
  have hmu₁ : (s₁.pool.slots c).connectMu = false := by
    rw [hslots]
    exact hmu
  obtain ⟨s₂, hr₂, h₂, -⟩ := h₁.dial cfg .plain (by
    rw [HostPool.ensureConnection, hmu₁]
    rfl)
  obtain ⟨s₃, hr₃, h₃, -⟩ := h₂.dial cfg .expired (x := (s₂.pool, .inl .unhealthy))
    (by simp [HostPool.ensureConnection, HostPool.usable])
  obtain ⟨s₄, hr₄, h₄, -⟩ := h₃.dial cfg .plain rfl
  obtain ⟨s₅, hr₅, h₅, -⟩ := h₄.dial cfg .plain rfl
  obtain ⟨s₆, hr₆, h₆, -⟩ := h₅.dial cfg .plain rfl
  obtain ⟨s₇, hr₇, h₇, -⟩ := h₆.dial cfg .plain rfl
  obtain ⟨s₈, hr₈, h₈, -⟩ := h₇.dial cfg .plain rfl
  exact ⟨s₈, hr₁.trans (hr₂.trans (hr₃.trans (hr₄.trans (hr₅.trans (hr₆.trans (hr₇.trans hr₈)))))),
    h₈⟩

/-- `createConnection` makes a connection as long as there is a place for it. -/
theorem Warming.create {a : ℕ} (h : Warming s (.createLoad a) j count old)
    (hroom : count < cfg.limit) :
    ∃ s' c old', Guarded.Reaches (System.step cfg) (fun _ l => ¬l.Stops) s s'
      ∧ Warming s' (.got c) j (count + 1) old' ∧ old'.conns = old.conns ++ [c] := by
  obtain ⟨s₁, hr₁, h₁, -⟩ := h.next cfg rfl .plain s.pool (.createCas a count)
    (by simp [HostPool.caller, h.caller, h.count, not_le.mpr hroom]) ⟨h.count, h.listed⟩
  obtain ⟨s₂, hr₂, h₂, -⟩ := h₁.next cfg rfl .plain { s₁.pool with activeCount := count + 1 }
    (.createNew a) (by simp [HostPool.caller, h₁.caller, h₁.count]) ⟨rfl, h₁.listed⟩
  obtain ⟨s₃, hr₃, h₃, hslots⟩ := h₂.next cfg rfl .plain
    { s₂.pool with
      numConns := s₂.pool.numConns + 1, slots := update s₂.pool.slots s₂.pool.numConns {} }
    (.dialing a s₂.pool.numConns .test) (by simp [HostPool.caller, h₂.caller]) ⟨h₂.count, h₂.listed⟩
  -- the connection is new, so nobody holds its lock
  obtain ⟨s₄, hr₄, h₄⟩ := h₃.dialed cfg (by simp [hslots])
  obtain ⟨s₅, hr₅, h₅, -⟩ := h₄.next cfg rfl .plain s₄.pool (.publish a s₂.pool.numConns old)
    (by simp [HostPool.caller, h₄.caller, h₄.listed]) ⟨h₄.count, h₄.listed⟩
  obtain ⟨s₆, hr₆, h₆, -⟩ := h₅.next cfg rfl .plain
    { s₅.pool with
      connections := some ⟨s₅.pool.nextPtr, old.conns ++ [s₂.pool.numConns]⟩
      nextPtr := s₅.pool.nextPtr + 1 }
    (.created s₂.pool.numConns) (by simp [HostPool.caller, h₅.caller, h₅.listed]) ⟨h₅.count, rfl⟩
  obtain ⟨s₇, hr₇, h₇, -⟩ := h₆.next cfg rfl .plain
    { s₆.pool with idleCount := s₆.pool.idleCount + 1 } (.got s₂.pool.numConns)
    (by simp [HostPool.caller, h₆.caller]) ⟨h₆.count, h₆.listed⟩
  exact ⟨s₇, _, _, hr₁.trans (hr₂.trans (hr₃.trans (hr₄.trans (hr₅.trans (hr₆.trans hr₇))))), h₇, rfl⟩

/-- A turn of `WarmUp`. -/
theorem Warming.turn (hpc : pc = .idle ∨ ∃ c, pc = .got c) (h : Warming s pc (j + 1) count old)
    (hroom : count < cfg.limit) :
    ∃ s' c old', Guarded.Reaches (System.step cfg) (fun _ l => ¬l.Stops) s s'
      ∧ Warming s' (.got c) j (count + 1) old' ∧ old'.conns = old.conns ++ [c] := by
  have hwarm : s.warmUp cfg.limit 0 (j + 1) .plain
      = some { s.setCaller 0 (.createLoad 0) with warm := update s.warm 0 (some j) } := by
    rcases hpc with rfl | ⟨c, rfl⟩
    · rw [System.warmUp, h.caller]
    · rw [System.warmUp, h.caller]
  have hstep : s.step cfg (.caller 0 .plain) = some { s.setCaller 0 (.createLoad 0) with
      warm := update s.warm 0 (some j)
      dialed := dialedAfter s.dialed (s.pool.callers 0)
        ((s.setCaller 0 (.createLoad 0)).pool.callers 0) } := by
    simp only [System.step, System.caller, h.warm, hwarm, Option.map_some]
  have hstart : Warming { s.setCaller 0 (.createLoad 0) with
      warm := update s.warm 0 (some j)
      dialed := dialedAfter s.dialed (s.pool.callers 0)
        ((s.setCaller 0 (.createLoad 0)).pool.callers 0) } (.createLoad 0) j count old :=
    ⟨HostPool.setCaller_self s.pool 0 _, by simp, h.count, h.listed⟩
  obtain ⟨s', c, old', hr, h', hconns⟩ := hstart.create hroom
  exact ⟨s', c, old', .head id hstep hr, h', hconns⟩

/-- A `WarmUp` makes as many connections as the bound allows. -/
theorem warmUp_fills (cfg : Config) (j k : ℕ) (hk : (k : ℤ) ≤ cfg.limit) :
    ∃ (s : System 1 0) (pc : CallerPc) (old : Slice), Guarded.Reaches (System.step cfg)
        (fun _ l => ¬l.Stops) (System.new (fun _ => some (j + k)) (fun _ => 10) false) s
      ∧ (pc = .idle ∨ ∃ c, pc = .got c) ∧ Warming s pc j k old ∧ old.conns.length = k := by
  induction k generalizing j with
  | zero => exact ⟨_, .idle, ⟨0, []⟩, .refl, .inl rfl, ⟨rfl, rfl, rfl, rfl⟩, rfl⟩
  | succ k ih =>
    obtain ⟨s, pc, old, hr, hpc, h, hlen⟩ := ih (j + 1) (by omega)
    have hroom : (k : ℤ) < cfg.limit := by omega
    obtain ⟨s', c, old', hr', h', hconns⟩ := h.turn hpc hroom
    refine ⟨s', _, old', ?_, .inr ⟨c, rfl⟩, h', by simp [hconns, hlen]⟩
    rw [show j + (k + 1) = j + 1 + k by omega]
    exact hr.trans hr'

end Warming

theorem Config.validate_poolSize_pos (cfg : Config) : 0 < cfg.validate.poolSize := by
  unfold validate
  dsimp only
  split_ifs <;> omega

/-- When the bound of `createConnection` is within `PoolSize`. -/
theorem Config.limit_le_poolSize_iff (cfg : Config) :
    max cfg.validate.limit 0 ≤ cfg.validate.poolSize ↔
      cfg.maxIdleConnsPerHost ≤ 0 ∨ wrap32 cfg.maxIdleConnsPerHost ≤ cfg.validate.poolSize := by
  have hpos := cfg.validate_poolSize_pos
  have hsame : cfg.validate.maxIdleConnsPerHost = cfg.maxIdleConnsPerHost := rfl
  unfold limit maxIdle
  rw [hsame]
  by_cases hidle : cfg.maxIdleConnsPerHost ≤ 0
  · have hle := wrap32_le hpos.le
    rw [if_pos hidle, if_neg (by omega)]
    exact ⟨fun _ => .inl hidle, fun _ => max_le hle hpos.le⟩
  · rw [if_neg hidle]
    refine ⟨fun h => .inr ((le_max_left _ _).trans h), fun h => ?_⟩
    exact max_le (h.resolve_left hidle) hpos.le

/-- **Which configurations keep to `PoolSize`.**  In every run of `GetConnection`, `WarmUp`
and removals the connections of a host pool, with those being dialed, are at most
`PoolSize`, if and only if `MaxIdleConnsPerHost` is not set or is, as an `int32`, at most
`PoolSize`. -/
theorem poolSize_bounds_iff (cfg : Config) :
    (∀ (N R : ℕ) (warm : Fin N → Option ℕ) (depth : ℕ → ℤ) (evicting : Bool) (s : System N R),
        Guarded.Reaches (System.step cfg.validate) (fun _ l => ¬l.Stops)
          (System.new warm depth evicting) s →
        ∀ old, s.pool.connections = some old →
          (old.conns.length : ℤ) + s.unlisted ≤ cfg.validate.poolSize) ↔
      cfg.maxIdleConnsPerHost ≤ 0 ∨ wrap32 cfg.maxIdleConnsPerHost ≤ cfg.validate.poolSize := by
  rw [← cfg.limit_le_poolSize_iff]
  refine ⟨fun hall => ?_, fun hle N R warm depth evicting s hs old hold => ?_⟩
  · -- a `WarmUp` alone goes beyond
    by_contra hlt
    have hpos := cfg.validate_poolSize_pos
    set size := cfg.validate.poolSize
    obtain ⟨s, pc, old, hr, -, h, hlen⟩ := warmUp_fills cfg.validate 0 (size.toNat + 1) (by omega)
    have := hall 1 0 _ _ _ s hr old h.listed
    omega
  · obtain ⟨conns, hb⟩ := System.balanced_of_reaches hs
    obtain rfl : old.conns = conns := by simpa [System.roster, HostPool.books, hold] using hb.listed
    have hbound : s.pool.activeCount ≤ max cfg.validate.limit 0 := hb.bounded
    have hplaces := s.unlisted_add_le hb
    omega

/-- With `PoolSize` 1 and `MaxIdleConnsPerHost` 2, a `WarmUp` of two turns makes two
connections. -/
theorem poolSize_exceeded :
    ∃ s : System 1 0,
      Guarded.Reaches (System.step (Config.validate { poolSize := 1, maxIdleConnsPerHost := 2 }))
        (fun _ l => ¬l.Stops) (System.new (fun _ => some 2) (fun _ => 10) false) s
      ∧ s.pool.connections.map Slice.conns = some [0, 1]
      ∧ (Config.validate { poolSize := 1, maxIdleConnsPerHost := 2 }).poolSize = 1 := by
  obtain ⟨s, hs, hlist⟩ := Guarded.exists_of_exec
    (System.step (Config.validate { poolSize := 1, maxIdleConnsPerHost := 2 }))
    (fun _ (l : Label 1 0) => ¬l.Stops) (System.new (fun _ => some 2) (fun _ => 10) false)
    (List.replicate 30 (.caller 0 .plain))
    (fun s => s.pool.connections.map Slice.conns = some [0, 1]) (by decide +kernel)
  exact ⟨s, hs, hlist, rfl⟩

end BurstHttp.Pool
