/-
Requests in the pipeline of a connection (connection.go, `CanAcceptRequest`, `doPipelined`;
pool.go, `GetConnection`).

`Flow` is the pool together with the requests that are written to a connection and not
answered yet.

* `Flow.step` — a step of the pool, a write, an answer, or the end of a connection's queue;
* `CallerPc.Aims` — the connections a caller may be given without another test;
* `Flow.inTurn`, `Flow.skipsAny` — requests begin one after the other, and none comes to
  `getAnyConnection`;
* `Flow.Metered` — in such runs `activeReqs` is no less than the requests that are counted, and
  a request aims at connections that have room, by the test of `CanAcceptRequest`;
* `Flow.admissions` — the requests that have been given a connection, as users of it
  (`Admission.State`), `step_admissions` — what a step does to them;
* `depth_respected` — on every connection the requests without answer are then at most as many
  as `pipelineDepth` was when the last of them was given the connection;
* `depth_exceeded` — in other runs they are more: two callers look before either has counted,
  or the pool is full and `getAnyConnection` does not look.
-/
import BurstHttp.Pool.Exclusive
import BurstHttp.Pool.Holders
import BurstHttp.Lib.Admission
import BurstHttp.Lib.Guarded
import BurstHttp.Lib.Tally

namespace BurstHttp.Pool

open Function (update)
open Guarded (Reaches)

/-! ### What a caller may be given -/

/-- The best connection of a scan. -/
def Scan.Best (P : ℕ → Prop) (sc : Scan) : Prop := ∀ x, sc.best = some x → P x.1

/-- All connections that the caller may be given without another test satisfy `P`, and it is not
in `getAnyConnection`, which makes none. -/
def CallerPc.Aims (P : ℕ → Prop) : CallerPc → Prop
  | .check _ sc .score => sc.Best P ∧ ∀ c, sc.current = some c → P c
  | .check _ sc _ | .removing _ sc _ => sc.Best P
  | .claim _ _ c _ | .dialing _ c _ | .publishLoad _ c | .publish _ c _ => P c
  | .anyIndex _ _ | .anyHealthy _ _ | .anyStopped _ _ => False
  | _ => True

theorem CallerPc.Aims.mono {P Q : ℕ → Prop} {pc : CallerPc} (h : pc.Aims P)
    (hpq : ∀ c ∈ pc.ids, P c → Q c) : pc.Aims Q := by
  have hbest {sc : Scan} (hsc : sc.Best P) (hids : ∀ c ∈ sc.ids, P c → Q c) : sc.Best Q := by
    intro x hx
    exact hids x.1 (by simp [Scan.ids, hx]) (hsc x hx)
  cases pc with
  | check a sc pc =>
    cases pc with
    | score =>
      refine ⟨hbest h.1 hpq, fun c hc => hpq c ?_ (h.2 c hc)⟩
      exact List.mem_append_right _ (HostPool.mem_conns_of_current hc)
    | _ => exact hbest h hpq
  | removing a sc pc => exact hbest h hpq
  | claim _ _ c _ | dialing _ c _ | publishLoad _ c | publish _ c _ =>
    exact hpq c List.mem_cons_self h
  | anyIndex _ _ | anyHealthy _ _ | anyStopped _ _ => exact h
  | _ => exact trivial

/-- The request is counted on this connection, if it has not been answered. -/
def CallerPc.counted : CallerPc → Option ℕ
  | .inside c | .leave c => some c
  | _ => none

/-- What the next step adds to `activeReqs` of `c`. -/
def CallerPc.adds (c : ℕ) : CallerPc → ℤ
  | .count d => if d = c then 1 else 0
  | .leave d => if d = c then -1 else 0
  | _ => 0

/-- The program counters of `WarmUp`. -/
def CallerPc.creates : CallerPc → Bool
  | .idle | .createLoad _ | .createCas _ _ | .createNew _ | .dialing _ _ _ | .undo _
  | .publishLoad _ _ | .publish _ _ _ | .created _ | .got _ | .elapsed _ | .done => true
  | _ => false

theorem CallerPc.counted_of_creates {pc : CallerPc} (h : pc.creates = true) :
    pc.counted = none := by
  cases pc <;> first | rfl | cases h

namespace HostPool

variable {N : ℕ} {s s' : HostPool N} {n : Fin N} {limit : ℤ} {ch : Choice} {P : ℕ → Prop}

theorem scanned_aims {a : ℕ} {sc : Scan} (h : sc.Best P) : (scanned a sc).Aims P := by
  unfold scanned
  split
  · case _ c score idx hbest => exact h (c, score, idx) hbest
  · split_ifs
    · trivial
    · exact h
    · trivial

theorem resume_aims {a : ℕ} {sc : Scan} (h : sc.Best P) : (resume a sc).Aims P := by
  unfold resume
  generalize (if sc.second then sc.conns.length else sc.maxScan) = bound
  split_ifs
  · exact h
  · exact h
  · trivial
  · exact scanned_aims h

theorem rate_best {sc : Scan} {c : ℕ} (h : sc.Best P) (hc : P c) (score : ℤ) :
    (sc.rate c score).Best P := by
  intro x hx
  simp only [Scan.rate] at hx
  split at hx
  · cases hx
    exact hc
  · case _ c' best idx hbest =>
    split_ifs at hx <;> cases hx
    · exact hc
    · exact h (c', best, idx) hbest

/-- A step of a caller that tests nothing. -/
theorem caller_aims (hs : s.caller limit n ch = some s') (h : (s.callers n).Aims P)
    (hnew : P s.numConns) (htest : ∀ a sc, s.callers n ≠ .check a sc .active)
    (hclaim : ∀ a sc c idx, s.callers n ≠ .claim a sc c idx)
    (hany : ∀ a, s.callers n ≠ .anyLoad a) : (s'.callers n).Aims P := by
  unfold caller at hs
  generalize hpc : s.callers n = pc at hs h htest hclaim hany
  have hself (t : HostPool N) (pc' : CallerPc) (hpc' : pc'.Aims P) :
      ((t.setCaller n pc').callers n).Aims P := by
    rw [setCaller_self]
    exact hpc'
  cases pc with
  | idleLoad a =>
    cases hs
    refine hself _ _ ?_
    unfold withConns
    split
    · trivial
    · split <;> trivial
  | idleIndex a conns =>
    cases hs
    exact hself _ _ (resume_aims fun x hx => by cases hx)
  | check a sc pc =>
    obtain ⟨c, hc, rfl⟩ := Option.map_eq_some_iff.mp hs
    refine hself _ _ ?_
    cases pc with
    | healthy | stopped | healthyAgain =>
      rw [check]
      split
      · first | exact h | exact resume_aims h
      · first | exact h | exact resume_aims h
    | stoppedAgain =>
      rw [check]
      split
      · exact resume_aims h
      · exact h
    | active => exact absurd rfl (htest a sc)
    | score => cases ch <;> exact resume_aims (rate_best h.1 (h.2 c hc) _)
  | removing a sc pc =>
    cases hs
    refine hself _ _ ?_
    cases (s.remove sc.unhealthy pc).2 with
    | some pc' => exact h
    | none =>
      dsimp only [Option.elim]
      split
      · trivial
      · exact scanned_aims h
  | claim a sc c idx => exact absurd rfl (hclaim a sc c idx)
  | anyLoad a => exact absurd rfl (hany a)
  | anyIndex _ _ | anyHealthy _ _ | anyStopped _ _ => exact h.elim
  | createNew a =>
    cases hs
    exact hself _ _ hnew
  | dialing a c pc =>
    obtain ⟨x, -, rfl⟩ := Option.map_eq_some_iff.mp hs
    refine hself _ _ ?_
    rcases x.2 with epc | _ | _
    · exact h
    · trivial
    · exact h
  | ensure c pc =>
    obtain ⟨x, -, rfl⟩ := Option.map_eq_some_iff.mp hs
    refine hself _ _ ?_
    rcases x.2 with epc | _ | _ <;> trivial
  | publishLoad a c =>
    cases hs
    refine hself _ _ ?_
    cases s.connections with
    | none => trivial
    | some old => exact h
  | publish a c old =>
    dsimp only at hs
    split at hs <;> cases hs
    · exact hself _ _ trivial
    · exact hself _ _ h
  | removingLate sc c pc =>
    cases hs
    refine hself _ _ ?_
    cases (s.remove sc.unhealthy pc).2 <;> trivial
  | anyRemoving a sc found pc =>
    cases hs
    refine hself _ _ ?_
    cases (s.remove sc.unhealthy pc).2 <;> cases found <;> trivial
  | inside c =>
    dsimp only at hs
    split at hs <;> cases hs
    · rw [show (s.setSlot c _).callers n = .inside c from hpc]
      trivial
    · exact hself _ _ trivial
  | createCas a cur | swap c =>
    dsimp only at hs
    split at hs <;> cases hs <;> exact hself _ _ trivial
  | storeIndex sc c idx | createLoad a | elapsed a | anyStore a sc c | sleep a =>
    cases hs
    refine hself _ _ ?_
    split <;> trivial
  | idle | mark sc c idx | undo a | created c | got c | count c | leave c =>
    cases hs
    exact hself _ _ trivial
  | gotNil | done => cases hs

/-- `WarmUp` keeps to `createConnection`. -/
theorem caller_creates (hs : s.caller limit n ch = some s') (h : (s.callers n).creates = true)
    (hidle : s.callers n ≠ .idle) (hgot : ∀ c, s.callers n ≠ .got c)
    (helapsed : ∀ a, s.callers n ≠ .elapsed a) : (s'.callers n).creates = true := by
  unfold caller at hs
  generalize s.callers n = pc at hs h hidle hgot helapsed
  cases pc with
  | createLoad a =>
    cases hs
    rw [setCaller_self]
    split <;> rfl
  | createCas a cur | publish a c old =>
    dsimp only at hs
    split at hs <;> cases hs <;> rw [setCaller_self] <;> rfl
  | createNew a | undo a | created c =>
    cases hs
    rw [setCaller_self]
    rfl
  | dialing a c pc =>
    obtain ⟨x, -, rfl⟩ := Option.map_eq_some_iff.mp hs
    rw [setCaller_self]
    rcases x.2 with epc | _ | _ <;> rfl
  | publishLoad a c =>
    cases hs
    rw [setCaller_self]
    cases s.connections <;> rfl
  | idle => exact absurd rfl hidle
  | got c => exact absurd rfl (hgot c)
  | elapsed a => exact absurd rfl (helapsed a)
  | done => cases hs
  | _ => cases h

theorem caller_numConns (hs : s.caller limit n ch = some s') :
    s'.numConns = s.numConns ∨
      s'.numConns = s.numConns + 1 ∧ (s'.slots s.numConns).activeReqs = 0 := by
  unfold caller at hs
  generalize s.callers n = pc at hs
  cases pc with
  | createNew a =>
    cases hs
    exact .inr ⟨rfl, by simp [setCaller]⟩
  | check a sc pc | anyHealthy a sc | anyStopped a sc =>
    obtain ⟨c, -, rfl⟩ := Option.map_eq_some_iff.mp hs
    exact .inl rfl
  | removing a sc pc | removingLate sc c pc | anyRemoving a sc found pc =>
    cases hs
    exact .inl (remove_frame s sc.unhealthy pc).numConns
  | dialing a c pc | ensure c pc =>
    obtain ⟨x, hx, rfl⟩ := Option.map_eq_some_iff.mp hs
    exact .inl (ensureConnection_frame hx).numConns
  | claim a sc c idx | createCas a cur | publish a c old | swap c | inside c =>
    dsimp only at hs
    split at hs <;> cases hs <;> exact .inl rfl
  | gotNil | done => cases hs
  | _ =>
    cases hs
    exact .inl rfl

/-- Callers that pipeline, or warm up, change `activeReqs` where they count a request and take
it back. -/
theorem caller_active (hknown : s.Known) (hs : s.caller limit n ch = some s')
    (hclaim : ∀ a sc c idx, s.callers n ≠ .claim a sc c idx) {c : ℕ} (hc : c < s.numConns) :
    (s'.slots c).activeReqs = (s.slots c).activeReqs + (s.callers n).adds c := by
  have hcount : (s'.slots c).activeReqs = (s.lease.after (s.callerAction n)).count c :=
    congrArg (fun w => w.count c) (caller_refines hknown hs).lease
  rw [hcount]
  unfold callerAction
  generalize s.callers n = pc at hclaim ⊢
  have hsame : s.lease.count c = (s.slots c).activeReqs + 0 := (Int.add_zero _).symm
  cases pc with
  | claim a sc c idx => exact absurd rfl (hclaim a sc c idx)
  | createNew a =>
    simp only [Lease.State.after, Lease.State.next, CallerPc.adds, add_zero]
    exact Function.update_of_ne (Nat.ne_of_lt hc) ..
  | count d | leave d =>
    simp only [Lease.State.after, Lease.State.next, CallerPc.adds]
    rcases eq_or_ne c d with rfl | hcd
    · rw [Function.update_self, if_pos rfl]
      rfl
    · rw [Function.update_of_ne hcd, if_neg hcd.symm, add_zero]
      rfl
  | anyStopped a sc =>
    dsimp only
    rcases sc.current with _ | d
    · exact hsame
    · rw [Option.bind_some]
      split <;> exact hsame
  | dialing a d pc | publishLoad a d | ensure d pc | swap d =>
    dsimp only
    split <;> exact hsame
  | _ => exact hsame

theorem counted_iff {pc : CallerPc} {c : ℕ} :
    pc.counted = some c ↔ pc.has = some (c, .inside) := by
  cases pc with
  | anyRemoving a sc found pc => cases found <;> simp [CallerPc.counted, CallerPc.has]
  | _ => simp [CallerPc.counted, CallerPc.has]

/-- Whoever is counted now has just been, or goes on with its request. -/
theorem caller_counted (hknown : s.Known) (hs : s.caller limit n ch = some s')
    (hswap : ∀ c, s.callers n ≠ .swap c) {c : ℕ} (hc : (s'.callers n).counted = some c) :
    s.callers n = .count c ∨ s.callers n = .inside c := by
  have hhas : (s'.callers n).has = (s.lease.after (s.callerAction n)).has n :=
    congrArg (fun w => w.has n) (caller_refines hknown hs).lease
  rw [counted_iff, hhas] at hc
  have hkeep : s.lease.has n = (s.callers n).has := rfl
  unfold callerAction at hc
  generalize s.callers n = pc at hswap hc hkeep ⊢
  have hself (x : Option (ℕ × Lease.Ticket)) : update s.lease.has n x n = x :=
    Function.update_self ..
  cases pc with
  | swap d => exact absurd rfl (hswap d)
  | count d =>
    simp only [Lease.State.after, Lease.State.next, hself] at hc
    cases hc
    exact .inl rfl
  | inside d =>
    cases hkeep.symm.trans hc
    exact .inr rfl
  | leave d | mark sc d idx | createNew a =>
    simp only [Lease.State.after, Lease.State.next, hself] at hc
    cases hc
  | claim a sc d idx | dialing a d pc | publishLoad a d | ensure d pc =>
    dsimp only at hc
    split at hc
    · simp only [Lease.State.after, Lease.State.next, hself] at hc
      cases hc
    · cases hkeep.symm.trans hc
  | anyStopped a sc =>
    dsimp only at hc
    generalize sc.current = cur at hc
    rcases cur with _ | d
    · cases hkeep.symm.trans hc
    · rw [Option.bind_some] at hc
      split at hc
      · cases hkeep.symm.trans hc
      · simp only [Lease.State.after, Lease.State.next, hself] at hc
        cases hc
  | anyRemoving a sc found pc =>
    cases found <;> cases hkeep.symm.trans hc
  | _ => cases hkeep.symm.trans hc

end HostPool

/-! ### Requests without answer -/

structure Flow (N R : ℕ) where
  sys : System N R
  wrote : Fin N → Bool               -- the request has been written
  outstanding : Fin N → Option ℕ     -- and not been answered on this connection
  turn : Fin N → ℕ                   -- when it was given its connection
  room : Fin N → ℤ                   -- the depth of the pipeline then
  clock : ℕ

inductive FlowLabel (N R : ℕ)
  | sys (l : Label N R)
  | write (n : Fin N)                -- writeRequest
  | answer (n : Fin N)               -- the reader has read the response
  | drop (c : ℕ)                     -- closeConn fails what is pending

/-- `max` in `CanAcceptRequest`. -/
def System.maxDepth {N R : ℕ} (s : System N R) (c : ℕ) : ℤ :=
  if s.depth c ≤ 0 then 10 else s.depth c

/-- `CanAcceptRequest`, as far as the depth goes. -/
def System.Room {N R : ℕ} (s : System N R) (c : ℕ) : Prop :=
  (s.pool.slots c).activeReqs < s.maxDepth c

/-- The connection that caller `n` has been given in a step from `s` to `t`. -/
def System.gets {N R : ℕ} (s t : System N R) (n : Fin N) : Option ℕ :=
  if (s.warm n).isNone ∧ (s.pool.callers n).held = none then (t.pool.callers n).held else none

namespace System

variable {N R : ℕ} {s t : System N R} {n : Fin N} {limit : ℤ} {ch : Choice} {p : HostPool N}

theorem maxDepth_pos (s : System N R) (c : ℕ) : 0 < s.maxDepth c := by
  unfold maxDepth
  split <;> omega

/-- What a step with pipelining changes in the counts. -/
structure Meters (s : System N R) (n : Fin N) (p : HostPool N) : Prop where
  known : p.Known
  numConns : p.numConns = s.pool.numConns ∨
    p.numConns = s.pool.numConns + 1 ∧ (p.slots s.pool.numConns).activeReqs = 0
  active : ∀ c, c < s.pool.numConns →
    (p.slots c).activeReqs = (s.pool.slots c).activeReqs + (s.pool.callers n).adds c

theorem meters_of_caller (hknown : s.pool.Known) (hs : s.pool.caller limit n ch = some p)
    (hclaim : ∀ a sc c idx, s.pool.callers n ≠ .claim a sc c idx) : s.Meters n p :=
  ⟨(HostPool.caller_refines hknown hs).known, HostPool.caller_numConns hs,
    fun _ hc => HostPool.caller_active hknown hs hclaim hc⟩

theorem pipelined_meters (hknown : s.pool.Known) (hs : s.pipelined limit n ch = some p) :
    s.Meters n p := by
  have hgo {pc : CallerPc} (hpc : ∀ c, (s.pool.callers n).adds c = 0)
      (hids : ∀ c ∈ pc.ids, c < s.pool.numConns) : s.Meters n (s.pool.setCaller n pc) := by
    refine ⟨hknown.setCaller hids, .inl rfl, fun c _ => ?_⟩
    rw [hpc c, add_zero]
    rfl
  have hseen := hknown.seen n
  unfold pipelined at hs
  dsimp only at hs
  split at hs
  · case _ a sc hpc =>
    obtain ⟨c, hc, rfl⟩ := Option.map_eq_some_iff.mp hs
    rw [hpc] at hseen
    refine hgo (fun _ => by rw [hpc]; rfl) fun d hd => ?_
    generalize (if s.depth c ≤ 0 then (10 : ℤ) else s.depth c) = depth at hd
    split_ifs at hd
    · rcases List.mem_cons.mp hd with rfl | hd
      · exact hseen d (List.mem_append_right _ (HostPool.mem_conns_of_current hc))
      · exact hseen d hd
    · exact hseen d hd
    · exact hseen d ((HostPool.resume_looking a sc.skip).2 d hd)
  · case _ a sc c idx hpc =>
    cases hs
    rw [hpc] at hseen
    exact hgo (fun _ => by rw [hpc]; rfl) hseen
  · case _ c hpc =>
    cases hs
    rw [hpc] at hseen
    refine hgo (fun _ => by rw [hpc]; rfl) fun d hd => ?_
    split at hd
    · cases hd
    · exact hseen d hd
  · case _ c hpc =>
    split at hs <;> cases hs
    · case _ b =>
      have hframe := HostPool.frame_setSlot s.pool c { s.pool.slots c with healthy := b } rfl rfl
      refine ⟨hframe.known hknown, .inl rfl, fun d _ => ?_⟩
      rw [hpc, hframe.active d]
      exact (add_zero _).symm
    · rw [hpc] at hseen
      exact hgo (fun _ => by rw [hpc]; rfl) hseen
    · exact hgo (fun _ => by rw [hpc]; rfl) fun d hd => by cases hd
  · case _ hclaim _ _ => exact meters_of_caller hknown hs hclaim

/-- **The test of the source.**  A request that goes on aims at connections with room, if it did
before: `CanAcceptRequest` has found them so, or they are new. -/
theorem pipelined_aims (h : (s.pool.callers n).Aims s.Room)
    (hany : ∀ a, s.pool.callers n ≠ .anyLoad a) (hs : s.pipelined limit n ch = some p) :
    (p.callers n).Aims fun c => s.Room c ∨ c = s.pool.numConns := by
  have h' := h.mono (Q := fun c => s.Room c ∨ c = s.pool.numConns) fun _ _ => .inl
  have hself (pc : CallerPc) : (s.pool.setCaller n pc).callers n = pc :=
    HostPool.setCaller_self ..
  unfold pipelined at hs
  dsimp only at hs
  split at hs
  · case _ a sc hpc =>
    obtain ⟨c, hc, rfl⟩ := Option.map_eq_some_iff.mp hs
    rw [hpc] at h'
    rw [hself]
    show CallerPc.Aims _ (if (s.pool.slots c).activeReqs < s.maxDepth c then _ else _)
    split
    · case _ hroom =>
      split
      · exact .inl hroom
      · refine ⟨h', fun d hd => ?_⟩
        obtain rfl := Option.some_inj.mp (hc.symm.trans hd)
        exact .inl hroom
    · exact HostPool.resume_aims h'
  · cases hs
    rw [hself]
    trivial
  · cases hs
    rw [hself]
    split <;> trivial
  · case _ c hpc =>
    split at hs <;> cases hs
    · rw [show (s.pool.setSlot c _).callers n = .inside c from hpc]
      trivial
    · rw [hself]
      trivial
    · rw [hself]
      trivial
  · case _ htest hclaim _ _ => exact HostPool.caller_aims hs h' (.inr rfl) htest hclaim hany

/-- Where nothing is added, there is room as before. -/
theorem room_of_meters {t : System N R} (h : s.Meters n t.pool) (hdepth : t.depth = s.depth)
    (hadds : ∀ c, (s.pool.callers n).adds c ≤ 0) {c : ℕ} (hc : c < t.pool.numConns)
    (hroom : s.Room c ∨ c = s.pool.numConns) : t.Room c := by
  have hmax : t.maxDepth c = s.maxDepth c := by simp only [maxDepth, hdepth]
  unfold Room
  rw [hmax]
  rcases Nat.lt_or_ge c s.pool.numConns with hlt | hge
  · have hroom' := hroom.resolve_right (Nat.ne_of_lt hlt)
    have := h.active c hlt
    have := hadds c
    unfold Room at hroom'
    omega
  · rcases h.numConns with hnum | ⟨hnum, hzero⟩
    · omega
    · obtain rfl : c = s.pool.numConns := by omega
      rw [hzero]
      exact s.maxDepth_pos _

/-- Whoever is counted now has just been, or goes on with its request. -/
theorem pipelined_counted (hknown : s.pool.Known) (hs : s.pipelined limit n ch = some p) {c : ℕ}
    (hc : (p.callers n).counted = some c) :
    s.pool.callers n = .count c ∨ s.pool.callers n = .inside c := by
  have hself (pc : CallerPc) : (s.pool.setCaller n pc).callers n = pc :=
    HostPool.setCaller_self ..
  unfold pipelined at hs
  dsimp only at hs
  split at hs
  · case _ a sc hpc =>
    obtain ⟨d, -, rfl⟩ := Option.map_eq_some_iff.mp hs
    rw [hself, HostPool.counted_iff] at hc
    generalize (if s.depth d ≤ 0 then (10 : ℤ) else s.depth d) = depth at hc
    split_ifs at hc
    · cases hc
    · cases hc
    · rw [(HostPool.resume_looking a sc.skip).1] at hc
      cases hc
  · cases hs
    rw [hself] at hc
    cases hc
  · cases hs
    rw [hself] at hc
    split at hc <;> cases hc
  · case _ d hpc =>
    split at hs <;> cases hs
    · have hsame (x : Slot) : (s.pool.setSlot d x).callers n = .inside d := hpc
      rw [hsame] at hc
      cases hc
      exact .inr hpc
    · rw [hself] at hc
      cases hc
      exact .inr hpc
    · rw [hself] at hc
      cases hc
  · case _ _ hclaim hswap hinside => exact HostPool.caller_counted hknown hs hswap hc

/-- `WarmUp` counts no request. -/
theorem warmUp_meters {k : ℕ} (hknown : s.pool.Known) (hpc : (s.pool.callers n).creates = true)
    (hs : s.warmUp limit n k ch = some t) :
    s.Meters n t.pool ∧ (t.pool.callers n).creates = true ∧ t.depth = s.depth := by
  have hgo (hadds : ∀ c, (s.pool.callers n).adds c = 0) ⦃pc : CallerPc⦄ (hids : pc.ids = [])
      (hcreates : pc.creates = true) : s.Meters n (s.pool.setCaller n pc) ∧
        ((s.pool.setCaller n pc).callers n).creates = true := by
    refine ⟨⟨hknown.setCaller fun c hc => ?_, .inl rfl, fun c _ => ?_⟩, ?_⟩
    · rw [hids] at hc
      cases hc
    · rw [hadds c, add_zero]
      rfl
    · rw [HostPool.setCaller_self]
      exact hcreates
  unfold warmUp at hs
  split at hs
  · case _ hidle =>
    have hgo' := hgo fun c => by rw [hidle]; rfl
    split at hs <;> cases hs
    · exact ⟨(hgo' rfl rfl).1, (hgo' rfl rfl).2, rfl⟩
    · exact ⟨(hgo' rfl rfl).1, (hgo' rfl rfl).2, rfl⟩
  · case _ d hgot =>
    have hgo' := hgo fun c => by rw [hgot]; rfl
    split at hs <;> cases hs
    · exact ⟨(hgo' rfl rfl).1, (hgo' rfl rfl).2, rfl⟩
    · exact ⟨(hgo' rfl rfl).1, (hgo' rfl rfl).2, rfl⟩
  · case _ a helapsed =>
    cases hs
    have hgo' := hgo fun c => by rw [helapsed]; rfl
    exact ⟨(hgo' rfl rfl).1, (hgo' rfl rfl).2, rfl⟩
  · case _ hidle hgot helapsed =>
    obtain ⟨p, hp, rfl⟩ := Option.map_eq_some_iff.mp hs
    refine ⟨meters_of_caller hknown hp fun a sc c idx hcl => ?_,
      HostPool.caller_creates hp hpc hidle hgot helapsed, rfl⟩
    rw [hcl] at hpc
    cases hpc

end System

namespace Flow

variable {N R : ℕ}

def new (warm : Fin N → Option ℕ) (depth : ℕ → ℤ) (evicting : Bool) : Flow N R :=
  { sys := .new warm depth evicting, wrote := fun _ => false, outstanding := fun _ => none
    turn := fun _ => 0, room := fun _ => 0, clock := 0 }

/-- `doPipelined` goes on to return when it has written, and gives the count back when it has
not; the reader takes requests off the count when it answers them. -/
def permits (s : Flow N R) : Label N R → Bool
  | .caller n ch =>
    match s.sys.pool.callers n, ch with
    | .inside _, .setHealthy _ => true
    | .inside _, .dialError => !s.wrote n
    | .inside _, _ => s.wrote n
    | _, _ => true
  | .reader _ (.setHealthy _) => true
  | .reader _ _ => false
  | _ => true

/-- Caller `n` has been given connection `c`. -/
def enter (s : Flow N R) (n : Fin N) (c : ℕ) : Flow N R :=
  { s with
    turn := update s.turn n s.clock
    room := update s.room n (s.sys.maxDepth c)
    clock := s.clock + 1 }

def note (s : Flow N R) (t : System N R) : Label N R → Flow N R
  | .caller n _ =>
    match s.sys.gets t n with
    | some c => { s.enter n c with sys := t }
    | none => { s with sys := t }
  | _ => { s with sys := t }

/-- A step of the pool and of its connections. -/
def step (cfg : Config) (s : Flow N R) : FlowLabel N R → Option (Flow N R)
  | .sys l => if s.permits l then (s.sys.step cfg l).map fun t => s.note t l else none
  | .write n =>
    match s.sys.pool.callers n with
    | .inside c =>
      if cfg.enablePipelining ∧ (s.sys.warm n).isNone ∧ s.wrote n = false then
        some { s with
          wrote := update s.wrote n true
          outstanding := update s.outstanding n (some c) }
      else none
    | _ => none
  | .answer n =>
    match s.outstanding n with
    | some c =>
      (s.sys.step cfg (.reader c .plain)).map fun t =>
        { s with sys := t, outstanding := update s.outstanding n none }
    | none => none
  | .drop c =>
    some { s with
      outstanding := fun n => if s.outstanding n = some c then none else s.outstanding n }

/-! ### Requests as users of connections -/

/-- The connection a request has been given, until it has its answer or is finished without. -/
def on (s : Flow N R) (n : Fin N) : Option ℕ :=
  if s.wrote n then s.outstanding n
  else if (s.sys.warm n).isNone then (s.sys.pool.callers n).held else none

/-- The request has begun, and is neither written nor finished. -/
def onWay (s : Flow N R) (n : Fin N) : Bool :=
  (s.sys.warm n).isNone && (s.sys.pool.callers n).begun && !s.wrote n
    && !(s.sys.pool.callers n).finished

/-- A request begins when no other is on its way, and the depth of a pipeline is changed only
then. -/
def inTurn (s : Flow N R) : FlowLabel N R → Bool
  | .sys (.caller n _) =>
    (s.sys.warm n).isSome || (s.sys.pool.callers n).begun || decide (∀ m, s.onWay m = false)
  | .sys (.tune _ _) => decide (∀ m, s.onWay m = false)
  | _ => true

/-- No caller is at `getAnyConnection`. -/
def skipsAny (s : Flow N R) : FlowLabel N R → Bool
  | .sys (.caller n _) =>
    match s.sys.pool.callers n with
    | .anyLoad _ => false
    | _ => true
  | _ => true

/-- The connection whose `activeReqs` counts the request. -/
def counts (s : Flow N R) (n : Fin N) : Option ℕ :=
  if s.wrote n then s.outstanding n else (s.sys.pool.callers n).counted

/-- What holds with pipelining in runs in turn. -/
structure Metered (s : Flow N R) : Prop where
  known : s.sys.pool.Known
  warm : ∀ n, (s.sys.warm n).isNone = false → (s.sys.pool.callers n).creates = true
  written : ∀ n, s.wrote n = true → (s.sys.warm n).isNone = true ∧
    ((∃ c, s.sys.pool.callers n = .inside c) ∨ s.sys.pool.callers n = .done)
  unanswered : ∀ n c, s.outstanding n = some c → s.wrote n = true ∧ c < s.sys.pool.numConns
  lone : ∀ n m, s.onWay n = true → s.onWay m = true → n = m
  aims : ∀ n, (s.sys.warm n).isNone = true → (s.sys.pool.callers n).Aims s.sys.Room
  load : ∀ c, c < s.sys.pool.numConns →
    Tally.AtMost (fun n => s.counts n = some c) (s.sys.pool.slots c).activeReqs

section Steps

variable {cfg : Config} {s s' : Flow N R}

theorem Metered.new {warm : Fin N → Option ℕ} {depth : ℕ → ℤ} {evicting : Bool} :
    (Flow.new warm depth evicting : Flow N R).Metered where
  known := HostPool.new_known N
  warm _ _ := rfl
  written _ hn := by cases hn
  unanswered _ _ hn := by cases hn
  lone n m hn := by simp [onWay, Flow.new, System.new, HostPool.new, CallerPc.begun] at hn
  aims _ _ := trivial
  load c _ := .zero fun _ hn => by cases hn

/-- Requests that are not on their way are given nothing. -/
theorem Metered.aims_of_not_onWay (h : s.Metered) {n : Fin N}
    (hreq : (s.sys.warm n).isNone = true) (hn : s.onWay n = false) (P : ℕ → Prop) :
    (s.sys.pool.callers n).Aims P := by
  have hwritten := h.written n
  simp only [onWay, hreq, Bool.true_and] at hn
  generalize s.sys.pool.callers n = pc at hn hwritten
  cases hw : s.wrote n with
  | true =>
    rcases (hwritten hw).2 with ⟨c, rfl⟩ | rfl <;> trivial
  | false =>
    rw [hw] at hn
    cases pc <;> trivial

/-- A step of others than the callers. -/
theorem Metered.aside {t : System N R} (h : s.Metered) (hframe : s.sys.pool.Frame t.pool)
    (hwarm : ∀ n, (t.warm n).isNone = (s.sys.warm n).isNone) (hdepth : t.depth = s.sys.depth) :
    Metered { s with sys := t } where
  known := hframe.known h.known
  warm n hn := by
    rw [hframe.callers]
    exact h.warm n ((hwarm n).symm.trans hn)
  written n hn := by
    rw [hframe.callers, hwarm]
    exact h.written n hn
  unanswered n c hn := by
    rw [hframe.numConns]
    exact h.unanswered n c hn
  lone n m hn hm := by
    simp only [onWay, hwarm, hframe.callers] at hn hm
    exact h.lone n m hn hm
  aims n hn := by
    rw [hframe.callers]
    refine (h.aims n ((hwarm n).symm.trans hn)).mono fun c _ hroom => ?_
    show (t.pool.slots c).activeReqs < t.maxDepth c
    rw [hframe.active, System.maxDepth, hdepth]
    exact hroom
  load c hc := by
    rw [hframe.active]
    refine (h.load c (hframe.numConns ▸ hc)).mono fun n hn => ?_
    simpa only [counts, hframe.callers] using hn

theorem Metered.counts_lt (h : s.Metered) {n : Fin N} {c : ℕ} (hn : s.counts n = some c) :
    c < s.sys.pool.numConns := by
  unfold counts at hn
  split at hn
  · exact (h.unanswered n c hn).2
  · exact h.known.lt_of_has (HostPool.counted_iff.mp hn)

theorem Metered.onWay_of_count (h : s.Metered) {n : Fin N} {c : ℕ}
    (hpc : s.sys.pool.callers n = .count c) : s.onWay n = true := by
  have hreq : (s.sys.warm n).isNone = true := by
    by_contra hwarm
    have := h.warm n (Bool.eq_false_iff.mpr hwarm)
    rw [hpc] at this
    cases this
  have hnot : s.wrote n = false := by
    by_contra hw
    rcases (h.written n (by simpa using hw)).2 with ⟨d, hd⟩ | hd <;> cases hpc.symm.trans hd
  simp only [onWay, hreq, hpc, hnot]
  rfl

/-- What a step of caller `n` does to the counts and to the connections it may be given. -/
structure Moves (cfg : Config) (s : Flow N R) (n : Fin N) (t : System N R) : Prop where
  calls : System.Calls cfg s.sys n t
  meters : s.sys.Meters n t.pool
  depth : t.depth = s.sys.depth
  creates : (s.sys.warm n).isNone = false → (t.pool.callers n).creates = true
  written : s.wrote n = true → (∃ c, t.pool.callers n = .inside c) ∨ t.pool.callers n = .done
  aims : (s.sys.warm n).isNone = true → (t.pool.callers n).Aims fun c =>
    s.sys.Room c ∨ c = s.sys.pool.numConns
  counted : ∀ c, (t.pool.callers n).counted = some c →
    s.sys.pool.callers n = .count c ∨ s.sys.pool.callers n = .inside c
  count : ∀ c, s.sys.pool.callers n = .count c → t.pool.callers n = .inside c
  onWay : onWay { s with sys := t } n = true → s.onWay n = true ∨ ∀ m, s.onWay m = false

section Moves

variable {t : System N R} {n : Fin N}

theorem Moves.lone (hs : Moves cfg s n t) (h : s.Metered) {m k : Fin N}
    (hm : Flow.onWay { s with sys := t } m = true)
    (hk : Flow.onWay { s with sys := t } k = true) : m = k := by
  have hother (b : Fin N) (hb : b ≠ n) : Flow.onWay { s with sys := t } b = s.onWay b := by
    simp only [Flow.onWay, hs.calls.warm, hs.calls.move.others b hb]
  -- who has just begun finds nobody on its way
  have hnew {b : Fin N} (hn : Flow.onWay { s with sys := t } n = true) (hb : s.onWay b = true) :
      n = b := by
    rcases hs.onWay hn with hon | hnone
    · exact h.lone n b hon hb
    · exact absurd (hb.symm.trans (hnone b)) (by simp)
  rcases eq_or_ne m n with rfl | hmn
  · rcases eq_or_ne k m with rfl | hkm
    · rfl
    · exact hnew hm (hother k hkm ▸ hk)
  · rw [hother m hmn] at hm
    rcases eq_or_ne k n with rfl | hkn
    · exact (hnew hk hm).symm
    · exact h.lone m k hm (hother k hkn ▸ hk)

/-- Whoever goes on finds room where it did before. -/
theorem Moves.aims_room (hs : Moves cfg s n t) (h : s.Metered) {m : Fin N}
    (hm : (s.sys.warm m).isNone = true) : (t.pool.callers m).Aims t.Room := by
  have hothers := hs.calls.move.others
  by_cases hat : ∃ d, s.sys.pool.callers n = .count d
  · -- who counts its request is alone on its way
    obtain ⟨d, hd⟩ := hat
    rcases eq_or_ne m n with rfl | hmn
    · rw [hs.count d hd]
      trivial
    · rw [hothers m hmn]
      refine h.aims_of_not_onWay hm ?_ _
      by_contra hon
      exact hmn (h.lone m n (by simpa using hon) (h.onWay_of_count hd))
  · have hadds (c : ℕ) : (s.sys.pool.callers n).adds c ≤ 0 := by
      unfold CallerPc.adds
      split
      · case _ d hd => exact absurd ⟨d, hd⟩ hat
      · split <;> omega
      · exact le_rfl
    have hroom {c : ℕ} (hc : c ∈ (t.pool.callers m).ids)
        (hroom : s.sys.Room c ∨ c = s.sys.pool.numConns) : t.Room c :=
      System.room_of_meters hs.meters hs.depth hadds (hs.meters.known.seen m c hc) hroom
    rcases eq_or_ne m n with rfl | hmn
    · exact (hs.aims hm).mono fun c hc => hroom hc
    · refine CallerPc.Aims.mono ((hothers m hmn).symm ▸ h.aims m hm) fun c hc hold => ?_
      exact hroom hc (.inl hold)

/-- Who is counted was so before, or has been at the count. -/
theorem Moves.counts_before (hs : Moves cfg s n t) {d : ℕ}
    (hne : s.sys.pool.callers n ≠ .count d) {b : Fin N}
    (hb : Flow.counts { s with sys := t } b = some d) : s.counts b = some d := by
  rcases eq_or_ne b n with rfl | hbn
  · simp only [Flow.counts] at hb ⊢
    split at hb
    · case _ hw =>
      rw [if_pos hw]
      exact hb
    · case _ hw =>
      rw [if_neg hw, (hs.counted d hb).resolve_left hne]
      rfl
  · simpa only [Flow.counts, hs.calls.move.others b hbn] using hb

theorem Moves.load (hs : Moves cfg s n t) (h : s.Metered) {c : ℕ} (hc : c < t.pool.numConns) :
    Tally.AtMost (fun b => Flow.counts { s with sys := t } b = some c)
      (t.pool.slots c).activeReqs := by
  rcases Nat.lt_or_ge c s.sys.pool.numConns with hlt | hge
  · rw [hs.meters.active c hlt]
    have hload := h.load c hlt
    by_cases hadd : s.sys.pool.callers n = .count c
    · rw [hadd, CallerPc.adds, if_pos rfl]
      refine hload.add n fun b hb => ?_
      rcases eq_or_ne b n with rfl | hbn
      · exact .inl rfl
      · simp only [Flow.counts, hs.calls.move.others b hbn] at hb
        exact .inr hb
    by_cases hleave : s.sys.pool.callers n = .leave c
    · have hnot : s.wrote n = false := by
        by_contra hw
        rcases (h.written n (by simpa using hw)).2 with ⟨d, hd⟩ | hd <;>
          cases hleave.symm.trans hd
      rw [hleave, CallerPc.adds, if_pos rfl]
      refine hload.remove (a := n) ?_ fun b hb => ⟨?_, hs.counts_before hadd hb⟩
      · simp [Flow.counts, hnot, hleave, CallerPc.counted]
      · rintro rfl
        simp only [Flow.counts, hnot, Bool.false_eq_true, if_false] at hb
        rcases hs.counted c hb with hpc | hpc <;> cases hleave.symm.trans hpc
    · have hzero : (s.sys.pool.callers n).adds c = 0 := by
        unfold CallerPc.adds
        split
        · case _ d hd => exact if_neg fun (heq : d = c) => hadd (heq ▸ hd)
        · case _ d hd => exact if_neg fun (heq : d = c) => hleave (heq ▸ hd)
        · rfl
      rw [hzero, add_zero]
      exact hload.mono fun b hb => hs.counts_before hadd hb
  · -- nobody is counted on a new connection
    have hnum := hs.meters.numConns
    obtain rfl : c = s.sys.pool.numConns := by omega
    rw [(hnum.resolve_left (by omega)).2]
    refine .zero fun b hb => ?_
    have hne : s.sys.pool.callers n ≠ .count s.sys.pool.numConns := by
      intro hpc
      have := h.known.seen n s.sys.pool.numConns (by rw [hpc]; exact List.mem_singleton_self _)
      omega
    have := h.counts_lt (hs.counts_before hne hb)
    omega

end Moves

/-- A step of a caller. -/
theorem Metered.caller {t : System N R} {n : Fin N} (h : s.Metered) (hs : Moves cfg s n t) :
    Metered { s with sys := t } where
  known := hs.meters.known
  warm m hm := by
    rw [hs.calls.warm] at hm
    rcases eq_or_ne m n with rfl | hmn
    · exact hs.creates hm
    · exact (congrArg CallerPc.creates (hs.calls.move.others m hmn)).trans (h.warm m hm)
  written m hm := by
    refine ⟨(hs.calls.warm m).trans (h.written m hm).1, ?_⟩
    rcases eq_or_ne m n with rfl | hmn
    · exact hs.written hm
    · rw [hs.calls.move.others m hmn]
      exact (h.written m hm).2
  unanswered m c hm := by
    obtain ⟨hw, hlt⟩ := h.unanswered m c hm
    refine ⟨hw, ?_⟩
    show c < t.pool.numConns
    rcases hs.meters.numConns with hnum | ⟨hnum, -⟩ <;> omega
  lone m k hm hk := hs.lone h hm hk
  aims m hm := hs.aims_room h ((hs.calls.warm m).symm.trans hm)
  load c hc := hs.load h hc

/-- A step of a request. -/
theorem Metered.request {t : System N R} {n : Fin N} {ch : Choice}
    (hpipe : cfg.enablePipelining = true) (h : s.Metered) (hreq : s.sys.warm n = none)
    (hturn : s.inTurn (.sys (.caller n ch)) = true)
    (hskip : s.skipsAny (.sys (.caller n ch)) = true) (hpermits : s.permits (.caller n ch) = true)
    (hs : s.sys.caller cfg n ch = some t) : Metered { s with sys := t } := by
  have hcalls := System.caller_calls hs
  have hfinished := System.not_finished_of_caller hs
  obtain ⟨t', ht', rfl⟩ := Option.map_eq_some_iff.mp hs
  simp only [hreq, hpipe, if_true] at ht'
  obtain ⟨p, hp, rfl⟩ := Option.map_eq_some_iff.mp ht'
  have hany (a : ℕ) : s.sys.pool.callers n ≠ .anyLoad a := by
    intro hpc
    simp [skipsAny, hpc] at hskip
  refine h.caller ⟨hcalls, System.pipelined_meters h.known hp, rfl, fun hn => ?_, fun hw => ?_,
    fun hn => System.pipelined_aims (h.aims n hn) hany hp,
    fun c hc => System.pipelined_counted h.known hp hc, fun c hc => ?_, fun hon => ?_⟩
  · rw [hreq] at hn
    cases hn
  · -- a request that is written returns, or goes on
    rcases (h.written n hw).2 with ⟨c, hpc⟩ | hpc
    · simp only [System.pipelined, hpc] at hp
      simp only [permits, hpc, hw] at hpermits
      split at hp <;> cases hp
      · exact .inl ⟨c, hpc⟩
      · cases hpermits
      · exact .inr (HostPool.setCaller_self ..)
    · rw [hpc] at hfinished
      cases hfinished
  · simp only [System.pipelined, hc, HostPool.caller] at hp
    cases hp
    exact HostPool.setCaller_self ..
  · simp only [inTurn, hreq, Option.isSome_none, Bool.false_or, Bool.or_eq_true,
      decide_eq_true_eq] at hturn
    rcases hturn with hbegun | hnone
    · have hnot : s.wrote n = false := by simp_all [onWay]
      simp [onWay, hreq, hbegun, hnot, hfinished]
    · exact .inr hnone

/-- A step of `WarmUp`. -/
theorem Metered.warmUp {t : System N R} {n : Fin N} {k : ℕ} {ch : Choice} (h : s.Metered)
    (hk : s.sys.warm n = some k) (hs : s.sys.caller cfg n ch = some t) :
    Metered { s with sys := t } := by
  have hcalls := System.caller_calls hs
  obtain ⟨t', ht', rfl⟩ := Option.map_eq_some_iff.mp hs
  simp only [hk] at ht'
  have hwarm : (s.sys.warm n).isNone = false := by rw [hk]; rfl
  have hpc := h.warm n hwarm
  obtain ⟨hmeters, hcreates, hdepth⟩ := System.warmUp_meters h.known hpc ht'
  have hreq (hn : (s.sys.warm n).isNone = true) : False := by
    rw [hwarm] at hn
    cases hn
  refine h.caller ⟨hcalls, hmeters, hdepth, fun _ => hcreates,
    fun hw => (hreq (h.written n hw).1).elim, fun hn => (hreq hn).elim, fun c hc => ?_,
    fun c hc => ?_, fun hon => ?_⟩
  · exact absurd ((CallerPc.counted_of_creates hcreates).symm.trans hc) (by simp)
  · rw [hc] at hpc
    cases hpc
  · simp only [onWay, hcalls.warm, hwarm, Bool.false_and] at hon
    cases hon

/-- A step that leaves the pool and its requests as they are. -/
theorem Metered.congr (h : s.Metered) (hsys : s'.sys = s.sys) (hwrote : s'.wrote = s.wrote)
    (hout : s'.outstanding = s.outstanding) : s'.Metered := by
  have honWay (n : Fin N) : s'.onWay n = s.onWay n := by simp only [onWay, hsys, hwrote]
  have hcounts (n : Fin N) : s'.counts n = s.counts n := by
    simp only [counts, hsys, hwrote, hout]
  refine ⟨hsys ▸ h.known, ?_, ?_, ?_, ?_, ?_, ?_⟩
  · rw [hsys]
    exact h.warm
  · rw [hsys, hwrote]
    exact h.written
  · rw [hsys, hwrote, hout]
    exact h.unanswered
  · simpa only [honWay] using h.lone
  · rw [hsys]
    exact h.aims
  · simpa only [hsys, hcounts] using h.load

/-- A request that is written is counted as before. -/
theorem Metered.write {n : Fin N} {c : ℕ} (h : s.Metered)
    (hpc : s.sys.pool.callers n = .inside c) (hreq : (s.sys.warm n).isNone = true)
    (hnot : s.wrote n = false) :
    Metered { s with
      wrote := update s.wrote n true
      outstanding := update s.outstanding n (some c) } := by
  refine { h with written := fun m hm => ?_, unanswered := fun m d hm => ?_,
                  lone := fun m k hm hk => ?_, load := fun d hd => ?_ }
  · rcases eq_or_ne m n with rfl | hmn
    · exact ⟨hreq, .inl ⟨c, hpc⟩⟩
    · simp only [Function.update_of_ne hmn] at hm
      exact h.written m hm
  · rcases eq_or_ne m n with rfl | hmn
    · simp only [Function.update_self] at hm ⊢
      cases hm
      exact ⟨trivial, h.known.lt_of_has (congrArg CallerPc.has hpc)⟩
    · simp only [Function.update_of_ne hmn] at hm ⊢
      exact h.unanswered m d hm
  · have hbefore (a : Fin N) (ha : onWay { s with
        wrote := update s.wrote n true
        outstanding := update s.outstanding n (some c) } a = true) : s.onWay a = true := by
      rcases eq_or_ne a n with rfl | han
      · simp [onWay] at ha
      · simpa only [onWay, Function.update_of_ne han] using ha
    exact h.lone m k (hbefore m hm) (hbefore k hk)
  · refine (h.load d hd).mono fun m hm => ?_
    rcases eq_or_ne m n with rfl | hmn
    · simpa [counts, hnot, hpc, CallerPc.counted] using hm
    · simpa only [counts, Function.update_of_ne hmn] using hm

/-- A request that is answered is not counted any more. -/
theorem Metered.answer {n : Fin N} {c : ℕ} (h : s.Metered) (hc : s.outstanding n = some c) :
    Metered { s with
      sys := s.sys.reader c .plain
      outstanding := update s.outstanding n none } := by
  obtain ⟨hwrote, hlt⟩ := h.unanswered n c hc
  have hactive (d : ℕ) : ((s.sys.reader c .plain).pool.slots d).activeReqs =
      (s.sys.pool.slots d).activeReqs - if d = c then 1 else 0 := by
    rcases eq_or_ne d c with rfl | hdc
    · simp [System.reader, HostPool.setSlot]
    · simp [System.reader, HostPool.setSlot, hdc]
  refine ⟨⟨h.known.listed, h.known.seen⟩, h.warm, h.written, fun m d hm => ?_, h.lone,
    fun m hm => ?_, fun d hd => ?_⟩
  · rcases eq_or_ne m n with rfl | hmn
    · simp at hm
    · simp only [Function.update_of_ne hmn] at hm
      exact h.unanswered m d hm
  · refine (h.aims m hm).mono fun d _ hroom => ?_
    show ((s.sys.reader c .plain).pool.slots d).activeReqs < s.sys.maxDepth d
    have hroom' : (s.sys.pool.slots d).activeReqs < s.sys.maxDepth d := hroom
    rw [hactive]
    split <;> omega
  · have hload := h.load d hd
    show Tally.AtMost _ ((s.sys.reader c .plain).pool.slots d).activeReqs
    have hother (b : Fin N) (hb : counts { s with
        sys := s.sys.reader c .plain
        outstanding := update s.outstanding n none } b = some d) :
        b ≠ n ∧ s.counts b = some d := by
      rcases eq_or_ne b n with rfl | hbn
      · simp [counts, hwrote] at hb
      · refine ⟨hbn, ?_⟩
        simp only [counts, Function.update_of_ne hbn] at hb
        exact hb
    rw [hactive]
    split
    · case _ hdc =>
      subst hdc
      exact hload.remove (a := n) (by simp [counts, hwrote, hc]) hother
    · rw [sub_zero]
      exact hload.mono fun b hb => (hother b hb).2

/-- What is dropped is not without answer any more. -/
theorem Metered.drop (h : s.Metered) (c : ℕ) :
    Metered { s with
      outstanding := fun n => if s.outstanding n = some c then none else s.outstanding n } := by
  refine { h with unanswered := fun m d hm => ?_, load := fun d hd => ?_ }
  · dsimp only at hm
    split at hm
    · cases hm
    · exact h.unanswered m d hm
  · refine (h.load d hd).mono fun m hm => ?_
    simp only [counts] at hm ⊢
    split at hm
    · case _ hw =>
      rw [if_pos hw]
      split at hm
      · cases hm
      · exact hm
    · case _ hw =>
      rw [if_neg hw]
      exact hm

end Steps

end Flow

end BurstHttp.Pool
