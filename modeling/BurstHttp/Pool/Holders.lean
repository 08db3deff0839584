/-
Which request has which connection.

A request is given a connection when `getIdleConnection` has claimed it, or has
chosen it where requests are pipelined, when `createConnection` has listed the one
it dialed, or when `getAnyConnection` has found it usable.  It has the connection
until `Do` returns.

* `CallerPc.held`, `HostPool.given`, `System.given` — what a caller has, and what
  its next step gives it;
* `System.step_request` — in a step a request keeps what it has, or is finished, or
  is given a connection.
-/
import BurstHttp.Pool.Workers

namespace BurstHttp.Pool

open Function (update)

/-- The connection a caller has been given. -/
def CallerPc.held : CallerPc → Option ℕ
  | .mark _ c _ | .storeIndex _ c _ | .removingLate _ c _ | .created c | .anyStore _ _ c
  | .anyRemoving _ _ (some c) _ | .got c | .ensure c _ | .swap c | .count c | .inside c
  | .leave c => some c
  | _ => none

/-- `GetConnection` has returned nil, or `Do` has returned. -/
def CallerPc.finished : CallerPc → Bool
  | .gotNil | .done => true
  | _ => false

theorem CallerPc.held_of_finished {pc : CallerPc} (h : pc.finished = true) : pc.held = none := by
  cases pc <;> first | rfl | cases h

/-- In a step from `pc` to `pc'` a caller keeps what it has, or is finished, or gets what
it is given. -/
def Passes (given : Option ℕ) (pc pc' : CallerPc) : Prop :=
  pc'.held = pc.held ∨ pc'.finished = true ∨ pc.held = none ∧ pc'.held = given

theorem Passes.of_not_held {given : Option ℕ} {pc pc' : CallerPc} (h : pc.held = none)
    (h' : pc'.held = none) : Passes given pc pc' :=
  .inl (h'.trans h.symm)

namespace HostPool

variable {N : ℕ} {s s' : HostPool N} {n : Fin N} {limit : ℤ} {ch : Choice}

/-- The connection that the next step of caller `n` gives it. -/
def given (s : HostPool N) (n : Fin N) : Option ℕ :=
  match s.callers n with
  | .claim _ _ c _ => if (s.slots c).activeReqs = 0 then some c else none
  | .publish _ c old => if s.connections = some old then some c else none
  | .anyStopped _ sc => sc.current.filter fun c => !(s.slots c).stopped
  | _ => none

theorem scanned_held (a : ℕ) (sc : Scan) : (scanned a sc).held = none := by
  unfold scanned
  split
  · rfl
  · split_ifs <;> rfl

theorem resume_held (a : ℕ) (sc : Scan) : (resume a sc).held = none := by
  unfold resume
  generalize (if sc.second then sc.conns.length else sc.maxScan) = bound
  split_ifs
  · rfl
  · rfl
  · rfl
  · exact scanned_held a sc

theorem anyResume_held (a : ℕ) (sc : Scan) : (anyResume a sc).held = none := by
  unfold anyResume
  split_ifs <;> rfl

theorem check_held (s : HostPool N) (a : ℕ) (sc : Scan) (c : ℕ) (ch : Choice) (pc : CheckPc) :
    (s.check a sc c ch pc).held = none := by
  cases pc with
  | healthy | stopped | healthyAgain | stoppedAgain =>
    rw [check]
    split_ifs
    · first | exact resume_held a _ | rfl
    · first | exact resume_held a _ | rfl
  | active =>
    rw [check]
    split_ifs
    · rfl
    · rfl
    · exact resume_held a sc.skip
  | score => cases ch <;> exact resume_held a _

theorem withConns_held {f : List ℕ → CallerPc} {empty : CallerPc}
    (hf : ∀ conns, (f conns).held = none) (hempty : empty.held = none) :
    (s.withConns f empty).held = none := by
  unfold withConns
  split
  · exact hempty
  · split
    · exact hempty
    · exact hf _

/-- What a step of `GetConnection` and `Do` does to what the caller has. -/
theorem caller_passes (hs : s.caller limit n ch = some s') :
    Passes (s.given n) (s.callers n) (s'.callers n) := by
  unfold caller at hs
  unfold given
  generalize hpc : s.callers n = pc at hs
  have hself (t : HostPool N) (pc' : CallerPc) : (t.setCaller n pc').callers n = pc' :=
    setCaller_self t n pc'
  -- what a caller has changes at the claim, the append and the pick of getAnyConnection
  cases pc with
  | idle | createNew a | undo a | anyIndex a conns =>
    cases hs
    rw [hself]
    exact .inl rfl
  | idleLoad a | anyLoad a =>
    cases hs
    rw [hself]
    exact .of_not_held rfl (withConns_held (fun _ => rfl) rfl)
  | idleIndex a conns =>
    cases hs
    rw [hself]
    exact .of_not_held rfl (resume_held a _)
  | check a sc pc =>
    obtain ⟨c, -, rfl⟩ := Option.map_eq_some_iff.mp hs
    rw [hself]
    exact .of_not_held rfl (check_held s a sc c ch pc)
  | removing a sc pc =>
    cases hs
    rw [hself]
    refine .of_not_held rfl ?_
    cases (s.remove sc.unhealthy pc).2 with
    | some pc => rfl
    | none =>
      dsimp only [Option.elim]
      split
      · rfl
      · exact scanned_held a sc
  | claim a sc c idx =>
    dsimp only at hs ⊢
    split at hs
    case isTrue hzero =>
      cases hs
      rw [hself, if_pos hzero]
      exact .inr (.inr ⟨rfl, rfl⟩)
    case isFalse hne =>
      cases hs
      rw [hself]
      refine .of_not_held rfl ?_
      split
      · exact resume_held a sc.skip
      · rfl
  | mark sc c idx | created c | got c | count c =>
    cases hs
    rw [hself]
    exact .inl rfl
  | storeIndex sc c idx | anyStore a sc c =>
    cases hs
    rw [hself]
    refine .inl ?_
    split <;> rfl
  | removingLate sc c pc =>
    cases hs
    rw [hself]
    refine .inl ?_
    cases (s.remove sc.unhealthy pc).2 <;> rfl
  | createLoad a =>
    cases hs
    rw [hself]
    refine .of_not_held rfl ?_
    split <;> rfl
  | createCas a cur =>
    dsimp only at hs
    split at hs <;> cases hs
    · rw [hself]
      exact .inl rfl
    · rw [hself]
      exact .inl rfl
  | dialing a c pc =>
    obtain ⟨x, -, rfl⟩ := Option.map_eq_some_iff.mp hs
    rw [hself]
    refine .of_not_held rfl ?_
    rcases x.2 with epc | _ | _ <;> rfl
  | publishLoad a c =>
    cases hs
    rw [hself]
    refine .of_not_held rfl ?_
    cases s.connections <;> rfl
  | publish a c old =>
    dsimp only at hs ⊢
    split at hs
    case isTrue hold =>
      cases hs
      rw [hself, if_pos hold]
      exact .inr (.inr ⟨rfl, rfl⟩)
    case isFalse hne =>
      cases hs
      rw [hself]
      exact .of_not_held rfl rfl
  | elapsed a =>
    cases hs
    rw [hself]
    refine .of_not_held rfl ?_
    split <;> rfl
  | anyHealthy a sc =>
    obtain ⟨c, -, rfl⟩ := Option.map_eq_some_iff.mp hs
    rw [hself]
    refine .of_not_held rfl ?_
    split
    · rfl
    · exact anyResume_held a _
  | anyStopped a sc =>
    obtain ⟨c, hc, rfl⟩ := Option.map_eq_some_iff.mp hs
    rw [hself]
    dsimp only
    rw [hc]
    by_cases hstopped : (s.slots c).stopped = true
    · rw [if_pos hstopped]
      exact .of_not_held rfl (anyResume_held a _)
    · rw [if_neg hstopped]
      refine .inr (.inr ⟨rfl, ?_⟩)
      simp [Option.filter, hstopped, CallerPc.held]
  | anyRemoving a sc found pc =>
    cases hs
    rw [hself]
    refine .inl ?_
    cases (s.remove sc.unhealthy pc).2 <;> cases found <;> rfl
  | sleep a =>
    cases hs
    rw [hself]
    refine .of_not_held rfl ?_
    split <;> rfl
  | gotNil | done => cases hs
  | ensure c pc =>
    obtain ⟨x, -, rfl⟩ := Option.map_eq_some_iff.mp hs
    rw [hself]
    rcases x.2 with epc | _ | _
    · exact .inl rfl
    · exact .inr (.inl rfl)
    · exact .inl rfl
  | swap c =>
    dsimp only at hs
    split at hs <;> cases hs
    · rw [hself]
      exact .inl rfl
    · rw [hself]
      exact .inl rfl
  | inside c =>
    dsimp only at hs
    split at hs <;> cases hs
    · exact .inl (by rw [← hpc]; rfl)
    · rw [hself]
      exact .inl rfl
  | leave c =>
    cases hs
    rw [hself]
    exact .inr (.inl rfl)

end HostPool

namespace System

variable {N R : ℕ} {cfg : Config} {s s' : System N R} {n : Fin N} {limit : ℤ} {ch : Choice}

/-- The connection that the next step of caller `n` gives it. -/
def given (cfg : Config) (s : System N R) (n : Fin N) : Option ℕ :=
  match s.pool.callers n with
  | .claim _ _ c _ =>
    if cfg.enablePipelining ∨ (s.pool.slots c).activeReqs = 0 then some c else none
  | _ => s.pool.given n

theorem given_of_not_pipelining (h : cfg.enablePipelining = false) :
    s.given cfg n = s.pool.given n := by
  unfold given
  split
  · case _ hpc => simp [HostPool.given, hpc, h]
  · rfl

theorem pipelined_passes {p : HostPool N} (hpipe : cfg.enablePipelining = true)
    (hs : s.pipelined limit n ch = some p) :
    Passes (s.given cfg n) (s.pool.callers n) (p.callers n) := by
  have hself (t : HostPool N) (pc' : CallerPc) : (t.setCaller n pc').callers n = pc' :=
    HostPool.setCaller_self t n pc'
  unfold pipelined at hs
  dsimp only at hs
  split at hs
  · case _ a sc hpc =>
    obtain ⟨c, -, rfl⟩ := Option.map_eq_some_iff.mp hs
    rw [hself, hpc]
    refine .of_not_held rfl ?_
    generalize (if s.depth c ≤ 0 then (10 : ℤ) else s.depth c) = depth
    split_ifs
    · rfl
    · rfl
    · exact HostPool.resume_held a sc.skip
  · case _ a sc c idx hpc =>
    cases hs
    rw [hself]
    refine .inr (.inr ⟨by rw [hpc]; rfl, ?_⟩)
    simp [given, hpc, hpipe, CallerPc.held]
  · case _ c hpc =>
    cases hs
    rw [hself, hpc]
    split
    · exact .inr (.inl rfl)
    · exact .inl rfl
  · case _ c hpc =>
    split at hs <;> cases hs
    · exact .inl rfl
    · rw [hself, hpc]
      exact .inl rfl
    · rw [hself]
      exact .inr (.inl rfl)
  · case _ hne _ _ =>
    have hgiven : s.given cfg n = s.pool.given n := by
      unfold given
      split
      · case _ a sc c idx hpc => exact absurd hpc (hne a sc c idx)
      · rfl
    rw [hgiven]
    exact HostPool.caller_passes hs

/-- What a step of a request does to what it has. -/
theorem caller_holds (hs : s.caller cfg n ch = some s') (hrequest : s.warm n = none) :
    Passes (s.given cfg n) (s.pool.callers n) (s'.pool.callers n) := by
  obtain ⟨t, ht, rfl⟩ := Option.map_eq_some_iff.mp hs
  rw [hrequest] at ht
  obtain ⟨p, hp, rfl⟩ := Option.map_eq_some_iff.mp ht
  split at hp
  · case _ hpipe => exact pipelined_passes hpipe hp
  · case _ hpipe =>
    rw [given_of_not_pipelining (by simpa using hpipe)]
    exact HostPool.caller_passes hp

theorem not_finished_of_caller (hs : s.caller cfg n ch = some s') :
    (s.pool.callers n).finished = false := by
  cases hpc : s.pool.callers n with
  | gotNil | done =>
    obtain ⟨t, ht, -⟩ := Option.map_eq_some_iff.mp hs
    simp [warmUp, pipelined, HostPool.caller, hpc] at ht
    split at ht <;> cases ht
  | _ => rfl

/-- **What a step does to what a request has.**  A request moves in its own steps only; it
keeps its connection, or is finished, or is given one. -/
theorem step_request {l : Label N R} (hs : s.step cfg l = some s') (n : Fin N)
    (hrequest : (s.warm n).isNone = true) :
    s'.pool.callers n = s.pool.callers n ∨
      (∃ ch, l = .caller n ch) ∧ (s.pool.callers n).finished = false
        ∧ Passes (s.given cfg n) (s.pool.callers n) (s'.pool.callers n) := by
  by_cases hl : ∃ m ch, l = .caller m ch
  · obtain ⟨m, ch, rfl⟩ := hl
    rcases eq_or_ne n m with rfl | hm
    · refine .inr ⟨⟨ch, rfl⟩, not_finished_of_caller hs, caller_holds hs ?_⟩
      exact Option.isNone_iff_eq_none.mp hrequest
    · exact .inl ((caller_calls hs).move.others n hm)
  · push Not at hl
    exact .inl (congrFun ((step_frame hs).callers hl) n)

end System

end BurstHttp.Pool
