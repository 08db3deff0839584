/-
What the idle evictor stops (pool.go, `evictIdleConnections`).

The evictor looks at the count of a connection, then at the time of its last use,
and stops it some steps later.

* `EvictPc.suspects` — the connections the evictor has seen without requests, and
  has not stopped yet;
* `evictor_spares` — when a count of 0 means that no request has the connection, and
  no request is given a connection the evictor suspects, it stops no connection that
  a request has;
* `evictor_stops_in_use` — in other runs it does.
-/
import BurstHttp.Lib.Guarded
import BurstHttp.Pool.Holders
import Mathlib.Data.Fin.VecNotation

namespace BurstHttp.Pool

/-! ### The evictor -/

/-- The connections that the evictor has seen without requests and not stopped yet. -/
def EvictPc.suspects : EvictPc → List ℕ
  | .waiting => []
  | .active _ idle => idle
  | .healthy rest idle | .stopped rest idle | .lastUsed rest idle => rest.take 1 ++ idle
  | .removing idle .load | .removing idle (.cas _) => idle
  | .removing _ (.stop _ c rest pc) => pc.left c rest
  | .removing _ (.active _) | .removing _ (.idle _) => []

/-- The connection whose count the evictor reads next. -/
def EvictPc.reads : EvictPc → Option ℕ
  | .active (c :: _) _ => some c
  | _ => none

namespace HostPool

variable {N : ℕ} {s s' : HostPool N} {ch : Choice}

theorem evictNext_suspects (rest idle : List ℕ) : (evictNext rest idle).suspects = idle := by
  unfold evictNext
  split_ifs with hrest hidle
  · rfl
  · rfl
  · exact (not_not.mp hidle).symm

/-- In `removeUnhealthyConnections` the evictor comes to suspect nothing more. -/
theorem remove_suspects (s : HostPool N) (idle : List ℕ) (pc : RemovePc) {c : ℕ}
    (hc : c ∈ ((s.remove idle pc).2.elim .waiting (EvictPc.removing idle)).suspects) :
    c ∈ (EvictPc.removing idle pc).suspects := by
  cases pc with
  | load =>
    rw [remove] at hc
    split at hc
    · exact absurd hc List.not_mem_nil
    · split at hc
      · exact hc
      · exact absurd hc List.not_mem_nil
  | cas old =>
    rw [remove] at hc
    split at hc
    · cases idle with
      | nil => exact absurd hc List.not_mem_nil
      | cons d rest => exact hc
    · exact hc
  | stop removed d rest pc =>
    -- what is left behind this connection
    have hrest : c ∈ rest := by
      cases hx : (s.stopConn d pc).2 with
      | some pc' =>
        simp only [remove, hx] at hc
        change c ∈ pc'.left d rest at hc
        rwa [stopConn_left hx] at hc
      | none =>
        simp only [remove, hx] at hc
        cases rest with
        | nil => exact absurd hc List.not_mem_nil
        | cons d' rest => exact hc
    cases pc with
    | cas => exact List.mem_cons_of_mem d hrest
    | closing | unhealthy => exact hrest
  | active removed | idle removed => exact absurd hc List.not_mem_nil

/-- The evictor comes to suspect a connection when it reads a count of 0. -/
theorem evict_suspects (hs : s.evict ch = some s') {c : ℕ} (hc : c ∈ s'.evictor.suspects) :
    c ∈ s.evictor.suspects ∨
      (s.slots c).activeReqs = 0 ∧ ∃ rest idle, s.evictor = .active (c :: rest) idle := by
  unfold evict at hs
  split at hs
  case h_1 hpc =>
    cases hs
    cases hconn : s.connections with
    | none =>
      rw [hconn] at hc
      exact absurd hc List.not_mem_nil
    | some old =>
      rw [hconn] at hc
      change c ∈ (evictNext old.conns []).suspects at hc
      rw [evictNext_suspects] at hc
      exact absurd hc List.not_mem_nil
  case h_2 d rest idle hpc =>
    cases hs
    rw [hpc]
    dsimp only at hc
    split at hc
    case isTrue hzero =>
      rcases List.mem_cons.mp hc with rfl | hidle
      · exact .inr ⟨hzero, rest, idle, rfl⟩
      · exact .inl hidle
    case isFalse =>
      rw [evictNext_suspects] at hc
      exact .inl hc
  case h_3 d rest idle hpc | h_4 d rest idle hpc =>
    cases hs
    rw [hpc]
    dsimp only at hc
    refine .inl ?_
    split at hc
    · first
      | exact hc
      | rw [evictNext_suspects] at hc
        exact List.mem_cons_of_mem d hc
    · first
      | exact hc
      | rw [evictNext_suspects] at hc
        exact List.mem_cons_of_mem d hc
  case h_5 d rest idle hpc =>
    cases hs
    rw [hpc]
    dsimp only at hc
    refine .inl ?_
    split at hc
    · rw [evictNext_suspects] at hc
      rcases List.mem_append.mp hc with hidle | hd
      · exact List.mem_cons_of_mem d hidle
      · exact List.mem_singleton.mp hd ▸ List.mem_cons_self
    · rw [evictNext_suspects] at hc
      exact List.mem_cons_of_mem d hc
  case h_6 idle pc hpc =>
    cases hs
    rw [hpc]
    exact .inl (remove_suspects s idle pc hc)
  all_goals cases hs

end HostPool

/-! ### Runs -/

namespace System

variable {N R : ℕ} {cfg : Config} {s s' : System N R}

/-- No request has a connection that the evictor reads a count of 0 of, and no request is
given one that it suspects. -/
def Spares (cfg : Config) (s : System N R) : Label N R → Prop
  | .caller n _ =>
    (s.warm n).isNone = true → ∀ c ∈ s.given cfg n, c ∉ s.pool.evictor.suspects
  | .evictor _ =>
    ∀ c ∈ s.pool.evictor.reads, (s.pool.slots c).activeReqs = 0 →
      ∀ n, (s.warm n).isNone = true → (s.pool.callers n).held ≠ some c
  | _ => True

/-- No request has a connection that the evictor suspects. -/
def Spared (s : System N R) : Prop :=
  ∀ n, (s.warm n).isNone = true →
    ∀ c ∈ s.pool.evictor.suspects, (s.pool.callers n).held ≠ some c

theorem step_spared {l : Label N R} (h : s.Spared) (hl : s.Spares cfg l)
    (hs : s.step cfg l = some s') : s'.Spared := by
  intro n hn c hc hheld
  have hframe := step_frame hs
  have hrequest : (s.warm n).isNone = true := (hframe.warm n).symm.trans hn
  by_cases hev : ∃ ch, l = .evictor ch
  · -- the evictor has seen that nobody has what it comes to suspect
    obtain ⟨ch, rfl⟩ := hev
    rw [hframe.callers (by simp)] at hheld
    rw [step] at hs
    split at hs
    · obtain ⟨p, hp, rfl⟩ := Option.map_eq_some_iff.mp hs
      rcases HostPool.evict_suspects hp hc with hold | ⟨hzero, rest, idle, hpc⟩
      · exact h n hrequest c hold hheld
      · exact hl c (by simp [hpc, EvictPc.reads]) hzero n hrequest hheld
    · cases hs
  · push Not at hev
    rw [hframe.evictor hev] at hc
    rcases step_request hs n hrequest with hsame | ⟨⟨ch, rfl⟩, -, hpass⟩
    · rw [hsame] at hheld
      exact h n hrequest c hc hheld
    · rcases hpass with hkept | hfinished | ⟨-, hgiven⟩
      · exact h n hrequest c hc (hkept.symm.trans hheld)
      · rw [CallerPc.held_of_finished hfinished] at hheld
        cases hheld
      · exact hl hrequest c (hgiven.symm.trans hheld) hc

theorem spared_of_reaches {warm : Fin N → Option ℕ} {depth : ℕ → ℤ} {evicting : Bool}
    (h : Guarded.Reaches (step cfg) (Spares cfg) (new warm depth evicting) s) : s.Spared := by
  refine h.invariant Spared ?_ fun s l s' hs hl hstep => step_spared hs hl hstep
  intro n _ c hc
  exact absurd hc List.not_mem_nil

instance (cfg : Config) (s : System N R) : DecidablePred (Spares cfg s)
  | .caller n _ => inferInstanceAs (Decidable ((s.warm n).isNone = true →
      ∀ c ∈ s.given cfg n, c ∉ s.pool.evictor.suspects))
  | .evictor _ => inferInstanceAs (Decidable (∀ c ∈ s.pool.evictor.reads,
      (s.pool.slots c).activeReqs = 0 →
        ∀ n, (s.warm n).isNone = true → (s.pool.callers n).held ≠ some c))
  | .remover _ _ | .evictorExit | .stopper | .graceful _ _ | .reader _ _ | .tune _ _ =>
    .isTrue trivial

end System

/-- The connection that `GetConnection` has returned to a caller, while `Do` has not
returned. -/
def CallerPc.returned : CallerPc → Option ℕ
  | .got c | .ensure c _ | .swap c | .count c | .inside c | .leave c => some c
  | _ => none

theorem CallerPc.held_of_returned {pc : CallerPc} {c : ℕ} (h : pc.returned = some c) :
    pc.held = some c := by
  cases pc <;> first | exact h | cases h

/-- The evictor calls `Stop` on `c` next. -/
def EvictPc.stops : EvictPc → Option ℕ
  | .removing _ (.stop _ c _ .cas) => some c
  | _ => none

theorem EvictPc.mem_suspects_of_stops {pc : EvictPc} {c : ℕ} (h : pc.stops = some c) :
    c ∈ pc.suspects := by
  unfold stops at h
  split at h
  · cases h
    exact List.mem_cons_self
  · cases h

/-- **What the evictor spares.**  In a run in which it reads a count of 0 only where no
request has the connection, and no request is given a connection it suspects, the evictor
does not stop a connection that `GetConnection` has returned to a caller whose `Do` has not
returned. -/
theorem evictor_spares (cfg : Config) {N R : ℕ} (warm : Fin N → Option ℕ) (depth : ℕ → ℤ)
    (evicting : Bool) {s : System N R}
    (h : Guarded.Reaches (System.step cfg) (System.Spares cfg) (System.new warm depth evicting) s)
    (n : Fin N) (hrequest : (s.warm n).isNone = true) (c : ℕ)
    (hreturned : (s.pool.callers n).returned = some c) : s.pool.evictor.stops ≠ some c := by
  intro hstops
  exact System.spared_of_reaches h n hrequest c (EvictPc.mem_suspects_of_stops hstops)
    (CallerPc.held_of_returned hreturned)

/-- A `WarmUp` makes a connection for caller 1, which is at work with it while the evictor
comes by. -/
theorem evictor_spares_inside :
    ∃ s : System 2 0, Guarded.Reaches (System.step {}) (System.Spares {})
        (System.new ![some 1, none] (fun _ => 10) true) s
      ∧ (s.pool.callers 1).returned = some 0 ∧ s.pool.evictor.stops ≠ some 0 := by
  obtain ⟨s, hs, hreq, hret⟩ := Guarded.exists_of_exec (System.step {}) (System.Spares {})
    (System.new (R := 0) ![some 1, none] (fun _ => 10) true)
    (List.replicate 16 (Label.caller 0 .plain) ++ List.replicate 15 (Label.caller 1 .plain)
      ++ List.replicate 2 (Label.evictor .plain))
    (fun s => (s.warm 1).isNone = true ∧ (s.pool.callers 1).returned = some 0) (by decide +kernel)
  exact ⟨s, hs, hret, evictor_spares {} _ _ _ hs 1 hreq 0 hret⟩

/-- The evictor finds a connection idle, caller 1 claims it and is at work with it, and the
evictor goes on to stop it. -/
theorem evictor_stops_in_use :
    ∃ s : System 2 0, Guarded.Reaches (System.step {}) (fun _ _ => True)
        (System.new ![some 1, none] (fun _ => 10) true) s
      ∧ (s.pool.callers 1).returned = some 0 ∧ s.pool.evictor.stops = some 0 :=
  Guarded.exists_of_exec (System.step {}) (fun _ _ => True)
    (System.new (R := 0) ![some 1, none] (fun _ => 10) true)
    (List.replicate 16 (Label.caller 0 .plain) ++ List.replicate 5 (Label.evictor .expired)
      ++ List.replicate 15 (Label.caller 1 .plain) ++ List.replicate 2 (Label.evictor .expired))
    (fun s => (s.pool.callers 1).returned = some 0 ∧ s.pool.evictor.stops = some 0)
    (by decide +kernel)

end BurstHttp.Pool
