/-
What happens when a pool is stopped (pool.go, `Stop`, `GracefulStop`,
`activeRequests`, `createConnection`).

* `stop_keeps` — every connection that `createConnection` has dialed is listed or
  stopped when all calls have finished, as long as none has found that the list is
  gone when it came to append;
* `stop_leaks` — otherwise the connection is dropped, and is not stopped;
* `gracefulStop_drains` — when the counts that `GracefulStop` reads show every
  request from before it, it fails none of them on its way to return true;
* `gracefulStop_drops` — a request that is dialing does not show, and its connection
  is dropped.
-/
import BurstHttp.Lib.Guarded
import BurstHttp.Pool.Books
import BurstHttp.Pool.Holders

namespace BurstHttp.Pool

/-! ### Connections -/

/-- `Stop` has taken the list, and stops the connections. -/
def StopAllPc.inCall : StopAllPc → Bool
  | .stop _ _ _ => true
  | .swap | .done => false

def GracefulPc.inCall : GracefulPc → Bool
  | .idle | .done _ => false
  | _ => true

namespace System

variable {N R : ℕ} {cfg : Config} {s s' : System N R}

/-- No call is in progress, `Stop` and `GracefulStop` included. -/
def Finished (s : System N R) : Prop :=
  s.NoCalls ∧ s.pool.stopper.inCall = false ∧ s.graceful.inCall = false

instance (s : System N R) : Decidable s.Finished := inferInstanceAs (Decidable (_ ∧ _ ∧ _))

/-- Whatever goroutines have done, what was dialed is accounted for. -/
theorem kept_of_reaches {warm : Fin N → Option ℕ} {depth : ℕ → ℤ} {evicting : Bool}
    (h : Guarded.Reaches (step cfg) (fun s l => ¬s.GivesUp l) (new warm depth evicting) s) :
    Roster.Kept s.roster := by
  refine (h.invariant (fun s => (∀ n, HostPool.Within cfg.limit (s.pool.callers n))
    ∧ Roster.Kept s.roster) ⟨fun n => ?_, ?_⟩ ?_).2
  · exact HostPool.within_of_ne (by simp [new, HostPool.new])
  · exact .start (fun w => by cases w <;> rfl) fun c => by simp [roster, HostPool.books, new]
  · rintro s l s' ⟨hwithin, hk⟩ hguard hs
    obtain ⟨w, deed, hacted⟩ := step_acted hwithin hs
    refine ⟨step_within hwithin hs, ?_⟩
    rw [hacted.duty]
    exact hk.next hacted.acts fun h => hguard (hacted.giveUp h)

theorem Finished.duty (h : s.Finished) (w : Worker N R) :
    s.duty w = .free ∨ s.duty w = .clearing [] := by
  obtain ⟨hcalls, hstopper, hgraceful⟩ := h
  obtain ⟨hcallers, hremovers, hevictor⟩ := hcalls.duty_free
  cases w with
  | caller n => exact .inl (hcallers n)
  | remover r => exact .inl (hremovers r)
  | evictor => exact .inl hevictor
  | stopper =>
    rw [System.duty]
    cases hpc : s.pool.stopper with
    | swap => exact .inl rfl
    | done => exact .inr rfl
    | stop c rest pc =>
      rw [hpc] at hstopper
      cases hstopper
  | graceful =>
    rw [System.duty]
    cases hpc : s.graceful with
    | idle => exact .inl rfl
    | done ok => exact .inr rfl
    | _ =>
      rw [hpc] at hgraceful
      cases hgraceful

instance (s : System N R) : DecidablePred s.GivesUp
  | .caller n _ => inferInstanceAs
      (Decidable (s.pool.connections = none ∧ (s.pool.callers n).publishing = true))
  | .remover _ _ | .evictor _ | .evictorExit | .stopper | .graceful _ _ | .reader _ _ | .tune _ _ =>
    .isFalse id

end System

/-- **No connection is lost.**  In a run in which `createConnection` finds a list for every
connection it has dialed, every such connection is listed or stopped when all calls have
finished. -/
theorem stop_keeps (cfg : Config) {N R : ℕ} (warm : Fin N → Option ℕ) (depth : ℕ → ℤ)
    (evicting : Bool) {s : System N R}
    (h : Guarded.Reaches (System.step cfg) (fun s l => ¬s.GivesUp l)
      (System.new warm depth evicting) s)
    (hfinished : s.Finished) (c : ℕ) (hc : c ∈ s.dialed) :
    (∃ old, s.pool.connections = some old ∧ c ∈ old.conns) ∨ (s.pool.slots c).stopped = true := by
  have hk := System.kept_of_reaches h
  have hsound : s.roster.shared.sound c = true := by simpa [System.roster, HostPool.books] using hc
  have hready (w : Worker N R) : s.roster.duty w ≠ .ready c := by
    intro hw
    rcases hfinished.duty w with hfree | hclear
    · exact absurd (hw.symm.trans hfree) (by simp)
    · exact absurd (hw.symm.trans hclear) (by simp)
  have hout (w : Worker N R) : (s.roster.duty w).out = [] := by
    rcases hfinished.duty w with hfree | hclear
    · exact congrArg Roster.Duty.out hfree
    · exact congrArg Roster.Duty.out hclear
  rcases hk.at_rest hready hout hsound with ⟨conns, hlisted, hin⟩ | hstopped
  · obtain ⟨old, hold, rfl⟩ := Option.map_eq_some_iff.mp hlisted
    exact .inl ⟨old, hold, hin⟩
  · exact .inr hstopped

/-- A connection is made before the pool is stopped. -/
theorem stop_keeps_listed :
    ∃ s : System 1 0, Guarded.Reaches (System.step {}) (fun s l => ¬s.GivesUp l)
        (System.new (fun _ => some 1) (fun _ => 10) false) s
      ∧ s.Finished ∧ s.pool.connections = none ∧ 0 ∈ s.dialed
      ∧ ((∃ old, s.pool.connections = some old ∧ 0 ∈ old.conns)
          ∨ (s.pool.slots 0).stopped = true) := by
  obtain ⟨s, hs, hfinished, hnone, hdialed⟩ := Guarded.exists_of_exec (System.step {})
    (fun s l => ¬s.GivesUp l) (System.new (N := 1) (R := 0) (fun _ => some 1) (fun _ => 10) false)
    (List.replicate 16 (Label.caller 0 .plain) ++ List.replicate 5 Label.stopper)
    (fun s => s.Finished ∧ s.pool.connections = none ∧ 0 ∈ s.dialed) (by decide +kernel)
  exact ⟨s, hs, hfinished, hnone, hdialed, stop_keeps {} _ _ _ hs hfinished 0 hdialed⟩

/-- `Stop` takes the list away when a connection is dialed and not appended yet: the
connection is dropped with its socket open, and is not stopped. -/
theorem stop_leaks :
    ∃ s : System 1 0, Guarded.Reaches (System.step {}) (fun _ _ => True)
        (System.new (fun _ => some 1) (fun _ => 10) false) s
      ∧ s.Finished ∧ 0 ∈ s.dialed ∧ s.pool.connections = none
      ∧ (s.pool.slots 0).healthy = true ∧ (s.pool.slots 0).stopped = false :=
  Guarded.exists_of_exec (System.step {}) (fun _ _ => True)
    (System.new (N := 1) (R := 0) (fun _ => some 1) (fun _ => 10) false)
    (List.replicate 12 (Label.caller 0 .plain) ++ List.replicate 2 Label.stopper
      ++ List.replicate 3 (Label.caller 0 .plain))
    (fun s => s.Finished ∧ 0 ∈ s.dialed ∧ s.pool.connections = none
      ∧ (s.pool.slots 0).healthy = true ∧ (s.pool.slots 0).stopped = false) (by decide +kernel)

/-! ### Requests -/

theorem CallerPc.not_publishing_of_finished {pc : CallerPc} (h : pc.finished = true) :
    pc.publishing = false := by
  cases pc <;> first | rfl | cases h

/-- `GracefulStop` has taken the list, and is going to return true. -/
def GracefulPc.swept : GracefulPc → Bool
  | .stop true _ _ _ | .done true => true
  | _ => false

/-- `GracefulStop` loads the list next. -/
def GracefulPc.loads : GracefulPc → Bool
  | .load => true
  | _ => false

/-- The connection whose count `GracefulStop` reads next. -/
def GracefulPc.reads : GracefulPc → Option ℕ
  | .sum (c :: _) _ => some c
  | _ => none

/-- `GracefulStop` is going to return true and calls `Stop` on `c` next. -/
def GracefulPc.stops : GracefulPc → Option ℕ
  | .stop true c _ .cas => some c
  | _ => none

namespace System

variable {N R : ℕ} {cfg : Config} {s s' : System N R}

/-- The connections that are listed. -/
def listed (s : System N R) : List ℕ := (s.pool.connections.map Slice.conns).getD []

/-- `GracefulStop`, on its way to return true, fails request `n`, which had begun before it:
it stops its connection next, or `createConnection` drops next what it has dialed, since the
list is gone. -/
def Fails (s : System N R) (n : Fin N) : Prop :=
  s.begun n = true ∧
    ((∃ c ∈ s.graceful.stops, (s.pool.callers n).held = some c) ∨
      s.graceful.swept = true ∧ s.pool.connections = none ∧ (s.pool.callers n).publishing = true)

/-- Every request from before `GracefulStop` is finished, or has one of `conns`. -/
def Covered (s : System N R) (conns : List ℕ) : Prop :=
  ∀ n, s.begun n = true →
    (s.pool.callers n).finished = true ∨ ∃ c ∈ conns, (s.pool.callers n).held = some c

/-- When `GracefulStop` loads the list, every request from before it is finished or has a
connection that is listed, and a count that it reads is never negative, and not 0 while such
a request has the connection. -/
def CountsTell (s : System N R) : Label N R → Prop
  | .graceful _ others =>
    (s.graceful.loads = true → 0 ≤ others ∧ s.Covered s.listed) ∧
      ∀ c ∈ s.graceful.reads, 0 ≤ (s.pool.slots c).activeReqs ∧
        ((s.pool.slots c).activeReqs = 0 →
          ∀ n, s.begun n = true → (s.pool.callers n).held ≠ some c)
  | _ => True

instance (s : System N R) (conns : List ℕ) : Decidable (s.Covered conns) :=
  inferInstanceAs (Decidable (∀ _, _ → _))

instance (s : System N R) : DecidablePred s.CountsTell
  | .graceful _ _ => inferInstanceAs (Decidable (_ ∧ _))
  | .caller _ _ | .remover _ _ | .evictor _ | .evictorExit | .stopper | .reader _ _ | .tune _ _ =>
    .isTrue trivial

/-- As far as `GracefulStop` has counted no requests, those from before it are finished or
have a connection it has still to look at. -/
def Draining (s : System N R) : Prop :=
  match s.graceful with
  | .sum rest total => 0 ≤ total ∧ (total = 0 → s.Covered rest)
  | .swap true | .stop true _ _ _ | .done true => s.Covered []
  | _ => True

/-- The requests from before `GracefulStop` are requests. -/
def Requests (s : System N R) : Prop := ∀ n, s.begun n = true → (s.warm n).isNone = true

/-- A request that is finished or has a connection keeps to that. -/
theorem Covered.next {l : Label N R} {conns : List ℕ} (h : s.Covered conns) (hreq : s.Requests)
    (hs : s.step cfg l = some s') (hbegun : s'.begun = s.begun) : s'.Covered conns := by
  intro n hn
  rw [hbegun] at hn
  rcases step_request hs n (hreq n hn) with hsame | ⟨-, hnot, hpass⟩
  · rw [hsame]
    exact h n hn
  · rcases h n hn with hfinished | ⟨c, hc, hheld⟩
    · rw [hfinished] at hnot
      cases hnot
    · rcases hpass with hkept | hfinished | ⟨hnone, -⟩
      · exact .inr ⟨c, hc, hkept.trans hheld⟩
      · exact .inl hfinished
      · exact absurd (hheld.symm.trans hnone) (by simp)

theorem Covered.congr {conns : List ℕ} (h : s.Covered conns)
    (hcallers : s'.pool.callers = s.pool.callers) (hbegun : s'.begun = s.begun) :
    s'.Covered conns := by
  intro n hn
  rw [hcallers]
  exact h n (hbegun ▸ hn)

/-- A count of 0 rules a connection out. -/
theorem Covered.tail {c : ℕ} {rest : List ℕ} (h : s.Covered (c :: rest))
    (hc : ∀ n, s.begun n = true → (s.pool.callers n).held ≠ some c) : s.Covered rest := by
  intro n hn
  rcases h n hn with hfinished | ⟨d, hd, hheld⟩
  · exact .inl hfinished
  · rcases List.mem_cons.mp hd with rfl | hd
    · exact absurd hheld (hc n hn)
    · exact .inr ⟨d, hd, hheld⟩

/-- Behind the swap, `GracefulStop` is going to return what it was. -/
theorem draining_of_swept (ok : Bool) (h : ok = true → s.Covered [])
    (hpc : s.graceful = .done ok ∨ ∃ c rest pc, s.graceful = .stop ok c rest pc) : s.Draining := by
  unfold Draining
  rcases hpc with hpc | ⟨c, rest, pc, hpc⟩
  · rw [hpc]
    cases ok with
    | false => trivial
    | true => exact h rfl
  · rw [hpc]
    cases ok with
    | false => trivial
    | true => exact h rfl

/-- A step of `GracefulStop` itself. -/
theorem Draining.graceful {late : Bool} {others : ℤ} (h : s.Draining)
    (hl : s.CountsTell (.graceful late others)) (hs : s.gracefulStop late others = some s') :
    s'.Draining := by
  unfold gracefulStop at hs
  unfold Draining at h
  obtain ⟨hload, hread⟩ := hl
  split at hs
  case h_1 => cases hs; trivial
  case h_2 =>
    split at hs <;> cases hs
    trivial
  case h_3 =>
    cases hs
    unfold Draining
    cases late <;> trivial
  case h_4 hpc =>
    obtain ⟨hothers, hcovered⟩ := hload (by rw [hpc]; rfl)
    cases hs
    exact ⟨hothers, fun _ => hcovered⟩
  case h_5 c rest total hpc =>
    rw [hpc] at h
    obtain ⟨htotal, hcovered⟩ := h
    obtain ⟨hcount, hnobody⟩ := hread c (by rw [hpc]; rfl)
    cases hs
    -- when the sum is 0, so are its parts
    refine ⟨Int.add_nonneg htotal hcount, fun hsum => ?_⟩
    exact (hcovered (by omega)).tail (hnobody (by omega))
  case h_6 total hpc =>
    rw [hpc] at h
    cases hs
    unfold Draining
    dsimp only
    split_ifs with hzero
    · exact h.2 hzero
    · trivial
  case h_7 ok hpc =>
    rw [hpc] at h
    cases hs
    refine draining_of_swept ok ?_ ?_
    · rintro rfl
      exact h
    · rcases s.pool.connections with _ | ⟨ptr, _ | ⟨c, rest⟩⟩
      · exact .inl rfl
      · exact .inl rfl
      · exact .inr ⟨c, rest, .cas, rfl⟩
  case h_8 ok c rest pc hpc =>
    rw [hpc] at h
    cases hs
    refine draining_of_swept ok ?_ ?_
    · rintro rfl
      exact Covered.congr (s := s) h (HostPool.stopConn_workers s.pool c pc).callers rfl
    · dsimp only
      rcases (s.pool.stopConn c pc).2 with _ | pc'
      · rcases rest with _ | ⟨d, rest⟩
        · exact .inl rfl
        · exact .inr ⟨d, rest, .cas, rfl⟩
      · exact .inr ⟨c, rest, pc', rfl⟩
  case h_9 => cases hs

theorem step_requests {l : Label N R} (h : s.Requests) (hs : s.step cfg l = some s') :
    s'.Requests := by
  intro n hn
  have hframe := step_frame hs
  rw [hframe.warm n]
  by_cases hl : ∃ late others, l = .graceful late others
  · obtain ⟨late, others, rfl⟩ := hl
    change s.gracefulStop late others = some s' at hs
    unfold gracefulStop at hs
    split at hs
    case h_1 =>
      -- here they are noted
      cases hs
      exact (Bool.and_eq_true_iff.mp hn).1
    case h_2 =>
      split at hs <;> cases hs
      exact h n hn
    case h_9 => cases hs
    all_goals
      cases hs
      exact h n hn
  · push Not at hl
    rw [(hframe.graceful hl).2] at hn
    exact h n hn

/-- A step keeps what `GracefulStop` has found out. -/
theorem step_draining {l : Label N R} (hreq : s.Requests) (h : s.Draining) (hl : s.CountsTell l)
    (hs : s.step cfg l = some s') : s'.Draining := by
  by_cases hg : ∃ late others, l = .graceful late others
  · obtain ⟨late, others, rfl⟩ := hg
    exact h.graceful hl hs
  · push Not at hg
    obtain ⟨hpc, hbegun⟩ := (step_frame hs).graceful hg
    unfold Draining at h ⊢
    rw [hpc]
    split at h
    · exact ⟨h.1, fun hzero => (h.2 hzero).next hreq hs hbegun⟩
    · exact h.next hreq hs hbegun
    · exact h.next hreq hs hbegun
    · exact h.next hreq hs hbegun
    · trivial

theorem draining_of_reaches {warm : Fin N → Option ℕ} {depth : ℕ → ℤ} {evicting : Bool}
    (h : Guarded.Reaches (step cfg) CountsTell (new warm depth evicting) s) : s.Draining := by
  refine (h.invariant (fun s => s.Requests ∧ s.Draining) ⟨?_, trivial⟩ ?_).2
  · intro n hn
    cases hn
  · intro s l s' ⟨hreq, hdraining⟩ hl hs
    exact ⟨step_requests hreq hs, step_draining hreq hdraining hl hs⟩

/-- When all requests from before it are finished, `GracefulStop` fails none. -/
theorem Draining.not_fails (h : s.Draining) (n : Fin N) : ¬s.Fails n := by
  rintro ⟨hn, hfail⟩
  have hcovered (hswept : s.graceful.swept = true) : s.Covered [] := by
    unfold Draining at h
    cases hpc : s.graceful with
    | stop ok c rest pc | done ok =>
      rw [hpc] at h hswept
      cases ok with
      | false => cases hswept
      | true => exact h
    | _ =>
      rw [hpc] at hswept
      cases hswept
  have hfinished (hswept : s.graceful.swept = true) : (s.pool.callers n).finished = true := by
    rcases hcovered hswept n hn with hfinished | ⟨c, hc, -⟩
    · exact hfinished
    · exact absurd hc List.not_mem_nil
  rcases hfail with ⟨c, hstops, hheld⟩ | ⟨hswept, -, hpub⟩
  · have hswept : s.graceful.swept = true := by
      unfold GracefulPc.stops at hstops
      split at hstops
      · case _ hpc => rw [hpc]; rfl
      · cases hstops
    rw [CallerPc.held_of_finished (hfinished hswept)] at hheld
    cases hheld
  · rw [CallerPc.not_publishing_of_finished (hfinished hswept)] at hpub
    cases hpub

end System

/-- **`GracefulStop` drains.**  In a run in which every request from before `GracefulStop`
shows in the counts that it reads, `GracefulStop` fails none of them on its way to return
true. -/
theorem gracefulStop_drains (cfg : Config) {N R : ℕ} (warm : Fin N → Option ℕ) (depth : ℕ → ℤ)
    (evicting : Bool) {s : System N R}
    (h : Guarded.Reaches (System.step cfg) System.CountsTell (System.new warm depth evicting) s)
    (n : Fin N) : ¬s.Fails n :=
  (System.draining_of_reaches h).not_fails n

/-- A request is at work when `GracefulStop` counts for the first time, and finished when it
counts again and goes on to stop its connection. -/
theorem gracefulStop_drains_counted :
    ∃ s : System 1 0, Guarded.Reaches (System.step {}) System.CountsTell
        (System.new (fun _ => none) (fun _ => 10) false) s
      ∧ s.begun 0 = true ∧ s.graceful = .stop true 0 [] .cas ∧ ∀ n, ¬s.Fails n := by
  obtain ⟨s, hs, hbegun, hpc⟩ := Guarded.exists_of_exec (System.step {}) System.CountsTell
    (System.new (N := 1) (R := 0) (fun _ => none) (fun _ => 10) false)
    (List.replicate 20 (Label.caller 0 .plain) ++ List.replicate 6 (Label.graceful false 0)
      ++ List.replicate 2 (Label.caller 0 .plain) ++ List.replicate 5 (Label.graceful false 0))
    (fun s => s.begun 0 = true ∧ s.graceful = .stop true 0 [] .cas) (by decide +kernel)
  exact ⟨s, hs, hbegun, hpc, gracefulStop_drains {} _ _ _ hs⟩

/-- A request is dialing when `GracefulStop` counts no requests, takes the list and returns
true; `createConnection` then finds no list, and drops the connection it has dialed. -/
theorem gracefulStop_drops :
    ∃ s : System 1 0, Guarded.Reaches (System.step {}) (fun _ _ => True)
        (System.new (fun _ => none) (fun _ => 10) false) s
      ∧ s.graceful = .done true ∧ 0 ∈ s.dialed ∧ s.Fails 0 := by
  obtain ⟨s, hs, hpc, hdialed, hbegun, hnone, hpub⟩ := Guarded.exists_of_exec (System.step {})
    (fun _ _ => True) (System.new (N := 1) (R := 0) (fun _ => none) (fun _ => 10) false)
    (List.replicate 5 (Label.caller 0 .plain) ++ List.replicate 6 (Label.graceful false 0)
      ++ List.replicate 8 (Label.caller 0 .plain))
    (fun s => s.graceful = .done true ∧ 0 ∈ s.dialed ∧ s.begun 0 = true
      ∧ s.pool.connections = none ∧ (s.pool.callers 0).publishing = true) (by decide +kernel)
  exact ⟨s, hs, hpc, hdialed, hbegun, .inr ⟨by rw [hpc]; rfl, hnone, hpub⟩⟩

end BurstHttp.Pool
