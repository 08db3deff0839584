/-
The choice of a connection by one goroutine alone (pool.go, `getIdleConnection`,
`removeUnhealthyConnections`; connection.go, `CanAcceptRequest`, `HealthScore`, `Stop`).

`getIdleConnection` makes passes.  A pass looks at up to 16 connections, from `index` on, and
takes the best one that can take a request; if there is none, it looks at the rest of the
list and takes the first.  Connections that are not healthy leave the list, and if a pass has
found some and nothing else, there is another pass.

* `SoloPool` — a pool with or without pipelining, and its connections;
* `SoloPool.firstScan`, `SoloPool.secondScan`, `SoloPool.pass`, `SoloPool.getIdleConnection`
  — the function of the source;
* `SoloPool.Trim` — what happens to the list in a pass;
* `SoloPool.Chosen` — what is right for a pass to return;
* `idle_selection` — there is an end, and it is right.
-/
import BurstHttp.Pool.Machine
import Mathlib.Logic.Relation

namespace BurstHttp.Pool

open Function (update)

/-- The fields of `Connection` that decide about a request. -/
structure Member extends Slot where
  pipelineDepth : ℤ
  healthScore : ℤ
  latencyEWMA : ℤ

namespace Member

/-- `Connection.IsHealthy`. -/
def isHealthy (m : Member) : Bool := m.healthy && !m.stopped

/-- `Connection.CanAcceptRequest`. -/
def canAcceptRequest (m : Member) (pipelining : Bool) : Bool :=
  if !m.isHealthy then false
  else if pipelining then m.activeReqs < (if m.pipelineDepth ≤ 0 then 10 else m.pipelineDepth)
  else m.activeReqs = 0

/-- `Connection.HealthScore`: 100 for a new connection. -/
def score (m : Member) : ℤ :=
  if m.healthScore = 0 ∧ m.latencyEWMA = 0 then 100 else m.healthScore

/-- `Connection.Stop`, with `closeConn`. -/
def stop (m : Member) : Member :=
  if m.stopped then m
  else if m.closing then { m with stopped := true }
  else { m with stopped := true, closing := true, healthy := false }

end Member

/-- A `HostPool`, its connections, and whether these are used with pipelining. -/
structure SoloPool where
  pipelining : Bool
  connections : List ℕ
  index : ℕ
  activeCount : ℤ
  idleCount : ℤ
  members : ℕ → Member

/-- How a pass ends: with `continue`, or with a return. -/
inductive PassEnd
  | rescan
  | ret (conn : Option ℕ)

namespace SoloPool

def isHealthy (s : SoloPool) (c : ℕ) : Bool := (s.members c).isHealthy

def canAcceptRequest (s : SoloPool) (c : ℕ) : Bool := (s.members c).canAcceptRequest s.pipelining

/-- `c.Stop()` for the connections of a list. -/
def stopAll (members : ℕ → Member) (conns : List ℕ) : ℕ → Member :=
  conns.foldl (fun members c => update members c (members c).stop) members

/-- `removeUnhealthyConnections`; alone, its `CompareAndSwap` does not fail. -/
def removeUnhealthyConnections (s : SoloPool) (unhealthy : List ℕ) : SoloPool :=
  if unhealthy = [] then s
  else
    let newConns := s.connections.filter (· ∉ unhealthy)
    let removed := s.connections.length - newConns.length
    if removed = 0 then s
    else
      { s with
        connections := newConns
        members := stopAll s.members unhealthy
        activeCount := s.activeCount - removed
        idleCount := s.idleCount - removed }

/-- Without pipelining, the connection is claimed; nothing, if the `CompareAndSwap` fails. -/
def claim (s : SoloPool) (c : ℕ) : Option SoloPool :=
  if s.pipelining then some s
  else if (s.members c).activeReqs = 0 then
    some
      { s with
        members := update s.members c { s.members c with activeReqs := 1, poolClaimed := true } }
  else none

/-- One round of the first loop. -/
def visit (s : SoloPool) (sc : Scan) : Scan :=
  match sc.current with
  | none => sc.skip
  | some c =>
    if !s.isHealthy c then sc.reject c
    else if !s.canAcceptRequest c then sc.skip
    else sc.rate c (s.members c).score

theorem visit_frame (s : SoloPool) (sc : Scan) :
    (s.visit sc).conns = sc.conns ∧ (s.visit sc).start = sc.start ∧
      (sc.i < sc.maxScan → sc.i < (s.visit sc).i ∧ (s.visit sc).i ≤ sc.maxScan) := by
  unfold visit
  split
  · exact ⟨rfl, rfl, fun h => ⟨Nat.lt_succ_self _, h⟩⟩
  split
  · exact ⟨rfl, rfl, fun h => ⟨Nat.lt_succ_self _, h⟩⟩
  split
  · exact ⟨rfl, rfl, fun h => ⟨Nat.lt_succ_self _, h⟩⟩
  · refine ⟨rfl, rfl, fun h => ?_⟩
    unfold Scan.rate
    dsimp only
    split
    · exact ⟨h, Nat.le_refl _⟩
    · exact ⟨Nat.lt_succ_self _, h⟩

/-- The first loop. -/
def firstScan (s : SoloPool) (sc : Scan) : Scan :=
  if sc.i < sc.maxScan then firstScan s (s.visit sc) else sc
termination_by sc.maxScan - sc.i
decreasing_by
  rename_i h
  obtain ⟨hconns, -, hi⟩ := s.visit_frame sc
  have hmax : (s.visit sc).maxScan = sc.maxScan := by rw [Scan.maxScan, hconns, Scan.maxScan]
  have := hi h
  omega

/-- The second loop; it ends with a connection, or with nothing. -/
def secondScan (s : SoloPool) (sc : Scan) : Scan × Option (ℕ × SoloPool) :=
  if sc.i < sc.conns.length then
    match sc.current with
    | none => secondScan s sc.skip
    | some c =>
      if !s.isHealthy c then secondScan s (sc.reject c)
      else if s.canAcceptRequest c then
        match s.claim c with
        | none => secondScan s sc.skip
        | some s' => (sc, some (c, s'))
      else secondScan s sc.skip
  else (sc, none)
termination_by sc.conns.length - sc.i
decreasing_by all_goals simp only [Scan.skip, Scan.reject]; omega

/-- The positions behind the first scan. -/
def searchRest (s : SoloPool) (sc : Scan) : SoloPool × Option ℕ :=
  match s.secondScan { sc with second := true, i := sc.maxScan, unhealthy := [] } with
  | (sc, some (c, s)) =>
    ({ s with index := (sc.idx + 1) % sc.conns.length }.removeUnhealthyConnections sc.unhealthy,
      some c)
  | (sc, none) => (s.removeUnhealthyConnections sc.unhealthy, none)

/-- One pass of `getIdleConnection`. -/
def pass (s : SoloPool) : SoloPool × PassEnd :=
  let connCount := s.connections.length
  if connCount = 0 then (s, .ret none)
  else
    let sc := s.firstScan { conns := s.connections, start := s.index }
    let s := s.removeUnhealthyConnections sc.unhealthy
    match sc.best with
    | some (best, _, bestIdx) =>
      match s.claim best with
      | none => (s, .rescan)   -- somebody has claimed it since the scan
      | some s => ({ s with index := (bestIdx + 1) % connCount }, .ret (some best))
    | none =>
      -- with a shorter list the same positions are other connections
      if sc.unhealthy ≠ [] then (s, .rescan)
      else if sc.maxScan < connCount then
        let (s, conn) := s.searchRest sc
        (s, .ret conn)
      else (s, .ret none)

/-- `HostPool.getIdleConnection`, with at most `fuel` passes. -/
def getIdleConnection : ℕ → SoloPool → Option (SoloPool × Option ℕ)
  | 0, _ => none
  | fuel + 1, s =>
    match s.pass with
    | (s, .rescan) => getIdleConnection fuel s
    | (s, .ret conn) => some (s, conn)

/-! ### Positions -/

/-- The connection at position `j` of a pass. -/
def at? (s : SoloPool) (j : ℕ) : Option ℕ := s.connections[(s.index + j) % s.connections.length]?

theorem mem_of_at? {s : SoloPool} {j c : ℕ} (h : s.at? j = some c) : c ∈ s.connections :=
  List.mem_of_getElem? h

/-- There is one connection at a position. -/
theorem forall_at? {s : SoloPool} {j c : ℕ} {P : ℕ → Prop} (hat : s.at? j = some c) (h : P c) :
    ∀ d, s.at? j = some d → P d := by
  intro d hd
  rw [hat] at hd
  obtain rfl := Option.some.inj hd
  exact h

/-- Every connection is at one of the positions. -/
theorem exists_at? {s : SoloPool} {c : ℕ} (hc : c ∈ s.connections) :
    ∃ j < s.connections.length, s.at? j = some c := by
  obtain ⟨p, hp, rfl⟩ := List.getElem_of_mem hc
  have hdiv := Nat.div_add_mod s.index s.connections.length
  have hmod := Nat.mod_lt s.index (show s.connections.length > 0 by omega)
  unfold at?
  -- from `index` up to `p`, around the end of the list if `p` is before it
  by_cases hle : s.index % s.connections.length ≤ p
  · refine ⟨p - s.index % s.connections.length, by omega, ?_⟩
    have hsum : s.index + (p - s.index % s.connections.length)
        = s.connections.length * (s.index / s.connections.length) + p := by omega
    rw [hsum, Nat.mul_add_mod, Nat.mod_eq_of_lt hp, List.getElem?_eq_getElem hp]
  · refine ⟨s.connections.length + p - s.index % s.connections.length, by omega, ?_⟩
    have hsum : s.index + (s.connections.length + p - s.index % s.connections.length)
        = s.connections.length * (s.index / s.connections.length + 1) + p := by
      rw [Nat.mul_add]
      omega
    rw [hsum, Nat.mul_add_mod, Nat.mod_eq_of_lt hp, List.getElem?_eq_getElem hp]

/-- `uint32` does not overflow in a scan. -/
theorem current_eq {s : SoloPool} {sc : Scan} (hconns : sc.conns = s.connections)
    (hstart : sc.start = s.index) (hn : s.connections.length < 2 ^ 31) (hindex : s.index < 2 ^ 31)
    (hi : sc.i < sc.conns.length) : sc.current = s.at? sc.i := by
  rw [hconns] at hi
  unfold Scan.current Scan.idx at?
  rw [hconns, hstart, Nat.mod_eq_of_lt (show s.index + sc.i < 2 ^ 32 by omega)]

/-! ### Connections -/

section Members

variable {s : SoloPool} {c : ℕ}

theorem isHealthy_of_canAcceptRequest (h : s.canAcceptRequest c = true) : s.isHealthy c = true := by
  unfold canAcceptRequest Member.canAcceptRequest at h
  split at h
  · cases h
  · rename_i hhealthy
    simpa [isHealthy] using hhealthy

theorem canAcceptRequest_of_unhealthy (h : s.isHealthy c = false) :
    s.canAcceptRequest c = false := by
  rw [canAcceptRequest, Member.canAcceptRequest, ← isHealthy, h]
  rfl

theorem score_le (h : (s.members c).healthScore ≤ 100) : (s.members c).score ≤ 100 := by
  unfold Member.score
  split
  · decide
  · exact h

/-- A connection that can take a request can be claimed. -/
theorem claim_of_canAcceptRequest (h : s.canAcceptRequest c = true) :
    ∃ s', s.claim c = some s' := by
  unfold claim
  split
  · exact ⟨s, rfl⟩
  · rename_i hpipe
    have hzero : (s.members c).activeReqs = 0 := by
      unfold canAcceptRequest Member.canAcceptRequest at h
      split at h
      · cases h
      · exact of_decide_eq_true h
    rw [if_pos hzero]
    exact ⟨_, rfl⟩

/-- What a claim changes. -/
theorem claim_spec {s' : SoloPool} (h : s.claim c = some s') :
    s'.connections = s.connections ∧ (∀ d, s'.isHealthy d = s.isHealthy d) ∧
      (s.pipelining = false → (s'.members c).activeReqs = 1 ∧ (s'.members c).poolClaimed = true) := by
  unfold claim at h
  split at h
  · rename_i hpipe
    obtain rfl := Option.some.inj h
    exact ⟨rfl, fun d => rfl, fun hoff => by simp [hoff] at hpipe⟩
  split at h
  · obtain rfl := Option.some.inj h
    refine ⟨rfl, fun d => ?_, fun _ => ?_⟩
    · by_cases hd : d = c
      · subst hd
        simp [isHealthy, Member.isHealthy]
      · simp [isHealthy, Function.update_of_ne hd]
    · simp
  · cases h

end Members

/-! ### The list -/

section Remove

theorem stopAll_of_not_mem {members : ℕ → Member} {conns : List ℕ} {c : ℕ} (h : c ∉ conns) :
    stopAll members conns c = members c := by
  unfold stopAll
  induction conns generalizing members with
  | nil => rfl
  | cons d conns ih =>
    rw [List.mem_cons, not_or] at h
    rw [List.foldl_cons, ih h.2, Function.update_of_ne h.1]

theorem Member.stop_unhealthy {m : Member} (h : m.isHealthy = false) : m.stop.isHealthy = false := by
  unfold Member.stop
  split
  · exact h
  split
  · simp [Member.isHealthy]
  · simp [Member.isHealthy]

theorem stopAll_unhealthy {members : ℕ → Member} {conns : List ℕ} {c : ℕ}
    (h : (members c).isHealthy = false) : (stopAll members conns c).isHealthy = false := by
  unfold stopAll
  induction conns generalizing members with
  | nil => exact h
  | cons d conns ih =>
    rw [List.foldl_cons]
    refine ih ?_
    by_cases hd : c = d
    · subst hd
      rw [Function.update_self]
      exact Member.stop_unhealthy h
    · rw [Function.update_of_ne hd]
      exact h

/-- Connections that are not healthy have been stopped, and some of them removed; nothing else
has changed. -/
structure Trim (s s' : SoloPool) : Prop where
  pipelining : s'.pipelining = s.pipelining
  index : s'.index = s.index
  sublist : s'.connections.Sublist s.connections
  kept : ∀ c ∈ s.connections, s.isHealthy c = true → c ∈ s'.connections
  healthy : ∀ c, s.isHealthy c = true → s'.members c = s.members c
  unhealthy : ∀ c, s.isHealthy c = false → s'.isHealthy c = false

namespace Trim

variable {s s' s'' : SoloPool}

theorem refl (s : SoloPool) : Trim s s :=
  ⟨rfl, rfl, List.Sublist.refl _, fun _ h _ => h, fun _ _ => rfl, fun _ h => h⟩

theorem isHealthy_eq (h : Trim s s') (c : ℕ) : s'.isHealthy c = s.isHealthy c := by
  cases hc : s.isHealthy c with
  | true => rw [isHealthy, h.healthy c hc, ← isHealthy, hc]
  | false => exact h.unhealthy c hc

theorem canAcceptRequest_eq (h : Trim s s') (c : ℕ) :
    s'.canAcceptRequest c = s.canAcceptRequest c := by
  cases hc : s.isHealthy c with
  | true => rw [canAcceptRequest, h.healthy c hc, h.pipelining, ← canAcceptRequest]
  | false =>
    rw [canAcceptRequest_of_unhealthy hc, canAcceptRequest_of_unhealthy (h.unhealthy c hc)]

theorem trans (h : Trim s s') (h' : Trim s' s'') : Trim s s'' where
  pipelining := h'.pipelining.trans h.pipelining
  index := h'.index.trans h.index
  sublist := h'.sublist.trans h.sublist
  kept c hc hhealthy := h'.kept c (h.kept c hc hhealthy) (by rw [h.isHealthy_eq, hhealthy])
  healthy c hc := (h'.healthy c (by rw [h.isHealthy_eq, hc])).trans (h.healthy c hc)
  unhealthy c hc := h'.unhealthy c (h.unhealthy c hc)

end Trim

variable {s : SoloPool} {unhealthy : List ℕ}

theorem remove_trim (h : ∀ c ∈ unhealthy, s.isHealthy c = false) :
    Trim s (s.removeUnhealthyConnections unhealthy) := by
  have hnot : ∀ c, s.isHealthy c = true → c ∉ unhealthy := by
    intro c hc hmem
    rw [h c hmem] at hc
    cases hc
  unfold removeUnhealthyConnections
  split
  · exact Trim.refl s
  dsimp only
  split
  · exact Trim.refl s
  · exact {
      pipelining := rfl
      index := rfl
      sublist := List.filter_sublist
      kept := fun c hc hhealthy => List.mem_filter.mpr ⟨hc, by simpa using hnot c hhealthy⟩
      healthy := fun c hc => stopAll_of_not_mem (hnot c hc)
      unhealthy := fun c hc => stopAll_unhealthy hc }

/-- If there is something to remove, the list gets shorter. -/
theorem remove_length_lt (hne : unhealthy ≠ []) (h : ∀ c ∈ unhealthy, c ∈ s.connections) :
    (s.removeUnhealthyConnections unhealthy).connections.length < s.connections.length := by
  obtain ⟨c, hc⟩ := List.exists_mem_of_ne_nil unhealthy hne
  have hlt : (s.connections.filter (· ∉ unhealthy)).length < s.connections.length :=
    List.length_filter_lt_length_iff_exists.mpr ⟨c, h c hc, by simpa using hc⟩
  unfold removeUnhealthyConnections
  rw [if_neg hne]
  dsimp only
  rw [if_neg (by omega)]
  exact hlt

end Remove

/-! ### The first scan -/

section FirstScan

variable {s : SoloPool} {sc : Scan}

/-- The connections that a scan has rejected are not healthy. -/
structure Rejects (s : SoloPool) (sc : Scan) : Prop where
  conns : sc.conns = s.connections
  start : sc.start = s.index
  unhealthy : ∀ c ∈ sc.unhealthy, c ∈ s.connections ∧ s.isHealthy c = false

theorem Rejects.reject (h : Rejects s sc) {j c : ℕ} (hat : s.at? j = some c)
    (hc : s.isHealthy c = false) : Rejects s (sc.reject c) := by
  refine ⟨h.conns, h.start, fun d hd => ?_⟩
  rcases List.mem_append.mp hd with hd | hd
  · exact h.unhealthy d hd
  · obtain rfl := List.mem_singleton.mp hd
    exact ⟨mem_of_at? hat, hc⟩

/-- What the first scan has found before position `sc.i`. -/
structure Scanned (s : SoloPool) (sc : Scan) : Prop extends Rejects s sc where
  le : sc.i ≤ sc.maxScan
  seen : ∀ j < sc.i, ∀ c, s.at? j = some c → s.canAcceptRequest c = true →
    ∃ best score idx, sc.best = some (best, score, idx) ∧ (s.members c).score ≤ score
  best : ∀ c score idx, sc.best = some (c, score, idx) →
    (∃ j < sc.maxScan, s.at? j = some c) ∧ s.canAcceptRequest c = true ∧
      score = (s.members c).score

theorem rate_best (sc : Scan) (c : ℕ) (score : ℤ) :
    ∃ c' score' idx', (sc.rate c score).best = some (c', score', idx') ∧ score ≤ score' ∧
      (∀ d b idx, sc.best = some (d, b, idx) → b ≤ score') ∧
      (c' = c ∧ score' = score ∨ sc.best = some (c', score', idx')) := by
  unfold Scan.rate
  dsimp only
  rcases sc.best with _ | ⟨d, b, idx⟩
  · exact ⟨c, score, sc.idx, rfl, Int.le_refl _, nofun, .inl ⟨rfl, rfl⟩⟩
  · dsimp only
    by_cases hlt : b < score
    · rw [if_pos hlt]
      refine ⟨c, score, sc.idx, rfl, Int.le_refl _, fun d' b' idx' h => ?_, .inl ⟨rfl, rfl⟩⟩
      cases h
      omega
    · rw [if_neg hlt]
      refine ⟨d, b, idx, rfl, by omega, fun d' b' idx' h => ?_, .inr rfl⟩
      cases h
      exact Int.le_refl _

/-- A position that has nothing to take is passed over. -/
theorem Scanned.passed {sc' : Scan} (h : Scanned s sc) (hi : sc.i < sc.maxScan)
    (hrejects : Rejects s sc') (hi' : sc'.i = sc.i + 1) (hbest : sc'.best = sc.best)
    (hnone : ∀ c, s.at? sc.i = some c → s.canAcceptRequest c = false) : Scanned s sc' := by
  have hmax : sc'.maxScan = sc.maxScan := by
    rw [Scan.maxScan, hrejects.conns, Scan.maxScan, h.conns]
  refine ⟨hrejects, by omega, fun j hj c hat hacc => ?_, ?_⟩
  · rw [hbest]
    by_cases hlt : j < sc.i
    · exact h.seen j hlt c hat hacc
    · obtain rfl : j = sc.i := by omega
      rw [hnone c hat] at hacc
      cases hacc
  · rw [hbest, hmax]
    exact h.best

/-- A position with a connection that can take a request; with the score 100 it is the last. -/
theorem Scanned.rated {c : ℕ}
    (hscore : ∀ c ∈ s.connections, s.isHealthy c = true → (s.members c).healthScore ≤ 100)
    (h : Scanned s sc) (hi : sc.i < sc.maxScan) (hat : s.at? sc.i = some c)
    (hacc : s.canAcceptRequest c = true) : Scanned s (sc.rate c (s.members c).score) := by
  obtain ⟨best, score, idx, hbest, hle, hold, hwhich⟩ := rate_best sc c (s.members c).score
  have hi' : (sc.rate c (s.members c).score).i
      = if (s.members c).score = 100 then sc.maxScan else sc.i + 1 := rfl
  refine ⟨⟨h.conns, h.start, h.unhealthy⟩, ?_, fun j hj d hd hd' => ?_, fun d b idx' hsome => ?_⟩
  · rw [hi']
    split
    · exact Nat.le_refl _
    · exact hi
  · refine ⟨best, score, idx, hbest, ?_⟩
    by_cases hlt : j < sc.i
    · obtain ⟨old, b, idx', hsome, hb⟩ := h.seen j hlt d hd hd'
      exact Int.le_trans hb (hold old b idx' hsome)
    by_cases heq : j = sc.i
    · subst heq
      exact forall_at? (P := fun d => (s.members d).score ≤ score) hat hle d hd
    · -- the scan has ended here, with the score 100
      have hfull : (s.members c).score = 100 := by
        by_contra hne
        rw [hi', if_neg hne] at hj
        omega
      have := score_le (hscore d (mem_of_at? hd) (isHealthy_of_canAcceptRequest hd'))
      omega
  · rw [hbest] at hsome
    cases hsome
    rcases hwhich with ⟨rfl, rfl⟩ | hwhich
    · exact ⟨⟨sc.i, hi, hat⟩, hacc, rfl⟩
    · exact h.best _ _ _ hwhich

/-- One position of the first scan. -/
theorem visit_scanned (hn : s.connections.length < 2 ^ 31) (hindex : s.index < 2 ^ 31)
    (hscore : ∀ c ∈ s.connections, s.isHealthy c = true → (s.members c).healthScore ≤ 100)
    (h : Scanned s sc) (hi : sc.i < sc.maxScan) : Scanned s (s.visit sc) := by
  have hcurrent := current_eq h.conns h.start hn hindex (by unfold Scan.maxScan at hi; omega)
  have hskip : Rejects s sc.skip := ⟨h.conns, h.start, h.unhealthy⟩
  unfold visit
  rw [hcurrent]
  cases hat : s.at? sc.i with
  | none => exact h.passed hi hskip rfl rfl (by simp [hat])
  | some c =>
    dsimp only
    cases hhealthy : s.isHealthy c with
    | false =>
      exact h.passed hi (h.toRejects.reject hat hhealthy) rfl rfl
        (forall_at? hat (canAcceptRequest_of_unhealthy hhealthy))
    | true =>
      cases hacc : s.canAcceptRequest c with
      | false => exact h.passed hi hskip rfl rfl (forall_at? hat hacc)
      | true => exact h.rated hscore hi hat hacc

theorem firstScan_scanned (hn : s.connections.length < 2 ^ 31) (hindex : s.index < 2 ^ 31)
    (hscore : ∀ c ∈ s.connections, s.isHealthy c = true → (s.members c).healthScore ≤ 100)
    (h : Scanned s sc) :
    Scanned s (s.firstScan sc) ∧ (s.firstScan sc).i = (s.firstScan sc).maxScan := by
  fun_induction firstScan s sc with
  | case1 sc hi ih => exact ih (visit_scanned hn hindex hscore h hi)
  | case2 sc hi => exact ⟨h, by have := h.le; omega⟩

end FirstScan

/-! ### The second scan -/

section SecondScan

variable {s : SoloPool} {sc : Scan}

/-- The end of a second scan that began at position `i`. -/
structure Searched (s : SoloPool) (i : ℕ) (x : Scan × Option (ℕ × SoloPool)) : Prop where
  rejects : Rejects s x.1
  nothing : x.2 = none → ∀ j, i ≤ j → j < s.connections.length → ∀ c, s.at? j = some c →
    s.canAcceptRequest c = false
  found : ∀ c s', x.2 = some (c, s') →
    c ∈ s.connections ∧ s.canAcceptRequest c = true ∧ s.claim c = some s'

theorem Searched.step {i : ℕ} {x : Scan × Option (ℕ × SoloPool)} (h : Searched s (i + 1) x)
    (hi : ∀ c, s.at? i = some c → s.canAcceptRequest c = false) : Searched s i x := by
  refine ⟨h.rejects, fun hnone j hij hj c hat => ?_, h.found⟩
  by_cases heq : i = j
  · subst heq
    exact hi c hat
  · exact h.nothing hnone j (by omega) hj c hat

theorem secondScan_searched (hn : s.connections.length < 2 ^ 31) (hindex : s.index < 2 ^ 31)
    (h : Rejects s sc) : Searched s sc.i (s.secondScan sc) := by
  have hcurrent : ∀ sc, Rejects s sc → sc.i < sc.conns.length → sc.current = s.at? sc.i :=
    fun sc h hi => current_eq h.conns h.start hn hindex hi
  have hskip : ∀ sc, Rejects s sc → Rejects s sc.skip := fun sc h => ⟨h.conns, h.start, h.unhealthy⟩
  fun_induction secondScan s sc with
  | case1 sc hi hnone ih =>
    rw [hcurrent sc h hi] at hnone
    exact (ih (hskip sc h)).step (by simp [hnone])
  | case2 sc hi c hc hunhealthy ih =>
    rw [hcurrent sc h hi] at hc
    have hfalse : s.isHealthy c = false := by simpa using hunhealthy
    exact (ih (h.reject hc hfalse)).step (forall_at? hc (canAcceptRequest_of_unhealthy hfalse))
  | case3 sc hi c hc _ hacc hclaim ih =>
    -- without interference this does not happen
    obtain ⟨s', hs'⟩ := claim_of_canAcceptRequest hacc
    rw [hclaim] at hs'
    cases hs'
  | case4 sc hi c hc _ hacc s' hclaim =>
    rw [hcurrent sc h hi] at hc
    refine ⟨h, nofun, fun d t hsome => ?_⟩
    cases hsome
    exact ⟨mem_of_at? hc, hacc, hclaim⟩
  | case5 sc hi c hc _ hacc ih =>
    rw [hcurrent sc h hi] at hc
    exact (ih (hskip sc h)).step (forall_at? hc (by simpa using hacc))
  | case6 sc hi =>
    refine ⟨h, fun _ j hij hj => ?_, nofun⟩
    rw [h.conns] at hi
    omega

end SecondScan

/-! ### Passes -/

section Pass

variable {s s' : SoloPool} {conn : Option ℕ}

/-- It is right to return `conn` from `s`, and to leave `s'`. -/
structure Chosen (s s' : SoloPool) (conn : Option ℕ) : Prop where
  sublist : s'.connections.Sublist s.connections
  kept : ∀ c ∈ s.connections, s.isHealthy c = true → c ∈ s'.connections
  nothing : conn = none → ∀ c ∈ s.connections, s.canAcceptRequest c = false
  found : ∀ c, conn = some c → c ∈ s.connections ∧ s.canAcceptRequest c = true ∧
    s'.isHealthy c = true ∧
    (s.pipelining = false → (s'.members c).activeReqs = 1 ∧ (s'.members c).poolClaimed = true)

/-- The connections at the first `min(16, n)` positions. -/
def firstScanned (s : SoloPool) : List ℕ :=
  (List.range (min s.connections.length 16)).filterMap s.at?

/-- If `c` is one of these, it has the best score of those that can take a request. -/
def Best (s : SoloPool) (c : ℕ) : Prop :=
  c ∈ s.firstScanned → ∀ d ∈ s.firstScanned, s.canAcceptRequest d = true →
    (s.members d).score ≤ (s.members c).score

theorem mem_firstScanned {c : ℕ} :
    c ∈ s.firstScanned ↔ ∃ j < min s.connections.length 16, s.at? j = some c := by
  rw [firstScanned, List.mem_filterMap]
  simp only [List.mem_range]

/-- What is right for a trimmed list is right for the list. -/
theorem Trim.chosen {t : SoloPool} (htrim : Trim s t) (h : Chosen t s' conn) : Chosen s s' conn where
  sublist := h.sublist.trans htrim.sublist
  kept c hc hhealthy := h.kept c (htrim.kept c hc hhealthy) (by rw [htrim.isHealthy_eq, hhealthy])
  nothing hnone c hc := by
    by_contra hacc
    have hacc' : s.canAcceptRequest c = true := by simpa using hacc
    have hfalse := h.nothing hnone c (htrim.kept c hc (isHealthy_of_canAcceptRequest hacc'))
    rw [htrim.canAcceptRequest_eq, hacc'] at hfalse
    cases hfalse
  found c hc := by
    obtain ⟨hmem, hacc, hhealthy, hclaimed⟩ := h.found c hc
    rw [htrim.canAcceptRequest_eq] at hacc
    rw [htrim.pipelining] at hclaimed
    exact ⟨htrim.sublist.subset hmem, hacc, hhealthy, hclaimed⟩

/-- A trimmed list that is left behind. -/
theorem Trim.chosen_none (htrim : Trim s s')
    (h : ∀ c ∈ s.connections, s.canAcceptRequest c = false) : Chosen s s' none :=
  ⟨htrim.sublist, htrim.kept, fun _ => h, nofun⟩

/-- A claim, and a list that is trimmed behind it. -/
theorem claim_chosen {t : SoloPool} {c index : ℕ} (hc : c ∈ s.connections)
    (hacc : s.canAcceptRequest c = true) (hclaim : s.claim c = some t)
    (htrim : Trim { t with index := index } s') : Chosen s s' (some c) := by
  obtain ⟨hconns, hhealthy, hclaimed⟩ := claim_spec hclaim
  have hkept : ∀ d, ({ t with index := index } : SoloPool).isHealthy d = s.isHealthy d := hhealthy
  have hc' : ({ t with index := index } : SoloPool).isHealthy c = true := by
    rw [hkept, isHealthy_of_canAcceptRequest hacc]
  refine ⟨?_, fun d hd hd' => ?_, nofun, fun d hd => ?_⟩
  · have hsub := htrim.sublist
    rw [← hconns]
    exact hsub
  · exact htrim.kept d (by rw [← hconns] at hd; exact hd) (by rw [hkept, hd'])
  · obtain rfl := Option.some.inj hd
    refine ⟨hc, hacc, by rw [htrim.isHealthy_eq, hc'], fun hoff => ?_⟩
    rw [htrim.healthy c hc']
    exact hclaimed hoff

/-- The rest of the list, if there is nothing at the first positions. -/
theorem searchRest_spec {sc : Scan} (hn : s.connections.length < 2 ^ 31)
    (hindex : s.index < 2 ^ 31) (hscan : Rejects s sc)
    (hfirst : ∀ j < sc.maxScan, ∀ c, s.at? j = some c → s.canAcceptRequest c = false) :
    Chosen s (s.searchRest sc).1 (s.searchRest sc).2 ∧
      ∀ c, (s.searchRest sc).2 = some c → s.Best c := by
  have hmax : sc.maxScan = min s.connections.length 16 := by rw [Scan.maxScan, hscan.conns]
  have hrejects : Rejects s { sc with second := true, i := sc.maxScan, unhealthy := [] } :=
    ⟨hscan.conns, hscan.start, by simp⟩
  have hsearch : Searched s sc.maxScan _ := secondScan_searched hn hindex hrejects
  unfold searchRest
  rcases hx : s.secondScan { sc with second := true, i := sc.maxScan, unhealthy := [] } with
    ⟨sc₂, _ | ⟨c, t⟩⟩
  · rw [hx] at hsearch
    have htrim : Trim s (s.removeUnhealthyConnections sc₂.unhealthy) :=
      remove_trim fun c hc => (hsearch.rejects.unhealthy c hc).2
    refine ⟨htrim.chosen_none fun c hc => ?_, nofun⟩
    obtain ⟨j, hj, hat⟩ := exists_at? hc
    by_cases hlt : j < sc.maxScan
    · exact hfirst j hlt c hat
    · exact hsearch.nothing rfl j (by omega) hj c hat
  · rw [hx] at hsearch
    obtain ⟨hc, hacc, hclaim⟩ := hsearch.found c t rfl
    refine ⟨claim_chosen hc hacc hclaim (remove_trim fun d hd => ?_), fun d hd => ?_⟩
    · exact ((claim_spec hclaim).2.1 d).trans (hsearch.rejects.unhealthy d hd).2
    · -- it is not at a first position
      obtain rfl := Option.some.inj hd
      intro hmem
      obtain ⟨j, hj, hat⟩ := mem_firstScanned.mp hmem
      rw [hfirst j (by omega) c hat] at hacc
      cases hacc

/-- A pass trims the list and makes it shorter, or returns what it should. -/
theorem pass_spec (hn : s.connections.length < 2 ^ 31) (hindex : s.index < 2 ^ 31)
    (hscore : ∀ c ∈ s.connections, s.isHealthy c = true → (s.members c).healthScore ≤ 100) :
    match s.pass with
    | (s', .rescan) => Trim s s' ∧ s'.connections.length < s.connections.length
    | (s', .ret conn) => Chosen s s' conn ∧ ∀ c, conn = some c → s.Best c := by
  unfold pass
  dsimp only
  by_cases hempty : s.connections.length = 0
  · rw [if_pos hempty]
    have hnil : s.connections = [] := List.eq_nil_of_length_eq_zero hempty
    exact ⟨(Trim.refl s).chosen_none (by simp [hnil]), nofun⟩
  rw [if_neg hempty]
  have hinit : Scanned s { conns := s.connections, start := s.index } :=
    ⟨⟨rfl, rfl, nofun⟩, Nat.zero_le _, fun j hj => absurd hj (Nat.not_lt_zero j),
      nofun⟩
  obtain ⟨hscan, hend⟩ := firstScan_scanned hn hindex hscore hinit
  generalize s.firstScan { conns := s.connections, start := s.index } = sc at hscan hend ⊢
  have hmax : sc.maxScan = min s.connections.length 16 := by rw [Scan.maxScan, hscan.conns]
  have htrim : Trim s (s.removeUnhealthyConnections sc.unhealthy) :=
    remove_trim fun c hc => (hscan.unhealthy c hc).2
  rcases hbest : sc.best with _ | ⟨best, score, bestIdx⟩
  · -- nothing at the first positions
    have hfirst : ∀ j < sc.maxScan, ∀ c, s.at? j = some c → s.canAcceptRequest c = false := by
      intro j hj c hat
      by_contra hacc
      obtain ⟨b, score, idx, hsome, -⟩ :=
        hscan.seen j (by rw [hend]; exact hj) c hat (by simpa using hacc)
      rw [hbest] at hsome
      cases hsome
    dsimp only
    by_cases hne : sc.unhealthy = []
    · rw [if_neg (by simpa using hne), hne]
      have hsame : s.removeUnhealthyConnections [] = s := rfl
      rw [hsame]
      by_cases hmore : sc.maxScan < s.connections.length
      · rw [if_pos hmore]
        exact searchRest_spec hn hindex hscan.toRejects hfirst
      · rw [if_neg hmore]
        refine ⟨(Trim.refl s).chosen_none fun c hc => ?_, nofun⟩
        obtain ⟨j, hj, hat⟩ := exists_at? hc
        exact hfirst j (by omega) c hat
    · rw [if_pos hne]
      exact ⟨htrim, remove_length_lt hne fun c hc => (hscan.unhealthy c hc).1⟩
  · obtain ⟨⟨j, hj, hat⟩, hacc, hbestScore⟩ := hscan.best _ _ _ hbest
    obtain ⟨t, hclaim⟩ : ∃ t, (s.removeUnhealthyConnections sc.unhealthy).claim best = some t :=
      claim_of_canAcceptRequest (by rw [htrim.canAcceptRequest_eq, hacc])
    dsimp only
    rw [hclaim]
    refine ⟨htrim.chosen (claim_chosen ?_ ?_ hclaim (Trim.refl _)), fun d hd => ?_⟩
    · exact htrim.kept best (mem_of_at? hat) (isHealthy_of_canAcceptRequest hacc)
    · rw [htrim.canAcceptRequest_eq, hacc]
    · obtain rfl := Option.some.inj hd
      intro _ c hmem hc
      obtain ⟨i, hi, hati⟩ := mem_firstScanned.mp hmem
      obtain ⟨b, score', idx, hsome, hle⟩ := hscan.seen i (by rw [hend]; omega) c hati hc
      rw [hbest] at hsome
      cases hsome
      rw [← hbestScore]
      exact hle

end Pass

/-! ### The function -/

/-- Passes that end with `continue`. -/
def Rescans : SoloPool → SoloPool → Prop :=
  Relation.ReflTransGen fun s t => s.pass = (t, .rescan)

/-- There is a last pass, behind fewer others than the list is long. -/
theorem exists_last_pass (s : SoloPool) (hn : s.connections.length < 2 ^ 31)
    (hindex : s.index < 2 ^ 31)
    (hscore : ∀ c ∈ s.connections, s.isHealthy c = true → (s.members c).healthScore ≤ 100) :
    ∃ last s' conn, (∀ fuel, s.connections.length < fuel →
        s.getIdleConnection fuel = some (s', conn)) ∧
      Rescans s last ∧ last.pass = (s', .ret conn) ∧ Trim s last ∧ Chosen last s' conn ∧
      ∀ c, conn = some c → last.Best c := by
  induction hlen : s.connections.length using Nat.strongRecOn generalizing s with
  | _ n ih =>
    subst hlen
    -- the list is the measure: a pass that does not return makes it shorter
    have hspec := pass_spec hn hindex hscore
    rcases hpass : s.pass with ⟨t, _ | conn⟩
    · rw [hpass] at hspec
      obtain ⟨htrim, hlt⟩ := hspec
      have hscore' : ∀ c ∈ t.connections, t.isHealthy c = true →
          (t.members c).healthScore ≤ 100 := by
        intro c hc hhealthy
        rw [htrim.isHealthy_eq] at hhealthy
        rw [htrim.healthy c hhealthy]
        exact hscore c (htrim.sublist.subset hc) hhealthy
      obtain ⟨last, s', conn, hfuel, hrescans, hlast, htrim', hchosen, hbest⟩ :=
        ih _ hlt t (by omega) (by rw [htrim.index]; exact hindex) hscore' rfl
      refine ⟨last, s', conn, fun fuel h => ?_, hrescans.head hpass, hlast, htrim.trans htrim',
        hchosen, hbest⟩
      obtain ⟨k, rfl⟩ : ∃ k, fuel = k + 1 := ⟨fuel - 1, by omega⟩
      rw [getIdleConnection, hpass]
      exact hfuel k (by omega)
    · rw [hpass] at hspec
      refine ⟨s, t, conn, fun fuel h => ?_, .refl, hpass, Trim.refl s, hspec.1, hspec.2⟩
      obtain ⟨k, rfl⟩ : ∃ k, fuel = k + 1 := ⟨fuel - 1, by omega⟩
      rw [getIdleConnection, hpass]

/-- Alone, `getIdleConnection` ends.  It returns a connection if and only if one of the list is
healthy and can take a request; what it returns is such a one, and claimed without
pipelining; if it is at one of the first positions of the last pass, it has the best score
of those there that can take a request; and only connections that are not healthy leave the
list. -/
theorem idle_selection (s : SoloPool) (hn : s.connections.length < 2 ^ 31)
    (hindex : s.index < 2 ^ 31) (hscore : ∀ c ∈ s.connections, (s.members c).healthScore ≤ 100) :
    ∃ last s' conn, (∀ fuel, s.connections.length < fuel →
        s.getIdleConnection fuel = some (s', conn)) ∧
      Rescans s last ∧ last.pass = (s', .ret conn) ∧
      (conn.isSome = true ↔
        ∃ c ∈ s.connections, s.isHealthy c = true ∧ s.canAcceptRequest c = true) ∧
      (∀ c, conn = some c → c ∈ s.connections ∧ s.isHealthy c = true ∧
        s.canAcceptRequest c = true ∧ s'.isHealthy c = true ∧
        (s.pipelining = false → (s'.members c).activeReqs = 1 ∧ (s'.members c).poolClaimed = true) ∧
        last.Best c) ∧
      s'.connections.Sublist s.connections ∧
      ∀ c ∈ s.connections, c ∉ s'.connections → s.isHealthy c = false := by
  obtain ⟨last, s', conn, hfuel, hrescans, hlast, htrim, hchosen, hbest⟩ :=
    s.exists_last_pass hn hindex fun c hc _ => hscore c hc
  obtain ⟨hsub, hkept, hnothing, hfound⟩ := htrim.chosen hchosen
  refine ⟨last, s', conn, hfuel, hrescans, hlast, ⟨fun hsome => ?_, ?_⟩, fun c hc => ?_, hsub, ?_⟩
  · obtain ⟨c, rfl⟩ := Option.isSome_iff_exists.mp hsome
    obtain ⟨hmem, hacc, -⟩ := hfound c rfl
    exact ⟨c, hmem, isHealthy_of_canAcceptRequest hacc, hacc⟩
  · rintro ⟨c, hmem, -, hacc⟩
    cases conn with
    | none =>
      rw [hnothing rfl c hmem] at hacc
      cases hacc
    | some d => rfl
  · obtain ⟨hmem, hacc, hhealthy, hclaimed⟩ := hfound c hc
    exact ⟨hmem, isHealthy_of_canAcceptRequest hacc, hacc, hhealthy, hclaimed, hbest c hc⟩
  · intro c hmem hgone
    by_contra hhealthy
    exact hgone (hkept c hmem (by simpa using hhealthy))

/-- Three connections: one is broken, one slow, and one new. -/
def threeMembers : SoloPool where
  pipelining := false
  connections := [0, 1, 2]
  index := 0
  activeCount := 3
  idleCount := 3
  members c :=
    { healthy := c != 0, pipelineDepth := 0, healthScore := if c = 1 then 40 else 0,
      latencyEWMA := if c = 1 then 9000000 else 0 }

-- the broken one leaves the list in the same pass
example : (threeMembers.getIdleConnection 1).map (fun x => (x.1.connections, x.2))
    = some ([1, 2], some 2) := by decide +kernel

theorem idle_selection_threeMembers :
    (∃ c ∈ threeMembers.connections,
        threeMembers.isHealthy c = true ∧ threeMembers.canAcceptRequest c = true) ∧
      ∃ s' c, threeMembers.getIdleConnection 4 = some (s', some c) ∧
        (s'.members c).activeReqs = 1 ∧ (s'.members c).poolClaimed = true := by
  have hex : ∃ c ∈ threeMembers.connections,
      threeMembers.isHealthy c = true ∧ threeMembers.canAcceptRequest c = true :=
    ⟨1, by decide, by decide, by decide⟩
  obtain ⟨last, s', conn, hfuel, -, -, hiff, hfound, -⟩ :=
    idle_selection threeMembers (by decide) (by decide) (by decide)
  obtain ⟨c, rfl⟩ := Option.isSome_iff_exists.mp (hiff.mpr hex)
  exact ⟨hex, s', c, hfuel 4 (by decide), (hfound c rfl).2.2.2.2.1 rfl⟩

end SoloPool

end BurstHttp.Pool
