/-
The rate of outgoing requests (ratelimit.go, `tokenBucket.Wait`; client.go,
`DoWithContext`, its limiter and its retry loop; retry.go, `ShouldRetry`).

The arithmetic of the bucket is that of the rational numbers, and the clock, in
nanoseconds, is an input.  Where an attempt ends, and how long a call waits before the
next one, is left open.

* `State.lock` — the section of `Wait` under its mutex, `step` — a step of a call;
* `Limited`, `limited_of_step` — what the bucket says about the tokens it has given, and
  `grants_bounded` — there are no more in a window than it has and gains;
* `Tokened`, `tokened_of_step` — in runs in which a token is used at once, and for the first
  attempt of a call, every attempt has a token of its own;
* `attempts_bounded` — so there are no more attempts in a window than tokens;
* `attempts_unbounded` — a retry takes no token, and a token may be used later.
-/
import BurstHttp.Lib.Guarded
import BurstHttp.Lib.TokenBucket
import Mathlib.Algebra.Order.Ring.Rat
import Mathlib.Data.List.Perm.Subperm
import Mathlib.Tactic.NormNum

namespace BurstHttp.RateLimit

open Function (update)
open Guarded (Reaches)

/-- The fields of `Config` that matter here. -/
structure Config where
  requestsPerSecond : ℚ
  burstSize : ℤ
  maxRetries : ℤ

/-- `newTokenBucket`. -/
def newTokenBucket (rps : ℚ) (burst : ℤ) (now : ℤ) : Option (TokenBucket ℚ) :=
  if h : rps ≤ 0 ∨ burst ≤ 0 then none
  else
    some
      { tokens := burst
        capacity := burst
        rate := rps / 10 ^ 9
        lastTick := now
        nonneg := by
          rw [not_or, not_le, not_le] at h
          exact_mod_cast h.2.le
        le_capacity := le_rfl
        rate_nonneg := by
          rw [not_or, not_le, not_le] at h
          exact div_nonneg h.1.le (by norm_num) }

/-- Where a call of `DoWithContext` stands. -/
inductive Pc
  | idle
  | wait                               -- limiter.Wait: tb.mu.Lock()
  | sleep (wake : ℤ)                   -- time.After(waitNs)
  | ready (i : ℕ) (notBefore : ℤ)      -- before attempt `i`
  | running (i : ℕ)
  | returned
  deriving DecidableEq

structure State where
  clock : ℤ
  limiter : Option (TokenBucket ℚ)
  calls : ℕ → Pc
  granted : List (ℕ × ℤ)               -- the tokens: to which call, and when
  started : List (ℕ × ℤ)               -- the attempts: of which call, and when

def State.new (cfg : Config) (clock : ℤ) : State :=
  ⟨clock, newTokenBucket cfg.requestsPerSecond cfg.burstSize clock, fun _ => .idle, [], []⟩

def State.setPc (s : State) (n : ℕ) (pc : Pc) : State := { s with calls := update s.calls n pc }

@[simp] theorem State.calls_setPc (s : State) (n : ℕ) (pc : Pc) :
    (s.setPc n pc).calls = update s.calls n pc := rfl

/-- The section of `Wait` under its mutex. -/
def State.lock (s : State) (n : ℕ) (b : TokenBucket ℚ) : State :=
  let b := b.refill s.clock
  match b.take with
  | some b' =>
    { s with
      limiter := some b'
      calls := update s.calls n (.ready 0 s.clock)
      granted := (n, s.clock) :: s.granted }
  | none =>
    { s with
      limiter := some b
      calls := update s.calls n (.sleep (s.clock + ((1 - b.tokens) / b.rate).floor)) }

/-- A call that gets a token goes on at once. -/
theorem State.lock_take {s : State} {n : ℕ} {b b' : TokenBucket ℚ}
    (h : (b.refill s.clock).take = some b') :
    s.lock n b =
      { s with
        limiter := some b'
        calls := update s.calls n (.ready 0 s.clock)
        granted := (n, s.clock) :: s.granted } := by
  unfold State.lock
  dsimp only
  rw [h]

/-- Without one it sleeps. -/
theorem State.lock_empty {s : State} {n : ℕ} {b : TokenBucket ℚ}
    (h : (b.refill s.clock).take = none) :
    ∃ wake, s.lock n b =
      { s with limiter := some (b.refill s.clock), calls := update s.calls n (.sleep wake) } := by
  unfold State.lock
  dsimp only
  rw [h]
  exact ⟨_, rfl⟩

inductive Label
  | tick (d : ℕ)                          -- time goes on
  | begin (n : ℕ)                         -- DoWithContext is called
  | lock (n : ℕ)
  | wake (n : ℕ)
  | cancel (n : ℕ)                        -- the context is done, or the URL is not valid
  | start (n : ℕ)                         -- RecordRequest, conn.Do
  | finish (n : ℕ) (again : Option ℕ)     -- the attempt is over; retry after a delay

/-- A step. -/
def step (cfg : Config) (s : State) : Label → Option State
  | .tick d => some { s with clock := s.clock + d }
  | .begin n =>
    match s.calls n with
    | .idle => some (s.setPc n (if s.limiter.isSome then .wait else .ready 0 s.clock))
    | _ => none
  | .lock n =>
    match s.calls n with
    | .wait => s.limiter.map (s.lock n)
    | _ => none
  | .wake n =>
    match s.calls n with
    | .sleep wake => if wake ≤ s.clock then some (s.setPc n .wait) else none
    | _ => none
  | .cancel n =>
    match s.calls n with
    | .sleep _ | .ready _ _ => some (s.setPc n .returned)
    | _ => none
  | .start n =>
    match s.calls n with
    | .ready i notBefore =>
      if notBefore ≤ s.clock then
        some
          { s with
            calls := update s.calls n (.running i)
            started := (n, s.clock) :: s.started }
      else none
    | _ => none
  | .finish n again =>
    match s.calls n with
    | .running i =>
      match again with
      | none => some (s.setPc n .returned)
      -- `ShouldRetry`
      | some d => if i < cfg.maxRetries then some (s.setPc n (.ready (i + 1) (s.clock + d))) else none
    | _ => none

/-- An attempt is the first one of its call, and starts when the call has got its token. -/
def Prompt (s : State) : Label → Prop
  | .start n =>
    match s.calls n with
    | .ready i notBefore => i = 0 ∧ notBefore = s.clock
    | _ => True
  | _ => True

instance (s : State) (l : Label) : Decidable (Prompt s l) := by
  unfold Prompt
  split
  · split <;> infer_instance
  · infer_instance

/-! ### Attempts and tokens -/

/-- The call has no token yet. -/
def Pc.Early : Pc → Prop
  | .idle | .wait | .sleep _ => True
  | _ => False

/-- The times of a log. -/
def times (log : List (ℕ × ℤ)) : List ℚ := log.map fun x => (x.2 : ℚ)

/-- The tokens that were given come from the bucket. -/
def Limited (cfg : Config) (s : State) : Prop :=
  ∃ b, s.limiter = some b ∧ b.Bounds (times s.granted) ∧ b.lastTick ≤ s.clock
    ∧ b.capacity = cfg.burstSize ∧ b.rate = cfg.requestsPerSecond / 10 ^ 9

theorem newTokenBucket_eq_none {rps : ℚ} {burst now : ℤ} :
    newTokenBucket rps burst now = none ↔ rps ≤ 0 ∨ burst ≤ 0 := by
  unfold newTokenBucket
  split
  · rename_i h
    exact iff_of_true rfl h
  · rename_i h
    exact iff_of_false (Option.some_ne_none _) h

theorem limited_new {cfg : Config} (hr : 0 < cfg.requestsPerSecond) (hb : 0 < cfg.burstSize)
    (clock : ℤ) : Limited cfg (.new cfg clock) := by
  have hnot : ¬(cfg.requestsPerSecond ≤ 0 ∨ cfg.burstSize ≤ 0) := by
    rw [not_or, not_le, not_le]
    exact ⟨hr, hb⟩
  exact ⟨_, dif_neg hnot, TokenBucket.Bounds.new _, le_rfl, rfl, rfl⟩

theorem limited_lock {cfg : Config} {s : State} (h : Limited cfg s) {n : ℕ} {b : TokenBucket ℚ}
    (hb : s.limiter = some b) : Limited cfg (s.lock n b) := by
  obtain ⟨b₀, hb₀, hbounds, htick, hcapacity, hrate⟩ := h
  rw [hb, Option.some_inj] at hb₀
  subst hb₀
  have hbounds' := hbounds.refill s.clock
  have hnow := TokenBucket.lastTick_refill htick
  cases htake : (b.refill s.clock).take with
  | some b' =>
    have hgrant := hbounds'.take htake
    obtain ⟨htick', hcapacity', hrate'⟩ := TokenBucket.of_take htake
    rw [hnow] at hgrant htick'
    rw [State.lock_take htake]
    refine ⟨b', rfl, hgrant, htick'.le, ?_, ?_⟩
    · rw [hcapacity', TokenBucket.capacity_refill, hcapacity]
    · rw [hrate', TokenBucket.rate_refill, hrate]
  | none =>
    obtain ⟨wake, hlock⟩ := State.lock_empty (n := n) htake
    rw [hlock]
    refine ⟨_, rfl, hbounds', hnow.le, ?_, ?_⟩
    · rw [TokenBucket.capacity_refill, hcapacity]
    · rw [TokenBucket.rate_refill, hrate]

theorem limited_tick {cfg : Config} {s : State} (h : Limited cfg s) (d : ℕ) :
    Limited cfg { s with clock := s.clock + d } := by
  obtain ⟨b, hb, hbounds, htick, hrest⟩ := h
  refine ⟨b, hb, hbounds, htick.trans ?_, hrest⟩
  dsimp only
  exact_mod_cast Int.le_add_of_nonneg_right (Int.natCast_nonneg d)

/-- Only the clock and the section of `Wait` have to do with the bucket. -/
theorem limited_of_step {cfg : Config} {s s' : State} {l : Label} (h : Limited cfg s)
    (hs : step cfg s l = some s') : Limited cfg s' := by
  cases l with
  | tick d =>
    cases hs
    exact limited_tick h d
  | lock n =>
    rw [step] at hs
    split at hs
    · obtain ⟨b, hb, rfl⟩ := Option.map_eq_some_iff.mp hs
      exact limited_lock h hb
    · cases hs
  | begin n | cancel n =>
    rw [step] at hs
    split at hs <;> cases hs <;> exact h
  | wake n | start n =>
    rw [step] at hs
    split at hs
    · split_ifs at hs
      cases hs
      exact h
    · cases hs
  | finish n again =>
    rw [step] at hs
    split at hs
    · split at hs
      · cases hs
        exact h
      · split_ifs at hs
        cases hs
        exact h
    · cases hs

/-- **The token bucket.**  In every run of any number of calls, however their turns are ordered, the
bucket has at least no token and at most `capacity`; and between two readings of the clock it
gives no more than `capacity`, and `rate` for each unit of time between them. -/
theorem grants_bounded (cfg : Config) (clock : ℤ) {b₀ : TokenBucket ℚ}
    (hnew : newTokenBucket cfg.requestsPerSecond cfg.burstSize clock = some b₀) {s : State}
    (hs : Reaches (step cfg) (fun _ _ => True) (.new cfg clock) s) :
    (∃ b, s.limiter = some b ∧ b.capacity = b₀.capacity ∧ b.rate = b₀.rate
        ∧ 0 ≤ b.tokens ∧ b.tokens ≤ b.capacity)
      ∧ ∀ a c : ℚ, a ≤ c →
        (TokenBucket.window (times s.granted) a c : ℚ) ≤ b₀.capacity + b₀.rate * (c - a) := by
  have hpos : ¬(cfg.requestsPerSecond ≤ 0 ∨ cfg.burstSize ≤ 0) := by
    rw [← newTokenBucket_eq_none, hnew]
    exact nofun
  have hstart : Limited cfg (.new cfg clock) := by
    rw [not_or, not_le, not_le] at hpos
    exact limited_new hpos.1 hpos.2 clock
  have hlimited : Limited cfg s :=
    hs.invariant (Limited cfg) hstart fun _ _ _ h _ hs => limited_of_step h hs
  obtain ⟨b₁, hb₁, -, -, hcapacity₀, hrate₀⟩ := hstart
  obtain rfl : b₁ = b₀ := Option.some_inj.mp (hb₁.symm.trans hnew)
  obtain ⟨b, hb, hbounds, -, hcapacity, hrate⟩ := hlimited
  rw [← hcapacity₀] at hcapacity
  rw [← hrate₀] at hrate
  refine ⟨⟨b, hb, hcapacity, hrate, b.nonneg, b.le_capacity⟩, ?_⟩
  intro a c hac
  rw [← hcapacity, ← hrate]
  exact hbounds.within a c hac

/-- Every attempt has a token of its own, and the tokens come from the bucket. -/
structure Tokened (cfg : Config) (s : State) : Prop where
  limiter : Limited cfg s
  early : ∀ n, (s.calls n).Early → ∀ t, (n, t) ∉ s.granted
  ready : ∀ n t, s.calls n = .ready 0 t → (n, t) ∈ s.granted ∧ ∀ t', (n, t') ∉ s.started
  granted : s.granted.Nodup
  started : s.started.Nodup
  subset : s.started ⊆ s.granted

theorem tokened_new {cfg : Config} (hr : 0 < cfg.requestsPerSecond) (hb : 0 < cfg.burstSize)
    (clock : ℤ) : Tokened cfg (.new cfg clock) := by
  constructor
  · exact limited_new hr hb clock
  · exact fun _ _ _ h => nomatch h
  · exact fun _ _ h => nomatch h
  · exact List.nodup_nil
  · exact List.nodup_nil
  · exact List.nil_subset _

section

variable {cfg : Config} {s s' : State}

/-- A call goes on without a token and without an attempt. -/
theorem Tokened.move (hinv : Tokened cfg s) {n : ℕ} {pc : Pc} (hearly : pc.Early → (s.calls n).Early)
    (hready : ∀ t, pc ≠ .ready 0 t) : Tokened cfg (s.setPc n pc) := by
  refine ⟨hinv.limiter, ?_, ?_, hinv.granted, hinv.started, hinv.subset⟩
  · rw [State.calls_setPc]
    refine (Function.forall_update_iff s.calls
      fun m pc => pc.Early → ∀ t, (m, t) ∉ s.granted).mpr ⟨?_, fun m _ => hinv.early m⟩
    exact fun hm => hinv.early n (hearly hm)
  · rw [State.calls_setPc]
    refine (Function.forall_update_iff s.calls fun m pc => ∀ t, pc = .ready 0 t →
      (m, t) ∈ s.granted ∧ ∀ t', (m, t') ∉ s.started).mpr ⟨?_, fun m _ => hinv.ready m⟩
    exact fun t ht => absurd ht (hready t)

theorem Tokened.lock (hinv : Tokened cfg s) {n : ℕ} {b : TokenBucket ℚ} (hpc : s.calls n = .wait)
    (hb : s.limiter = some b) : Tokened cfg (s.lock n b) := by
  have hlimited : Limited cfg (s.lock n b) := limited_lock hinv.limiter hb
  have hearly := hinv.early n (by rw [hpc]; trivial)
  cases htake : (b.refill s.clock).take with
  | some b' =>
    -- it has got a token
    rw [State.lock_take htake] at hlimited ⊢
    constructor
    · exact hlimited
    · refine (Function.forall_update_iff s.calls fun m pc => pc.Early →
        ∀ t, (m, t) ∉ (n, s.clock) :: s.granted).mpr ⟨fun h => h.elim, ?_⟩
      intro m hmn hm t hmem
      rcases List.mem_cons.mp hmem with heq | hmem
      · exact hmn (Prod.mk.inj heq).1
      · exact hinv.early m hm t hmem
    · refine (Function.forall_update_iff s.calls fun m pc => ∀ t, pc = .ready 0 t →
        (m, t) ∈ (n, s.clock) :: s.granted ∧ ∀ t', (m, t') ∉ s.started).mpr ⟨?_, ?_⟩
      · rintro t ⟨⟩
        exact ⟨List.mem_cons_self, fun t' h => hearly t' (hinv.subset h)⟩
      · intro m _ t hm
        obtain ⟨hmem, hnot⟩ := hinv.ready m t hm
        exact ⟨List.mem_cons_of_mem _ hmem, hnot⟩
    · exact List.nodup_cons.mpr ⟨hearly s.clock, hinv.granted⟩
    · exact hinv.started
    · exact fun x hx => List.mem_cons_of_mem _ (hinv.subset hx)
  | none =>
    -- it goes to sleep
    obtain ⟨wake, hlock⟩ := State.lock_empty (n := n) htake
    rw [hlock] at hlimited ⊢
    have hinv' : Tokened cfg { s with limiter := some (b.refill s.clock) } :=
      ⟨hlimited, hinv.early, hinv.ready, hinv.granted, hinv.started, hinv.subset⟩
    exact hinv'.move (fun _ => by rw [hpc]; trivial) fun _ h => nomatch h

theorem Tokened.start (hinv : Tokened cfg s) {n : ℕ} (hpc : s.calls n = .ready 0 s.clock) :
    Tokened cfg
      { s with calls := update s.calls n (.running 0), started := (n, s.clock) :: s.started } := by
  obtain ⟨hgranted, hnot⟩ := hinv.ready n s.clock hpc
  refine ⟨hinv.limiter, ?_, ?_, hinv.granted, ?_, ?_⟩
  · exact (Function.forall_update_iff s.calls
      fun m pc => pc.Early → ∀ t, (m, t) ∉ s.granted).mpr ⟨fun h => h.elim, fun m _ => hinv.early m⟩
  · refine (Function.forall_update_iff s.calls fun m pc => ∀ t, pc = .ready 0 t →
      (m, t) ∈ s.granted ∧ ∀ t', (m, t') ∉ (n, s.clock) :: s.started).mpr ⟨?_, ?_⟩
    · rintro t ⟨⟩
    · intro m hmn t hm
      obtain ⟨hmem, hnot'⟩ := hinv.ready m t hm
      refine ⟨hmem, ?_⟩
      intro t' ht'
      rcases List.mem_cons.mp ht' with heq | ht'
      · exact hmn (Prod.mk.inj heq).1
      · exact hnot' t' ht'
  · exact List.nodup_cons.mpr ⟨hnot s.clock, hinv.started⟩
  · exact List.cons_subset.mpr ⟨hgranted, hinv.subset⟩

theorem tokened_of_step {l : Label} (hinv : Tokened cfg s) (hprompt : Prompt s l)
    (hs : step cfg s l = some s') : Tokened cfg s' := by
  cases l with
  | tick d =>
    cases hs
    exact ⟨limited_tick hinv.limiter d, hinv.early, hinv.ready, hinv.granted, hinv.started,
      hinv.subset⟩
  | begin n =>
    rw [step] at hs
    split at hs <;> cases hs
    rename_i hpc
    obtain ⟨b, hb, -⟩ := hinv.limiter
    rw [hb]
    exact hinv.move (fun _ => by rw [hpc]; trivial) fun _ h => by cases h
  | lock n =>
    rw [step] at hs
    split at hs
    · rename_i hpc
      obtain ⟨b, hb, rfl⟩ := Option.map_eq_some_iff.mp hs
      exact hinv.lock hpc hb
    · cases hs
  | wake n =>
    rw [step] at hs
    split at hs
    · rename_i hpc
      split_ifs at hs
      cases hs
      exact hinv.move (fun _ => by rw [hpc]; trivial) fun _ h => by cases h
    · cases hs
  | cancel n =>
    rw [step] at hs
    split at hs <;> cases hs <;> exact hinv.move (fun h => by cases h) fun _ h => by cases h
  | start n =>
    rw [step] at hs
    split at hs
    · rename_i i notBefore hpc
      simp only [Prompt, hpc] at hprompt
      obtain ⟨rfl, rfl⟩ := hprompt
      split_ifs at hs
      cases hs
      exact hinv.start hpc
    · cases hs
  | finish n again =>
    rw [step] at hs
    split at hs
    · split at hs
      · cases hs
        exact hinv.move (fun h => by cases h) fun _ h => by cases h
      · split_ifs at hs
        cases hs
        exact hinv.move (fun h => by cases h) fun _ h => by cases h
    · cases hs

end

/-- **The rate of attempts.**  With a limit of `r` requests per second and a burst of `b`, in
every run in which attempts are first attempts that start when their calls have got their
tokens: at most `b + r * T` attempts start in a window of length `T`. -/
theorem attempts_bounded (cfg : Config) (hr : 0 < cfg.requestsPerSecond) (hb : 0 < cfg.burstSize)
    (clock : ℤ) {s : State} (hs : Reaches (step cfg) Prompt (.new cfg clock) s) (a T : ℚ)
    (hT : 0 ≤ T) :
    (TokenBucket.window (times s.started) a (a + T) : ℚ)
      ≤ cfg.burstSize + cfg.requestsPerSecond * (T / 10 ^ 9) := by
  have hinv : Tokened cfg s :=
    hs.invariant (Tokened cfg) (tokened_new hr hb clock) fun _ _ _ => tokened_of_step
  obtain ⟨b, -, hbounds, -, hcapacity, hrate⟩ := hinv.limiter
  have hcount : TokenBucket.window (times s.started) a (a + T)
      ≤ TokenBucket.window (times s.granted) a (a + T) := by
    unfold TokenBucket.window times
    rw [List.countP_map, List.countP_map]
    exact (hinv.started.subperm hinv.subset).countP_le _
  have hwithin := hbounds.within a (a + T) (le_add_of_nonneg_right hT)
  rw [hcapacity, hrate, add_sub_cancel_left] at hwithin
  calc (TokenBucket.window (times s.started) a (a + T) : ℚ)
      ≤ TokenBucket.window (times s.granted) a (a + T) := by exact_mod_cast hcount
    _ ≤ cfg.burstSize + cfg.requestsPerSecond / 10 ^ 9 * T := hwithin
    _ = cfg.burstSize + cfg.requestsPerSecond * (T / 10 ^ 9) := by
      rw [div_mul_eq_mul_div, mul_div_assoc]

/-- One request per second, no bursts, one retry. -/
def oneRetry : Config := ⟨1, 1, 1⟩

theorem attempts_bounded_one :
    ∃ s, Reaches (step oneRetry) Prompt (.new oneRetry 0) s ∧ s.started = [(0, 0)]
      ∧ (TokenBucket.window (times s.started) 0 (0 + 5) : ℚ)
        ≤ oneRetry.burstSize + oneRetry.requestsPerSecond * (5 / 10 ^ 9) := by
  obtain ⟨s, hs, hstarted⟩ := Guarded.exists_of_exec (step oneRetry) Prompt (.new oneRetry 0)
    [.begin 0, .begin 1, .lock 0, .lock 1, .start 0] (fun s => s.started = [(0, 0)])
    (by decide +kernel)
  exact ⟨s, hs, hstarted, attempts_bounded oneRetry (by decide) (by decide) 0 hs 0 5 (by norm_num)⟩

/-- Two calls want the one token. -/
theorem grants_bounded_one :
    ∃ s b₀, newTokenBucket 1 1 0 = some b₀
      ∧ Reaches (step oneRetry) (fun _ _ => True) (.new oneRetry 0) s ∧ s.granted = [(0, 0)]
      ∧ (TokenBucket.window (times s.granted) 0 5 : ℚ) ≤ b₀.capacity + b₀.rate * (5 - 0) := by
  obtain ⟨s, hs, hgranted⟩ := Guarded.exists_of_exec (step oneRetry) (fun _ _ => True)
    (.new oneRetry 0) [.begin 0, .begin 1, .lock 0, .lock 1] (fun s => s.granted = [(0, 0)])
    (by decide +kernel)
  obtain ⟨b₀, hb₀⟩ := Option.isSome_iff_exists.mp
    (show (newTokenBucket 1 1 0).isSome = true by decide +kernel)
  exact ⟨s, b₀, hb₀, hs, hgranted, (grants_bounded oneRetry 0 hb₀ hs).2 0 5 (by norm_num)⟩

/-- A call retries at once, and two attempts start with one token.  And two calls without
retries get their tokens a second apart, and start together. -/
theorem attempts_unbounded :
    (∃ s, Reaches (step oneRetry) (fun _ _ => True) (.new oneRetry 0) s
        ∧ s.started = [(0, 0), (0, 0)]
        ∧ oneRetry.burstSize + oneRetry.requestsPerSecond * (0 / 10 ^ 9)
          < (TokenBucket.window (times s.started) 0 (0 + 0) : ℚ))
      ∧ ∃ s, Reaches (step oneRetry) (fun _ _ => True) (.new oneRetry 0) s
        ∧ s.started = [(1, 1000000000), (0, 1000000000)]
        ∧ oneRetry.burstSize + oneRetry.requestsPerSecond * (0 / 10 ^ 9)
          < (TokenBucket.window (times s.started) 1000000000 (1000000000 + 0) : ℚ) := by
  constructor
  · obtain ⟨s, hs, hstarted⟩ := Guarded.exists_of_exec (step oneRetry) (fun _ _ => True)
      (.new oneRetry 0) [.begin 0, .lock 0, .start 0, .finish 0 (some 0), .start 0]
      (fun s => s.started = [(0, 0), (0, 0)]) (by decide +kernel)
    refine ⟨s, hs, hstarted, ?_⟩
    rw [hstarted]
    decide +kernel
  · obtain ⟨s, hs, hstarted⟩ := Guarded.exists_of_exec (step oneRetry) (fun _ _ => True)
      (.new oneRetry 0)
      [.begin 0, .lock 0, .tick 1000000000, .begin 1, .lock 1, .start 0, .start 1]
      (fun s => s.started = [(1, 1000000000), (0, 1000000000)]) (by decide +kernel)
    refine ⟨s, hs, hstarted, ?_⟩
    rw [hstarted]
    decide +kernel

end BurstHttp.RateLimit
