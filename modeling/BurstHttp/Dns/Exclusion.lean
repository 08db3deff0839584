/-
Negative entries next to successful lookups (dns.go, `negative`).

A success that is stored takes the negative entry of its host away, unless it is
`Refresh` that stores it; and a failure is stored whenever its call comes to it, also
over a success that is younger.

* `Watched` — a cache together with the resolver call that was completed last for each
  host, and the success that stands: the last one to be completed, once it was stored,
  until a call that began after it fails;
* `act_spec` — what a step of a call can do, as far as it matters here;
* `Watched.Fenced`, `fenced_of_step` — a failure that has yet to be stored began before the
  success that stands was completed;
* `negative_excluded` — runs in which no success stands beside a negative entry;
* `negative_beside_success` — runs that lead there.
-/
import BurstHttp.Dns.Machine
import Mathlib.Data.Int.Order.Basic
import Mathlib.Order.Nat

namespace BurstHttp.Dns

open Function (update)

variable {S E : Type}

namespace Pc

/-- The host and the number of the resolver call that is outstanding. -/
def waits : Pc S E → Option (S × ℕ)
  | .lead _ h _ (.wait k) => some (h, k)
  | .refreshWait h k => some (h, k)
  | _ => none

/-- The host and the number of a failed call whose failure may yet be stored. -/
def failed : Pc S E → Option (S × ℕ)
  | .lead _ h _ (.announce k (.error _)) => some (h, k)
  | .lead _ h _ (.delete k (.error _)) => some (h, k)
  | .lead _ h _ (.store k (.error _)) => some (h, k)
  | _ => none

/-- The host and the number of a successful call whose result is stored next. -/
def stores : Pc S E → Option (S × ℕ)
  | .lead _ h _ (.store k (.ok _)) => some (h, k)
  | .refreshStore h k _ => some (h, k)
  | _ => none

end Pc

/-- A resolver call that has been completed; `before` calls had been begun by then. -/
structure Completion where
  call : ℕ
  ok : Bool
  before : ℕ
  deriving DecidableEq

/-- A cache with its history. -/
structure Watched (S E : Type) where
  cache : Cache S E
  last : S → Option Completion          -- the call that was completed last
  standing : S → Option ℕ               -- the calls begun before the success that stands

namespace Watched

def new (clock : ℤ) : Watched S E := ⟨Cache.new clock, fun _ => none, fun _ => none⟩

variable [DecidableEq S]

/-- Call `n` is completed. -/
def complete (w : Watched S E) (n : ℕ) (ok : Bool) : Watched S E :=
  match (w.cache.procs n).waits with
  | none => w
  | some (h, k) =>
    { w with
      last := update w.last h (some ⟨k, ok, w.cache.calls⟩)
      -- a failure ends what stands only if the call began later
      standing :=
        if ok then w.standing
        else update w.standing h ((w.standing h).filter fun c => decide (k < c)) }

/-- Call `n` stores what it has found. -/
def keep (w : Watched S E) (n : ℕ) : Watched S E :=
  match (w.cache.procs n).stores with
  | none => w
  | some (h, k) =>
    match w.last h with
    | none => w
    | some x =>
      if x.call = k ∧ x.ok then { w with standing := update w.standing h (some x.before) } else w

/-- The history after a step. -/
def record (w : Watched S E) : Label S E → Watched S E
  | .answer n (.ok _) => w.complete n true
  | .answer n (.error _) => w.complete n false
  | .act n => w.keep n
  | _ => w

def step (cfg : Config S) (w : Watched S E) (l : Label S E) : Option (Watched S E) :=
  (Dns.step cfg w.cache l).map fun cache => { w.record l with cache := cache }

end Watched

/-! ### What a step can do -/

section

variable {s s' : Cache S E} {n : ℕ}

/-- What a step of call `n` does to it, and to the negative entries. -/
structure Acts (s s' : Cache S E) (n : ℕ) (pc : Pc S E) : Prop where
  procs : s'.procs = update s.procs n pc
  waits : ∀ h k, pc.waits = some (h, k) → k < s'.calls
  failed : ∀ x, pc.failed = some x → (s.procs n).failed = some x
  calls : s.calls ≤ s'.calls
  clock : s'.clock = s.clock
  negative : ∀ h, s'.negative h = s.negative h ∨ s'.negative h = none
    ∨ ∃ role fl k e, s.procs n = .lead role h fl (.store k (.error e))

/-- A step without a call of the resolver that leaves the negative entries alone. -/
theorem Acts.plain {pc : Pc S E} (hp : s'.procs = update s.procs n pc)
    (hn : s'.negative = s.negative) (hc : s'.calls = s.calls) (hk : s'.clock = s.clock) (hwaits : pc.waits = none)
    (hfailed : pc.failed = none) : Acts s s' n pc where
  procs := hp
  waits := fun h k hw => by rw [hwaits] at hw; cases hw
  failed := fun x hf => by rw [hfailed] at hf; cases hf
  calls := le_of_eq hc.symm
  clock := hk
  negative := fun h => .inl (congrFun hn h)

/-- A step that begins a call of the resolver. -/
theorem Acts.calling {pc : Pc S E} {h : S} (hp : s'.procs = update s.procs n pc)
    (hn : s'.negative = s.negative) (hc : s'.calls = s.calls + 1) (hk : s'.clock = s.clock)
    (hwaits : pc.waits = some (h, s.calls)) (hfailed : pc.failed = none) : Acts s s' n pc where
  procs := hp
  waits := by
    intro h' k hw
    rw [hwaits] at hw
    cases hw
    omega
  failed := fun x hf => by rw [hfailed] at hf; cases hf
  calls := by omega
  clock := hk
  negative := fun h => .inl (congrFun hn h)

/-- An entry that is not live stays so if it is not replaced. -/
theorem negativeLive_of_not {h : S} (hnot : s.negativeLive h = false) (hclock : s.clock ≤ s'.clock)
    (hneg : s'.negative h = s.negative h ∨ s'.negative h = none) : s'.negativeLive h = false := by
  unfold Cache.negativeLive at hnot ⊢
  rcases hneg with hneg | hneg
  · rw [hneg]
    cases hentry : s.negative h with
    | none => rfl
    | some exp =>
      rw [hentry] at hnot
      have hexp := of_decide_eq_false hnot
      exact decide_eq_false (by omega)
  · rw [hneg]

/-- What an answer of the resolver does to the one who waits for it. -/
theorem answer_spec {r : Except E (List S)} (hs : s.answer n r = some s') :
    ∃ h k pc, (s.procs n).waits = some (h, k) ∧ s'.procs = update s.procs n pc ∧ pc.waits = none
      ∧ (∀ x, pc.failed = some x → x = (h, k) ∧ r.isOk = false)
      ∧ s'.calls = s.calls ∧ s'.clock = s.clock ∧ s'.negative = s.negative := by
  unfold Cache.answer at hs
  split at hs
  · rename_i role h fl k hpc
    cases hs
    refine ⟨h, k, _, by rw [hpc]; rfl, rfl, rfl, ?_, rfl, rfl, rfl⟩
    intro x hx
    cases r <;> cases hx
    exact ⟨rfl, rfl⟩
  · rename_i h k hpc
    split at hs <;> cases hs <;>
      exact ⟨h, k, _, by rw [hpc]; rfl, rfl, rfl, fun _ h => (nomatch h), rfl, rfl, rfl⟩
  · cases hs

variable [DecidableEq S] {cfg : Config S}

/-- A step that changes the negative entry of one host. -/
theorem Acts.storing {pc : Pc S E} {h : S} {v : Option ℤ} (hp : s'.procs = update s.procs n pc)
    (hn : s'.negative = update s.negative h v) (hc : s'.calls = s.calls) (hk : s'.clock = s.clock)
    (hwaits : pc.waits = none) (hfailed : pc.failed = none)
    (hv : v = none ∨ ∃ role fl k e, s.procs n = .lead role h fl (.store k (.error e))) :
    Acts s s' n pc where
  procs := hp
  waits := fun h k hw => by rw [hwaits] at hw; cases hw
  failed := fun x hf => by rw [hfailed] at hf; cases hf
  calls := le_of_eq hc.symm
  clock := hk
  negative := by
    intro h'
    rw [hn]
    by_cases hsame : h' = h
    · rw [hsame, Function.update_self]
      exact .inr (hv.imp_left id)
    · rw [Function.update_of_ne hsame]
      exact .inl rfl

theorem lookup_acts (cfg : Config S) (s : Cache S E) (n : ℕ) (h : S) :
    ∃ pc, Acts s (s.lookup cfg n h) n pc := by
  unfold Cache.lookup
  repeat' split
  all_goals exact ⟨_, .plain rfl rfl rfl rfl rfl rfl⟩

theorem enter_acts (s : Cache S E) (n : ℕ) (role : Role S) (h : S) :
    ∃ pc, Acts s (s.enter n role h) n pc := by
  unfold Cache.enter
  repeat' split
  all_goals exact ⟨_, .plain rfl rfl rfl rfl rfl rfl⟩

theorem lead_acts {role : Role S} {h : S} {fl : ℕ} {ph : Phase S E}
    (hpc : s.procs n = .lead role h fl ph) (hs : s.lead cfg n role h fl ph = some s') :
    ∃ pc, Acts s s' n pc := by
  cases ph with
  | call =>
    cases hs
    exact ⟨_, .calling rfl rfl rfl rfl rfl rfl⟩
  | wait k => cases hs
  | announce k r =>
    cases hs
    refine ⟨_, rfl, fun _ _ h => (nomatch h), ?_, le_rfl, rfl, fun _ => .inl rfl⟩
    intro x hx
    rw [hpc]
    cases r <;> exact hx
  | delete k r =>
    cases hs
    refine ⟨_, rfl, ?_, ?_, le_rfl, rfl, fun _ => .inl rfl⟩
    · intro h' k' hw
      unfold Cache.landed at hw
      split at hw <;> cases hw
    · intro x hx
      rw [hpc]
      unfold Cache.landed at hx
      split at hx
      · cases hx
      · cases hx
      · cases hx
      · cases r <;> exact hx
  | store k r =>
    cases hs
    unfold Cache.store
    split
    · rename_i e
      exact ⟨_, .storing rfl rfl rfl rfl rfl rfl (.inr ⟨role, fl, k, e, hpc⟩)⟩
    · split
      · exact ⟨_, .storing rfl rfl rfl rfl rfl rfl (.inl rfl)⟩
      · exact ⟨_, .storing rfl rfl rfl rfl rfl rfl (.inl rfl)⟩

theorem act_spec (hs : s.act cfg n = some s') : ∃ pc, Acts s s' n pc := by
  unfold Cache.act at hs
  cases hpc : s.procs n with
  | lookup h =>
    rw [hpc] at hs
    cases hs
    exact lookup_acts cfg s n h
  | enter role h =>
    rw [hpc] at hs
    cases hs
    exact enter_acts s n role h
  | join h stale fl =>
    rw [hpc] at hs
    obtain ⟨r, -, rfl⟩ := Option.map_eq_some_iff.mp hs
    exact ⟨_, .plain rfl rfl rfl rfl rfl rfl⟩
  | lead role h fl ph =>
    rw [hpc] at hs
    exact lead_acts hpc hs
  | refresh h =>
    rw [hpc] at hs
    cases hs
    exact ⟨_, .calling rfl rfl rfl rfl rfl rfl⟩
  | refreshStore h k addrs =>
    rw [hpc] at hs
    cases hs
    exact ⟨_, .plain rfl rfl rfl rfl rfl rfl⟩
  | _ =>
    rw [hpc] at hs
    cases hs

/-- A call that stores what it has found leaves no negative entry, or it is `Refresh`. -/
theorem stores_spec {h : S} {k : ℕ} (hs : s.act cfg n = some s')
    (hstores : (s.procs n).stores = some (h, k)) :
    s'.negative h = none ∨
      s'.negative h = s.negative h ∧ ∃ addrs, s.procs n = .refreshStore h k addrs := by
  unfold Cache.act at hs
  cases hpc : s.procs n with
  | lead role h' fl ph =>
    rw [hpc] at hs hstores
    cases ph with
    | store k' r =>
      cases r with
      | error e => cases hstores
      | ok addrs =>
        cases hstores
        cases hs
        refine .inl ?_
        cases role <;> exact Function.update_self _ _ _
    | _ => cases hstores
  | refreshStore h' k' addrs =>
    rw [hpc] at hs hstores
    cases hstores
    cases hs
    exact .inr ⟨rfl, addrs, rfl⟩
  | _ =>
    rw [hpc] at hstores
    cases hstores

end

/-! ### The invariant -/

namespace Watched

/-- A failure that may yet be stored began before the success that stands was completed, and
before any that was completed last; and what stands has no negative entry beside it. -/
structure Fenced (w : Watched S E) : Prop where
  waits : ∀ n h k, (w.cache.procs n).waits = some (h, k) → k < w.cache.calls
  failed : ∀ n h k, (w.cache.procs n).failed = some (h, k) → k < w.cache.calls
    ∧ (∀ x, w.last h = some x → x.ok = true → k < x.before) ∧ ∀ c, w.standing h = some c → k < c
  excluded : ∀ h c, w.standing h = some c → w.cache.negativeLive h = false

theorem fenced_new (clock : ℤ) : (new clock : Watched S E).Fenced where
  waits := fun _ _ _ h => (nomatch h)
  failed := fun _ _ _ h => (nomatch h)
  excluded := fun _ _ h => (nomatch h)

/-- Steps that change neither the calls nor the history. -/
theorem Fenced.frame {w : Watched S E} {s' : Cache S E} (hinv : w.Fenced)
    (hp : ∀ m, (s'.procs m).waits = (w.cache.procs m).waits
      ∧ (s'.procs m).failed = (w.cache.procs m).failed) (hc : s'.calls = w.cache.calls)
    (hk : w.cache.clock ≤ s'.clock)
    (hn : ∀ h, s'.negative h = w.cache.negative h ∨ s'.negative h = none) :
    ({ w with cache := s' } : Watched S E).Fenced := by
  constructor
  · intro m h k hm
    dsimp only at hm ⊢
    rw [(hp m).1] at hm
    rw [hc]
    exact hinv.waits m h k hm
  · intro m h k hm
    dsimp only at hm ⊢
    rw [(hp m).2] at hm
    rw [hc]
    exact hinv.failed m h k hm
  · intro h c hstanding
    exact negativeLive_of_not (hinv.excluded h c hstanding) hk (hn h)

variable [DecidableEq S]

/-- Which steps are taken: `Refresh` stores nothing beside a negative entry, and no failure is
stored over a success that was completed after its call had begun. -/
def Careful (w : Watched S E) : Label S E → Prop
  | .act n =>
    match w.cache.procs n with
    | .refreshStore h _ _ => w.cache.negativeLive h = false
    | .lead _ h _ (.store k (.error _)) => ∀ c ∈ w.standing h, c ≤ k
    | _ => True
  | _ => True

instance (w : Watched S E) (l : Label S E) : Decidable (w.Careful l) := by
  unfold Careful
  split
  · split <;> infer_instance
  · infer_instance

section

variable {cfg : Config S} {w : Watched S E} {s' : Cache S E} {n : ℕ}

/-- What stands after a success has been stored. -/
theorem keep_standing {h : S} {c : ℕ} (hc : (w.keep n).standing h = some c) :
    w.standing h = some c ∨ ∃ x k, (w.cache.procs n).stores = some (h, k)
      ∧ w.last h = some x ∧ x.ok = true ∧ x.before = c := by
  unfold keep at hc
  split at hc
  · exact .inl hc
  rename_i h' k hstores
  split at hc
  · exact .inl hc
  rename_i x hx
  split_ifs at hc with hlast
  · dsimp only at hc
    by_cases hsame : h = h'
    · subst hsame
      rw [Function.update_self, Option.some_inj] at hc
      exact .inr ⟨x, k, hstores, hx, hlast.2, hc⟩
    · rw [Function.update_of_ne hsame] at hc
      exact .inl hc
  · exact .inl hc

theorem keep_last : (w.keep n).last = w.last := by
  unfold keep
  split
  · rfl
  split
  · rfl
  split <;> rfl

theorem Fenced.act (hinv : w.Fenced) (hguard : Careful w (.act n)) (hs : w.cache.act cfg n = some s') :
    ({ w.keep n with cache := s' } : Watched S E).Fenced := by
  obtain ⟨pc, hacts⟩ := act_spec hs
  have hcalls := hacts.calls
  constructor
  · intro m h k hm
    dsimp only at hm ⊢
    rw [hacts.procs] at hm
    by_cases hmn : m = n
    · rw [hmn, Function.update_self] at hm
      exact hacts.waits h k hm
    · rw [Function.update_of_ne hmn] at hm
      have hlt := hinv.waits m h k hm
      omega
  · intro m h k hm
    dsimp only at hm ⊢
    have hold : (w.cache.procs m).failed = some (h, k) := by
      rw [hacts.procs] at hm
      by_cases hmn : m = n
      · rw [hmn, Function.update_self] at hm
        rw [hmn]
        exact hacts.failed (h, k) hm
      · rwa [Function.update_of_ne hmn] at hm
    obtain ⟨hlt, hlast, hstanding⟩ := hinv.failed m h k hold
    refine ⟨by omega, by rw [keep_last]; exact hlast, ?_⟩
    intro c hc
    rcases keep_standing hc with hc | ⟨x, k', -, hx, hok, rfl⟩
    · exact hstanding c hc
    · exact hlast x hx hok
  · intro h c hc
    dsimp only at hc ⊢
    rcases keep_standing hc with hc | ⟨x, k, hstores, -, -, -⟩
    · rcases hacts.negative h with hneg | hneg | ⟨role, fl, k, e, hpc⟩
      · exact negativeLive_of_not (hinv.excluded h c hc) (le_of_eq hacts.clock.symm) (.inl hneg)
      · exact negativeLive_of_not (hinv.excluded h c hc) (le_of_eq hacts.clock.symm) (.inr hneg)
      · -- a failure is stored: there is nothing that stands
        have hlt := (hinv.failed n h k (by rw [hpc]; rfl)).2.2 c hc
        simp only [Careful, hpc] at hguard
        have hle := hguard c hc
        omega
    · rcases stores_spec hs hstores with hneg | ⟨hneg, addrs, hpc⟩
      · rw [Cache.negativeLive, hneg]
      · simp only [Careful, hpc] at hguard
        exact negativeLive_of_not hguard (le_of_eq hacts.clock.symm) (.inl hneg)

theorem Fenced.answer (hinv : w.Fenced) {r : Except E (List S)} (hs : w.cache.answer n r = some s') :
    ({ w.complete n r.isOk with cache := s' } : Watched S E).Fenced := by
  obtain ⟨h, k, pc, hwaits, hp, hpcwaits, hpcfailed, hcalls, hclock, hneg⟩ := answer_spec hs
  have hcomplete : w.complete n r.isOk =
      { w with
        last := update w.last h (some ⟨k, r.isOk, w.cache.calls⟩)
        standing :=
          if r.isOk then w.standing
          else update w.standing h ((w.standing h).filter fun c => decide (k < c)) } := by
    rw [complete, hwaits]
  -- nothing begins to stand
  have hstanding : ∀ h' c, (w.complete n r.isOk).standing h' = some c →
      w.standing h' = some c ∧ (h' = h → r.isOk = false → k < c) := by
    intro h' c hc
    rw [hcomplete] at hc
    dsimp only at hc
    split_ifs at hc with hok
    · exact ⟨hc, fun _ hfalse => by rw [hok] at hfalse; cases hfalse⟩
    · by_cases hsame : h' = h
      · rw [hsame, Function.update_self, Option.filter_eq_some_iff] at hc
        exact ⟨by rw [hsame]; exact hc.1, fun _ _ => of_decide_eq_true hc.2⟩
      · rw [Function.update_of_ne hsame] at hc
        exact ⟨hc, fun heq => absurd heq hsame⟩
  constructor
  · intro m h' k' hm
    dsimp only at hm ⊢
    rw [hp] at hm
    rw [hcalls]
    by_cases hmn : m = n
    · rw [hmn, Function.update_self, hpcwaits] at hm
      cases hm
    · rw [Function.update_of_ne hmn] at hm
      exact hinv.waits m h' k' hm
  · intro m h' k' hm
    dsimp only at hm ⊢
    rw [hp] at hm
    rw [hcalls]
    by_cases hmn : m = n
    · rw [hmn, Function.update_self] at hm
      obtain ⟨heq, hfalse⟩ := hpcfailed _ hm
      cases heq
      refine ⟨hinv.waits n h k hwaits, ?_, fun c hc => (hstanding h c hc).2 rfl hfalse⟩
      intro x hx hok
      rw [hcomplete] at hx
      dsimp only at hx
      rw [Function.update_self, Option.some_inj] at hx
      rw [← hx, hfalse] at hok
      cases hok
    · rw [Function.update_of_ne hmn] at hm
      obtain ⟨hlt, hlast, hold⟩ := hinv.failed m h' k' hm
      refine ⟨hlt, ?_, fun c hc => hold c (hstanding h' c hc).1⟩
      intro x hx hok
      rw [hcomplete] at hx
      dsimp only at hx
      by_cases hsame : h' = h
      · rw [hsame, Function.update_self, Option.some_inj] at hx
        rw [← hx]
        exact hlt
      · rw [Function.update_of_ne hsame] at hx
        exact hlast x hx hok
  · intro h' c hc
    exact negativeLive_of_not (hinv.excluded h' c (hstanding h' c hc).1) (le_of_eq hclock.symm)
      (.inl (congrFun hneg h'))

theorem fenced_of_step {l : Label S E} {w' : Watched S E} (hinv : w.Fenced) (hguard : Careful w l)
    (hs : step cfg w l = some w') : w'.Fenced := by
  obtain ⟨s', hs', rfl⟩ := Option.map_eq_some_iff.mp hs
  cases l with
  | tick d =>
    cases hs'
    refine hinv.frame (fun _ => ⟨rfl, rfl⟩) rfl ?_ fun _ => .inl rfl
    dsimp only
    omega
  | begin n op =>
    rw [Dns.step] at hs'
    split at hs'
    · rename_i hpc
      cases hs'
      refine hinv.frame ?_ rfl le_rfl fun _ => .inl rfl
      intro m
      by_cases hmn : m = n
      · rw [hmn, Cache.procs_setPc, Function.update_self, hpc]
        cases op <;> exact ⟨rfl, rfl⟩
      · rw [Cache.procs_setPc, Function.update_of_ne hmn]
        exact ⟨rfl, rfl⟩
    · cases hs'
  | act n => exact hinv.act hguard hs'
  | answer n r => cases r <;> exact hinv.answer hs'
  | invalidate h =>
    cases hs'
    exact hinv.frame (fun _ => ⟨rfl, rfl⟩) rfl le_rfl fun _ => .inl rfl
  | clear =>
    cases hs'
    exact hinv.frame (fun _ => ⟨rfl, rfl⟩) rfl le_rfl fun _ => .inl rfl
  | janitor =>
    cases hs'
    unfold Cache.sweep
    split
    · exact hinv.frame (fun _ => ⟨rfl, rfl⟩) rfl le_rfl fun _ => .inl rfl
    · exact hinv.frame (fun _ => ⟨rfl, rfl⟩) rfl le_rfl fun _ => .inl rfl
    · refine hinv.frame (fun _ => ⟨rfl, rfl⟩) rfl le_rfl fun h => ?_
      dsimp only
      split
      · exact .inr rfl
      · exact .inl rfl

end

/-- Without a live negative entry `LookupHost` does not answer from one. -/
theorem lookup_ne_negativeCache {cfg : Config S} {s : Cache S E} {h : S} (n : ℕ)
    (hnot : s.negativeLive h = false) :
    (s.lookup cfg n h).procs n ≠ .returned h none (.error .negativeCache) := by
  have hne : ∀ {s' : Cache S E} {pc : Pc S E}, s'.procs = update s.procs n pc →
      pc ≠ .returned h none (.error .negativeCache) →
      s'.procs n ≠ .returned h none (.error .negativeCache) := by
    intro s' pc hp hpc
    rw [hp, Function.update_self]
    exact hpc
  unfold Cache.lookup
  rw [hnot, if_neg Bool.false_ne_true]
  repeat' split
  all_goals exact hne rfl fun h => nomatch h

/-- **Positive and negative entries.**  In every run in which `Refresh` stores nothing beside an
unexpired negative entry, and no failure is stored over a success that was completed after the
failed call had begun: while the success that was completed last stands, there is no unexpired
negative entry for its host, and `LookupHost` does not answer from one. -/
theorem negative_excluded (cfg : Config S) (clock : ℤ) {w : Watched S E}
    (hw : Guarded.Reaches (step cfg) Careful (new clock) w) {h : S} {c : ℕ}
    (hstands : w.standing h = some c) :
    w.cache.negativeLive h = false
      ∧ ∀ n, (w.cache.lookup cfg n h).procs n ≠ .returned h none (.error .negativeCache) := by
  have hinv : w.Fenced := hw.invariant Fenced (fenced_new clock) fun _ _ _ => fenced_of_step
  have hnot := hinv.excluded h c hstands
  exact ⟨hnot, fun n => lookup_ne_negativeCache n hnot⟩

/-- A lookup fails, the next one is answered from the negative entry, and when that has expired a
third one succeeds. -/
theorem negative_excluded_expired :
    ∃ w : Watched ℕ ℕ, Guarded.Reaches (step ⟨10, 10, fun _ => false⟩) Careful (new 0) w
      ∧ w.cache.procs 1 = .returned 7 none (.error .negativeCache)
      ∧ w.standing 7 = some 2
      ∧ w.cache.negativeLive 7 = false
      ∧ ∀ n, (w.cache.lookup ⟨10, 10, fun _ => false⟩ n 7).procs n
          ≠ .returned 7 none (.error .negativeCache) := by
  obtain ⟨w, hw, hnegative, hstands⟩ := Guarded.exists_of_exec (step ⟨10, 10, fun _ => false⟩)
    Careful (new 0 : Watched ℕ ℕ)
    [.begin 0 (.lookupHost 7), .act 0, .act 0, .act 0, .answer 0 (.error 0), .act 0, .act 0, .act 0,
      .begin 1 (.lookupHost 7), .act 1, .tick 11, .begin 2 (.lookupHost 7), .act 2, .act 2, .act 2,
      .answer 2 (.ok [4]), .act 2, .act 2, .act 2]
    (fun w => w.cache.procs 1 = .returned 7 none (.error .negativeCache) ∧ w.standing 7 = some 2)
    (by decide +kernel)
  exact ⟨w, hw, hnegative, hstands, negative_excluded ⟨10, 10, fun _ => false⟩ 0 hw hstands⟩

/-- A lookup fails, and `Refresh` succeeds after it: the next lookup is answered from the
negative entry.  And a lookup is slow to fail: while it stores its failure, the success of a
`Refresh` that began later stands. -/
theorem negative_beside_success :
    (∃ w : Watched ℕ ℕ, Guarded.Reaches (step ⟨10, 10, fun _ => false⟩) (fun _ _ => True) (new 0) w
        ∧ w.standing 7 = some 2 ∧ w.cache.negativeLive 7 = true
        ∧ w.cache.procs 2 = .returned 7 none (.error .negativeCache))
      ∧ ∃ w : Watched ℕ ℕ,
        Guarded.Reaches (step ⟨10, 10, fun _ => false⟩) (fun _ _ => True) (new 0) w
          ∧ w.standing 7 = some 2 ∧ w.cache.negativeLive 7 = true
          ∧ w.cache.procs 0 = .returned 7 none (.error (.lookup 0)) := by
  constructor
  · exact Guarded.exists_of_exec (step ⟨10, 10, fun _ => false⟩) (fun _ _ => True) (new 0)
      [.begin 0 (.lookupHost 7), .act 0, .act 0, .act 0, .answer 0 (.error 0), .act 0, .act 0,
        .act 0, .begin 1 (.refresh 7), .act 1, .answer 1 (.ok [4]), .act 1,
        .begin 2 (.lookupHost 7), .act 2]
      (fun w => w.standing 7 = some 2 ∧ w.cache.negativeLive 7 = true
        ∧ w.cache.procs 2 = .returned 7 none (.error .negativeCache)) (by decide +kernel)
  · exact Guarded.exists_of_exec (step ⟨10, 10, fun _ => false⟩) (fun _ _ => True) (new 0)
      [.begin 0 (.lookupHost 7), .act 0, .act 0, .act 0, .begin 1 (.refresh 7), .act 1,
        .answer 1 (.ok [4]), .act 1, .answer 0 (.error 0), .act 0, .act 0, .act 0]
      (fun w => w.standing 7 = some 2 ∧ w.cache.negativeLive 7 = true
        ∧ w.cache.procs 0 = .returned 7 none (.error (.lookup 0))) (by decide +kernel)

end Watched

end BurstHttp.Dns
