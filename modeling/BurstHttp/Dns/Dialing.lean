/-
Dialing past the negative entries (dialer.go, `Dialer.DialAddr`, without a proxy and with a
DNS cache).

`DialAddr` asks the cache for an address, and if it gets none, for whatever reason, it
dials the name; `net.Dialer` then asks the resolver.  A run is one of the cache, with any
number of calls of `DialAddr`; its log has what is asked of the resolver by them, and the
failures of `LookupHost` that have no stale entry to fall back to.

* `Dialing.step` — one step, `Suppressed` — what negative entries are for;
* `Looks`, `Onward` — where the `LookupHost` of a call of `DialAddr` stands, and what a step of
  the cache may do to it;
* `Dialing.Traced`, `traced_of_step` — a call whose lookup has failed has asked the resolver again,
  or is about to, `step_refused` — so has one that comes to a negative entry;
* `negativeCache_queries` — so no failure is followed by silence.
-/
import BurstHttp.Dns.Exclusion
import Mathlib.Data.Int.Order.Basic

namespace BurstHttp.Dns

open Function (update)
open Guarded (Reaches)

variable {S E : Type}

/-- Where a call of `DialAddr` stands. -/
inductive DialPc (S : Type)
  | idle
  | lookup (h : S) (start : ℤ)     -- d.dnsCache.LookupHost(host)
  | over                           -- dialer.Dial("tcp", address)
  deriving DecidableEq

/-- `LookupHost` fails for call `n` at time `t`; call `n`, which began at `start`, has the resolver
asked for `h`. -/
inductive Event (S : Type)
  | failed (n : ℕ) (h : S) (t : ℤ)
  | query (n : ℕ) (h : S) (start : ℤ)
  deriving DecidableEq

/-- A cache with the calls of `DialAddr`, and what has happened, the last event first. -/
structure Dialing (S E : Type) where
  cache : Cache S E
  dials : ℕ → DialPc S
  log : List (Event S)

/-- `dialHost` in `DialAddr`. -/
def dialHost (h : S) : Except (Err E) (List S) → S
  | .ok (addr :: _) => addr
  | _ => h

inductive DialLabel (S E : Type)
  | begin (n : ℕ) (h : S)          -- DialAddr is called
  | cache (l : Label S E)
  | dial (n : ℕ)

namespace Dialing

def new (clock : ℤ) : Dialing S E := ⟨Cache.new clock, fun _ => .idle, []⟩

/-- What a step of the cache to `c` tells about the calls of `DialAddr`. -/
def events (s : Dialing S E) (c : Cache S E) : Label S E → List (Event S)
  | .act n =>
    match s.dials n with
    | .lookup _ start =>
      match s.cache.procs n, c.procs n with
      | .lead _ h _ .call, _ => [.query n h start]
      | _, .returned h _ (.error (.lookup _)) => [.failed n h s.cache.clock]
      | _, _ => []
    | _ => []
  | _ => []

/-- One step. -/
def step [DecidableEq S] (cfg : Config S) (s : Dialing S E) : DialLabel S E → Option (Dialing S E)
  | .begin n h =>
    (Dns.step cfg s.cache (.begin n (.lookupHost h))).map fun c =>
      { s with cache := c, dials := update s.dials n (.lookup h s.cache.clock) }
  | .cache l =>
    (Dns.step cfg s.cache l).map fun c => { s with cache := c, log := s.events c l ++ s.log }
  | .dial n =>
    match s.dials n, s.cache.procs n with
    | .lookup h start, .returned _ _ r =>
      let dialed := dialHost h r
      some
        { s with
          dials := update s.dials n .over
          log := if cfg.parseIP dialed then s.log else .query n dialed start :: s.log }
    | _, _ => none

end Dialing

/-- A query that comes after a failure for its host is of a call that began when the negative
entry was over. -/
def Event.Kept (cfg : Config S) : Event S → Event S → Prop
  | .query _ h start, .failed _ h' t => h = h' → t + cfg.negativeTTL ≤ start
  | _, _ => True

/-- After a failure, the resolver is not asked for the host by any call that begins before the
negative entry is over. -/
def Suppressed (cfg : Config S) (log : List (Event S)) : Prop := log.Pairwise (Event.Kept cfg)

theorem not_suppressed_append {cfg : Config S} {log : List (Event S)} (h : ¬ Suppressed cfg log)
    (events : List (Event S)) : ¬ Suppressed cfg (events ++ log) :=
  fun hall => h (hall.sublist (List.sublist_append_right events log))

/-- A query of a call that began before the failure. -/
theorem not_suppressed_query {cfg : Config S} (hpos : 0 < cfg.negativeTTL) {log : List (Event S)}
    {m n : ℕ} {h : S} {t start : ℤ} (hfailed : .failed m h t ∈ log) (hstart : start ≤ t) :
    ¬ Suppressed cfg (.query n h start :: log) := by
  intro hall
  have hkept := (List.pairwise_cons.mp hall).1 _ hfailed rfl
  omega

/-! ### What the cache does -/

/-- Call of `LookupHost` for `h`; it goes on, and can fail, only if `h` is no address. -/
def Looks (cfg : Config S) (h : S) : Pc S E → Prop
  | .lookup h' => h' = h
  | .enter (.lookup _) h' => h' = h ∧ cfg.parseIP h = false
  | .join h' _ _ => h' = h ∧ cfg.parseIP h = false
  | .lead (.lookup _) h' _ _ => h' = h ∧ cfg.parseIP h = false
  | .returned h' _ (.ok _) => h' = h
  | .returned h' _ (.error _) => h' = h ∧ cfg.parseIP h = false
  | _ => False

/-- A lookup stays one for its host, and when it has returned it does nothing more. -/
structure Onward (cfg : Config S) (pc pc' : Pc S E) : Prop where
  looks : ∀ h, Looks cfg h pc → Looks cfg h pc'
  returned : ∀ h joined r, pc = .returned h joined r → pc' = pc

theorem Onward.refl (cfg : Config S) (pc : Pc S E) : Onward cfg pc pc :=
  ⟨fun _ h => h, fun _ _ _ _ => rfl⟩

section

variable {cfg : Config S} {s s' : Cache S E} {n : ℕ} {pc pc' : Pc S E}

/-- A step of one call that has not returned. -/
theorem onward_update (hpc : s.procs n = pc) (hrun : ∀ h joined r, pc ≠ .returned h joined r)
    (hprocs : s'.procs = update s.procs n pc') (hlooks : ∀ h, Looks cfg h pc → Looks cfg h pc')
    (m : ℕ) : Onward cfg (s.procs m) (s'.procs m) := by
  rw [hprocs]
  by_cases hm : m = n
  · subst hm
    rw [Function.update_self, hpc]
    exact ⟨hlooks, fun h joined r heq => absurd heq (hrun h joined r)⟩
  · rw [Function.update_of_ne hm]
    exact .refl cfg _

/-- What the leader of a flight does once it has been deleted. -/
theorem looks_landed {role : Role S} {h h' : S} {fl fl' k : ℕ} {ph : Phase S E}
    {r : Except E (List S)} (hlooks : Looks cfg h' (.lead role h fl' ph : Pc S E)) :
    Looks cfg h' (Cache.landed role h fl k r) := by
  cases role with
  | background => exact hlooks.elim
  | lookup stale =>
    cases r with
    | ok addrs => cases stale <;> exact hlooks
    | error e =>
      cases stale with
      | none => exact hlooks
      | some addrs => exact hlooks.1

/-- What one that has joined it makes of the result: a failure with stale addresses is none. -/
theorem looks_outcome {h h' : S} {fl fl' : ℕ} {stale : Option (List S)} {r : Except E (List S)}
    (hlooks : Looks cfg h' (.join h stale fl : Pc S E)) :
    Looks cfg h' (.returned h (some (fl', stale)) (Cache.outcome stale r)) := by
  cases r with
  | ok addrs => exact hlooks.1
  | error e =>
    cases stale with
    | none => exact hlooks
    | some addrs => exact hlooks.1

theorem onward_answer {r : Except E (List S)} (hs : s.answer n r = some s') (m : ℕ) :
    Onward cfg (s.procs m) (s'.procs m) := by
  unfold Cache.answer at hs
  dsimp only at hs
  split at hs
  · rename_i role h fl k hpc
    cases hs
    refine onward_update hpc nofun rfl ?_ m
    cases role <;> exact fun _ h => h
  · rename_i h k hpc
    split at hs
    · cases hs
      refine onward_update hpc nofun rfl ?_ m
      exact fun _ h => h.elim
    · cases hs
      refine onward_update hpc nofun rfl ?_ m
      exact fun _ h => h.elim
  · cases hs

variable [DecidableEq S]

theorem onward_lookup {h : S} (hpc : s.procs n = .lookup h) (m : ℕ) :
    Onward cfg (s.procs m) ((s.lookup cfg n h).procs m) := by
  unfold Cache.lookup
  split
  · refine onward_update hpc nofun rfl ?_ m
    exact fun _ h => h
  rename_i hip
  have hlooks : ∀ h', h = h' → h = h' ∧ cfg.parseIP h' = false := by
    rintro _ rfl
    exact ⟨rfl, by simpa using hip⟩
  split
  · refine onward_update hpc nofun rfl ?_ m
    exact hlooks
  split
  · refine onward_update hpc nofun rfl ?_ m
    exact hlooks
  split
  · refine onward_update hpc nofun rfl ?_ m
    exact fun _ h => h
  · refine onward_update hpc nofun rfl ?_ m
    exact hlooks

theorem onward_enter {role : Role S} {h : S} (hpc : s.procs n = .enter role h) (m : ℕ) :
    Onward cfg (s.procs m) ((s.enter n role h).procs m) := by
  unfold Cache.enter
  cases role with
  | background =>
    -- a background lookup is none of `LookupHost`
    split
    · refine onward_update hpc nofun rfl ?_ m
      exact fun _ h => h.elim
    · refine onward_update hpc nofun rfl ?_ m
      exact fun _ h => h.elim
  | lookup stale =>
    split
    · refine onward_update hpc nofun rfl ?_ m
      exact fun _ h => h
    · refine onward_update hpc nofun rfl ?_ m
      exact fun _ h => h

theorem onward_store {role : Role S} {h : S} {fl k : ℕ} {r : Except E (List S)}
    (hpc : s.procs n = .lead role h fl (.store k r)) (m : ℕ) :
    Onward cfg (s.procs m) ((s.store cfg n role h r).procs m) := by
  cases role with
  | background =>
    cases r with
    | ok addrs =>
      refine onward_update hpc nofun rfl ?_ m
      exact fun _ h => h.elim
    | error e =>
      refine onward_update hpc nofun rfl ?_ m
      exact fun _ h => h.elim
  | lookup stale =>
    cases r with
    | ok addrs =>
      refine onward_update hpc nofun rfl ?_ m
      exact fun _ h => h.1
    | error e =>
      refine onward_update hpc nofun rfl ?_ m
      exact fun _ h => h

theorem onward_lead {role : Role S} {h : S} {fl : ℕ} {ph : Phase S E}
    (hpc : s.procs n = .lead role h fl ph) (hs : s.lead cfg n role h fl ph = some s') (m : ℕ) :
    Onward cfg (s.procs m) (s'.procs m) := by
  cases ph with
  | wait k => cases hs
  | call | announce k r =>
    cases hs
    refine onward_update hpc nofun rfl ?_ m
    cases role <;> exact fun _ h => h
  | delete k r =>
    cases hs
    refine onward_update hpc nofun rfl ?_ m
    exact fun _ h => looks_landed h
  | store k r =>
    cases hs
    exact onward_store hpc m

theorem onward_act (hs : s.act cfg n = some s') (m : ℕ) :
    Onward cfg (s.procs m) (s'.procs m) := by
  unfold Cache.act at hs
  cases hpc : s.procs n with
  | lookup h =>
    rw [hpc] at hs
    cases hs
    exact onward_lookup hpc m
  | enter role h =>
    rw [hpc] at hs
    cases hs
    exact onward_enter hpc m
  | join h stale fl =>
    rw [hpc] at hs
    obtain ⟨r, -, rfl⟩ := Option.map_eq_some_iff.mp hs
    refine onward_update hpc nofun rfl ?_ m
    exact fun _ h => looks_outcome h
  | lead role h fl ph =>
    rw [hpc] at hs
    exact onward_lead hpc hs m
  | refresh h | refreshStore h k addrs =>
    rw [hpc] at hs
    cases hs
    refine onward_update hpc nofun rfl ?_ m
    exact fun _ h => h.elim
  | _ =>
    rw [hpc] at hs
    cases hs

theorem procs_begin {op : Op S} (hs : step cfg s (.begin n op) = some s') :
    s.procs n = .idle ∧ s' = s.setPc n op.pc := by
  rw [step] at hs
  split at hs
  · rename_i hpc
    cases hs
    exact ⟨hpc, rfl⟩
  · cases hs

/-- No step of the cache takes a lookup back. -/
theorem onward_step {l : Label S E} (hs : step cfg s l = some s') (m : ℕ) :
    Onward cfg (s.procs m) (s'.procs m) := by
  cases l with
  | begin n op =>
    obtain ⟨hpc, rfl⟩ := procs_begin hs
    refine onward_update hpc nofun rfl ?_ m
    exact fun _ h => h.elim
  | act n => exact onward_act hs m
  | answer n r => exact onward_answer hs m
  | janitor =>
    cases hs
    unfold Cache.sweep
    split <;> exact .refl cfg _
  | tick d | invalidate h | clear =>
    cases hs
    exact .refl cfg _

/-- Nor the clock. -/
theorem clock_step {l : Label S E} (hs : step cfg s l = some s') : s.clock ≤ s'.clock := by
  cases l with
  | tick d =>
    cases hs
    exact Int.le_add_of_nonneg_right (Int.natCast_nonneg d)
  | begin n op =>
    obtain ⟨-, rfl⟩ := procs_begin hs
    exact le_rfl
  | act n =>
    obtain ⟨pc, hacts⟩ := act_spec hs
    exact hacts.clock.ge
  | answer n r =>
    rw [step] at hs
    unfold Cache.answer at hs
    dsimp only at hs
    split at hs
    · cases hs
      exact le_rfl
    · split at hs <;> cases hs <;> exact le_rfl
    · cases hs
  | janitor =>
    cases hs
    unfold Cache.sweep
    split <;> exact le_rfl
  | invalidate h | clear =>
    cases hs
    exact le_rfl

end

/-! ### Calls that have failed -/

namespace Dialing

variable {cfg : Config S} {s s' : Dialing S E}

/-- A call of `DialAddr` waits for its lookup; and one whose lookup has failed has it behind it, or
has asked the resolver. -/
structure Traced (cfg : Config S) (s : Dialing S E) : Prop where
  looks : ∀ n h start, s.dials n = .lookup h start →
    start ≤ s.cache.clock ∧ Looks cfg h (s.cache.procs n)
  failed : ∀ n h t, .failed n h t ∈ s.log → ¬ Suppressed cfg s.log ∨
    ∃ start, s.dials n = .lookup h start ∧ start ≤ t
      ∧ ∃ joined e, s.cache.procs n = .returned h joined (.error e)

theorem traced_new (clock : ℤ) : Traced cfg (new clock : Dialing S E) where
  looks := fun _ _ _ h => (nomatch h)
  failed := fun _ _ _ h => (nomatch h)

/-- A failure that a step tells about is one of a call that has just returned. -/
theorem failed_of_events {c : Cache S E} {l : Label S E} {n : ℕ} {h : S} {t : ℤ}
    (hmem : .failed n h t ∈ s.events c l) :
    t = s.cache.clock ∧ (∃ h' start, s.dials n = .lookup h' start)
      ∧ ∃ joined e, c.procs n = .returned h joined (.error e) := by
  cases l with
  | act m =>
    rw [events] at hmem
    split at hmem
    · rename_i h' start hdial
      split at hmem
      · cases List.mem_singleton.mp hmem
      · rename_i hpc _
        cases List.mem_singleton.mp hmem
        exact ⟨rfl, ⟨h', start, hdial⟩, _, _, hpc⟩
      · cases hmem
    · cases hmem
  | _ => cases hmem

variable [DecidableEq S]

/-- A call that has got an error dials the name. -/
theorem step_dial {n : ℕ} {h : S} {start : ℤ} {joined : Option (ℕ × Option (List S))} {e : Err E}
    (hinv : Traced cfg s) (hdial : s.dials n = .lookup h start)
    (hpc : s.cache.procs n = .returned h joined (.error e)) :
    s.step cfg (.dial n)
      = some { s with dials := update s.dials n .over, log := .query n h start :: s.log } := by
  have hlooks := (hinv.looks n h start hdial).2
  rw [hpc] at hlooks
  simp only [step, hdial, hpc, dialHost, hlooks.2, Bool.false_eq_true, if_false]

theorem traced_cache {l : Label S E} {c : Cache S E} (hinv : Traced cfg s)
    (hs : Dns.step cfg s.cache l = some c) :
    Traced cfg { s with cache := c, log := s.events c l ++ s.log } := by
  constructor
  · intro n h start hdial
    obtain ⟨hstart, hlooks⟩ := hinv.looks n h start hdial
    exact ⟨hstart.trans (clock_step hs), (onward_step hs n).looks h hlooks⟩
  · intro n h t hmem
    rcases List.mem_append.mp hmem with hnew | hold
    · -- it has just failed, and began before
      obtain ⟨rfl, ⟨h', start, hdial⟩, joined, e, hpc⟩ := failed_of_events hnew
      obtain ⟨hstart, hlooks⟩ := hinv.looks n h' start hdial
      have hlooks' := (onward_step hs n).looks h' hlooks
      rw [hpc] at hlooks'
      obtain rfl : h = h' := hlooks'.1
      exact .inr ⟨start, hdial, hstart, joined, e, hpc⟩
    · rcases hinv.failed n h t hold with hnot | ⟨start, hdial, hstart, joined, e, hpc⟩
      · exact .inl (not_suppressed_append hnot _)
      · have hpc' : c.procs n = s.cache.procs n := (onward_step hs n).returned _ _ _ hpc
        exact .inr ⟨start, hdial, hstart, joined, e, hpc'.trans hpc⟩

theorem traced_begin {n : ℕ} {h : S} {c : Cache S E} (hinv : Traced cfg s)
    (hs : Dns.step cfg s.cache (.begin n (.lookupHost h)) = some c) :
    Traced cfg { s with cache := c, dials := update s.dials n (.lookup h s.cache.clock) } := by
  obtain ⟨hidle, rfl⟩ := procs_begin hs
  constructor
  · refine (Function.forall_update_iff s.dials fun m pc => ∀ h' start, pc = .lookup h' start →
      start ≤ s.cache.clock ∧ Looks cfg h' (update s.cache.procs n (.lookup h) m)).mpr ⟨?_, ?_⟩
    · rintro _ _ ⟨⟩
      rw [Function.update_self]
      exact ⟨le_rfl, rfl⟩
    · intro m hm h' start hdial
      rw [Function.update_of_ne hm]
      exact hinv.looks m h' start hdial
  · intro m h' t hmem
    rcases hinv.failed m h' t hmem with hnot | ⟨start, hdial, hstart, joined, e, hpc⟩
    · exact .inl hnot
    · -- a call that has returned does not begin
      have hm : m ≠ n := by
        rintro rfl
        rw [hidle] at hpc
        cases hpc
      refine .inr ⟨start, ?_, hstart, joined, e, ?_⟩
      · exact (Function.update_of_ne hm _ _).trans hdial
      · exact (Function.update_of_ne hm _ _).trans hpc

theorem traced_dial (hpos : 0 < cfg.negativeTTL) {n : ℕ} (hinv : Traced cfg s)
    (hs : s.step cfg (.dial n) = some s') : Traced cfg s' := by
  have hs' := hs
  simp only [step] at hs'
  split at hs'
  · rename_i h start h' joined r hdial hpc
    cases hs'
    constructor
    · refine (Function.forall_update_iff s.dials fun m pc => ∀ h' start, pc = .lookup h' start →
        start ≤ s.cache.clock ∧ Looks cfg h' (s.cache.procs m)).mpr ⟨nofun, ?_⟩
      exact fun m _ => hinv.looks m
    · intro m k t hmem
      have hold : .failed m k t ∈ s.log := by
        dsimp only at hmem
        split at hmem
        · exact hmem
        · simpa using hmem
      rcases hinv.failed m k t hold with hnot | ⟨start', hdial', hstart, joined', e, hpc'⟩
      · left
        dsimp only
        split
        · exact hnot
        · exact not_suppressed_append hnot [_]
      · by_cases hm : m = n
        · -- the call that has failed asks the resolver
          subst hm
          rw [step_dial hinv hdial' hpc', Option.some_inj] at hs
          rw [← hs]
          exact .inl (not_suppressed_query hpos hold hstart)
        · exact .inr ⟨start', (Function.update_of_ne hm _ _).trans hdial', hstart, joined', e, hpc'⟩
  · cases hs'

theorem traced_of_step (hpos : 0 < cfg.negativeTTL) {l : DialLabel S E} (hinv : Traced cfg s)
    (hs : s.step cfg l = some s') : Traced cfg s' := by
  cases l with
  | begin n h =>
    obtain ⟨c, hc, rfl⟩ := Option.map_eq_some_iff.mp hs
    exact traced_begin hinv hc
  | cache l =>
    obtain ⟨c, hc, rfl⟩ := Option.map_eq_some_iff.mp hs
    exact traced_cache hinv hc
  | dial n => exact traced_dial hpos hinv hs

end Dialing

theorem negativeTTL_pos (ttl negativeTTL : ℤ) (parseIP : S → Bool) :
    0 < (newDNSCache ttl negativeTTL parseIP).negativeTTL := by
  unfold newDNSCache
  dsimp only
  split <;> omega

/-- A call that comes to a negative entry is refused. -/
theorem Dialing.step_refused [DecidableEq S] {cfg : Config S} {s : Dialing S E} {n : ℕ} {h : S}
    (hpc : s.cache.procs n = .lookup h) (hip : cfg.parseIP h = false)
    (hlive : s.cache.negativeLive h = true) :
    s.step cfg (.cache (.act n))
      = some { s with cache := s.cache.setPc n (.returned h none (.error .negativeCache)) } := by
  have hact : Dns.step cfg s.cache (.act n)
      = some (s.cache.setPc n (.returned h none (.error .negativeCache))) := by
    simp only [Dns.step, Cache.act, hpc, Cache.lookup, hip, hlive, Bool.false_eq_true, if_false,
      if_true]
  -- it has not asked the resolver, and this is no failure of it
  have hevents : s.events (s.cache.setPc n (.returned h none (.error .negativeCache))) (.act n)
      = [] := by
    simp only [events, hpc, Cache.procs_setPc, Function.update_self]
    split <;> rfl
  rw [step, hact, Option.map_some, hevents, List.nil_append]

/-- **Negative entries suppress nothing.**  In every run of calls of `DialAddr`, a failure of
`LookupHost` that has no stale entry is followed by a query for its host, of a call that began
before the negative entry was over: of the call that has failed, when it goes on.  And a later
call that comes to the negative entry is refused by the cache, and then asks the resolver for
the host all the same. -/
theorem negativeCache_queries [DecidableEq S] (ttl negativeTTL : ℤ) (parseIP : S → Bool)
    (clock : ℤ) {s : Dialing S E}
    (hs : Reaches (Dialing.step (newDNSCache ttl negativeTTL parseIP)) (fun _ _ => True)
      (.new clock) s) :
    (∀ n h t, .failed n h t ∈ s.log →
        ∃ s', (s' = s ∨ s.step (newDNSCache ttl negativeTTL parseIP) (.dial n) = some s')
          ∧ ¬ Suppressed (newDNSCache ttl negativeTTL parseIP) s'.log)
      ∧ ∀ n h start, s.dials n = .lookup h start → s.cache.procs n = .lookup h →
        parseIP h = false → s.cache.negativeLive h = true →
          ∃ s' s'', s.step (newDNSCache ttl negativeTTL parseIP) (.cache (.act n)) = some s'
            ∧ s'.step (newDNSCache ttl negativeTTL parseIP) (.dial n) = some s''
            ∧ s''.log = .query n h start :: s.log := by
  have hpos := negativeTTL_pos ttl negativeTTL parseIP
  have hinv : Dialing.Traced (newDNSCache ttl negativeTTL parseIP) s :=
    hs.invariant _ (Dialing.traced_new clock) fun _ _ _ h _ hs => Dialing.traced_of_step hpos h hs
  constructor
  · intro n h t hfailed
    rcases hinv.failed n h t hfailed with hnot | ⟨start, hdial, hstart, joined, e, hpc⟩
    · exact ⟨s, .inl rfl, hnot⟩
    · refine ⟨_, .inr (Dialing.step_dial hinv hdial hpc), ?_⟩
      exact not_suppressed_query hpos hfailed hstart
  · intro n h start hdial hpc hip hlive
    have hip' : (newDNSCache ttl negativeTTL parseIP).parseIP h = false := hip
    have hrefused := Dialing.step_refused hpc hip' hlive
    have hinv' := Dialing.traced_of_step hpos hinv hrefused
    exact ⟨_, _, hrefused, Dialing.step_dial hinv' hdial (Function.update_self _ _ _), rfl⟩

/-- Call 0 looks host 7 up, in vain. -/
def lookupFails : List (DialLabel ℕ Unit) :=
  [.begin 0 7, .cache (.act 0), .cache (.act 0), .cache (.act 0), .cache (.answer 0 (.error ())),
    .cache (.act 0), .cache (.act 0), .cache (.act 0)]

/-- The cache with the default durations; no host is an address. -/
def defaultCache : Config ℕ := newDNSCache 0 0 fun _ => false

theorem negativeCache_queries_fails :
    ∃ s : Dialing ℕ Unit, Reaches (Dialing.step defaultCache) (fun _ _ => True) (.new 0) s
      ∧ .failed 0 7 0 ∈ s.log
      ∧ ∃ s', (s' = s ∨ s.step defaultCache (.dial 0) = some s')
        ∧ ¬ Suppressed defaultCache s'.log := by
  obtain ⟨s, hs, hfailed⟩ := Guarded.exists_of_exec (Dialing.step defaultCache) (fun _ _ => True)
    (.new 0) lookupFails (fun s => .failed 0 7 0 ∈ s.log) (by decide +kernel)
  exact ⟨s, hs, hfailed, (negativeCache_queries 0 0 (fun _ => false) 0 hs).1 0 7 0 hfailed⟩

/-- The call that has failed dials the name, and so does a call that begins a nanosecond later,
and gets the error of the negative cache. -/
theorem negativeCache_bypassed :
    ∃ s : Dialing ℕ Unit, Reaches (Dialing.step defaultCache) (fun _ _ => True) (.new 0) s
      ∧ s.cache.procs 1 = .returned 7 none (.error .negativeCache)
      ∧ s.log = [.query 1 7 1, .query 0 7 0, .failed 0 7 0, .query 0 7 0]
      ∧ ¬ Suppressed defaultCache s.log := by
  obtain ⟨s, hs, hpc, hlog⟩ := Guarded.exists_of_exec (Dialing.step defaultCache) (fun _ _ => True)
    (.new 0) (lookupFails ++ [.dial 0, .cache (.tick 1), .begin 1 7, .cache (.act 1), .dial 1])
    (fun s => s.cache.procs 1 = .returned 7 none (.error .negativeCache)
      ∧ s.log = [.query 1 7 1, .query 0 7 0, .failed 0 7 0, .query 0 7 0]) (by decide +kernel)
  refine ⟨s, hs, hpc, hlog, ?_⟩
  rw [hlog]
  intro hall
  have hkept := (List.pairwise_cons.mp hall).1 (.failed 0 7 0) (by decide) rfl
  exact absurd hkept (by decide)

end BurstHttp.Dns
