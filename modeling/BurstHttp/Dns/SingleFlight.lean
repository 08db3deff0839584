/-
One lookup of a host at a time (dns.go, `inflight`).

A flight is announced before it is deleted, and stored after that, so that calls which
joined it, the next one to look the host up and calls that store overlap.

* `Pc.flying` — the flight that a call has inserted and not yet deleted;
* `Tracked` — flying calls and entries of `inflight` belong to each other, and the result
  of a flight is what the resolver answered the one who inserted it;
* `Tracked.setPc`, `Tracked.takeOff`, `Tracked.answered`, `Tracked.announce`, `Tracked.land` — the kinds of
  steps, `tracked_of_step` — all steps;
* `single_flight` — what follows for every run.
-/
import BurstHttp.Dns.Machine

namespace BurstHttp.Dns

open Function (update)

variable {S E : Type}

namespace Pc

/-- The host and the flight of a call that has inserted it and not yet deleted it. -/
def flying : Pc S E → Option (S × ℕ)
  | .lead _ _ _ (.store _ _) => none
  | .lead _ h fl _ => some (h, fl)
  | _ => none

/-- The host and the flight of a call that has joined it. -/
def joins : Pc S E → Option (S × ℕ)
  | .join h _ fl => some (h, fl)
  | .returned h (some (fl, _)) _ => some (h, fl)
  | _ => none

/-- The answer that a call is about to announce. -/
def announces : Pc S E → Option (Except E (List S))
  | .lead _ _ _ (.announce _ r) => some r
  | _ => none

/-- The resolver has not answered the call yet. -/
def Unanswered : Pc S E → Prop
  | .idle | .lookup _ | .enter _ _ | .lead _ _ _ .call | .lead _ _ _ (.wait _)
  | .refresh _ | .refreshWait _ _ => True
  | _ => False

end Pc

/-- What the place where call `n` stands says about the rest of the state. -/
structure Fits (s : Cache S E) (n : ℕ) (pc : Pc S E) : Prop where
  flying : ∀ h fl, pc.flying = some (h, fl) →
    s.inflight h = some fl ∧ ∃ f, s.flights[fl]? = some f ∧ f.leader = n ∧ f.host = h
  announces : ∀ r, pc.announces = some r → s.answers n = some r
  unanswered : pc.Unanswered → s.answers n = none
  joins : ∀ h fl, pc.joins = some (h, fl) → ∃ f, s.flights[fl]? = some f ∧ f.host = h
  returned : ∀ h fl stale r, pc = .returned h (some (fl, stale)) r →
    ∃ f res, s.flights[fl]? = some f ∧ f.result = some res ∧ r = Cache.outcome stale res

/-- Flying calls have the entry of their host in `inflight`, and the entries are theirs; what
is known about a flight is what the resolver has answered. -/
structure Tracked (s : Cache S E) : Prop where
  fits : ∀ n, Fits s n (s.procs n)
  inflight : ∀ h fl, s.inflight h = some fl →
    ∃ f, s.flights[fl]? = some f ∧ (s.procs f.leader).flying = some (h, fl)
  result : ∀ (fl : ℕ) (f : Flight S E) r, s.flights[fl]? = some f → f.result = some r →
    s.answers f.leader = some r
  nonempty : ∀ n addrs, s.answers n = some (.ok addrs) → addrs ≠ []

theorem tracked_new (clock : ℤ) : Tracked (Cache.new clock : Cache S E) where
  fits := fun _ =>
    ⟨fun _ _ h => (nomatch h), fun _ h => (nomatch h), fun _ => rfl, fun _ _ h => (nomatch h),
      fun _ _ _ _ h => (nomatch h)⟩
  inflight := fun _ _ h => (nomatch h)
  result := fun _ _ _ h => (nomatch h)
  nonempty := fun _ _ h => (nomatch h)

/-- Flights keep their places, their hosts, who inserted them, and their results. -/
def Extends (l l' : List (Flight S E)) : Prop :=
  ∀ (fl : ℕ) (f : Flight S E), l[fl]? = some f →
    ∃ f' : Flight S E, l'[fl]? = some f' ∧ f'.host = f.host ∧ f'.leader = f.leader
      ∧ ∀ res, f.result = some res → f'.result = some res

theorem Extends.refl (l : List (Flight S E)) : Extends l l :=
  fun _ f hf => ⟨f, hf, rfl, rfl, fun _ h => h⟩

theorem Extends.append (l : List (Flight S E)) (f : Flight S E) : Extends l (l ++ [f]) := by
  intro fl f' hf
  refine ⟨f', ?_, rfl, rfl, fun _ h => h⟩
  rw [List.getElem?_append_left (List.getElem?_eq_some_iff.mp hf).1, hf]

section

variable {s s' : Cache S E} {n : ℕ} {pc : Pc S E}

/-- What a call relies on stays, if its own entry and its own answer do. -/
theorem Fits.mono (hfits : Fits s n pc) (hext : Extends s.flights s'.flights)
    (hin : ∀ h fl, pc.flying = some (h, fl) → s'.inflight h = s.inflight h)
    (hanswers : s'.answers n = s.answers n) : Fits s' n pc := by
  constructor
  · intro h fl hfly
    obtain ⟨hentry, f, hf, hlead, hhost⟩ := hfits.flying h fl hfly
    obtain ⟨f', hf', hhost', hlead', -⟩ := hext fl f hf
    exact ⟨by rw [hin h fl hfly, hentry], f', hf', hlead'.trans hlead, hhost'.trans hhost⟩
  · rw [hanswers]
    exact hfits.announces
  · rw [hanswers]
    exact hfits.unanswered
  · intro h fl hjoins
    obtain ⟨f, hf, hhost⟩ := hfits.joins h fl hjoins
    obtain ⟨f', hf', hhost', -, -⟩ := hext fl f hf
    exact ⟨f', hf', hhost'.trans hhost⟩
  · intro h fl stale r hr
    obtain ⟨f, res, hf, hres, heq⟩ := hfits.returned h fl stale r hr
    obtain ⟨f', hf', -, -, hkeep⟩ := hext fl f hf
    exact ⟨f', res, hf', hkeep res hres, heq⟩

/-- The other calls still fit after a step of call `n`. -/
theorem Tracked.fits_update (hinv : Tracked s) (hprocs : s'.procs = update s.procs n pc)
    (hext : Extends s.flights s'.flights)
    (hin : ∀ m, m ≠ n → ∀ h fl, (s.procs m).flying = some (h, fl) → s'.inflight h = s.inflight h)
    (hanswers : ∀ m, m ≠ n → s'.answers m = s.answers m) (hself : Fits s' n pc) :
    ∀ m, Fits s' m (s'.procs m) := by
  intro m
  rw [hprocs]
  by_cases hm : m = n
  · rw [hm, Function.update_self]
    exact hself
  · rw [Function.update_of_ne hm]
    exact (hinv.fits m).mono hext (hin m hm) (hanswers m hm)

/-- The entries of `inflight` belong to those who flew before, if nobody has stopped. -/
theorem Tracked.inflight_update (hinv : Tracked s) (hprocs : s'.procs = update s.procs n pc)
    (hext : Extends s.flights s'.flights) (hfly : pc.flying = (s.procs n).flying) (h : S) (fl : ℕ)
    (hh : s.inflight h = some fl) :
    ∃ f, s'.flights[fl]? = some f ∧ (s'.procs f.leader).flying = some (h, fl) := by
  obtain ⟨f, hf, hlead⟩ := hinv.inflight h fl hh
  obtain ⟨f', hf', -, hleader, -⟩ := hext fl f hf
  refine ⟨f', hf', ?_⟩
  rw [hprocs, hleader]
  by_cases hm : f.leader = n
  · rw [hm, Function.update_self, hfly, ← hm]
    exact hlead
  · rw [Function.update_of_ne hm]
    exact hlead

/-- The invariant is about the flights, the goroutines and the answers only. -/
theorem Tracked.congr (hinv : Tracked s) (hi : s'.inflight = s.inflight) (hf : s'.flights = s.flights)
    (hp : s'.procs = s.procs) (ha : s'.answers = s.answers) : Tracked s' := by
  constructor
  · intro m
    rw [hp]
    exact (hinv.fits m).mono (hf ▸ Extends.refl _) (fun _ _ _ => by rw [hi]) (by rw [ha])
  · rw [hi, hf, hp]
    exact hinv.inflight
  · rw [hf, ha]
    exact hinv.result
  · rw [ha]
    exact hinv.nonempty

/-- A step of a call that leaves the flights and the answers alone. -/
theorem Tracked.quiet (hinv : Tracked s) (hprocs : s'.procs = update s.procs n pc)
    (hi : s'.inflight = s.inflight) (hf : s'.flights = s.flights) (ha : s'.answers = s.answers)
    (hfly : pc.flying = (s.procs n).flying) (hself : Fits s n pc) : Tracked s' := by
  have hext : Extends s.flights s'.flights := hf ▸ Extends.refl _
  constructor
  · exact hinv.fits_update hprocs hext (fun _ _ _ _ _ => by rw [hi]) (fun _ _ => by rw [ha])
      (hself.mono hext (fun _ _ _ => by rw [hi]) (by rw [ha]))
  · rw [hi]
    exact hinv.inflight_update hprocs hext hfly
  · rw [hf, ha]
    exact hinv.result
  · rw [ha]
    exact hinv.nonempty

/-- A call that neither flies nor has joined a flight, before the resolver has answered it or
after. -/
theorem Fits.plain (hfly : pc.flying = none) (hannounces : pc.announces = none)
    (hjoins : pc.joins = none) (hanswers : pc.Unanswered → s.answers n = none) : Fits s n pc := by
  constructor
  · intro h fl hf
    rw [hfly] at hf
    cases hf
  · intro r hr
    rw [hannounces] at hr
    cases hr
  · exact hanswers
  · intro h fl hj
    rw [hjoins] at hj
    cases hj
  · rintro h fl stale r rfl
    cases hjoins

/-- A call that is in no flight goes on, and stays out of flights. -/
theorem Tracked.aside (hinv : Tracked s) (hprocs : s'.procs = update s.procs n pc)
    (hi : s'.inflight = s.inflight) (hf : s'.flights = s.flights) (ha : s'.answers = s.answers)
    (hbefore : (s.procs n).flying = none) (hfly : pc.flying = none)
    (hannounces : pc.announces = none) (hjoins : pc.joins = none)
    (hanswers : pc.Unanswered → (s.procs n).Unanswered) : Tracked s' :=
  hinv.quiet hprocs hi hf ha (hfly.trans hbefore.symm)
    (.plain hfly hannounces hjoins fun hpc => (hinv.fits n).unanswered (hanswers hpc))

/-- A call that goes on with its flight. -/
theorem Fits.onward {h : S} {fl : ℕ} (hfly : pc.flying = some (h, fl))
    (hentry : s.inflight h = some fl)
    (hflight : ∃ f, s.flights[fl]? = some f ∧ f.leader = n ∧ f.host = h)
    (hannounces : ∀ r, pc.announces = some r → s.answers n = some r)
    (hanswers : pc.Unanswered → s.answers n = none) : Fits s n pc := by
  have hjoins : pc.joins = none := by
    cases pc <;> first | rfl | cases hfly
  constructor
  · intro h' fl' hf
    rw [hfly, Option.some_inj, Prod.mk.injEq] at hf
    obtain ⟨rfl, rfl⟩ := hf
    exact ⟨hentry, hflight⟩
  · exact hannounces
  · exact hanswers
  · intro h' fl' hj
    rw [hjoins] at hj
    cases hj
  · rintro h' fl' stale r rfl
    cases hfly

/-- A call inserts a flight for a host that has none. -/
theorem Tracked.takeOff [DecidableEq S] (hinv : Tracked s) {role : Role S} {h : S}
    (hpc : s.procs n = .enter role h) (hnone : s.inflight h = none) : Tracked (s.enter n role h) := by
  have heq : s.enter n role h =
      { s with
        flights := s.flights ++ [⟨h, n, none⟩]
        inflight := update s.inflight h (some s.flights.length)
        procs := update s.procs n (.lead role h s.flights.length .call) } := by
    rw [Cache.enter, hnone]
  rw [heq]
  have hext := Extends.append s.flights ⟨h, n, none⟩
  have hnew : (s.flights ++ [(⟨h, n, none⟩ : Flight S E)])[s.flights.length]?
      = some ⟨h, n, none⟩ := by simp
  have hanswers : s.answers n = none := (hinv.fits n).unanswered (by rw [hpc]; trivial)
  constructor
  · refine hinv.fits_update rfl hext ?_ (fun _ _ => rfl) ?_
    · -- the others fly for other hosts
      intro m _ h' fl hm
      have hne : h' ≠ h := by
        rintro rfl
        rw [((hinv.fits m).flying h' fl hm).1] at hnone
        cases hnone
      exact Function.update_of_ne hne _ _
    · exact Fits.onward rfl (Function.update_self _ _ _) ⟨_, hnew, rfl, rfl⟩
        (fun _ h => nomatch h) (fun _ => hanswers)
  · intro h' fl hh
    dsimp only at hh ⊢
    by_cases hsame : h' = h
    · rw [hsame, Function.update_self, Option.some_inj] at hh
      rw [hsame, ← hh]
      exact ⟨_, hnew, by rw [Function.update_self]; rfl⟩
    · rw [Function.update_of_ne hsame] at hh
      obtain ⟨f, hf, hlead⟩ := hinv.inflight h' fl hh
      obtain ⟨f', hf', -, hleader, -⟩ := hext fl f hf
      have hne : f'.leader ≠ n := by
        intro hleader'
        rw [← hleader, hleader', hpc] at hlead
        cases hlead
      exact ⟨f', hf', by rw [Function.update_of_ne hne, hleader]; exact hlead⟩
  · intro fl f r hf hr
    dsimp only at hf
    rw [List.getElem?_append] at hf
    split_ifs at hf
    · exact hinv.result fl f r hf hr
    · -- the new flight has no result yet
      have hmem := List.mem_of_getElem? hf
      rw [List.mem_singleton.mp hmem] at hr
      cases hr
  · exact hinv.nonempty

/-- The resolver answers a call that waits for it. -/
theorem Tracked.answered (hinv : Tracked s) {r : Except E (List S)} (hwait : (s.procs n).Unanswered)
    (hr : ∀ addrs, r = .ok addrs → addrs ≠ []) (hfly : pc.flying = (s.procs n).flying)
    (hself : Fits { s with answers := update s.answers n (some r) } n pc) :
    Tracked { s with answers := update s.answers n (some r), procs := update s.procs n pc } := by
  have hnone := (hinv.fits n).unanswered hwait
  have hext := Extends.refl s.flights
  constructor
  · exact hinv.fits_update rfl hext (fun _ _ _ _ _ => rfl)
      (fun m hm => Function.update_of_ne hm _ _) (hself.mono hext (fun _ _ _ => rfl) rfl)
  · exact hinv.inflight_update rfl hext hfly
  · intro fl f r' hf hr'
    have hold := hinv.result fl f r' hf hr'
    -- what was answered before was answered to another call
    have hne : f.leader ≠ n := by
      intro hlead
      rw [hlead, hnone] at hold
      cases hold
    exact (Function.update_of_ne hne _ _).trans hold
  · intro m addrs hm
    dsimp only at hm
    by_cases hmn : m = n
    · rw [hmn, Function.update_self, Option.some_inj] at hm
      exact hr addrs hm
    · rw [Function.update_of_ne hmn] at hm
      exact hinv.nonempty m addrs hm

/-- The one who has inserted a flight announces its result. -/
theorem Tracked.announce (hinv : Tracked s) {fl k : ℕ} {role : Role S} {h : S} {r : Except E (List S)}
    (hpc : s.procs n = .lead role h fl (.announce k r)) :
    Tracked
      { s with
        flights := s.flights.modify fl fun f => { f with result := some r }
        procs := update s.procs n (.lead role h fl (.delete k r)) } := by
  obtain ⟨hentry, f₀, hf₀, hlead₀, hhost₀⟩ := (hinv.fits n).flying h fl (by rw [hpc]; rfl)
  have hr := (hinv.fits n).announces r (by rw [hpc]; rfl)
  have hf₀' : (s.flights.modify fl fun f => { f with result := some r })[fl]?
      = some { f₀ with result := some r } := by
    rw [List.getElem?_modify_eq, hf₀]
    rfl
  have hext : Extends s.flights (s.flights.modify fl fun f => { f with result := some r }) := by
    intro fl' f hf
    by_cases hsame : fl = fl'
    · subst hsame
      rw [hf₀, Option.some_inj] at hf
      subst hf
      refine ⟨_, hf₀', rfl, rfl, ?_⟩
      -- there is no other answer it could have had
      intro res hres
      rw [← hinv.result fl f₀ res hf₀ hres, hlead₀, hr]
    · refine ⟨f, ?_, rfl, rfl, fun _ h => h⟩
      rw [List.getElem?_modify_ne _ _ hsame, hf]
  constructor
  · refine hinv.fits_update rfl hext (fun _ _ _ _ _ => rfl) (fun _ _ => rfl) ?_
    exact Fits.onward rfl hentry ⟨_, hf₀', hlead₀, hhost₀⟩ (fun _ h => nomatch h)
      (fun h => nomatch h)
  · exact hinv.inflight_update rfl hext (by rw [hpc]; rfl)
  · intro fl' f' r' hf' hr'
    by_cases hsame : fl = fl'
    · subst hsame
      rw [hf₀', Option.some_inj] at hf'
      subst hf'
      cases hr'
      exact (congrArg s.answers hlead₀).trans hr
    · rw [List.getElem?_modify_ne _ _ hsame] at hf'
      exact hinv.result fl' f' r' hf' hr'
  · exact hinv.nonempty

/-- Two calls that fly for one host are one call. -/
theorem Tracked.flying_unique (hinv : Tracked s) {m n fl fl' : ℕ} {h : S}
    (hm : (s.procs m).flying = some (h, fl)) (hn : (s.procs n).flying = some (h, fl')) : m = n := by
  obtain ⟨hentry, f, hf, hlead, -⟩ := (hinv.fits m).flying h fl hm
  obtain ⟨hentry', f', hf', hlead', -⟩ := (hinv.fits n).flying h fl' hn
  rw [hentry, Option.some_inj] at hentry'
  rw [← hentry', hf, Option.some_inj] at hf'
  rw [← hlead, ← hlead', hf']

/-- The one who has inserted a flight deletes it. -/
theorem Tracked.land [DecidableEq S] (hinv : Tracked s) {fl : ℕ} {h : S}
    (hfly : (s.procs n).flying = some (h, fl)) (hflying : pc.flying = none) (hself : Fits s n pc) :
    Tracked { s with inflight := update s.inflight h none, procs := update s.procs n pc } := by
  have hext := Extends.refl s.flights
  constructor
  · refine hinv.fits_update rfl hext ?_ (fun _ _ => rfl) ?_
    · intro m hm h' fl' hm'
      have hne : h' ≠ h := by
        rintro rfl
        exact hm (hinv.flying_unique hm' hfly)
      exact Function.update_of_ne hne _ _
    · refine hself.mono hext ?_ rfl
      intro h' fl' hf
      rw [hflying] at hf
      cases hf
  · intro h' fl' hh
    dsimp only at hh ⊢
    by_cases hsame : h' = h
    · rw [hsame, Function.update_self] at hh
      cases hh
    · rw [Function.update_of_ne hsame] at hh
      obtain ⟨f, hf, hlead⟩ := hinv.inflight h' fl' hh
      have hne : f.leader ≠ n := by
        intro heq
        rw [heq, hfly, Option.some_inj, Prod.mk.injEq] at hlead
        exact hsame hlead.1.symm
      exact ⟨f, hf, by rw [Function.update_of_ne hne]; exact hlead⟩
  · exact hinv.result
  · exact hinv.nonempty

/-! ### All steps -/

variable [DecidableEq S]

theorem tracked_lookup (hinv : Tracked s) (cfg : Config S) {h : S} (hpc : s.procs n = .lookup h) :
    Tracked (s.lookup cfg n h) := by
  have hbefore : (s.procs n).flying = none := by rw [hpc]; rfl
  have hwaits : (s.procs n).Unanswered := by rw [hpc]; trivial
  -- whatever it finds, it has called nobody yet
  unfold Cache.lookup
  repeat' split
  all_goals exact hinv.aside rfl rfl rfl rfl hbefore rfl rfl rfl fun _ => hwaits

theorem tracked_enter (hinv : Tracked s) {role : Role S} {h : S} (hpc : s.procs n = .enter role h) :
    Tracked (s.enter n role h) := by
  cases hentry : s.inflight h with
  | none => exact hinv.takeOff hpc hentry
  | some fl =>
    rw [Cache.enter, hentry]
    cases role with
    | lookup stale =>
      obtain ⟨f, hf, hlead⟩ := hinv.inflight h fl hentry
      obtain ⟨-, f', hf', -, hhost⟩ := (hinv.fits f.leader).flying h fl hlead
      refine hinv.quiet rfl rfl rfl rfl (by rw [hpc]; rfl) ?_
      refine ⟨fun _ _ h => (nomatch h), fun _ h => (nomatch h), fun h => (nomatch h), ?_,
        fun _ _ _ _ h => (nomatch h)⟩
      rintro h' fl' hj
      cases hj
      exact ⟨f', hf', hhost⟩
    | background =>
      exact hinv.aside rfl rfl rfl rfl (by rw [hpc]; rfl) rfl rfl rfl fun h => nomatch h

theorem tracked_lead (hinv : Tracked s) (cfg : Config S) {role : Role S} {h : S} {fl : ℕ} {ph : Phase S E}
    (hpc : s.procs n = .lead role h fl ph) (hs : s.lead cfg n role h fl ph = some s') : Tracked s' := by
  cases ph with
  | call =>
    cases hs
    obtain ⟨hentry, hflight⟩ := (hinv.fits n).flying h fl (by rw [hpc]; rfl)
    have hnone : s.answers n = none := (hinv.fits n).unanswered (by rw [hpc]; trivial)
    exact hinv.quiet rfl rfl rfl rfl (by rw [hpc]; rfl)
      (.onward rfl hentry hflight (fun _ h => (nomatch h)) fun _ => hnone)
  | wait k => cases hs
  | announce k r =>
    cases hs
    exact hinv.announce hpc
  | delete k r =>
    cases hs
    have hland : (Cache.landed role h fl k r).flying = none
        ∧ (Cache.landed role h fl k r).announces = none
        ∧ (Cache.landed role h fl k r).joins = none
        ∧ ¬(Cache.landed role h fl k r).Unanswered := by
      unfold Cache.landed
      split <;> exact ⟨rfl, rfl, rfl, fun h => nomatch h⟩
    obtain ⟨hfly, hannounces, hjoins, hanswered⟩ := hland
    exact hinv.land (by rw [hpc]; rfl) hfly
      (.plain hfly hannounces hjoins fun h => absurd h hanswered)
  | store k r =>
    cases hs
    have hbefore : (s.procs n).flying = none := by rw [hpc]; rfl
    unfold Cache.store
    repeat' split
    all_goals exact hinv.aside rfl rfl rfl rfl hbefore rfl rfl rfl fun h => nomatch h

theorem tracked_act (hinv : Tracked s) (cfg : Config S) (hs : s.act cfg n = some s') : Tracked s' := by
  unfold Cache.act at hs
  cases hpc : s.procs n with
  | lookup h =>
    rw [hpc] at hs
    cases hs
    exact tracked_lookup hinv cfg hpc
  | enter role h =>
    rw [hpc] at hs
    cases hs
    exact tracked_enter hinv hpc
  | join h stale fl =>
    rw [hpc] at hs
    obtain ⟨r, hr, rfl⟩ := Option.map_eq_some_iff.mp hs
    obtain ⟨f, hf, hres⟩ := Option.bind_eq_some_iff.mp hr
    obtain ⟨f', hf', hhost⟩ := (hinv.fits n).joins h fl (by rw [hpc]; rfl)
    refine hinv.quiet rfl rfl rfl rfl (by rw [hpc]; rfl) ?_
    refine ⟨fun _ _ h => (nomatch h), fun _ h => (nomatch h), fun h => (nomatch h), ?_, ?_⟩
    · intro h' fl' hj
      cases hj
      exact ⟨f', hf', hhost⟩
    · intro h' fl' stale' r' hj
      cases hj
      exact ⟨f, r, hf, hres, rfl⟩
  | lead role h fl ph =>
    rw [hpc] at hs
    exact tracked_lead hinv cfg hpc hs
  | refresh h =>
    rw [hpc] at hs
    cases hs
    exact hinv.aside rfl rfl rfl rfl (by rw [hpc]; rfl) rfl rfl rfl
      fun _ => by rw [hpc]; trivial
  | refreshStore h k addrs =>
    rw [hpc] at hs
    cases hs
    exact hinv.aside rfl rfl rfl rfl (by rw [hpc]; rfl) rfl rfl rfl fun h => nomatch h
  | idle =>
    rw [hpc] at hs
    cases hs
  | refreshWait h k =>
    rw [hpc] at hs
    cases hs
  | returned h joined r =>
    rw [hpc] at hs
    cases hs
  | finished =>
    rw [hpc] at hs
    cases hs

omit [DecidableEq S] in
theorem tracked_answer (hinv : Tracked s) {r : Except E (List S)}
    (hr : ∀ addrs, r = .ok addrs → addrs ≠ []) (hs : s.answer n r = some s') : Tracked s' := by
  unfold Cache.answer at hs
  split at hs
  · rename_i role h fl k hpc
    cases hs
    obtain ⟨hentry, hflight⟩ := (hinv.fits n).flying h fl (by rw [hpc]; rfl)
    refine hinv.answered (by rw [hpc]; trivial) hr (by rw [hpc]; rfl) ?_
    refine .onward rfl hentry hflight ?_ fun h => nomatch h
    intro r' hr'
    cases hr'
    exact Function.update_self _ _ _
  · rename_i h k hpc
    split at hs
    · cases hs
      exact hinv.answered (by rw [hpc]; trivial) hr (by rw [hpc]; rfl)
        (.plain rfl rfl rfl fun h => nomatch h)
    · cases hs
      exact hinv.answered (by rw [hpc]; trivial) hr (by rw [hpc]; rfl)
        (.plain rfl rfl rfl fun h => nomatch h)
  · cases hs

/-- The resolver gives an address or an error. -/
def Answers (_ : Cache S E) : Label S E → Prop
  | .answer _ (.ok addrs) => addrs ≠ []
  | _ => True

instance (s : Cache S E) (l : Label S E) : Decidable (Answers s l) :=
  match l with
  | .answer _ (.ok addrs) => inferInstanceAs (Decidable (addrs ≠ []))
  | .answer _ (.error _) | .tick _ | .begin _ _ | .act _ | .invalidate _ | .clear | .janitor =>
    inferInstanceAs (Decidable True)

theorem tracked_of_step {cfg : Config S} {l : Label S E} (hinv : Tracked s) (hguard : Answers s l)
    (hs : step cfg s l = some s') : Tracked s' := by
  cases l with
  | tick d =>
    cases hs
    exact hinv.congr rfl rfl rfl rfl
  | begin n op =>
    rw [step] at hs
    split at hs
    · rename_i hpc
      cases hs
      cases op <;> exact hinv.aside rfl rfl rfl rfl (by rw [hpc]; rfl) rfl rfl rfl
        fun _ => by rw [hpc]; trivial
    · cases hs
  | act n => exact tracked_act hinv cfg hs
  | answer n r =>
    refine tracked_answer hinv ?_ hs
    rintro addrs rfl
    exact hguard
  | invalidate h =>
    cases hs
    exact hinv.congr rfl rfl rfl rfl
  | clear =>
    cases hs
    exact hinv.congr rfl rfl rfl rfl
  | janitor =>
    cases hs
    unfold Cache.sweep
    split <;> exact hinv.congr rfl rfl rfl rfl

end

/-- What a call with these stale addresses may have returned from this flight. -/
def FromFlight (s : Cache S E) (f : Flight S E) (stale : Option (List S))
    (r : Except (Err E) (List S)) : Prop :=
  (∃ a addrs, s.answers f.leader = some (.ok (a :: addrs)) ∧ r = .ok [a])
    ∨ ∃ e, s.answers f.leader = some (.error e)
      ∧ ((∃ addrs, stale = some addrs ∧ r = .ok addrs) ∨ stale = none ∧ r = .error (.lookup e))

/-- **Single flight.**  However the calls of `LookupHost`, `backgroundRefresh` and `Refresh` and
the other operations of a cache interleave: at most one resolver call of `LookupHost` and
`backgroundRefresh` for a host is outstanding; the entry of a host in `inflight` belongs to the
call that inserted it; and a `LookupHost` that has joined a flight has returned the first
address that the resolver gave the call which inserted the flight, or, if the resolver failed,
its own stale addresses or that error. -/
theorem single_flight [DecidableEq S] (cfg : Config S) (clock : ℤ) {s : Cache S E}
    (hs : Guarded.Reaches (step cfg) Answers (Cache.new clock) s) :
    (∀ h m n role role' fl fl' k k', s.procs m = .lead role h fl (.wait k) →
        s.procs n = .lead role' h fl' (.wait k') → m = n)
      ∧ (∀ h fl, s.inflight h = some fl →
          ∃ f : Flight S E, s.flights[fl]? = some f ∧ f.host = h
            ∧ ∃ role ph, s.procs f.leader = .lead role h fl ph)
      ∧ ∀ n h fl stale r, s.procs n = .returned h (some (fl, stale)) r →
          ∃ f : Flight S E, s.flights[fl]? = some f ∧ f.host = h ∧ FromFlight s f stale r := by
  have hinv : Tracked s := hs.invariant Tracked (tracked_new clock) fun _ _ _ => tracked_of_step
  refine ⟨?_, ?_, ?_⟩
  · intro h m n role role' fl fl' k k' hm hn
    have hm' : (s.procs m).flying = some (h, fl) := by
      rw [hm]
      rfl
    have hn' : (s.procs n).flying = some (h, fl') := by
      rw [hn]
      rfl
    exact hinv.flying_unique hm' hn'
  · intro h fl hh
    obtain ⟨f, hf, hlead⟩ := hinv.inflight h fl hh
    obtain ⟨-, f', hf', -, hhost⟩ := (hinv.fits f.leader).flying h fl hlead
    rw [hf, Option.some_inj] at hf'
    rw [← hf'] at hhost
    refine ⟨f, hf, hhost, ?_⟩
    cases hpc : s.procs f.leader with
    | lead role h' fl' ph =>
      rw [hpc] at hlead
      cases ph <;> cases hlead <;> exact ⟨_, _, rfl⟩
    | _ =>
      rw [hpc] at hlead
      cases hlead
  · intro n h fl stale r hpc
    obtain ⟨f, hf, hhost⟩ := (hinv.fits n).joins h fl (by rw [hpc]; rfl)
    obtain ⟨f', res, hf', hres, hr⟩ := (hinv.fits n).returned h fl stale r hpc
    rw [hf, Option.some_inj] at hf'
    subst hf'
    have hanswer := hinv.result fl f res hf hres
    refine ⟨f, hf, hhost, ?_⟩
    cases res with
    | error e =>
      refine .inr ⟨e, hanswer, ?_⟩
      cases stale with
      | none => exact .inr ⟨rfl, hr⟩
      | some addrs => exact .inl ⟨addrs, rfl, hr⟩
    | ok addrs =>
      -- this is where the resolver must have given an address
      cases addrs with
      | nil => exact absurd rfl (hinv.nonempty f.leader [] hanswer)
      | cons a addrs => exact .inl ⟨a, addrs, hanswer, hr⟩

/-- Call 1 joins the flight of call 0. -/
theorem single_flight_joined :
    ∃ s : Cache ℕ ℕ, Guarded.Reaches (step ⟨10, 10, fun _ => false⟩) Answers (Cache.new 0) s
      ∧ s.procs 1 = .returned 7 (some (0, none)) (.ok [4])
      ∧ ∃ f : Flight ℕ ℕ, s.flights[0]? = some f ∧ f.host = 7 ∧ FromFlight s f none (.ok [4]) := by
  obtain ⟨s, hs, hjoined⟩ := Guarded.exists_of_exec (step ⟨10, 10, fun _ => false⟩) Answers
    (Cache.new 0 : Cache ℕ ℕ)
    [.begin 0 (.lookupHost 7), .begin 1 (.lookupHost 7), .act 0, .act 1, .act 0, .act 1, .act 0,
      .answer 0 (.ok [4, 5]), .act 0, .act 1]
    (fun s => s.procs 1 = .returned 7 (some (0, none)) (.ok [4])) (by decide +kernel)
  exact ⟨s, hs, hjoined, (single_flight ⟨10, 10, fun _ => false⟩ 0 hs).2.2 1 7 0 none _ hjoined⟩

end BurstHttp.Dns
