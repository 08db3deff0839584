/-
When a connection has one user at a time.

The callers of a pool use its connections as users of shared resources do
(`Lease`): `getIdleConnection` claims, `createConnection` issues a new connection,
and `getAnyConnection` lends one without a claim.

* `HostPool.lease`, `HostPool.action` — the protocol's view of a pool and of a step;
* `step_refines` — a step of the pool is an action of the protocol, or none;
* `connection_exclusive` — in clear runs no two callers are at work with one
  connection;
* `connection_shared` — in other runs they are.
-/
import BurstHttp.Lib.Guarded
import BurstHttp.Lib.Lease
import BurstHttp.Pool.Machine

namespace BurstHttp.Pool

open Function (update)
open Lease (Ticket)

/-! ### The abstraction -/

/-- The connection a caller has, and how far it has got with it. -/
def CallerPc.has : CallerPc → Option (ℕ × Ticket)
  | .mark _ c _ => some (c, .claimed)
  | .storeIndex _ c _ | .removingLate _ c _ | .dialing _ c _ | .publishLoad _ c | .publish _ c _
  | .created c | .anyStore _ _ c | .anyRemoving _ _ (some c) _ | .got c | .ensure c _ | .swap c =>
    some (c, .ready)
  | .count c => some (c, .counting)
  | .inside c | .leave c => some (c, .inside)
  | _ => none

/-- The connections a scan may come to. -/
def Scan.ids (sc : Scan) : List ℕ := sc.best.toList.map Prod.fst ++ sc.conns

/-- The connections a caller knows of. -/
def CallerPc.ids : CallerPc → List ℕ
  | .idleIndex _ conns | .anyIndex _ conns => conns
  | .check _ sc _ | .removing _ sc _ | .anyHealthy _ sc | .anyStopped _ sc => sc.ids
  | .claim _ sc c _ | .mark sc c _ | .storeIndex sc c _ | .removingLate sc c _
  | .anyStore _ sc c => c :: sc.ids
  | .anyRemoving _ sc found _ => found.toList ++ sc.ids
  | .dialing _ c _ | .publishLoad _ c | .publish _ c _ | .created c | .got c | .ensure c _ | .swap c
  | .count c | .inside c | .leave c => [c]
  | _ => []

theorem CallerPc.mem_ids_of_has {pc : CallerPc} {c : ℕ} {t : Ticket} (h : pc.has = some (c, t)) :
    c ∈ pc.ids := by
  cases pc with
  | anyRemoving a sc found pc =>
    cases found with
    | none => cases h
    | some c' =>
      cases h
      simp [ids]
  | mark _ c' _ | storeIndex _ c' _ | removingLate _ c' _ | dialing _ c' _ | publishLoad _ c'
  | publish _ c' _ | created c' | anyStore _ _ c' | got c' | ensure c' _ | swap c' | count c'
  | inside c' | leave c' =>
    cases h
    simp [ids]
  | idle | idleLoad _ | idleIndex _ _ | check _ _ _ | removing _ _ _ | claim _ _ _ _ | createLoad _
  | createCas _ _ | createNew _ | undo _ | elapsed _ | anyLoad _ | anyIndex _ _ | anyHealthy _ _
  | anyStopped _ _ | sleep _ | gotNil | done => cases h

namespace HostPool

variable {N : ℕ}

/-- The protocol's view of a pool. -/
def lease (s : HostPool N) : Lease.State (Fin N) ℕ :=
  { count := fun c => (s.slots c).activeReqs
    mark := fun c => (s.slots c).poolClaimed
    has := fun n => (s.callers n).has }

/-- `ensureConnection` returns false in this step. -/
def ensureFails : EnsurePc → Bool
  | .unlock ok => !ok
  | _ => false

/-- The action of a step of caller `n`. -/
def callerAction (s : HostPool N) (n : Fin N) : Option (Lease.Action (Fin N) ℕ) :=
  match s.callers n with
  | .claim _ _ c _ => if (s.slots c).activeReqs = 0 then some (.claim n c) else none
  | .mark _ c _ => some (.setMark n c)
  | .createNew _ => some (.issue n s.numConns)
  | .dialing _ c pc => if ensureFails pc then some (.discard n c) else none
  | .publishLoad _ c => if s.connections = none then some (.discard n c) else none
  | .anyStopped _ sc =>
    sc.current.bind fun c => if (s.slots c).stopped then none else some (.lend n c)
  | .ensure c pc => if ensureFails pc then some (.discard n c) else none
  | .swap c => some (if (s.slots c).poolClaimed then .take n c else .miss n c)
  | .count c => some (.add n c)
  | .leave c => some (.leave n c)
  | _ => none

/-- The action of the protocol that a step performs. -/
def action (s : HostPool N) (l : Tid N × Choice) : Option (Lease.Action (Fin N) ℕ) :=
  match l.1 with
  | .caller n => s.callerAction n
  | _ => none

/-! ### Frames -/

/-- All connections that are known have been made. -/
structure Known (s : HostPool N) : Prop where
  listed : ∀ old, s.connections = some old → ∀ c ∈ old.conns, c < s.numConns
  seen : ∀ n, ∀ c ∈ (s.callers n).ids, c < s.numConns

/-- `t` differs from `s` in what users of connections do not see, and lists no other
connections. -/
structure Frame (s t : HostPool N) : Prop where
  callers : t.callers = s.callers
  numConns : t.numConns = s.numConns
  active : ∀ c, (t.slots c).activeReqs = (s.slots c).activeReqs
  claimed : ∀ c, (t.slots c).poolClaimed = (s.slots c).poolClaimed
  listed : ∀ new, t.connections = some new →
    ∃ old, s.connections = some old ∧ ∀ c ∈ new.conns, c ∈ old.conns

theorem Frame.refl (s : HostPool N) : Frame s s :=
  ⟨rfl, rfl, fun _ => rfl, fun _ => rfl, fun new h => ⟨new, h, fun _ => id⟩⟩

theorem Frame.lease {s t : HostPool N} (h : Frame s t) : t.lease = s.lease := by
  unfold HostPool.lease
  rw [h.callers]
  congr
  · funext c
    exact h.active c
  · funext c
    exact h.claimed c

theorem Frame.known {s t : HostPool N} (h : Frame s t) (hs : s.Known) : t.Known := by
  refine ⟨fun new hnew c hc => ?_, fun n c hc => ?_⟩
  · obtain ⟨old, hold, hsub⟩ := h.listed new hnew
    rw [h.numConns]
    exact hs.listed old hold c (hsub c hc)
  · rw [h.callers] at hc
    rw [h.numConns]
    exact hs.seen n c hc

theorem frame_setSlot (s : HostPool N) (c : ℕ) (x : Slot)
    (hactive : x.activeReqs = (s.slots c).activeReqs)
    (hclaimed : x.poolClaimed = (s.slots c).poolClaimed) : Frame s (s.setSlot c x) := by
  refine ⟨rfl, rfl, fun d => ?_, fun d => ?_, fun new h => ⟨new, h, fun _ => id⟩⟩
  · rcases eq_or_ne d c with rfl | hd
    · simpa only [setSlot, Function.update_self] using hactive
    · simp only [setSlot, Function.update_of_ne hd]
  · rcases eq_or_ne d c with rfl | hd
    · simpa only [setSlot, Function.update_self] using hclaimed
    · simp only [setSlot, Function.update_of_ne hd]

theorem stopConn_frame (s : HostPool N) (c : ℕ) (pc : StopPc) : Frame s (s.stopConn c pc).1 := by
  cases pc with
  | cas =>
    rw [stopConn]
    split
    · exact .refl s
    · exact frame_setSlot s c _ rfl rfl
  | closing =>
    rw [stopConn]
    split
    · exact .refl s
    · exact frame_setSlot s c _ rfl rfl
  | unhealthy => exact frame_setSlot s c _ rfl rfl

theorem remove_frame (s : HostPool N) (unhealthy : List ℕ) (pc : RemovePc) :
    Frame s (s.remove unhealthy pc).1 := by
  cases pc with
  | load =>
    rw [remove]
    split
    · exact .refl s
    · split <;> exact .refl s
  | cas old =>
    rw [remove]
    split
    case isTrue hold =>
      -- what is kept was listed
      refine ⟨rfl, rfl, fun _ => rfl, fun _ => rfl, fun new hnew => ⟨old, hold, fun c hc => ?_⟩⟩
      obtain rfl := Option.some_inj.mp hnew
      exact List.mem_of_mem_filter hc
    case isFalse => exact .refl s
  | stop removed c rest pc => exact stopConn_frame s c pc
  | active removed => exact { Frame.refl s with }
  | idle removed => exact { Frame.refl s with }

theorem ensureConnection_frame {s : HostPool N} {c : ℕ} {ch : Choice} {pc : EnsurePc}
    {x : HostPool N × (EnsurePc ⊕ Bool)} (h : s.ensureConnection c ch pc = some x) :
    Frame s x.1 := by
  cases pc with
  | test | retest | dial =>
    cases h
    exact .refl s
  | lock =>
    rw [ensureConnection] at h
    split at h
    · cases h
    · cases h
      exact frame_setSlot s c _ rfl rfl
  | unhealthy | setHealthy | clearClosing | unlock ok =>
    cases h
    exact frame_setSlot s c _ rfl rfl

theorem ensureConnection_fails_iff {s : HostPool N} {c : ℕ} {ch : Choice} {pc : EnsurePc}
    {x : HostPool N × (EnsurePc ⊕ Bool)} (h : s.ensureConnection c ch pc = some x) :
    x.2 = .inr false ↔ ensureFails pc = true := by
  cases pc with
  | test =>
    cases h
    dsimp only
    split <;> simp [ensureFails]
  | lock =>
    rw [ensureConnection] at h
    split at h <;> cases h
    simp [ensureFails]
  | unlock ok =>
    cases h
    simp [ensureFails]
  | retest | unhealthy | dial | setHealthy | clearClosing =>
    cases h
    simp [ensureFails]

/-! ### Scans -/

/-- A caller that is still looking for a connection, among those in `ids`. -/
def Looking (pc : CallerPc) (ids : List ℕ) : Prop := pc.has = none ∧ ∀ c ∈ pc.ids, c ∈ ids

theorem scanned_looking (a : ℕ) (sc : Scan) : Looking (scanned a sc) sc.ids := by
  unfold scanned
  split
  case h_1 c score idx hbest =>
    refine ⟨rfl, fun d hd => ?_⟩
    rcases List.mem_cons.mp hd with rfl | hd
    · simp [Scan.ids, hbest]
    · exact hd
  case h_2 hbest =>
    split_ifs
    · exact ⟨rfl, fun d hd => absurd hd List.not_mem_nil⟩
    · exact ⟨rfl, fun d hd => hd⟩
    · exact ⟨rfl, fun d hd => absurd hd List.not_mem_nil⟩

theorem resume_looking (a : ℕ) (sc : Scan) : Looking (resume a sc) sc.ids := by
  unfold resume
  generalize (if sc.second then sc.conns.length else sc.maxScan) = bound
  split_ifs
  · exact ⟨rfl, fun d hd => hd⟩
  · exact ⟨rfl, fun d hd => hd⟩
  · exact ⟨rfl, fun d hd => absurd hd List.not_mem_nil⟩
  · exact scanned_looking a sc

theorem anyResume_looking (a : ℕ) (sc : Scan) : Looking (anyResume a sc) sc.ids := by
  unfold anyResume
  split_ifs
  · exact ⟨rfl, fun d hd => hd⟩
  · exact ⟨rfl, fun d hd => hd⟩

theorem mem_conns_of_current {sc : Scan} {c : ℕ} (h : sc.current = some c) : c ∈ sc.conns :=
  List.mem_of_getElem? h

theorem rate_ids {sc : Scan} {c : ℕ} (hc : c ∈ sc.conns) (score : ℤ) (d : ℕ)
    (hd : d ∈ (sc.rate c score).ids) : d ∈ sc.ids := by
  have hin : c ∈ sc.ids := List.mem_append_right _ hc
  unfold Scan.ids Scan.rate at hd
  rcases List.mem_append.mp hd with hbest | hconns
  · -- the best so far is the one before, or the one looked at
    dsimp only at hbest
    split at hbest
    · obtain rfl : d = c := by simpa using hbest
      exact hin
    · case _ c' best idx hold =>
      have hold' : c' ∈ sc.ids := by simp [Scan.ids, hold]
      split_ifs at hbest
      · obtain rfl : d = c := by simpa using hbest
        exact hin
      · obtain rfl : d = c' := by simpa using hbest
        exact hold'
  · exact List.mem_append_right _ hconns

theorem check_looking (s : HostPool N) (a : ℕ) {sc : Scan} {c : ℕ} (hc : c ∈ sc.conns)
    (ch : Choice) (pc : CheckPc) : Looking (s.check a sc c ch pc) sc.ids := by
  have hrate (score : ℤ) : Looking (resume a (sc.rate c score)) sc.ids :=
    ⟨(resume_looking a _).1, fun d hd => rate_ids hc score d ((resume_looking a _).2 d hd)⟩
  cases pc with
  | healthy | stopped =>
    rw [check]
    split_ifs
    · first | exact resume_looking a (sc.reject c) | exact ⟨rfl, fun d hd => hd⟩
    · first | exact resume_looking a (sc.reject c) | exact ⟨rfl, fun d hd => hd⟩
  | healthyAgain | stoppedAgain =>
    rw [check]
    split_ifs
    · first | exact resume_looking a sc.skip | exact ⟨rfl, fun d hd => hd⟩
    · first | exact resume_looking a sc.skip | exact ⟨rfl, fun d hd => hd⟩
  | active =>
    rw [check]
    split_ifs
    · refine ⟨rfl, fun d hd => ?_⟩
      rcases List.mem_cons.mp hd with rfl | hd
      · exact List.mem_append_right _ hc
      · exact hd
    · exact ⟨rfl, fun d hd => hd⟩
    · exact resume_looking a sc.skip
  | score => cases ch <;> exact hrate _

/-! ### Steps -/

/-- The step from `s` to `s'` performs `a`. -/
structure Refines (s s' : HostPool N) (a : Option (Lease.Action (Fin N) ℕ)) : Prop where
  known : s'.Known
  lease : s'.lease = s.lease.after a
  enabled : ∀ b ∈ a, s.lease.Enabled b

theorem lease_setCaller (s : HostPool N) (n : Fin N) (pc : CallerPc) :
    (s.setCaller n pc).lease = { s.lease with has := update s.lease.has n pc.has } := by
  have hhas : (fun m => (update s.callers n pc m).has)
      = update (fun m => (s.callers m).has) n pc.has := by
    funext m
    rcases eq_or_ne m n with rfl | hm
    · simp only [Function.update_self]
    · simp only [Function.update_of_ne hm]
  unfold lease setCaller
  rw [← hhas]

theorem lease_setSlot (s : HostPool N) (c : ℕ) (x : Slot) :
    (s.setSlot c x).lease =
      { s.lease with
        count := update s.lease.count c x.activeReqs
        mark := update s.lease.mark c x.poolClaimed } := by
  unfold lease setSlot
  congr
  · funext d
    rcases eq_or_ne d c with rfl | hd
    · simp only [Function.update_self]
    · simp only [Function.update_of_ne hd]
  · funext d
    rcases eq_or_ne d c with rfl | hd
    · simp only [Function.update_self]
    · simp only [Function.update_of_ne hd]

theorem Known.setCaller {s : HostPool N} (h : s.Known) {n : Fin N} {pc : CallerPc}
    (hids : ∀ c ∈ pc.ids, c < s.numConns) : (s.setCaller n pc).Known := by
  refine ⟨h.listed, fun m c hc => ?_⟩
  rcases eq_or_ne m n with rfl | hm
  · simp only [HostPool.setCaller, Function.update_self] at hc
    exact hids c hc
  · simp only [HostPool.setCaller, Function.update_of_ne hm] at hc
    exact h.seen m c hc

theorem Known.setSlot {s : HostPool N} (h : s.Known) (c : ℕ) (x : Slot) : (s.setSlot c x).Known :=
  ⟨h.listed, h.seen⟩

theorem Known.lt_of_has {s : HostPool N} (h : s.Known) {n : Fin N} {c : ℕ} {t : Ticket}
    (hn : (s.callers n).has = some (c, t)) : c < s.numConns :=
  h.seen n c (CallerPc.mem_ids_of_has hn)

section Steps

variable {s t s' : HostPool N} {n : Fin N} {pc : CallerPc} {limit : ℤ}

/-- A step that no user of connections sees. -/
theorem Refines.quiet (h : s.Known) (hf : Frame s t) (hhas : pc.has = (s.callers n).has)
    (hids : ∀ c ∈ pc.ids, c < s.numConns) : Refines s (t.setCaller n pc) none := by
  refine ⟨(hf.known h).setCaller (hf.numConns ▸ hids), ?_, fun b hb => by cases hb⟩
  rw [lease_setCaller, hf.lease, hhas]
  show { s.lease with has := update s.lease.has n (s.lease.has n) } = s.lease
  rw [Function.update_eq_self]

/-- A caller that goes on looking. -/
theorem Refines.look (h : s.Known) (hf : Frame s t) (ids : List ℕ) (hlook : Looking pc ids)
    (hhas : (s.callers n).has = none) (hids : ∀ c ∈ ids, c < s.numConns) :
    Refines s (t.setCaller n pc) none :=
  .quiet h hf (hlook.1.trans hhas.symm) fun c hc => hids c (hlook.2 c hc)

/-- A caller that comes to a connection, or leaves it, by an action that changes no slot. -/
theorem Refines.pass (h : s.Known) (hf : Frame s t) {a : Lease.Action (Fin N) ℕ}
    (ha : s.lease.Enabled a)
    (hnext : s.lease.next a = { s.lease with has := update s.lease.has n pc.has })
    (hids : ∀ c ∈ pc.ids, c < s.numConns) : Refines s (t.setCaller n pc) (some a) := by
  refine ⟨(hf.known h).setCaller (hf.numConns ▸ hids), ?_, fun b hb => by cases hb; exact ha⟩
  rw [lease_setCaller, hf.lease]
  exact hnext.symm

/-- An action on the slot of a connection. -/
theorem Refines.slot (h : s.Known) {c : ℕ} {x : Slot} {a : Lease.Action (Fin N) ℕ}
    (ha : s.lease.Enabled a)
    (hnext : s.lease.next a =
      ⟨update s.lease.count c x.activeReqs, update s.lease.mark c x.poolClaimed,
        update s.lease.has n pc.has⟩)
    (hids : ∀ c ∈ pc.ids, c < s.numConns) :
    Refines s ((s.setSlot c x).setCaller n pc) (some a) := by
  refine ⟨(h.setSlot c x).setCaller hids, ?_, fun b hb => by cases hb; exact ha⟩
  rw [lease_setCaller, lease_setSlot]
  exact hnext.symm

theorem withConns_looking (s : HostPool N) {f : List ℕ → CallerPc} {empty : CallerPc}
    (hf : ∀ conns, Looking (f conns) conns) (hempty : Looking empty []) :
    ∃ ids, Looking (s.withConns f empty) ids ∧
      (ids = [] ∨ ∃ old, s.connections = some old ∧ ids = old.conns) := by
  unfold withConns
  split
  · exact ⟨[], hempty, .inl rfl⟩
  · case _ old hold =>
    split
    · exact ⟨[], hempty, .inl rfl⟩
    · exact ⟨old.conns, hf _, .inr ⟨old, hold, rfl⟩⟩

/-- Loading the list of connections, a caller learns of none that have not been made. -/
theorem Refines.load (h : s.Known) {f : List ℕ → CallerPc} {empty : CallerPc}
    (hf : ∀ conns, Looking (f conns) conns) (hempty : Looking empty [])
    (hhas : (s.callers n).has = none) :
    Refines s (s.setCaller n (s.withConns f empty)) none := by
  obtain ⟨ids, hlook, hids⟩ := s.withConns_looking hf hempty
  refine .look h (.refl s) ids hlook hhas fun c hc => ?_
  rcases hids with rfl | ⟨old, hold, rfl⟩
  · exact absurd hc List.not_mem_nil
  · exact h.listed old hold c hc

theorem looking_nil {pc : CallerPc} (hhas : pc.has = none) (hids : pc.ids = []) (ids : List ℕ) :
    Looking pc ids := by
  refine ⟨hhas, ?_⟩
  rw [hids]
  exact fun c hc => absurd hc List.not_mem_nil

/-- A step of `ensureConnection` on a connection that the caller has. -/
theorem Refines.ensure (h : s.Known) {c : ℕ} {ch : Choice} {epc : EnsurePc}
    {x : HostPool N × (EnsurePc ⊕ Bool)} (hx : s.ensureConnection c ch epc = some x)
    (hhas : (s.callers n).has = some (c, .ready)) {f : EnsurePc ⊕ Bool → CallerPc}
    (hgo : ∀ r, r ≠ .inr false → (f r).has = some (c, .ready) ∧ (f r).ids = [c])
    (hfail : (f (.inr false)).has = none ∧ (f (.inr false)).ids = []) :
    Refines s (x.1.setCaller n (f x.2))
      (if ensureFails epc then some (.discard n c) else none) := by
  have hframe := ensureConnection_frame hx
  by_cases hr : x.2 = .inr false
  · rw [if_pos ((ensureConnection_fails_iff hx).mp hr), hr]
    refine .pass h hframe hhas ?_ (by simp [hfail.2])
    rw [hfail.1]
    rfl
  · rw [if_neg (fun hf => hr ((ensureConnection_fails_iff hx).mpr hf))]
    obtain ⟨hsame, hids⟩ := hgo x.2 hr
    refine .quiet h hframe (hsame.trans hhas.symm) ?_
    rw [hids]
    intro d hd
    obtain rfl := List.mem_singleton.mp hd
    exact h.lt_of_has hhas

/-- A new connection has no user. -/
theorem Refines.issue (h : s.Known) {a : ℕ} (hhas : (s.callers n).has = none) :
    Refines s ({ s with
      numConns := s.numConns + 1
      slots := update s.slots s.numConns {} }.setCaller n (.dialing a s.numConns .test))
      (some (.issue n s.numConns)) := by
  have hknown : HostPool.Known { s with
      numConns := s.numConns + 1, slots := update s.slots s.numConns {} } :=
    ⟨fun old hold c hc => Nat.lt_succ_of_lt (h.listed old hold c hc),
      fun m c hc => Nat.lt_succ_of_lt (h.seen m c hc)⟩
  refine ⟨hknown.setCaller fun c hc => ?_, ?_, fun b hb => ?_⟩
  · exact List.mem_singleton.mp hc ▸ Nat.lt_succ_self _
  · have hlease : HostPool.lease { s with
        numConns := s.numConns + 1, slots := update s.slots s.numConns {} }
        = (s.setSlot s.numConns {}).lease := rfl
    rw [lease_setCaller, hlease, lease_setSlot]
    rfl
  · cases hb
    exact ⟨hhas, fun m t hm => absurd (h.lt_of_has hm) (Nat.lt_irrefl _)⟩

/-- `createConnection` lists the connection it has made. -/
theorem Refines.publish (h : s.Known) {c : ℕ} {old : Slice} (hold : s.connections = some old)
    (hhas : (s.callers n).has = some (c, .ready)) :
    Refines s ({ s with
      connections := some ⟨s.nextPtr, old.conns ++ [c]⟩
      nextPtr := s.nextPtr + 1 }.setCaller n (.created c)) none := by
  have hc : c < s.numConns := h.lt_of_has hhas
  have hknown : HostPool.Known { s with
      connections := some ⟨s.nextPtr, old.conns ++ [c]⟩, nextPtr := s.nextPtr + 1 } := by
    refine ⟨fun new hnew d hd => ?_, h.seen⟩
    obtain rfl := Option.some_inj.mp hnew
    rcases List.mem_append.mp hd with hd | hd
    · exact h.listed old hold d hd
    · exact List.mem_singleton.mp hd ▸ hc
  refine ⟨hknown.setCaller fun d hd => List.mem_singleton.mp hd ▸ hc, ?_, fun b hb => by cases hb⟩
  rw [lease_setCaller]
  show { s.lease with has := update s.lease.has n (some (c, .ready)) } = s.lease
  rw [← hhas]
  exact congrArg (fun f => { s.lease with has := f }) (Function.update_eq_self n s.lease.has)

/-- A step of a caller is the action it is said to be. -/
theorem caller_refines (h : s.Known) {ch : Choice} (hs : s.caller limit n ch = some s') :
    Refines s s' (s.callerAction n) := by
  have hseen := h.seen n
  unfold caller at hs
  unfold callerAction
  generalize hpc : s.callers n = pc at hs hseen ⊢
  have hhas : (s.callers n).has = pc.has := by rw [hpc]
  cases pc with
  | idle | undo a =>
    cases hs
    exact .look h { Frame.refl s with } [] (looking_nil rfl rfl []) hhas (by simp)
  | idleLoad a | anyLoad a =>
    cases hs
    exact .load h (fun _ => ⟨rfl, fun _ => id⟩) (looking_nil rfl rfl []) hhas
  | idleIndex a conns =>
    cases hs
    exact .look h (.refl s) conns (resume_looking a _) hhas hseen
  | check a sc pc =>
    obtain ⟨c, hc, rfl⟩ := Option.map_eq_some_iff.mp hs
    exact .look h (.refl s) _ (check_looking s a (mem_conns_of_current hc) ch pc) hhas hseen
  | removing a sc pc =>
    cases hs
    refine .look h (remove_frame s sc.unhealthy pc) sc.ids ?_ hhas hseen
    cases (s.remove sc.unhealthy pc).2 with
    | some pc => exact ⟨rfl, fun _ => id⟩
    | none =>
      dsimp only [Option.elim]
      split
      · exact looking_nil rfl rfl _
      · exact scanned_looking a sc
  | claim a sc c idx =>
    dsimp only at hs ⊢
    split at hs
    case isTrue hzero =>
      cases hs
      rw [if_pos hzero]
      refine .slot h ⟨hhas, hzero⟩ ?_ hseen
      show Lease.State.mk _ _ _ = _
      rw [show (s.slots c).poolClaimed = s.lease.mark c from rfl, Function.update_eq_self]
      rfl
    case isFalse hne =>
      cases hs
      rw [if_neg hne]
      refine .look h (.refl s) sc.ids ?_ hhas fun d hd => hseen d (List.mem_cons_of_mem c hd)
      split
      · exact resume_looking a sc.skip
      · exact looking_nil rfl rfl _
  | mark sc c idx =>
    cases hs
    refine .slot h hhas ?_ hseen
    show Lease.State.mk _ _ _ = _
    rw [show (s.slots c).activeReqs = s.lease.count c from rfl, Function.update_eq_self]
    rfl
  | storeIndex sc c idx =>
    cases hs
    refine .quiet h { Frame.refl s with } ?_ fun d hd => hseen d ?_
    · rw [hhas]
      split <;> rfl
    · split at hd
      · exact hd
      · exact List.mem_singleton.mp hd ▸ List.mem_cons_self
  | removingLate sc c pc =>
    cases hs
    refine .quiet h (remove_frame s sc.unhealthy pc) ?_ fun d hd => hseen d ?_
    · rw [hhas]
      cases (s.remove sc.unhealthy pc).2 <;> rfl
    · cases hrem : (s.remove sc.unhealthy pc).2 with
      | some pc =>
        rw [hrem] at hd
        exact hd
      | none =>
        rw [hrem] at hd
        exact List.mem_singleton.mp hd ▸ List.mem_cons_self
  | createLoad a | elapsed a | sleep a =>
    cases hs
    refine .look h (.refl s) [] ?_ hhas (by simp)
    split <;> exact looking_nil rfl rfl []
  | createCas a cur =>
    dsimp only at hs
    split at hs <;> cases hs
    · exact .look h { Frame.refl s with } [] (looking_nil rfl rfl []) hhas (by simp)
    · exact .look h (.refl s) [] (looking_nil rfl rfl []) hhas (by simp)
  | createNew a =>
    cases hs
    exact .issue h hhas
  | dialing a c pc =>
    obtain ⟨x, hx, rfl⟩ := Option.map_eq_some_iff.mp hs
    refine .ensure h hx hhas (f := afterDial a c) ?_ ⟨rfl, rfl⟩
    rintro (pc | _ | _) hr
    · exact ⟨rfl, rfl⟩
    · exact absurd rfl hr
    · exact ⟨rfl, rfl⟩
  | publishLoad a c =>
    cases hs
    cases hconn : s.connections with
    | none => exact .pass h (.refl s) (a := .discard n c) hhas rfl (by simp [CallerPc.ids])
    | some old =>
      simp only [reduceCtorEq, if_false]
      exact .quiet h (.refl s) hhas.symm hseen
  | publish a c old =>
    dsimp only at hs
    split at hs
    case isTrue hold =>
      cases hs
      exact .publish h hold hhas
    case isFalse =>
      cases hs
      exact .quiet h (.refl s) hhas.symm hseen
  | created c =>
    cases hs
    exact .quiet h { Frame.refl s with } hhas.symm hseen
  | anyIndex a conns =>
    cases hs
    exact .look h (.refl s) conns ⟨rfl, fun _ => id⟩ hhas hseen
  | anyHealthy a sc =>
    obtain ⟨c, hc, rfl⟩ := Option.map_eq_some_iff.mp hs
    refine .look h (.refl s) sc.ids ?_ hhas hseen
    split
    · exact ⟨rfl, fun _ => id⟩
    · exact anyResume_looking a (sc.reject c)
  | anyStopped a sc =>
    obtain ⟨c, hc, rfl⟩ := Option.map_eq_some_iff.mp hs
    dsimp only
    rw [hc, Option.bind_some]
    split
    · exact .look h (.refl s) _ (anyResume_looking a (sc.reject c)) hhas hseen
    · refine .pass h (.refl s) hhas rfl fun d hd => ?_
      rcases List.mem_cons.mp hd with rfl | hd
      · exact hseen d (List.mem_append_right _ (mem_conns_of_current hc))
      · exact hseen d hd
  | anyStore a sc c =>
    cases hs
    refine .quiet h { Frame.refl s with } ?_ fun d hd => hseen d ?_
    · rw [hhas]
      split <;> rfl
    · split at hd
      · exact List.mem_singleton.mp hd ▸ List.mem_cons_self
      · exact hd
  | anyRemoving a sc found pc =>
    cases hs
    refine .quiet h (remove_frame s sc.unhealthy pc) ?_ fun d hd => hseen d ?_
    · rw [hhas]
      cases (s.remove sc.unhealthy pc).2 <;> cases found <;> rfl
    · cases hrem : (s.remove sc.unhealthy pc).2 with
      | some pc =>
        rw [hrem] at hd
        exact hd
      | none =>
        rw [hrem] at hd
        cases found with
        | none => exact absurd hd List.not_mem_nil
        | some c => exact List.mem_singleton.mp hd ▸ List.mem_cons_self
  | gotNil | done => cases hs
  | got c =>
    cases hs
    exact .quiet h (.refl s) hhas.symm hseen
  | ensure c pc =>
    obtain ⟨x, hx, rfl⟩ := Option.map_eq_some_iff.mp hs
    refine .ensure h hx hhas (f := afterEnsure c) ?_ ⟨rfl, rfl⟩
    rintro (pc | _ | _) hr
    · exact ⟨rfl, rfl⟩
    · exact absurd rfl hr
    · exact ⟨rfl, rfl⟩
  | swap c =>
    dsimp only at hs ⊢
    split at hs
    case isTrue hmark =>
      cases hs
      rw [if_pos hmark]
      refine .slot h ⟨hhas, hmark⟩ ?_ hseen
      show Lease.State.mk _ _ _ = _
      rw [show (s.slots c).activeReqs = s.lease.count c from rfl, Function.update_eq_self]
      rfl
    case isFalse hmark =>
      cases hs
      rw [if_neg hmark]
      exact .pass h (.refl s) ⟨hhas, Bool.eq_false_iff.mpr hmark⟩ rfl hseen
  | count c =>
    cases hs
    refine .slot h hhas ?_ hseen
    show Lease.State.mk _ _ _ = _
    rw [show (s.slots c).poolClaimed = s.lease.mark c from rfl, Function.update_eq_self]
    rfl
  | leave c =>
    cases hs
    refine .slot h hhas ?_ (fun d hd => absurd hd List.not_mem_nil)
    show Lease.State.mk _ _ _ = _
    rw [show (s.slots c).poolClaimed = s.lease.mark c from rfl, Function.update_eq_self]
    rfl
  | inside c =>
    dsimp only at hs
    split at hs
    · case _ b =>
      cases hs
      have hframe := frame_setSlot s c { s.slots c with healthy := b } rfl rfl
      exact ⟨hframe.known h, hframe.lease, fun b hb => by cases hb⟩
    · cases hs
      exact .quiet h (.refl s) hhas.symm hseen

theorem evict_frame {ch : Choice} (hs : s.evict ch = some s') : Frame s s' := by
  unfold evict at hs
  split at hs <;> cases hs
  case h_6 idle pc _ => exact { remove_frame s idle pc with }
  all_goals exact { Frame.refl s with }

theorem stop_frame (hs : s.stop = some s') : Frame s s' := by
  unfold stop at hs
  split at hs <;> cases hs
  · exact ⟨rfl, rfl, fun _ => rfl, fun _ => rfl, fun _ h => by cases h⟩
  · case _ c rest pc _ => exact { stopConn_frame s c pc with }

/-- The pool follows the protocol, one action a step at most. -/
theorem step_refines (h : s.Known) {l : Tid N × Choice} (hs : s.step limit l = some s') :
    Refines s s' (s.action l) := by
  obtain ⟨t, ch⟩ := l
  cases t with
  | caller n => exact caller_refines h hs
  | evictor =>
    have hframe := evict_frame hs
    exact ⟨hframe.known h, hframe.lease, fun b hb => by cases hb⟩
  | stopper =>
    have hframe := stop_frame hs
    exact ⟨hframe.known h, hframe.lease, fun b hb => by cases hb⟩

end Steps

/-! ### Runs -/

theorem new_known (N : ℕ) : (new N).Known := by
  refine ⟨fun old hold c hc => ?_, fun n c hc => absurd hc List.not_mem_nil⟩
  obtain rfl := Option.some_inj.mp hold
  exact absurd hc List.not_mem_nil

theorem new_exclusive (N : ℕ) : (new N).lease.Exclusive :=
  ⟨fun _ _ _ _ _ h => (by cases h), fun _ _ _ h => (by cases h), fun _ _ _ h => (by cases h),
    fun _ _ => rfl⟩

/-- The step performs an action that is clear, if it performs any: a claim succeeds only on a
connection to which nobody else is on the way, from `createConnection` or `getAnyConnection` to
`activeReqs.Add(1)`, and `getAnyConnection` picks only such connections, with `activeReqs` 0. -/
def Clear (s : HostPool N) (l : Tid N × Choice) : Prop := ∀ a ∈ s.action l, s.lease.Clear a

instance (w : Lease.State (Fin N) ℕ) (a : Lease.Action (Fin N) ℕ) : Decidable (w.Clear a) :=
  match a with
  | .claim _ _ => inferInstanceAs (Decidable (∀ _ : Fin N, _ = true))
  | .lend _ _ => inferInstanceAs (Decidable (_ ∧ ∀ _ : Fin N, _ = true))
  | .issue _ _ | .setMark _ _ | .take _ _ | .miss _ _ | .add _ _ | .leave _ _ | .discard _ _ =>
    .isTrue trivial

instance (s : HostPool N) (l : Tid N × Choice) : Decidable (s.Clear l) :=
  inferInstanceAs (Decidable (∀ a ∈ s.action l, s.lease.Clear a))

/-- In clear runs, every connection has one user at most. -/
theorem reaches_exclusive {limit : ℤ} {s : HostPool N}
    (h : Guarded.Reaches (step limit) Clear (new N) s) : s.Known ∧ s.lease.Exclusive := by
  refine h.invariant (fun s => s.Known ∧ s.lease.Exclusive) ⟨new_known N, new_exclusive N⟩ ?_
  rintro s l s' ⟨hknown, hexcl⟩ hclear hs
  obtain ⟨hknown', hlease, henabled⟩ := step_refines hknown hs
  refine ⟨hknown', ?_⟩
  rw [hlease]
  cases ha : s.action l with
  | none => exact hexcl
  | some a => exact hexcl.next (henabled a ha) (hclear a ha)

end HostPool

/-- The connection a caller uses: `GetConnection` has returned it, and `Do` has not come to
its end. -/
def CallerPc.uses : CallerPc → Option ℕ
  | .got c | .ensure c _ | .swap c | .count c | .inside c | .leave c => some c
  | _ => none

theorem CallerPc.has_of_uses {pc : CallerPc} {c : ℕ} (h : pc.uses = some c) :
    ∃ t, pc.has = some (c, t) := by
  cases pc <;> simp only [uses, reduceCtorEq, Option.some_inj] at h
  all_goals
    subst h
    exact ⟨_, rfl⟩

/-- In clear runs, no two callers use one connection at the same time. -/
theorem connection_exclusive (limit : ℤ) (N : ℕ) (s : HostPool N)
    (h : Guarded.Reaches (HostPool.step limit) HostPool.Clear (HostPool.new N) s) (n m : Fin N)
    (c : ℕ) (hn : (s.callers n).uses = some c) (hm : (s.callers m).uses = some c) : n = m := by
  obtain ⟨t, ht⟩ := CallerPc.has_of_uses hn
  obtain ⟨u, hu⟩ := CallerPc.has_of_uses hm
  exact (HostPool.reaches_exclusive h).2.sole n m c t u ht hu

/-- `m` steps of a caller in which nothing is left to choose. -/
def steps {N : ℕ} (n : Fin N) (m : ℕ) : List (Tid N × Choice) :=
  List.replicate m (.caller n, .plain)

/-- Caller 0 makes connection 0, uses it and is done; then caller 1 claims it. -/
theorem connection_exclusive_reused :
    ∃ s, Guarded.Reaches (HostPool.step 512) HostPool.Clear (HostPool.new 2) s ∧
      (s.callers 1).uses = some 0 ∧ ∀ n, (s.callers n).uses = some 0 → n = 1 := by
  obtain ⟨s, hs, huse⟩ := Guarded.exists_of_exec (HostPool.step 512) HostPool.Clear
    (HostPool.new 2) (steps 0 22 ++ steps 1 15) (fun s => (s.callers 1).uses = some 0)
    (by decide +kernel)
  exact ⟨s, hs, huse, fun n hn => connection_exclusive 512 2 s hs n 1 0 hn huse⟩

/-- Caller 0 makes connection 0, which `getIdleConnection` then claims for caller 1 before
caller 0 comes to count itself.  Caller 0 takes the mark of that claim, caller 1 adds itself to
the count, and both are at work with the connection. -/
theorem connection_shared :
    ∃ s, Guarded.Reaches (HostPool.step 512) (fun _ _ => True) (HostPool.new 2) s ∧
      (s.callers 0).uses = some 0 ∧ (s.callers 1).uses = some 0 ∧ (s.slots 0).activeReqs = 2 :=
  Guarded.exists_of_exec (HostPool.step 512) (fun _ _ => True) (HostPool.new 2)
    (steps 0 16 ++ steps 1 12 ++ steps 0 3 ++ steps 1 4)
    (fun s => (s.callers 0).uses = some 0 ∧ (s.callers 1).uses = some 0 ∧
      (s.slots 0).activeReqs = 2) (by decide +kernel)

end BurstHttp.Pool
