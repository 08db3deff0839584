/-
Who owns a response object while the scheduler is on.

An object goes from `DoWithContext` to a worker with the work, from there to the
caller of a connection, and back with the reply; a caller that is cancelled leaves
it to the reader.  `Scheduler.Do` breaks this chain when it returns because the
context is done, or the scheduler is stopped, before the worker has replied.

* `Sched.Awaited` — `Scheduler.Do` waits for the worker, and the steps of the
  connections are undisturbed (`Sys.Undisturbed`);
* `Sched.Owned` — the invariant, `Owned.step` — attended steps keep it;
* `responses_owned` — in attended runs an object is put back at most once, and not
  while a worker or a reader can write to it;
* `response_put_twice` — in other runs it is put back twice.
-/
import BurstHttp.Pipeline.Custody
import BurstHttp.Scheduler.Machine

namespace BurstHttp

open Function (update)

/-! ### One step of a connection -/

namespace Pipeline

/-- The caller has not begun, or has returned and left nothing behind. -/
def CallerPc.closed : CallerPc → Bool
  | .idle | .returned .ok | .returned .error => true
  | _ => false

variable {cfg : Config} {s s' : Sys}

open Scheduler (releasedBy)

/-- Actions add to the log, and only a delivery puts an object back. -/
theorem Wire.log_next (w : Wire) (a : Action) :
    ∃ new, (w.next a).log = new ++ w.log ∧
      (new.filterMap releasedBy = [] ∨
        ∃ k p o send ph, a = .deliver k p o send true ph ∧ new.filterMap releasedBy = [p]) := by
  cases a with
  | reset k p => exact ⟨[.touched p, .began (w.readers k).stream], rfl, .inl rfl⟩
  | fetch k p m => exact ⟨[.touched p], rfl, .inl rfl⟩
  | finish k p ret cut closes =>
    refine ⟨parseEvents p (w.readers k).stream ret cut, rfl, .inl ?_⟩
    unfold parseEvents
    split_ifs <;> rfl
  | deliver k p o send release ph =>
    refine ⟨_, rfl, ?_⟩
    cases release with
    | false => exact .inl (by cases send <;> rfl)
    | true => exact .inr ⟨k, p, o, send, ph, rfl, by cases send <;> rfl⟩
  | settle n st =>
    refine ⟨if st = .put then [.put n] else [], ?_, .inl ?_⟩
    · simp only [Wire.next]
      split <;> rfl
    · split <;> rfl
  | dial | close _ | write _ _ _ | tear _ | register _ | drop | peek _ _ | pass _ _ | skip _ _
  | removeSkipped _ _ | remove _ _ _ | fail _ _ _ _ | retire _ => exact ⟨[], rfl, .inl rfl⟩

/-- A step adds to the log, and puts an object back only if the reader is through with a
request whose caller has returned `errRespTransferred`. -/
theorem step_released (h : s.Sound) {l : Tid × Choice} (hs : s.step cfg l = some s') :
    (∀ e ∈ s.log, e ∈ s'.log) ∧
      (Scheduler.Sched.released s.log s'.log = [] ∨
        ∃ k p, l.1 = .reader k ∧ Scheduler.Sched.released s.log s'.log = [p] ∧
          (s.wire.readers k).phase.busy = some p ∧ s.callers p = .returned .transferred ∧
          .released p ∈ s'.log) := by
  obtain ⟨hwire, henabled⟩ := step_refines h hs
  have hnew {new : List Event} (hlog : s'.log = new ++ s.log) :
      Scheduler.Sched.released s.log s'.log = new.filterMap releasedBy := by
    rw [Scheduler.Sched.released, hlog, List.length_append, Nat.add_sub_cancel, List.take_left]
  cases ha : s.action l with
  | none =>
    have hlog : s'.log = s.log := by
      rw [ha] at hwire
      exact congrArg Wire.log hwire
    exact ⟨fun e he => hlog ▸ he, .inl (hnew (hlog.trans (List.nil_append _).symm))⟩
  | some a =>
    obtain ⟨new, hnext, hrel⟩ := s.wire.log_next a
    have hlog : s'.log = new ++ s.log := by
      rw [ha] at hwire
      exact (congrArg Wire.log hwire).trans hnext
    refine ⟨fun e he => hlog ▸ List.mem_append_right _ he, ?_⟩
    rw [hnew hlog]
    refine hrel.imp id ?_
    rintro ⟨k, p, o, send, ph, rfl, hone⟩
    obtain ⟨hl, c, hpc, hc⟩ := Sys.action_deliver ha
    obtain ⟨hphase, -⟩ := henabled _ ha
    have hseen : c = true := by
      cases c
      · cases hc
      · rfl
    refine ⟨k, p, hl, hone, by rw [hphase]; rfl, ?_, ?_⟩
    · exact h.cancelled p (h.saw k p (by rw [hpc, hseen]; rfl))
    · -- the one that is put back is among the new events
      have hmem : p ∈ new.filterMap releasedBy := hone ▸ List.mem_singleton_self p
      obtain ⟨e, he, hep⟩ := List.mem_filterMap.mp hmem
      rw [hlog]
      refine List.mem_append_left _ ?_
      cases e <;> simp only [releasedBy, reduceCtorEq, Option.some_inj] at hep
      exact hep ▸ he

end Pipeline

/-! ### Owners -/

namespace Scheduler

open Pipeline (Sys CallerPc)

/-- The attempt a client is in. -/
def ClientPc.attempt : ClientPc → Option ℕ
  | .idle => none
  | .enqueue n | .wait n | .returned n _ => some n

/-- The work is queued or in the hands of a worker, or its reply has not been read. -/
def WorkPc.live : WorkPc → Bool
  | .none | .taken => false
  | _ => true

/-- No worker will call a connection for it, any more. -/
def WorkPc.done : WorkPc → Bool
  | .reply _ | .sent _ | .taken => true
  | _ => false

/-- The connection that is called. -/
def WorkPc.called : WorkPc → Option ℕ
  | .calling c => some c
  | _ => Option.none

/-- `Scheduler.Do` waits for the worker's reply. -/
def ClientPc.waits : ClientPc → Bool
  | .wait _ => true
  | _ => false

def WorkPc.replied : WorkPc → Option Reply
  | .reply x | .sent x => some x
  | _ => Option.none

namespace Sched

/-- No connection has the object of attempt `n`, or will take it. -/
def Closed (s : Sched) (n : ℕ) : Prop := ∀ c, ((s.conns c).callers n).closed = true

/-- What a reply says about the object of attempt `n`. -/
def Replied (s : Sched) (n : ℕ) (reply : Reply) : Prop :=
  reply = .transferred ∨ s.Closed n ∧ ∀ o, reply = .ok o → o = n

/-- `DoWithContext` is through with an object that no connection has. -/
def Given (s : Sched) (o : ℕ) : Prop :=
  o < s.numObjs ∧ (∀ r, (s.clients r).attempt ≠ some o) ∧ (s.works o).live = false ∧ s.Closed o

/-- A reader of `c` is through with an object that the caller has left to it. -/
def LeftBehind (s : Sched) (c o : ℕ) : Prop :=
  .released o ∈ (s.conns c).log ∧ (s.conns c).callers o = .returned .transferred

structure Owned (s : Sched) : Prop where
  care : ∀ c, (s.conns c).Sound ∧ (s.conns c).wire.Kept
  current : ∀ r n, (s.clients r).attempt = some n →
    n < s.numObjs ∧ s.req n = r ∧ s.reqResp r = n
  enqueuing : ∀ r n, s.clients r = .enqueue n → s.works n = .none
  nodup : s.queue.Nodup
  queued : ∀ n ∈ s.queue, s.works n = .queued
  live : ∀ n, (s.works n).live = true → s.clients (s.req n) = .wait n
  unmade : ∀ n, s.numObjs ≤ n → s.works n = .none
  place : ∀ n c, (s.conns c).callers n ≠ .idle → s.works n = .calling c ∨
    (s.works n).done = true ∧ ∃ ret, (s.conns c).callers n = .returned ret
  one : ∀ n c c', (s.conns c).callers n ≠ .idle → (s.conns c').callers n ≠ .idle → c = c'
  filling : ∀ n o, s.works n = .filling o → o = n
  attached : ∀ n c, ((s.conns c).callers n).attached = true → s.objAt n = n
  replied : ∀ n reply, (s.works n).replied = some reply → s.Replied n reply
  returned : ∀ r n reply, s.clients r = .returned n reply →
    (s.works n).live = false ∧ s.Replied n reply
  puts_nodup : s.puts.Nodup
  put : ∀ o ∈ s.puts, s.Given o ∨ ∃ c, s.LeftBehind c o

namespace Owned

variable {s : Sched}

/-- A worker's request has the object of the attempt. -/
theorem reqResp_of_live (h : s.Owned) {n : ℕ} (hn : (s.works n).live = true) :
    n < s.numObjs ∧ s.reqResp (s.req n) = n := by
  have hwait := h.live n hn
  obtain ⟨hlt, -, hresp⟩ := h.current (s.req n) n (by rw [hwait]; rfl)
  exact ⟨hlt, hresp⟩

/-- Before a connection is called, none has heard of the attempt. -/
theorem idle_of_work (h : s.Owned) {n : ℕ} (hdone : (s.works n).done = false)
    (hcall : ∀ c, s.works n ≠ .calling c) (c : ℕ) : (s.conns c).callers n = .idle := by
  by_contra hne
  rcases h.place n c hne with hc | ⟨hd, -⟩
  · exact hcall c hc
  · exact absurd (hdone.symm.trans hd) (by simp)

theorem closed_of_work (h : s.Owned) {n : ℕ} (hdone : (s.works n).done = false)
    (hcall : ∀ c, s.works n ≠ .calling c) : s.Closed n := by
  intro c
  rw [h.idle_of_work hdone hcall c]
  rfl

/-! ### Clients and workers -/

/-- A client and the work of its attempt go on together. -/
theorem advance (h : s.Owned) {r n : ℕ} (w : WorkPc) (pc : ClientPc)
    (hr : (s.clients r).attempt = some n) (hpc : pc.attempt = some n)
    (hlive : w.live = true → pc = .wait n) (hqueue : n ∉ s.queue)
    (henq : pc = .enqueue n → w = .none)
    (hplace : ∀ c, (s.conns c).callers n ≠ .idle → w = .calling c ∨
      w.done = true ∧ ∃ ret, (s.conns c).callers n = .returned ret)
    (hfill : ∀ o, w = .filling o → o = n)
    (hreply : ∀ reply, w.replied = some reply → s.Replied n reply)
    (hret : ∀ reply, pc = .returned n reply → w.live = false ∧ s.Replied n reply) :
    ((s.setWork n w).setClient r pc).Owned := by
  obtain ⟨hlt, hreq, hresp⟩ := h.current r n hr
  -- the other works, and the other clients, are where they were
  have hworks (P : ℕ → WorkPc → Prop) (hn : P n w) (hm : ∀ m, m ≠ n → P m (s.works m)) (m : ℕ) :
      P m (((s.setWork n w).setClient r pc).works m) := by
    rcases eq_or_ne m n with rfl | hmn
    · simpa only [setWork, setClient, Function.update_self] using hn
    · simpa only [setWork, setClient, Function.update_of_ne hmn] using hm m hmn
  have hclients (P : ℕ → ClientPc → Prop) (hr : P r pc) (hq : ∀ q, q ≠ r → P q (s.clients q))
      (q : ℕ) : P q (((s.setWork n w).setClient r pc).clients q) := by
    rcases eq_or_ne q r with rfl | hqr
    · simpa only [setWork, setClient, Function.update_self] using hr
    · simpa only [setWork, setClient, Function.update_of_ne hqr] using hq q hqr
  have hother {q m : ℕ} (hqr : q ≠ r) (hq : (s.clients q).attempt = some m) : m ≠ n := by
    rintro rfl
    exact hqr ((h.current q m hq).2.1.symm.trans hreq)
  have hpcn {m : ℕ} (hm : pc.attempt = some m) : m = n := Option.some_inj.mp (hm.symm.trans hpc)
  refine
    { care := h.care
      current := hclients (fun q pc => ∀ m, pc.attempt = some m →
        m < s.numObjs ∧ s.req m = q ∧ s.reqResp q = m) ?_ fun q _ => h.current q
      enqueuing := ?_
      nodup := h.nodup
      queued := fun m hm => ?_
      live := ?_
      unmade := hworks (fun m w => s.numObjs ≤ m → w = .none) (fun hle => absurd hlt (by omega))
        fun m _ => h.unmade m
      place := fun m c => hworks (fun m w => (s.conns c).callers m ≠ .idle → w = .calling c ∨
        w.done = true ∧ ∃ ret, (s.conns c).callers m = .returned ret) (hplace c)
        (fun m _ => h.place m c) m
      one := h.one
      filling := fun m o => hworks (fun m w => w = .filling o → o = m) (hfill o)
        (fun m _ => h.filling m o) m
      attached := h.attached
      replied := fun m reply => hworks (fun m w => w.replied = some reply → s.Replied m reply)
        (hreply reply) (fun m _ => h.replied m reply) m
      returned := ?_
      puts_nodup := h.puts_nodup
      put := fun o ho => ?_ }
  · intro m hm
    obtain rfl := hpcn hm
    exact ⟨hlt, hreq, hresp⟩
  · intro q m
    refine hclients (fun q pc => pc = .enqueue m →
      ((s.setWork n w).setClient r pc).works m = .none) ?_ ?_ q
    · rintro rfl
      obtain rfl := hpcn rfl
      simpa only [setWork, setClient, Function.update_self] using henq rfl
    · intro q hqr hq
      have hmn := hother hqr (by rw [hq]; rfl)
      simpa only [setWork, setClient, Function.update_of_ne hmn] using h.enqueuing q m hq
  · have hmn : m ≠ n := fun hmn => hqueue (hmn ▸ hm)
    simpa only [setWork, setClient, Function.update_of_ne hmn] using h.queued m hm
  · refine hworks (fun m w => w.live = true → update s.clients r pc (s.req m) = .wait m) ?_ ?_
    · intro hw
      rw [hreq, Function.update_self]
      exact hlive hw
    · intro m hmn hm
      have hwait := h.live m hm
      have hne : s.req m ≠ r := by
        intro hmr
        rw [hmr] at hwait
        rw [hwait] at hr
        exact hmn (Option.some_inj.mp hr)
      rw [Function.update_of_ne hne]
      exact hwait
  · intro q m reply
    refine hclients (fun q pc => pc = .returned m reply →
      (((s.setWork n w).setClient r pc).works m).live = false ∧ s.Replied m reply) ?_ ?_ q
    · rintro rfl
      obtain rfl := hpcn rfl
      simpa only [setWork, setClient, Function.update_self] using hret reply rfl
    · intro q hqr hq
      have hmn := hother hqr (by rw [hq]; rfl)
      simpa only [setWork, setClient, Function.update_of_ne hmn] using h.returned q m reply hq
  · refine (h.put o ho).imp ?_ id
    rintro ⟨ho, hnone, hover, hclosed⟩
    have hon : o ≠ n := fun hon => hnone r (hon ▸ hr)
    refine ⟨ho, ?_, ?_, hclosed⟩
    · exact hclients (fun _ pc => pc.attempt ≠ some o) (fun hp => hon (hpcn hp)) fun q _ => hnone q
    · simpa only [setWork, setClient, Function.update_of_ne hon] using hover

/-- A worker goes on with its work. -/
theorem work (h : s.Owned) {n : ℕ} {w : WorkPc} (hn : (s.works n).live = true)
    (hqueue : n ∉ s.queue)
    (hplace : ∀ c, (s.conns c).callers n ≠ .idle → w = .calling c ∨
      w.done = true ∧ ∃ ret, (s.conns c).callers n = .returned ret)
    (hfill : ∀ o, w = .filling o → o = n)
    (hreply : ∀ reply, w.replied = some reply → s.Replied n reply) : (s.setWork n w).Owned := by
  have hwait := h.live n hn
  have hadv := h.advance w (.wait n) (by rw [hwait]; rfl) rfl (fun _ => rfl) hqueue (by simp)
    hplace hfill hreply (by simp)
  have hsame : (s.setWork n w).setClient (s.req n) (.wait n) = s.setWork n w := by
    unfold setClient setWork
    rw [← hwait, Function.update_eq_self]
  rwa [hsame] at hadv

/-- A worker goes on with work for which no connection has been called. -/
theorem work_idle (h : s.Owned) {n : ℕ} {w : WorkPc} (hn : (s.works n).live = true)
    (hqueue : n ∉ s.queue) (hdone : (s.works n).done = false)
    (hcall : ∀ c, s.works n ≠ .calling c) (hfill : ∀ o, w = .filling o → o = n)
    (hreply : ∀ o, w.replied = some (.ok o) → o = n) : (s.setWork n w).Owned := by
  refine h.work hn hqueue (fun c hc => absurd (h.idle_of_work hdone hcall c) hc) hfill ?_
  intro reply hr
  refine .inr ⟨h.closed_of_work hdone hcall, ?_⟩
  rintro o rfl
  exact hreply o hr

/-- The queue loses work, or gets some that is queued. -/
theorem requeue (h : s.Owned) (queue : List ℕ) (idle : ℕ) (hnodup : queue.Nodup)
    (hqueued : ∀ n ∈ queue, s.works n = .queued) : { s with queue := queue, idle := idle }.Owned :=
  { h with nodup := hnodup, queued := hqueued }

/-- A client takes a new object. -/
theorem acquire (h : s.Owned) {r : ℕ} (hr : s.clients r = .idle) :
    ({ s with
      numObjs := s.numObjs + 1
      req := update s.req s.numObjs r
      reqResp := update s.reqResp r s.numObjs }.setClient r (.enqueue s.numObjs)).Owned := by
  have hclients (P : ℕ → ClientPc → Prop) (hr : P r (.enqueue s.numObjs))
      (hq : ∀ q, q ≠ r → P q (s.clients q)) (q : ℕ) :
      P q (update s.clients r (.enqueue s.numObjs) q) := by
    rcases eq_or_ne q r with rfl | hqr
    · simpa only [Function.update_self] using hr
    · simpa only [Function.update_of_ne hqr] using hq q hqr
  refine
    { h with
      current := ?_
      enqueuing := ?_
      live := fun n hn => ?_
      unmade := fun n hn => h.unmade n (Nat.le_of_succ_le hn)
      returned := fun q n reply hq => ?_
      put := fun o ho => (h.put o ho).imp ?_ id }
  · refine hclients (fun q pc => ∀ n, pc.attempt = some n → n < s.numObjs + 1 ∧
      update s.req s.numObjs r n = q ∧ update s.reqResp r s.numObjs q = n) ?_ ?_
    · intro n hn
      obtain rfl := Option.some_inj.mp hn
      exact ⟨Nat.lt_succ_self _, Function.update_self .., Function.update_self ..⟩
    · intro q hqr n hn
      obtain ⟨hlt, hreq, hresp⟩ := h.current q n hn
      rw [Function.update_of_ne (Nat.ne_of_lt hlt), Function.update_of_ne hqr]
      exact ⟨Nat.lt_succ_of_lt hlt, hreq, hresp⟩
  · intro q n
    refine hclients (fun q pc => pc = .enqueue n → s.works n = .none) ?_ (fun q _ => h.enqueuing q n) q
    intro hn
    obtain rfl := ClientPc.enqueue.inj hn
    exact h.unmade _ (Nat.le_refl _)
  · -- the work is not the new one, nor its client the one that was idle
    have hlt := (h.reqResp_of_live hn).1
    have hwait := h.live n hn
    have hne : s.req n ≠ r := fun hnr => by simp [hnr, hr] at hwait
    show update s.clients r _ (update s.req s.numObjs r n) = .wait n
    rw [Function.update_of_ne (Nat.ne_of_lt hlt), Function.update_of_ne hne]
    exact hwait
  · exact hclients (fun q pc => pc = .returned n reply → (s.works n).live = false ∧
      s.Replied n reply) (by simp) (fun q _ => h.returned q n reply) q hq
  · rintro ⟨hlt, hnone, hover, hclosed⟩
    refine ⟨Nat.lt_succ_of_lt hlt, ?_, hover, hclosed⟩
    exact hclients (fun _ pc => pc.attempt ≠ some o)
      (fun ho => absurd (Option.some_inj.mp ho) (Nat.ne_of_lt hlt).symm) fun q _ => hnone q

/-- A client ends its attempt. -/
theorem finish (h : s.Owned) {r n : ℕ} {reply : Reply} (hr : s.clients r = .returned n reply) :
    (s.setClient r .idle).Owned := by
  have hclients (P : ℕ → ClientPc → Prop) (hr : P r .idle)
      (hq : ∀ q, q ≠ r → P q (s.clients q)) (q : ℕ) : P q (update s.clients r .idle q) := by
    rcases eq_or_ne q r with rfl | hqr
    · simpa only [Function.update_self] using hr
    · simpa only [Function.update_of_ne hqr] using hq q hqr
  refine
    { h with
      current := hclients (fun q pc => ∀ n, pc.attempt = some n → n < s.numObjs ∧ s.req n = q ∧
        s.reqResp q = n) (fun n hn => by cases hn) fun q _ => h.current q
      enqueuing := fun q n => hclients (fun q pc => pc = .enqueue n → s.works n = .none) (by simp)
        (fun q _ => h.enqueuing q n) q
      live := fun m hm => ?_
      returned := fun q n reply => hclients (fun q pc => pc = .returned n reply →
        (s.works n).live = false ∧ s.Replied n reply) (by simp)
        (fun q _ => h.returned q n reply) q
      put := fun o ho => (h.put o ho).imp ?_ id }
  · have hwait := h.live m hm
    have hne : s.req m ≠ r := fun hmr => by simp [hmr, hr] at hwait
    show update s.clients r _ (s.req m) = .wait m
    rw [Function.update_of_ne hne]
    exact hwait
  · rintro ⟨hlt, hnone, hover, hclosed⟩
    exact ⟨hlt, hclients (fun _ pc => pc.attempt ≠ some o) (by simp [ClientPc.attempt])
      fun q _ => hnone q, hover, hclosed⟩

/-- A client ends its attempt and puts the object back. -/
theorem putBack (h : s.Owned) {r n : ℕ} {reply : Reply} (hr : s.clients r = .returned n reply)
    (hreply : reply ≠ .transferred) : ({ s with puts := n :: s.puts }.setClient r .idle).Owned := by
  have hfin := h.finish hr
  have hattempt : (s.clients r).attempt = some n := by rw [hr]; rfl
  obtain ⟨hlt, hreq, -⟩ := h.current r n hattempt
  obtain ⟨hover, hsettled⟩ := h.returned r n reply hr
  have hclosed : s.Closed n := (hsettled.resolve_left hreply).1
  have hnew : n ∉ s.puts := by
    intro hn
    rcases h.put n hn with hg | ⟨c, -, hc⟩
    · exact hg.2.1 r hattempt
    · -- the caller has not left the object to a reader
      have := hclosed c
      rw [hc] at this
      cases this
  refine
    { hfin with
      puts_nodup := List.nodup_cons.mpr ⟨hnew, h.puts_nodup⟩
      put := fun o ho => ?_ }
  rcases List.mem_cons.mp ho with rfl | ho
  · refine .inl ⟨hlt, fun q hq => ?_, hover, hclosed⟩
    rcases eq_or_ne q r with rfl | hqr
    · simp [setClient, ClientPc.attempt] at hq
    · simp only [setClient, Function.update_of_ne hqr] at hq
      exact hqr ((h.current q o hq).2.1.symm.trans hreq)
  · exact hfin.put o ho

/-- A worker's caller takes the object off its request. -/
theorem attach (h : s.Owned) {n : ℕ} (hn : (s.works n).live = true) :
    { s with objAt := update s.objAt n (s.reqResp (s.req n)) }.Owned := by
  refine { h with attached := fun m c hm => ?_ }
  show update s.objAt n (s.reqResp (s.req n)) m = m
  rcases eq_or_ne m n with rfl | hmn
  · rw [Function.update_self]
    exact (h.reqResp_of_live hn).2
  · rw [Function.update_of_ne hmn]
    exact h.attached m c hm

/-! ### Connections -/

/-- In a step of `c` a caller stays where it is, or is called by the worker of its attempt
and goes on. -/
def Moves (s : Sched) (c : ℕ) (x : Sys) (m : ℕ) : Prop :=
  x.callers m = (s.conns c).callers m ∨
    s.works m = .calling c ∧ (∀ ret, (s.conns c).callers m ≠ .returned ret) ∧
      ((x.callers m).attached = true → s.objAt m = m)

/-- An object that a reader has just put back was not there. -/
theorem not_put (h : s.Owned) {c k p : ℕ}
    (hbusy : ((s.conns c).wire.readers k).phase.busy = some p)
    (hleft : (s.conns c).callers p = .returned .transferred) : p ∉ s.puts := by
  intro hp
  rcases h.put p hp with ⟨-, -, -, hclosed⟩ | ⟨c', hrel, hleft'⟩
  · have := hclosed c
    rw [hleft] at this
    cases this
  · -- the caller has called one connection only, whose readers are through with the object
    obtain rfl := h.one p c c' (by rw [hleft]; simp) (by rw [hleft']; simp)
    exact ((h.care c).2.released p hrel).2 k hbusy

/-- An undisturbed step of a connection. -/
theorem conn {cfg : Config} (h : s.Owned) {c : ℕ} {l : Pipeline.Tid × Pipeline.Choice} {x : Sys}
    (hok : (s.conns c).Undisturbed l) (hx : (s.conns c).step cfg l = some x)
    (hmoves : ∀ m, Moves s c x m) :
    { s with
      conns := update s.conns c x
      puts := (released (s.conns c).log x.log).map s.objAt ++ s.puts }.Owned := by
  have hcare := Pipeline.step_wire Pipeline.Wire.Undisturbed Pipeline.Wire.Kept
    (fun _ _ hw => hw.next) (h.care c) hok hx
  obtain ⟨hlog, hreleased⟩ := Pipeline.step_released (h.care c).1 hx
  -- what is said of every connection is said of `c` as it is now, and of the others
  have hconns (P : ℕ → Sys → Prop) (hc : P c x) (hd : ∀ d, d ≠ c → P d (s.conns d)) (d : ℕ) :
      P d (update s.conns c x d) := by
    rcases eq_or_ne d c with rfl | hdc
    · simpa only [Function.update_self] using hc
    · simpa only [Function.update_of_ne hdc] using hd d hdc
  -- a caller whose worker does not call `c` has not moved
  have hstay {m : ℕ} (hm : s.works m ≠ .calling c) : x.callers m = (s.conns c).callers m :=
    (hmoves m).resolve_right fun hmove => hm hmove.1
  have hclosed {m : ℕ} (hm : s.works m ≠ .calling c) (hcl : s.Closed m) :
      ∀ d, ((update s.conns c x d).callers m).closed = true :=
    hconns (fun _ y => (y.callers m).closed = true) (by rw [hstay hm]; exact hcl c) fun d _ => hcl d
  have hsettled {m : ℕ} {reply : Reply} (hm : s.works m ≠ .calling c) (hs : s.Replied m reply) :
      reply = .transferred ∨ (∀ d, ((update s.conns c x d).callers m).closed = true) ∧
        ∀ o, reply = .ok o → o = m :=
    hs.imp id fun hs => ⟨hclosed hm hs.1, hs.2⟩
  refine
    { h with
      care := hconns (fun _ y => y.Sound ∧ y.wire.Kept) hcare fun d _ => h.care d
      place := fun m => hconns (fun d y => y.callers m ≠ .idle → s.works m = .calling d ∨
        (s.works m).done = true ∧ ∃ ret, y.callers m = .returned ret) ?_ fun d _ => h.place m d
      one := ?_
      attached := fun m => hconns (fun _ y => (y.callers m).attached = true → s.objAt m = m) ?_
        fun d _ => h.attached m d
      replied := fun m reply hm => hsettled (fun hc => by rw [hc] at hm; cases hm)
        (h.replied m reply hm)
      returned := fun r m reply hm => ?_
      puts_nodup := ?_
      put := ?_ }
  · intro hidle
    rcases hmoves m with hsame | ⟨hcall, -⟩
    · rw [hsame] at hidle ⊢
      exact h.place m c hidle
    · exact .inl hcall
  · intro m
    -- a caller that moves has called no other connection
    have hc : ∀ d, d ≠ c → x.callers m ≠ .idle → (s.conns d).callers m ≠ .idle → d = c := by
      intro d hdc hxm hdm
      rcases hmoves m with hsame | ⟨hcall, -⟩
      · rw [hsame] at hxm
        exact h.one m d c hdm hxm
      · rcases h.place m d hdm with hd | ⟨hdone, -⟩
        · exact WorkPc.calling.inj (hd.symm.trans hcall)
        · rw [hcall] at hdone
          cases hdone
    refine hconns (fun d y => ∀ d', y.callers m ≠ .idle →
      (update s.conns c x d').callers m ≠ .idle → d = d') ?_ ?_
    · intro d' hxm
      exact hconns (fun d' y => y.callers m ≠ .idle → c = d') (fun _ => rfl)
        (fun d' hd' hdm => (hc d' hd' hxm hdm).symm) d'
    · intro d hdc d' hdm
      exact hconns (fun d' y => y.callers m ≠ .idle → d = d') (fun hxm => hc d hdc hxm hdm)
        (fun d' _ hdm' => h.one m d d' hdm hdm') d'
  · intro hatt
    rcases hmoves m with hsame | ⟨-, -, hmove⟩
    · rw [hsame] at hatt
      exact h.attached m c hatt
    · exact hmove hatt
  · obtain ⟨hlive, hset⟩ := h.returned r m reply hm
    exact ⟨hlive, hsettled (fun hc => by rw [hc] at hlive; cases hlive) hset⟩
  · rcases hreleased with hnone | ⟨k, p, -, hone, hbusy, hleft, -⟩
    · rw [hnone]
      exact h.puts_nodup
    · have hobj : s.objAt p = p := h.attached p c (by rw [hleft]; rfl)
      rw [hone, List.map_singleton, hobj]
      exact List.nodup_cons.mpr ⟨h.not_put hbusy hleft, h.puts_nodup⟩
  · intro o ho
    rcases List.mem_append.mp ho with hnew | hold
    · -- the object has been left to the reader that puts it back
      rcases hreleased with hnone | ⟨k, p, -, hone, hbusy, hleft, hmem⟩
      · rw [hnone] at hnew
        exact absurd hnew List.not_mem_nil
      · have hobj : s.objAt p = p := h.attached p c (by rw [hleft]; rfl)
        rw [hone, List.map_singleton, hobj] at hnew
        obtain rfl := List.mem_singleton.mp hnew
        refine .inr ⟨c, ?_, ?_⟩
        · show _ ∈ (update s.conns c x c).log
          rw [Function.update_self]
          exact hmem
        · show (update s.conns c x c).callers o = _
          rw [Function.update_self]
          rcases hmoves o with hsame | ⟨-, hnot, -⟩
          · exact hsame.trans hleft
          · exact absurd hleft (hnot _)
    · refine (h.put o hold).imp ?_ ?_
      · rintro ⟨hlt, hnone, hlive, hcl⟩
        exact ⟨hlt, hnone, hlive, hclosed (fun hc => by rw [hc] at hlive; cases hlive) hcl⟩
      · rintro ⟨d, hrel, hleft⟩
        refine ⟨d, ?_⟩
        revert hrel hleft
        refine hconns (fun d y => .released o ∈ (s.conns d).log →
          (s.conns d).callers o = .returned .transferred →
          .released o ∈ y.log ∧ y.callers o = .returned .transferred) ?_
          (fun _ _ hrel hleft => ⟨hrel, hleft⟩) d
        intro hrel hleft
        refine ⟨hlog _ hrel, ?_⟩
        rcases hmoves o with hsame | ⟨-, hnot, -⟩
        · exact hsame.trans hleft
        · exact absurd hleft (hnot _)

theorem new (workers : ℕ) : (Sched.new workers).Owned where
  care := fun _ => ⟨Pipeline.Sys.Sound.new, Pipeline.Wire.Kept.new⟩
  current := fun _ _ h => by cases h
  enqueuing := fun _ _ h => by cases h
  nodup := List.nodup_nil
  queued := fun _ h => absurd h List.not_mem_nil
  live := fun _ h => by cases h
  unmade := fun _ _ => rfl
  place := fun _ _ h => absurd rfl h
  one := fun _ _ _ h => absurd rfl h
  filling := fun _ _ h => by cases h
  attached := fun _ _ h => by cases h
  replied := fun _ _ h => by cases h
  returned := fun _ _ _ h => by cases h
  puts_nodup := List.nodup_nil
  put := fun _ h => absurd h List.not_mem_nil

end Owned

/-! ### Steps -/

/-- `Scheduler.Do`, once the work is queued, goes on only when the worker has replied; and the
steps of connections disturb no owner. -/
def Awaited (s : Sched) (l : Tid × Choice) : Prop :=
  match l.1 with
  | .client r => (s.clients r).waits = true → l.2 ≠ .cancel ∧ l.2 ≠ .stop
  | .worker n => ∀ c ∈ (s.works n).called, (s.conns c).Undisturbed (.caller n, l.2.forConn)
  | .conn c t => (s.conns c).Undisturbed (t, l.2.forConn)
  | .exit | .stop => True

instance (s : Sched) (l : Tid × Choice) : Decidable (s.Awaited l) :=
  match l with
  | (.client r, ch) => inferInstanceAs (Decidable ((s.clients r).waits = true → ch ≠ _ ∧ ch ≠ _))
  | (.worker n, _) => inferInstanceAs (Decidable (∀ c ∈ (s.works n).called, (s.conns c).Undisturbed _))
  | (.conn c _, _) => inferInstanceAs (Decidable ((s.conns c).Undisturbed _))
  | (.exit, _) | (.stop, _) => .isTrue trivial

section Steps

variable {cfg : Config} {cap : ℕ} {s s' : Sched} {ch : Choice}

theorem client_owned (h : s.Owned) {r : ℕ} (hok : s.Awaited (.client r, ch))
    (hs : s.client cap r ch = some s') : s'.Owned := by
  cases hpc : s.clients r with
  | idle =>
    simp only [client, hpc] at hs
    cases hs
    exact h.acquire hpc
  | enqueue n =>
    have hattempt : (s.clients r).attempt = some n := by rw [hpc]; rfl
    have hnone := h.enqueuing r n hpc
    have hidle := h.idle_of_work (n := n) (by rw [hnone]; rfl) (by simp [hnone])
    have hqueue : n ∉ s.queue := fun hn => by simp [h.queued n hn] at hnone
    -- an attempt that is given up here has no work
    have hgiveUp : (s.setClient r (.returned n .error)).Owned := by
      have hadv := h.advance .none (.returned n .error) hattempt rfl (by simp [WorkPc.live])
        hqueue (by simp) (fun c hc => absurd (hidle c) hc) (by simp) (by simp [WorkPc.replied])
        fun reply hr => by
          cases hr
          exact ⟨rfl, .inr ⟨fun c => by rw [hidle c]; rfl, by simp⟩⟩
      have hsame : s.setWork n .none = s := by
        unfold setWork
        rw [← hnone, Function.update_eq_self]
      rwa [hsame] at hadv
    simp only [client, hpc] at hs
    split at hs
    · cases hs
      exact hgiveUp
    · split at hs <;> cases hs
      exact hgiveUp
    · split at hs <;> cases hs
      have hadv := h.advance .queued (.wait n) hattempt rfl (fun _ => rfl) hqueue
        (by simp) (fun c hc => absurd (hidle c) hc) (by simp) (by simp [WorkPc.replied]) (by simp)
      refine hadv.requeue _ s.idle ?_ fun m hm => ?_
      · exact List.nodup_append.mpr ⟨h.nodup, List.nodup_singleton n,
          fun a ha b hb => fun hab => hqueue (List.mem_singleton.mp hb ▸ hab ▸ ha)⟩
      · rcases List.mem_append.mp hm with hm | hm
        · exact hadv.queued m hm
        · obtain rfl := List.mem_singleton.mp hm
          simp [setWork, setClient]
  | wait n =>
    have hattempt : (s.clients r).attempt = some n := by rw [hpc]; rfl
    have hok : ch ≠ .cancel ∧ ch ≠ .stop := hok (by rw [hpc]; rfl)
    simp only [client, hpc] at hs
    split at hs
    · exact absurd rfl hok.1
    · exact absurd rfl hok.2
    · split at hs <;> cases hs
      case _ reply hsent =>
      refine h.advance .taken (.returned n reply) hattempt rfl (by simp [WorkPc.live])
        (fun hn => by simp [h.queued n hn] at hsent) (by simp) (fun c hc => ?_) (by simp)
        (by simp [WorkPc.replied]) fun reply' hr => ?_
      · rcases h.place n c hc with hcall | ⟨-, hret⟩
        · exact absurd (hsent.symm.trans hcall) (by simp)
        · exact .inr ⟨rfl, hret⟩
      · cases hr
        exact ⟨rfl, h.replied n reply (by rw [hsent]; rfl)⟩
  | returned n reply =>
    cases reply with
    | transferred =>
      simp only [client, hpc] at hs
      cases hs
      exact h.finish hpc
    | error =>
      simp only [client, hpc] at hs
      cases hs
      exact h.putBack hpc (by simp)
    | ok o =>
      -- the response that came back is the object of the attempt
      have ho : o = n := by
        rcases (h.returned r n (.ok o) hpc).2 with htrans | ⟨-, hok⟩
        · cases htrans
        · exact hok o rfl
      subst ho
      simp only [client, hpc] at hs
      split at hs <;> cases hs
      · exact h.putBack hpc (by simp)
      · exact h.finish hpc

/-- A step of a caller that its worker takes. -/
theorem caller_owned (h : s.Owned) {n c : ℕ} {pch : Pipeline.Choice}
    (hwork : s.works n = .calling c) (hok : (s.conns c).Undisturbed (.caller n, pch))
    (hload : (s.conns c).callers n = .loadConn → s.objAt n = n)
    (hs : s.connStep cfg c (.caller n, pch) = some s') : s'.Owned := by
  obtain ⟨x, hx, rfl⟩ := Option.map_eq_some_iff.mp hs
  have hx' : (s.conns c).doPipelined cfg n pch = some x := hx
  obtain ⟨pc, hcallers, hattached⟩ := Pipeline.doPipelined_callers hx'
  refine h.conn hok hx fun m => ?_
  rcases eq_or_ne m n with rfl | hmn
  · refine .inr ⟨hwork, fun ret hret => ?_, fun hatt => ?_⟩
    · -- a caller that has returned takes no step
      have hstep := Pipeline.Sys.doPipelined_step hx'
      rw [hret] at hstep
      cases hstep
    · rw [hcallers, Function.update_self] at hatt
      rcases hattached hatt with hold | hat
      · exact h.attached m c hold
      · exact hload hat
  · exact .inl (by rw [hcallers, Function.update_of_ne hmn])

theorem doPipelined_owned (h : s.Owned) {n c : ℕ} {pch : Pipeline.Choice}
    (hwork : s.works n = .calling c) (hok : (s.conns c).Undisturbed (.caller n, pch))
    (hs : s.doPipelined cfg n c pch = some s') : s'.Owned := by
  have hlive : (s.works n).live = true := by rw [hwork]; rfl
  unfold doPipelined at hs
  split at hs
  · case _ ret hret =>
    cases hs
    refine h.work hlive (fun hn => by simp [h.queued n hn] at hwork) (fun d hd => ?_) (by simp)
      fun reply hr => ?_
    · rcases h.place n d hd with hcall | ⟨hdone, -⟩
      · obtain rfl := WorkPc.calling.inj (hcall.symm.trans hwork)
        exact .inr ⟨rfl, ret, hret⟩
      · rw [hwork] at hdone
        cases hdone
    · obtain rfl : s.replyOf n ret = reply := Option.some_inj.mp hr
      -- no other connection has been called, and this one has returned
      have hclosed (hc : ((s.conns c).callers n).closed = true) : s.Closed n := by
        intro d
        by_cases hd : (s.conns d).callers n = .idle
        · rw [hd]
          rfl
        · rcases h.place n d hd with hcall | ⟨hdone, -⟩
          · obtain rfl := WorkPc.calling.inj (hcall.symm.trans hwork)
            exact hc
          · rw [hwork] at hdone
            cases hdone
      cases ret with
      | ok =>
        have hobj : s.objAt n = n := h.attached n c (by rw [hret]; rfl)
        refine .inr ⟨hclosed (by rw [hret]; rfl), fun o ho => ?_⟩
        exact (Reply.ok.inj ho).symm.trans hobj
      | transferred => exact .inl rfl
      | error => exact .inr ⟨hclosed (by rw [hret]; rfl), fun o ho => by cases ho⟩
  · case _ hload =>
    refine caller_owned (h.attach hlive) hwork hok (fun _ => ?_) hs
    show update s.objAt n (s.reqResp (s.req n)) n = n
    rw [Function.update_self]
    exact (h.reqResp_of_live hlive).2
  · case _ hpc => exact caller_owned h hwork hok (fun hload => absurd hload hpc) hs

theorem worker_owned (h : s.Owned) {n : ℕ} (hok : s.Awaited (.worker n, ch))
    (hs : s.worker cfg n ch = some s') : s'.Owned := by
  have hqueue (hw : s.works n ≠ .queued) : n ∉ s.queue := fun hn => hw (h.queued n hn)
  cases hwork : s.works n with
  | none | sent _ | taken =>
    simp only [worker, hwork] at hs
    cases hs
  | queued =>
    simp only [worker, hwork] at hs
    split at hs <;> cases hs
    case _ hhead =>
    obtain ⟨rest, hq⟩ : ∃ rest, s.queue = n :: rest := by
      cases hq : s.queue with
      | nil => simp [hq] at hhead
      | cons m rest => exact ⟨rest, by simp [hq] at hhead; rw [hhead.1]⟩
    have hnodup := h.nodup
    rw [hq] at hnodup
    obtain ⟨hnotin, hrest⟩ := List.nodup_cons.mp hnodup
    have htail : s.queue.tail = rest := by rw [hq]; rfl
    have hre := h.requeue s.queue.tail (s.idle - 1) (by rw [htail]; exact hrest)
      fun m hm => h.queued m (List.mem_of_mem_tail hm)
    refine hre.work_idle (by rw [show _ = _ from hwork]; rfl) (by show n ∉ s.queue.tail; rwa [htail])
      (by rw [show _ = _ from hwork]; rfl) (fun c => by rw [show _ = _ from hwork]; simp)
      (by simp) (by simp [WorkPc.replied])
  | check =>
    simp only [worker, hwork] at hs
    cases hs
    refine h.work_idle (by rw [hwork]; rfl) (hqueue (by simp [hwork])) (by rw [hwork]; rfl)
      (by simp [hwork]) ?_ ?_ <;> split <;> simp [WorkPc.replied]
  | getConn =>
    have hmove {w : WorkPc} (hfill : ∀ o, w ≠ .filling o)
        (hreply : ∀ o, w.replied ≠ some (.ok o)) : (s.setWork n w).Owned :=
      h.work_idle (by rw [hwork]; rfl) (hqueue (by simp [hwork])) (by rw [hwork]; rfl)
        (by simp [hwork]) (fun o ho => absurd ho (hfill o)) fun o ho => absurd ho (hreply o)
    simp only [worker, hwork] at hs
    split at hs <;> cases hs
    · split
      · exact hmove (by simp) (by simp [WorkPc.replied])
      · exact hmove (by simp) (by simp [WorkPc.replied])
    · exact hmove (by simp) (by simp [WorkPc.replied])
  | calling c =>
    simp only [worker, hwork] at hs
    exact doPipelined_owned h hwork (hok c (by rw [hwork]; rfl)) hs
  | load =>
    have hresp := (h.reqResp_of_live (n := n) (by rw [hwork]; rfl)).2
    simp only [worker, hwork] at hs
    cases hs
    refine h.work_idle (by rw [hwork]; rfl) (hqueue (by simp [hwork])) (by rw [hwork]; rfl)
      (by simp [hwork]) ?_ ?_ <;> split <;> simp [WorkPc.replied, hresp]
  | filling o =>
    have ho := h.filling n o hwork
    simp only [worker, hwork] at hs
    cases hs
    refine h.work_idle (by rw [hwork]; rfl) (hqueue (by simp [hwork])) (by rw [hwork]; rfl)
      (by simp [hwork]) (by simp) fun o' ho' => ?_
    split at ho' <;> cases ho'
    exact ho
  | reply reply =>
    simp only [worker, hwork] at hs
    cases hs
    have hidle : { s with idle := s.idle + 1 }.Owned := { h with }
    refine hidle.work (by rw [show _ = _ from hwork]; rfl) (hqueue (by simp [hwork]))
      (fun c hc => ?_) (by simp) fun reply' hr => ?_
    · rcases h.place n c hc with hcall | ⟨-, hret⟩
      · exact absurd (hwork.symm.trans hcall) (by simp)
      · exact .inr ⟨rfl, hret⟩
    · obtain rfl := Option.some_inj.mp hr
      exact h.replied n reply (by rw [hwork]; rfl)

/-- Awaited steps keep the owners of the objects. -/
theorem Owned.step (h : s.Owned) {l : Tid × Choice} (hok : s.Awaited l)
    (hs : s.step cfg cap l = some s') : s'.Owned := by
  obtain ⟨t, ch⟩ := l
  cases t with
  | client r => exact client_owned h hok hs
  | worker n => exact worker_owned h hok hs
  | conn c t =>
    have hconn {x : Sys} (hx : (s.conns c).step cfg (t, ch.forConn) = some x)
        (hcallers : x.callers = (s.conns c).callers) :=
      h.conn hok hx fun m => .inl (by rw [hcallers])
    cases t with
    | reader k =>
      obtain ⟨x, hx, rfl⟩ := Option.map_eq_some_iff.mp hs
      exact hconn hx (Pipeline.readerRun_callers hx)
    | stopper m =>
      obtain ⟨x, hx, rfl⟩ := Option.map_eq_some_iff.mp hs
      exact hconn hx (Pipeline.stop_callers hx)
    | caller n | client n => cases hs
  | exit =>
    simp only [Sched.step] at hs
    split at hs <;> cases hs
    exact { h with }
  | stop =>
    cases hs
    exact { h with }

end Steps

/-- The object that the `conn.Do` of work `n` fills, or will take off the request. -/
def target (s : Sched) (n : ℕ) : Option ℕ :=
  match s.works n with
  | .load => some (s.reqResp (s.req n))
  | .filling o => some o
  | .calling c =>
    match (s.conns c).callers n with
    | .returned _ => none
    | pc => some (if pc.attached then s.objAt n else s.reqResp (s.req n))
  | _ => none

namespace Owned

variable {s : Sched}

/-- A worker's connection has, or will take, the object of the attempt. -/
theorem target_eq (h : s.Owned) {n o : ℕ} (hn : s.target n = some o) :
    o = n ∧ (s.works n).live = true ∧
      ∀ c, (s.conns c).callers n ≠ .returned .transferred := by
  have hresp (hlive : (s.works n).live = true) := (h.reqResp_of_live hlive).2
  unfold target at hn
  split at hn
  · case _ hwork =>
    have hlive : (s.works n).live = true := by rw [hwork]; rfl
    refine ⟨(Option.some_inj.mp hn).symm.trans (hresp hlive), hlive, fun c hc => ?_⟩
    rw [h.idle_of_work (by rw [hwork]; rfl) (by simp [hwork]) c] at hc
    cases hc
  · case _ o' hwork =>
    obtain rfl := Option.some_inj.mp hn
    refine ⟨h.filling n o' hwork, by rw [hwork]; rfl, fun c hc => ?_⟩
    rw [h.idle_of_work (by rw [hwork]; rfl) (by simp [hwork]) c] at hc
    cases hc
  · case _ c hwork =>
    have hlive : (s.works n).live = true := by rw [hwork]; rfl
    split at hn
    · cases hn
    · case _ hnot =>
      refine ⟨?_, hlive, fun d hd => ?_⟩
      · split_ifs at hn with hatt
        · exact (Option.some_inj.mp hn).symm.trans (h.attached n c hatt)
        · exact (Option.some_inj.mp hn).symm.trans (hresp hlive)
      · -- only the connection that is called has heard of the attempt
        rcases h.place n d (by rw [hd]; simp) with hcall | ⟨hdone, -⟩
        · obtain rfl := WorkPc.calling.inj (hcall.symm.trans hwork)
          exact hnot _ hd
        · rw [hwork] at hdone
          cases hdone
  · cases hn

/-- A reader that is busy with a request has the object of the attempt, which is still out. -/
theorem busy_out (h : s.Owned) {c k p : ℕ}
    (hbusy : ((s.conns c).readers k).pc.phase.busy = some p) : s.objAt p = p ∧ p ∉ s.puts := by
  have hkept := (h.care c).2
  have hbusy' : ((s.conns c).wire.readers k).phase.busy = some p := hbusy
  have hstage : ((s.conns c).callers p).stage = .waiting ∨
      ((s.conns c).callers p).stage = .transferred := by
    have hbefore : ((s.conns c).callers p).stage ≠ .before :=
      hkept.subject_stage k p (Pipeline.Phase.subject_of_busy hbusy')
    have hover := fun ho => (hkept.ended p ho).2 k hbusy'
    cases hst : ((s.conns c).callers p).stage with
    | before => exact absurd hst hbefore
    | waiting => exact .inl rfl
    | transferred => exact .inr rfl
    | answered => exact .inr (hst.symm.trans (hover (.inr (.inr (.inl hst)))))
    | failed => exact .inr (hst.symm.trans (hover (.inr (.inr (.inr (.inl hst))))))
    | put => exact .inr (hst.symm.trans (hover (.inr (.inr (.inr (.inr (.inl hst)))))))
  have hpc : ((s.conns c).callers p).attached = true ∧ ((s.conns c).callers p).closed = false := by
    cases hcall : (s.conns c).callers p with
    | returned ret =>
      rw [hcall] at hstage
      cases ret <;> simp [Pipeline.CallerPc.stage] at hstage
      exact ⟨rfl, rfl⟩
    | append | signal | wait | setRelease | setCancelled => exact ⟨rfl, rfl⟩
    | _ =>
      rw [hcall] at hstage
      simp [Pipeline.CallerPc.stage] at hstage
  refine ⟨h.attached p c hpc.1, fun hp => ?_⟩
  rcases h.put p hp with ⟨-, -, -, hclosed⟩ | ⟨d, hrel, hleft⟩
  · exact absurd (hpc.2.symm.trans (hclosed c)) (by simp)
  · obtain rfl := h.one p c d (fun hidle => by simp [hidle, Pipeline.CallerPc.attached] at hpc)
      (by rw [hleft]; simp)
    exact (hkept.released p hrel).2 k hbusy'

end Owned

end Sched

/-! ### Runs -/

/-- In every attended run, a response object is put back into the pool at most once, and not
while a worker's `conn.Do` has it or will take it, nor while a reader is busy with it. -/
theorem responses_owned (cfg : Config) (cap workers : ℕ) (s : Sched)
    (h : Guarded.Reaches (Sched.step cfg cap) Sched.Awaited (Sched.new workers) s) :
    s.puts.Nodup ∧ ∀ o ∈ s.puts, (∀ n, s.target n ≠ some o) ∧
      ∀ c k p, ((s.conns c).readers k).pc.phase.busy = some p → s.objAt p ≠ o := by
  have howned : s.Owned := h.invariant Sched.Owned (Sched.Owned.new workers)
    fun _ _ _ hinv hok hs => hinv.step hok hs
  refine ⟨howned.puts_nodup, fun o ho => ⟨fun n hn => ?_, fun c k p hp hobj => ?_⟩⟩
  · obtain ⟨rfl, hlive, hnot⟩ := howned.target_eq hn
    rcases howned.put o ho with ⟨-, -, hover, -⟩ | ⟨c, -, hleft⟩
    · exact absurd (hover.symm.trans hlive) (by simp)
    · exact hnot c hleft
  · obtain ⟨hself, hout⟩ := howned.busy_out hp
    exact hout (hself.symm.trans hobj ▸ ho)

/-- Client 0 queues attempt 0, a worker calls connection 0 for it, and the caller waits for
the response. -/
def called : List (Tid × Choice) :=
  [(Tid.client 0, Choice.plain), (.client 0, .plain), (.worker 0, .plain), (.worker 0, .plain),
    (.worker 0, .conn 0)] ++ List.replicate 26 (Tid.worker 0, Choice.plain)

/-- The context is done: the caller leaves the object to the reader, which parses the response
and puts the object back. -/
def leftToReader : List (Tid × Choice) :=
  [(Tid.worker 0, Choice.inner .cancel)] ++ List.replicate 4 (Tid.worker 0, Choice.plain) ++
    List.replicate 5 (Tid.conn 0 (.reader 0), Choice.plain) ++
    [(Tid.conn 0 (.reader 0), Choice.inner (.fetch 1)),
      (Tid.conn 0 (.reader 0), Choice.inner (.finish .ok false false))] ++
    List.replicate 5 (Tid.conn 0 (.reader 0), Choice.plain)

/-- `Scheduler.Do` waits for the worker, and the object is put back once. -/
theorem responses_owned_leftToReader :
    ∃ s, Guarded.Reaches (Sched.step Pipeline.rotating 4) Sched.Awaited (Sched.new 1) s ∧
      s.puts = [0] ∧ s.puts.Nodup := by
  obtain ⟨s, hs, hputs⟩ := Guarded.exists_of_exec (Sched.step Pipeline.rotating 4) Sched.Awaited
    (Sched.new 1) (called ++ leftToReader ++ List.replicate 2 (Tid.client 0, Choice.plain))
    (fun s => s.puts = [0]) (by decide +kernel)
  exact ⟨s, hs, hputs, (responses_owned Pipeline.rotating 4 1 s hs).1⟩

/-- `Scheduler.Do` returns because the context is done, and `DoWithContext` puts the object
back; so does the reader to which the worker's caller has left it. -/
theorem response_put_twice :
    ∃ s, Guarded.Reaches (Sched.step Pipeline.rotating 4) (fun _ _ => True) (Sched.new 1) s ∧
      s.puts = [0, 0] :=
  Guarded.exists_of_exec (Sched.step Pipeline.rotating 4) (fun _ _ => True) (Sched.new 1)
    (called ++ [(Tid.client 0, Choice.cancel), (Tid.client 0, Choice.plain)] ++ leftToReader)
    (fun s => s.puts = [0, 0]) (by decide +kernel)

end Scheduler

end BurstHttp
