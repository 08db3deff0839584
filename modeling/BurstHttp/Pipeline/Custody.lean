/-
Who may write to a response object of a pipelined connection.

A caller that gets an error puts its response object back into the pool, so no
reader may write to it afterwards.  This is kept in runs that are *undisturbed*
(`Wire.Undisturbed`): a reader takes up a request only while it is registered,
every request has a response object, and `closeConn` does not empty the line
while a reader fills the object of a caller that still waits for it.

* `Kept` — the invariant, `Kept.next` — undisturbed actions keep it;
* `untouched_after_put` — in undisturbed runs no reader writes to an object that
  its caller has put back;
* `touched_after_put` — in other runs one does: another goroutine closes the
  connection in the middle of a parse.
-/
import Mathlib.Data.List.Nodup
import BurstHttp.Pipeline.Pairing

namespace BurstHttp.Pipeline

open Function (update)

namespace Phase

/-- The request whose response object the reader fills, and which it has still to remove
from the line. -/
def filling : Phase → Option ℕ
  | .inside p | .parsed p _ => some p
  | _ => none

/-- The request for which the reader is responsible. -/
def busy : Phase → Option ℕ
  | .inside p | .parsed p _ | .removed p _ | .failing p => some p
  | _ => none

/-- The request that the reader has removed from the line. -/
def past : Phase → Option ℕ
  | .removed p _ | .failing p => some p
  | _ => none

theorem busy_cases {ph : Phase} {p : ℕ} (h : ph.busy = some p) :
    ph.filling = some p ∨ ph.past = some p := by
  cases ph <;> simp_all [busy, filling, past]

theorem busy_of_filling {ph : Phase} {p : ℕ} (h : ph.filling = some p) : ph.busy = some p := by
  cases ph <;> simp_all [busy, filling]

theorem subject_of_busy {ph : Phase} {p : ℕ} (h : ph.busy = some p) : ph.subject = some p := by
  cases ph <;> simp_all [busy, subject]

end Phase

/-- A later event that does not follow the return of an object to the pool. -/
def Event.MayFollow (later earlier : Event) : Prop :=
  ∀ p, earlier = .put p ∨ earlier = .released p →
    later ≠ .touched p ∧ later ≠ .released p ∧ later ≠ .put p

namespace Wire

/-- The condition under which response objects have one owner at a time. -/
def Undisturbed (w : Wire) : Action → Prop
  | .drop => ∀ k < w.numReaders, ∀ p ∈ (w.readers k).phase.filling, w.stage p = .transferred
  | .pass k _ => w.reg = some k
  | .skip _ _ => False
  | _ => True

/-- The caller of `p` is done with it, or a reader is. -/
def Over (w : Wire) (p : ℕ) : Prop :=
  w.err p = true ∨ w.ready p = true ∨ w.stage p = .answered ∨ w.stage p = .failed ∨
    w.stage p = .put ∨ .released p ∈ w.log

structure Kept (w : Wire) : Prop where
  unborn : ∀ k, w.numReaders ≤ k → (w.readers k).phase = .dead
  no_skip : ∀ k p, (w.readers k).phase ≠ .skipping p ∧ (w.readers k).phase ≠ .skipped p
  nodup : w.line.Nodup
  err_stage : ∀ p, w.err p = true → w.stage p ≠ .before
  ready_stage : ∀ p, w.ready p = true → w.stage p ≠ .before
  subject_stage : ∀ k p, (w.readers k).phase.subject = some p → w.stage p ≠ .before
  line_stage : ∀ p ∈ w.line, w.stage p ≠ .before
  peeked : ∀ k p, w.reg = some k → (w.readers k).phase = .peeked p → p ∈ w.line
  filling : ∀ k p, (w.readers k).phase.filling = some p →
    w.reg = some k ∧ p ∈ w.line ∨ w.stage p = .transferred ∧ p ∉ w.line
  past : ∀ k p, (w.readers k).phase.past = some p → p ∉ w.line
  sole : ∀ k k' p, (w.readers k).phase.busy = some p → (w.readers k').phase.busy = some p → k = k'
  ended : ∀ p, w.Over p → p ∉ w.line ∧
    ∀ k, (w.readers k).phase.busy = some p → w.stage p = .transferred
  put_stage : ∀ p, .put p ∈ w.log → w.stage p = .put
  released : ∀ p, .released p ∈ w.log →
    w.stage p = .transferred ∧ ∀ k, (w.readers k).phase.busy ≠ some p
  ordered : w.log.Pairwise Event.MayFollow

namespace Kept

variable {w : Wire}

/-! ### Events -/

/-- The invariant is about the line, the registered reader, the phases of the readers, the
stages, the channels and the log. -/
theorem of_eq {w' : Wire} (h : w.Kept) (hline : w'.line = w.line) (hreg : w'.reg = w.reg)
    (hnum : w'.numReaders = w.numReaders)
    (hphase : ∀ k, (w'.readers k).phase = (w.readers k).phase) (hstage : w'.stage = w.stage)
    (herr : w'.err = w.err) (hready : w'.ready = w.ready) (hlog : w'.log = w.log) : w'.Kept := by
  obtain ⟨h1, h2, h3, h4, h5, h6, h7, h8, h9, h10, h11, h12, h13, h14, h15⟩ := h
  constructor <;>
    simp only [Over, hline, hreg, hnum, hphase, hstage, herr, hready, hlog] <;> assumption

/-- An event that returns no object. -/
theorem event (h : w.Kept) (e : Event) (hput : ∀ p, e ≠ .put p) (hrel : ∀ p, e ≠ .released p)
    (htouch : ∀ p, e = .touched p → .put p ∉ w.log ∧ .released p ∉ w.log) :
    { w with log := e :: w.log }.Kept := by
  have hmem {p : ℕ} {e' : Event} (he' : e' = .put p ∨ e' = .released p) (hm : e' ∈ e :: w.log) :
      e' ∈ w.log := by
    rcases List.mem_cons.mp hm with rfl | hm
    · rcases he' with rfl | rfl
      · exact absurd rfl (hput p)
      · exact absurd rfl (hrel p)
    · exact hm
  refine ⟨h.unborn, h.no_skip, h.nodup, h.err_stage, h.ready_stage, h.subject_stage,
    h.line_stage, h.peeked, h.filling, h.past, h.sole, fun p hp => h.ended p ?_,
    fun p hp => h.put_stage p (hmem (.inl rfl) hp), fun p hp => h.released p (hmem (.inr rfl) hp),
    List.pairwise_cons.mpr ⟨fun e' he' p hp => ⟨fun ht => ?_, hrel p, hput p⟩, h.ordered⟩⟩
  · exact hp.imp id (.imp id (.imp id (.imp id (.imp id (hmem (.inr rfl))))))
  · obtain ⟨hnput, hnrel⟩ := htouch p ht
    rcases hp with rfl | rfl
    · exact hnput he'
    · exact hnrel he'

/-- The object of a request that a reader fills has not been returned. -/
theorem not_returned (h : w.Kept) {k p : ℕ} (hk : (w.readers k).phase.filling = some p) :
    .put p ∉ w.log ∧ .released p ∉ w.log := by
  refine ⟨fun hput => ?_, fun hrel => (h.released p hrel).2 k (Phase.busy_of_filling hk)⟩
  have hstage := h.put_stage p hput
  rcases h.filling k p hk with ⟨-, hmem⟩ | ⟨htrans, -⟩
  · exact (h.ended p (.inr (.inr (.inr (.inr (.inl hstage)))))).1 hmem
  · exact absurd (hstage.symm.trans htrans) (by simp)

/-- A reader writes to the object it fills. -/
theorem touch (h : w.Kept) {k p : ℕ} (hk : (w.readers k).phase.filling = some p) :
    { w with log := .touched p :: w.log }.Kept :=
  h.event _ (by simp) (by simp) fun q hq => Event.touched.inj hq ▸ h.not_returned hk

theorem parseEvents (h : w.Kept) (i : ℕ) (ret : ParseRet) (cut : Bool) {k p : ℕ}
    (hk : (w.readers k).phase.filling = some p) :
    { w with log := Pipeline.parseEvents p i ret cut ++ w.log }.Kept := by
  have hbroke := h.event (.broke i) (by simp) (by simp) (by simp)
  unfold Pipeline.parseEvents
  split_ifs
  · exact hbroke
  · exact h.touch hk
  · exact hbroke.touch hk

/-! ### Readers -/

theorem born (h : w.Kept) {k : ℕ} (hk : (w.readers k).phase ≠ .dead) : k < w.numReaders := by
  by_contra hle
  exact hk (h.unborn k (Nat.le_of_not_lt hle))

/-- While a request is in line, only the registered reader can be busy with it. -/
theorem reg_of_busy (h : w.Kept) {k p : ℕ} (hk : (w.readers k).phase.busy = some p)
    (hp : p ∈ w.line) : w.reg = some k := by
  rcases Phase.busy_cases hk with hf | hpast
  · rcases h.filling k p hf with ⟨hreg, -⟩ | ⟨-, hn⟩
    · exact hreg
    · exact absurd hp hn
  · exact absurd hp (h.past k p hpast)

/-- A reader goes on with the line as it is; it becomes responsible for a request only when
it is registered and the request in line. -/
theorem setPhase (h : w.Kept) {k : ℕ} {ph : Phase} (hk : k < w.numReaders)
    (hskip : ∀ p, ph ≠ .skipping p ∧ ph ≠ .skipped p) (hsubject : ∀ p, ph.subject = some p → w.stage p ≠ .before)
    (hpeeked : ∀ p, w.reg = some k → ph = .peeked p → p ∈ w.line)
    (hfilling : ∀ p, ph.filling = some p → w.reg = some k ∧ p ∈ w.line ∨
      w.stage p = .transferred ∧ p ∉ w.line)
    (hpast : ∀ p, ph.past = some p → p ∉ w.line)
    (hbusy : ∀ p, ph.busy = some p → (w.readers k).phase.busy = some p ∨
      w.reg = some k ∧ p ∈ w.line) : (w.setPhase k ph).Kept := by
  -- nobody else is responsible for the request it takes up
  have hsole {m p : ℕ} (hp : ph.busy = some p) (hm : (w.readers m).phase.busy = some p) : m = k := by
    rcases hbusy p hp with hkp | ⟨hreg, hline⟩
    · exact h.sole m k p hm hkp
    · exact Option.some_inj.mp ((h.reg_of_busy hm hline).symm.trans hreg)
  exact
    { h with
      unborn := forall_setPhase (P := fun m ph => w.numReaders ≤ m → ph = .dead)
        (fun hle => absurd hk (Nat.not_lt.mpr hle)) fun m _ => h.unborn m
      no_skip := forall_setPhase (P := fun _ ph => ∀ p, ph ≠ .skipping p ∧ ph ≠ .skipped p) hskip
        fun m _ => h.no_skip m
      subject_stage := forall_setPhase (P := fun _ ph => ∀ p, ph.subject = some p →
        w.stage p ≠ .before) hsubject fun m _ => h.subject_stage m
      peeked := forall_setPhase (P := fun m ph => ∀ p, w.reg = some m → ph = .peeked p →
        p ∈ w.line) hpeeked fun m _ => h.peeked m
      filling := forall_setPhase (P := fun m ph => ∀ p, ph.filling = some p →
        w.reg = some m ∧ p ∈ w.line ∨ w.stage p = .transferred ∧ p ∉ w.line) hfilling
        fun m _ => h.filling m
      past := forall_setPhase (P := fun _ ph => ∀ p, ph.past = some p → p ∉ w.line) hpast
        fun m _ => h.past m
      sole := fun m m' p => forall_setPhase (P := fun m ph => ph.busy = some p →
          ((w.setPhase k _).readers m').phase.busy = some p → m = m')
        (fun hp => forall_setPhase (P := fun m' ph => ph.busy = some p → k = m') (fun _ => rfl)
          (fun m' _ hm' => (hsole hp hm').symm) m')
        (fun m _ hm => forall_setPhase (P := fun m' ph => ph.busy = some p → m = m')
          (fun hp => hsole hp hm) (fun m' _ hm' => h.sole m m' p hm hm') m') m
      ended := fun p hp => by
        obtain ⟨hline, hall⟩ := h.ended p hp
        refine ⟨hline, forall_setPhase (P := fun _ ph => ph.busy = some p →
          w.stage p = .transferred) (fun hph => ?_) fun m _ => hall m⟩
        rcases hbusy p hph with hkp | ⟨-, hmem⟩
        · exact hall k hkp
        · exact absurd hmem hline
      released := fun p hp => by
        obtain ⟨hstage, hall⟩ := h.released p hp
        refine ⟨hstage, forall_setPhase (P := fun _ ph => ph.busy ≠ some p) (fun hph => ?_)
          fun m _ => hall m⟩
        rcases hbusy p hph with hkp | ⟨-, hmem⟩
        · exact hall k hkp
        · exact (h.ended p (.inr (.inr (.inr (.inr (.inr hp)))))).1 hmem }

/-- When a reader lets go of a request, nobody is responsible for it. -/
theorem free (h : w.Kept) {k p : ℕ} {ph : Phase} (hk : (w.readers k).phase.busy = some p)
    (hph : ph.busy ≠ some p) (m : ℕ) : ((w.setPhase k ph).readers m).phase.busy ≠ some p :=
  forall_setPhase (P := fun _ ph => ph.busy ≠ some p) hph
    (fun m hm hp => hm (h.sole m k p hp hk)) m

/-- A reader removes the request whose object it has filled. -/
theorem remove (h : w.Kept) {k p : ℕ} {o : Parsed} (hphase : (w.readers k).phase = .parsed p o) :
    (w.next (.remove k p o)).Kept := by
  have hbusy : (w.readers k).phase.busy = some p := by rw [hphase]; rfl
  have hsub {q : ℕ} (hq : q ∈ w.line.erase p) : q ∈ w.line := List.mem_of_mem_erase hq
  have hkeep {q : ℕ} (hq : q ∈ w.line) (hne : q ≠ p) : q ∈ w.line.erase p :=
    (List.mem_erase_of_ne hne).mpr hq
  have hp : p ∉ w.line.erase p := h.nodup.not_mem_erase
  have hsame (m : ℕ) :
      ((w.next (.remove k p o)).readers m).phase.busy = (w.readers m).phase.busy := by
    refine forall_setPhase (P := fun m ph => ph.busy = (w.readers m).phase.busy) ?_
      (fun _ _ => rfl) m
    exact hbusy.symm
  exact
    { h with
      unborn := forall_setPhase (P := fun m ph => w.numReaders ≤ m → ph = .dead)
        (fun hle => absurd (h.born (by simp [hphase])) (Nat.not_lt.mpr hle)) fun m _ => h.unborn m
      no_skip := forall_setPhase (P := fun _ ph => ∀ p, ph ≠ .skipping p ∧ ph ≠ .skipped p) (by simp)
        fun m _ => h.no_skip m
      nodup := h.nodup.erase p
      subject_stage := forall_setPhase (P := fun _ ph => ∀ p, ph.subject = some p →
          w.stage p ≠ .before)
        (fun q hq => h.subject_stage k q (by rw [hphase]; exact hq)) fun m _ => h.subject_stage m
      line_stage := fun q hq => h.line_stage q (hsub hq)
      peeked := forall_setPhase (P := fun m ph => ∀ q, w.reg = some m → ph = .peeked q →
          q ∈ w.line.erase p) (by simp) fun m hm q hreg hq => by
        have hmem := h.peeked m q hreg hq
        refine hkeep hmem fun hqp => hm ?_
        subst hqp
        exact Option.some_inj.mp (hreg.symm.trans (h.reg_of_busy hbusy hmem))
      filling := forall_setPhase (P := fun m ph => ∀ q, ph.filling = some q →
          w.reg = some m ∧ q ∈ w.line.erase p ∨ w.stage q = .transferred ∧ q ∉ w.line.erase p)
        (by simp [Phase.filling]) fun m hm q hq => by
        rcases h.filling m q hq with ⟨hreg, hmem⟩ | ⟨hst, hnot⟩
        · refine .inl ⟨hreg, hkeep hmem fun hqp => hm ?_⟩
          exact h.sole m k p (hqp ▸ Phase.busy_of_filling hq) hbusy
        · exact .inr ⟨hst, fun hmem => hnot (hsub hmem)⟩
      past := forall_setPhase (P := fun _ ph => ∀ q, ph.past = some q → q ∉ w.line.erase p)
        (fun q hq => by cases hq; exact hp) fun m _ q hq hmem => h.past m q hq (hsub hmem)
      sole := fun m m' q hm hm' => h.sole m m' q ((hsame m).symm.trans hm) ((hsame m').symm.trans hm')
      ended := fun q hq => by
        obtain ⟨hline, hall⟩ := h.ended q hq
        exact ⟨fun hmem => hline (hsub hmem), fun m hm => hall m ((hsame m).symm.trans hm)⟩
      released := fun q hq => by
        obtain ⟨hstage, hall⟩ := h.released q hq
        exact ⟨hstage, fun m hm => hall m ((hsame m).symm.trans hm)⟩ }

/-- A reader is started. -/
theorem register (h : w.Kept) {i : ℕ} (hreg : w.reg = none) : (w.next (.register i)).Kept := by
  have hself : ((w.next (.register i)).readers w.numReaders).phase = .idle := by
    simp only [Wire.next, Function.update_self]
  have hother {m : ℕ} (hm : m ≠ w.numReaders) :
      ((w.next (.register i)).readers m).phase = (w.readers m).phase := by
    simp only [Wire.next, Function.update_of_ne hm]
  have hcases {P : ℕ → Phase → Prop} (hs : P w.numReaders .idle)
      (hm : ∀ m, m ≠ w.numReaders → P m (w.readers m).phase) (m : ℕ) :
      P m ((w.next (.register i)).readers m).phase := by
    rcases eq_or_ne m w.numReaders with rfl | hne
    · rw [hself]
      exact hs
    · rw [hother hne]
      exact hm m hne
  have hbusy (m p : ℕ) : ((w.next (.register i)).readers m).phase.busy = some p →
      (w.readers m).phase.busy = some p :=
    hcases (P := fun m ph => ph.busy = some p → (w.readers m).phase.busy = some p)
      (by simp [Phase.busy]) (fun _ _ => id) m
  exact
    { h with
      unborn := hcases (P := fun m ph => w.numReaders + 1 ≤ m → ph = .dead) (by omega)
        fun m _ hle => h.unborn m (Nat.le_of_succ_le hle)
      no_skip := hcases (P := fun _ ph => ∀ p, ph ≠ .skipping p ∧ ph ≠ .skipped p) (by simp) fun m _ => h.no_skip m
      subject_stage := hcases (P := fun _ ph => ∀ p, ph.subject = some p → w.stage p ≠ .before)
        (by simp [Phase.subject]) fun m _ => h.subject_stage m
      peeked := hcases (P := fun m ph => ∀ p, some w.numReaders = some m → ph = .peeked p →
          p ∈ w.line) (by simp) fun m hm p hr => absurd (Option.some_inj.mp hr).symm hm
      filling := hcases (P := fun m ph => ∀ p, ph.filling = some p →
          some w.numReaders = some m ∧ p ∈ w.line ∨ w.stage p = .transferred ∧ p ∉ w.line)
        (by simp [Phase.filling]) fun m _ p hp => by
          -- before, no reader was registered
          rcases h.filling m p hp with ⟨hr, -⟩ | hst
          · exact absurd (hreg.symm.trans hr) (by simp)
          · exact .inr hst
      past := hcases (P := fun _ ph => ∀ p, ph.past = some p → p ∉ w.line) (by simp [Phase.past])
        fun m _ => h.past m
      sole := fun m m' p hm hm' => h.sole m m' p (hbusy m p hm) (hbusy m' p hm')
      ended := fun p hp => by
        obtain ⟨hline, hall⟩ := h.ended p hp
        exact ⟨hline, fun m hm => hall m (hbusy m p hm)⟩
      released := fun p hp => by
        obtain ⟨hst, hall⟩ := h.released p hp
        exact ⟨hst, fun m hm => hall m (hbusy m p hm)⟩ }

/-- `closeConn` fails the requests in line, and no waiting caller's object is being filled. -/
theorem drop (h : w.Kept)
    (hall : ∀ k < w.numReaders, ∀ p ∈ (w.readers k).phase.filling, w.stage p = .transferred) :
    (w.next .drop).Kept := by
  have hfilling {k p : ℕ} (hp : (w.readers k).phase.filling = some p) :
      w.stage p = .transferred :=
    hall k (h.born fun hd => by rw [hd] at hp; cases hp) p hp
  have herr {p : ℕ} (hp : (w.next .drop).err p = true) : p ∈ w.line ∨ w.err p = true := by
    simpa [Wire.next] using hp
  exact
    { h with
      nodup := List.nodup_nil
      err_stage := fun p hp => (herr hp).elim (h.line_stage p) (h.err_stage p)
      line_stage := fun p hp => absurd hp List.not_mem_nil
      peeked := fun k p hr => by cases hr
      filling := fun k p hp => .inr ⟨hfilling hp, List.not_mem_nil⟩
      past := fun k p _ => List.not_mem_nil
      ended := fun p hp => by
        refine ⟨List.not_mem_nil, fun k hk => ?_⟩
        rcases hp with hp | hp
        · rcases herr hp with hline | hold
          · rcases Phase.busy_cases hk with hf | hpast
            · exact hfilling hf
            · exact absurd hline (h.past k p hpast)
          · exact (h.ended p (.inl hold)).2 k hk
        · exact (h.ended p (.inr hp)).2 k hk }

/-! ### Callers -/

/-- A request is written and joins the line. -/
theorem write (h : w.Kept) {n i q : ℕ} (hst : w.stage n = .before) :
    (w.next (.write n i q)).Kept := by
  have hstage {p : ℕ} (hp : w.stage p ≠ .before) : (w.next (.write n i q)).stage p = w.stage p :=
    Function.update_of_ne (fun hpn : p = n => hp (by rw [hpn, hst])) _ _
  have hne (p : ℕ) (hp : w.stage p ≠ .before ∨ p = n) :
      (w.next (.write n i q)).stage p ≠ .before := by
    rcases hp with hp | rfl
    · rw [hstage hp]
      exact hp
    · simp [Wire.next]
  have hn : n ∉ w.line := fun hmem => h.line_stage n hmem hst
  have hline {p : ℕ} (hp : w.stage p ≠ .before) (hnot : p ∉ w.line) : p ∉ w.line ++ [n] := by
    rw [List.mem_append, List.mem_singleton]
    rintro (hmem | rfl)
    · exact hnot hmem
    · exact hp hst
  have hover {p : ℕ} (hp : (w.next (.write n i q)).Over p) : w.Over p ∧ w.stage p ≠ .before := by
    rcases eq_or_ne p n with rfl | hpn
    · rcases hp with he | hr | hs | hs | hs | hl
      · exact absurd hst (h.err_stage p he)
      · exact absurd hst (h.ready_stage p hr)
      · simp [Wire.next] at hs
      · simp [Wire.next] at hs
      · simp [Wire.next] at hs
      · exact absurd (hst.symm.trans (h.released p hl).1) (by simp)
    · have hsame : (w.next (.write n i q)).stage p = w.stage p := Function.update_of_ne hpn _ _
      rw [Over, hsame] at hp
      refine ⟨hp, fun hb => ?_⟩
      rcases hp with he | hr | hs | hs | hs | hl
      · exact h.err_stage p he hb
      · exact h.ready_stage p hr hb
      · exact absurd (hb.symm.trans hs) (by simp)
      · exact absurd (hb.symm.trans hs) (by simp)
      · exact absurd (hb.symm.trans hs) (by simp)
      · exact absurd (hb.symm.trans (h.released p hl).1) (by simp)
  have hsubject {k p : ℕ} (hk : (w.readers k).phase.busy = some p) : w.stage p ≠ .before :=
    h.subject_stage k p (Phase.subject_of_busy hk)
  exact
    { h with
      nodup :=
        List.Nodup.append h.nodup (List.nodup_singleton n) (List.disjoint_singleton.mpr hn)
      err_stage := fun p hp => hne p (.inl (h.err_stage p hp))
      ready_stage := fun p hp => hne p (.inl (h.ready_stage p hp))
      subject_stage := fun k p hp => hne p (.inl (h.subject_stage k p hp))
      line_stage := fun p hp => by
        rcases List.mem_append.mp hp with hmem | hmem
        · exact hne p (.inl (h.line_stage p hmem))
        · exact hne p (.inr (List.mem_singleton.mp hmem))
      peeked := fun k p hr hp => List.mem_append_left _ (h.peeked k p hr hp)
      filling := fun k p hp => by
        have hb := hsubject (Phase.busy_of_filling hp)
        rcases h.filling k p hp with ⟨hr, hmem⟩ | ⟨hs, hnot⟩
        · exact .inl ⟨hr, List.mem_append_left _ hmem⟩
        · exact .inr ⟨(hstage hb).trans hs, hline hb hnot⟩
      past := fun k p hp => by
        refine hline (h.subject_stage k p ?_) (h.past k p hp)
        have hp' : (w.readers k).phase.past = some p := hp
        cases hph : (w.readers k).phase <;> rw [hph] at hp' <;> simp_all [Phase.past, Phase.subject]
      ended := fun p hp => by
        obtain ⟨hp, hb⟩ := hover hp
        obtain ⟨hnot, hall⟩ := h.ended p hp
        exact ⟨hline hb hnot, fun k hk => (hstage hb).trans (hall k hk)⟩
      put_stage := fun p hp => by
        have hs := h.put_stage p hp
        rw [hstage (by rw [hs]; simp), hs]
      released := fun p hp => by
        obtain ⟨hs, hall⟩ := h.released p hp
        exact ⟨(hstage (by rw [hs]; simp)).trans hs, hall⟩ }

/-- What is so when a caller leaves its stage. -/
theorem leaving (h : w.Kept) {n : ℕ} {st : Stage} (ha : w.Enabled (.settle n st)) :
    st ≠ .before ∧ w.stage n ≠ .transferred ∧ w.stage n ≠ .put ∧
      ((w.next (.settle n st)).Over n →
        n ∉ w.line ∧ ∀ k, (w.readers k).phase.busy = some n → st = .transferred) := by
  -- an outcome that was there before, of a caller that has not left
  have hold (ho : w.Over n) (hn : w.stage n ≠ .transferred) :
      n ∉ w.line ∧ ∀ k, (w.readers k).phase.busy = some n → st = .transferred := by
    obtain ⟨hline, hall⟩ := h.ended n ho
    exact ⟨hline, fun k hk => absurd (hall k hk) hn⟩
  simp only [Enabled] at ha
  split at ha
  case _ hst =>
    subst ha
    refine ⟨by simp, by simp [hst], by simp [hst], fun _ => ⟨fun hmem => ?_, fun k hk => ?_⟩⟩
    · exact h.line_stage n hmem hst
    · exact absurd hst (h.subject_stage k n (Phase.subject_of_busy hk))
  case _ hst =>
    rcases ha with rfl | ⟨rfl, hready⟩ | ⟨rfl, herr⟩
    · refine ⟨by simp, by simp [hst], by simp [hst], fun ho => ?_⟩
      have ho : w.Over n := by
        rcases ho with he | hr | hs | hs | hs | hl
        · exact .inl he
        · exact .inr (.inl hr)
        · simp [Wire.next] at hs
        · simp [Wire.next] at hs
        · simp [Wire.next] at hs
        · exact .inr (.inr (.inr (.inr (.inr hl))))
      exact ⟨(h.ended n ho).1, fun _ _ => rfl⟩
    · exact ⟨by simp, by simp [hst], by simp [hst],
        fun _ => hold (.inr (.inl hready)) (by simp [hst])⟩
    · exact ⟨by simp, by simp [hst], by simp [hst], fun _ => hold (.inl herr) (by simp [hst])⟩
  case _ hst =>
    subst ha
    exact ⟨by simp, by simp [hst], by simp [hst],
      fun _ => hold (.inr (.inr (.inr (.inl hst)))) (by simp [hst])⟩
  case _ => exact ha.elim

/-- A caller leaves its stage. -/
theorem settle (h : w.Kept) {n : ℕ} {st : Stage} (ha : w.Enabled (.settle n st)) :
    (w.next (.settle n st)).Kept := by
  obtain ⟨hst, hntrans, hnput, hover⟩ := h.leaving ha
  have hother {p : ℕ} (hp : p ≠ n) : (w.next (.settle n st)).stage p = w.stage p :=
    Function.update_of_ne hp _ _
  have hne (p : ℕ) (hp : w.stage p ≠ .before) : (w.next (.settle n st)).stage p ≠ .before := by
    rcases eq_or_ne p n with rfl | hpn
    · simpa [Wire.next] using hst
    · rw [hother hpn]
      exact hp
  have hready {p : ℕ} (hp : (w.next (.settle n st)).ready p = true) : w.ready p = true := by
    simp only [Wire.next] at hp
    split at hp
    · rcases eq_or_ne p n with rfl | hpn
      · simp at hp
      · rwa [Function.update_of_ne hpn] at hp
    · exact hp
  have hlog {e : Event} (he : e ∈ (w.next (.settle n st)).log) : e ∈ w.log ∨ st = .put ∧ e = .put n := by
    simp only [Wire.next] at he
    split at he
    · rcases List.mem_cons.mp he with rfl | hmem
      · exact .inr ⟨‹_›, rfl⟩
      · exact .inl hmem
    · exact .inl he
  have hrel {p : ℕ} (hp : .released p ∈ (w.next (.settle n st)).log) : .released p ∈ w.log :=
    (hlog hp).elim id fun hput => by simp at hput
  -- a returned object is not the one of `n`
  have hnot {p : ℕ} (hp : .put p ∈ w.log ∨ .released p ∈ w.log) : p ≠ n := by
    rintro rfl
    rcases hp with hp | hp
    · exact hnput (h.put_stage p hp)
    · exact hntrans (h.released p hp).1
  exact
    { h with
      err_stage := fun p hp => hne p (h.err_stage p hp)
      ready_stage := fun p hp => hne p (h.ready_stage p (hready hp))
      subject_stage := fun k p hp => hne p (h.subject_stage k p hp)
      line_stage := fun p hp => hne p (h.line_stage p hp)
      filling := fun k p hp => by
        rcases h.filling k p hp with hmem | ⟨hs, hline⟩
        · exact .inl hmem
        · exact .inr ⟨(hother fun hpn => hntrans (hpn ▸ hs)).trans hs, hline⟩
      ended := fun p hp => by
        rcases eq_or_ne p n with rfl | hpn
        · obtain ⟨hline, hall⟩ := hover hp
          exact ⟨hline, fun k hk => by simpa [Wire.next] using hall k hk⟩
        · rw [Over, hother hpn] at hp
          rw [hother hpn]
          exact h.ended p (hp.imp id (.imp hready (.imp id (.imp id (.imp id hrel)))))
      put_stage := fun p hp => by
        rcases hlog hp with hold | ⟨rfl, hpn⟩
        · exact (hother (hnot (.inl hold))).trans (h.put_stage p hold)
        · obtain rfl := Event.put.inj hpn
          simp [Wire.next]
      released := fun p hp => by
        obtain ⟨hs, hall⟩ := h.released p (hrel hp)
        exact ⟨(hother (hnot (.inr (hrel hp)))).trans hs, hall⟩
      ordered := by
        simp only [Wire.next]
        split
        · refine List.pairwise_cons.mpr ⟨fun e he p hp => ⟨by simp, by simp, fun hpn => ?_⟩, h.ordered⟩
          refine hnot (p := p) ?_ (Event.put.inj hpn).symm
          rcases hp with rfl | rfl
          · exact .inl he
          · exact .inr he
        · exact h.ordered }

/-- An error is put on the channel of a request that has left the line. -/
theorem setErr (h : w.Kept) {p : ℕ} (hline : p ∉ w.line) (hst : w.stage p ≠ .before)
    (hbusy : ∀ k, (w.readers k).phase.busy ≠ some p) (b : Bool) :
    { w with err := update w.err p (b || w.err p) }.Kept := by
  have herr {q : ℕ} (hq : update w.err p (b || w.err p) q = true) : q = p ∨ w.err q = true := by
    rcases eq_or_ne q p with rfl | hne
    · exact .inl rfl
    · rw [Function.update_of_ne hne] at hq
      exact .inr hq
  exact
    { h with
      err_stage := fun q hq => (herr hq).elim (fun hqp => hqp ▸ hst) (h.err_stage q)
      ended := fun q hq => by
        rcases hq with hq | hq
        · rcases herr hq with rfl | hold
          · exact ⟨hline, fun k hk => absurd hk (hbusy k)⟩
          · exact h.ended q (.inl hold)
        · exact h.ended q (.inr hq) }

/-- A response is put on the channel of a request that has left the line. -/
theorem setReady (h : w.Kept) {p : ℕ} (hline : p ∉ w.line) (hst : w.stage p ≠ .before)
    (hbusy : ∀ k, (w.readers k).phase.busy ≠ some p) :
    { w with ready := update w.ready p true }.Kept := by
  have hready {q : ℕ} (hq : update w.ready p true q = true) : q = p ∨ w.ready q = true := by
    rcases eq_or_ne q p with rfl | hne
    · exact .inl rfl
    · rw [Function.update_of_ne hne] at hq
      exact .inr hq
  exact
    { h with
      ready_stage := fun q hq => (hready hq).elim (fun hqp => hqp ▸ hst) (h.ready_stage q)
      ended := fun q hq => by
        rcases hq with hq | hq | hq
        · exact h.ended q (.inl hq)
        · rcases hready hq with rfl | hold
          · exact ⟨hline, fun k hk => absurd hk (hbusy k)⟩
          · exact h.ended q (.inr (.inl hold))
        · exact h.ended q (.inr (.inr hq)) }

/-- A reader returns the object of a caller that has left. -/
theorem release (h : w.Kept) {p : ℕ} (hline : p ∉ w.line) (hst : w.stage p = .transferred)
    (hbusy : ∀ k, (w.readers k).phase.busy ≠ some p) (hfirst : .released p ∉ w.log) :
    { w with log := .released p :: w.log }.Kept := by
  have hmem {q : ℕ} (hq : .released q ∈ Event.released p :: w.log) : q = p ∨ .released q ∈ w.log := by
    rcases List.mem_cons.mp hq with heq | hold
    · exact .inl (Event.released.inj heq)
    · exact .inr hold
  exact
    { h with
      ended := fun q hq => by
        rcases hq with hq | hq | hq | hq | hq | hq
        · exact h.ended q (.inl hq)
        · exact h.ended q (.inr (.inl hq))
        · exact h.ended q (.inr (.inr (.inl hq)))
        · exact h.ended q (.inr (.inr (.inr (.inl hq))))
        · exact h.ended q (.inr (.inr (.inr (.inr (.inl hq)))))
        · rcases hmem hq with rfl | hold
          · exact ⟨hline, fun k hk => absurd hk (hbusy k)⟩
          · exact h.ended q (.inr (.inr (.inr (.inr (.inr hold)))))
      put_stage := fun q hq => h.put_stage q (by simpa using hq)
      released := fun q hq => by
        rcases hmem hq with rfl | hold
        · exact ⟨hst, hbusy⟩
        · exact h.released q hold
      ordered := by
        refine List.pairwise_cons.mpr ⟨fun e he q hq => ⟨by simp, fun hqp => ?_, by simp⟩, h.ordered⟩
        obtain rfl := Event.released.inj hqp
        rcases hq with rfl | rfl
        · exact absurd (hst.symm.trans (h.put_stage p he)) (by simp)
        · exact hfirst he }

/-- A reader hands a response over, or returns the object of a caller that has left. -/
theorem deliver (h : w.Kept) {k p : ℕ} {o : Parsed} {send release : Bool} {ph : Phase}
    (ha : w.Enabled (.deliver k p o send release ph)) :
    (w.next (.deliver k p o send release ph)).Kept := by
  obtain ⟨hphase, hsend, hrelease, hph⟩ := ha
  have hbusy : (w.readers k).phase.busy = some p := by rw [hphase]; rfl
  have hline : p ∉ w.line := h.past k p (by rw [hphase]; rfl)
  have hst : w.stage p ≠ .before := h.subject_stage k p (by rw [hphase]; rfl)
  have hph' : ph = .dead ∨ ph = .idle ∨ ph = .failing p := by
    split at hph
    · exact hph.imp id .inr
    · exact hph.imp id .inl
  have hmoved : (w.setPhase k ph).Kept := by
    refine h.setPhase (h.born (by simp [hphase])) ?_ ?_ ?_ ?_ ?_ ?_ <;>
      rcases hph' with rfl | rfl | rfl <;>
      simp_all [Phase.subject, Phase.filling, Phase.past, Phase.busy]
  cases send with
  | true =>
    obtain ⟨hret, rfl⟩ := hsend rfl
    rw [if_neg hret] at hph
    have hne : ph.busy ≠ some p := by rcases hph with rfl | rfl <;> simp [Phase.busy]
    exact (hmoved.setReady hline hst (h.free hbusy hne)).event _ (by simp) (by simp) (by simp)
  | false =>
    cases release with
    | true =>
      obtain ⟨htrans, hnot⟩ := hrelease rfl
      have hne : ph.busy ≠ some p := by
        rcases hph' with rfl | rfl | rfl
        · simp [Phase.busy]
        · simp [Phase.busy]
        · exact absurd rfl hnot
      exact hmoved.release hline htrans (h.free hbusy hne) fun hrel => (h.released p hrel).2 k hbusy
    | false => exact hmoved

/-- Undisturbed actions keep response objects in one hand. -/
theorem next (h : w.Kept) {a : Action} (ha : w.Enabled a) (hu : w.Undisturbed a) :
    (w.next a).Kept := by
  cases a with
  | dial => exact h.of_eq rfl rfl rfl (fun _ => rfl) rfl rfl rfl rfl
  | close i => exact h.of_eq rfl rfl rfl (fun _ => rfl) rfl rfl rfl rfl
  | tear i => exact h.of_eq rfl rfl rfl (fun _ => rfl) rfl rfl rfl rfl
  | write n i q => exact h.write ha.1
  | register i => exact h.register ha.1
  | drop => exact h.drop hu
  | peek k p =>
    refine h.setPhase (h.born (by simp [ha.1])) (by simp) ?_ ?_ (by simp [Phase.filling])
      (by simp [Phase.past]) (by simp [Phase.busy])
    · intro q hq
      cases hq
      exact h.line_stage p (List.mem_of_mem_head? ha.2)
    · intro q _ hq
      cases hq
      exact List.mem_of_mem_head? ha.2
  | pass k p =>
    have ha : (w.readers k).phase = .peeked p := ha
    have hmem := h.peeked k p hu ha
    refine h.setPhase (h.born (by simp [ha])) (by simp) ?_ (by simp) ?_ (by simp [Phase.past]) ?_ <;>
      intro q hq <;> cases hq
    · exact h.line_stage p hmem
    · exact .inl ⟨hu, hmem⟩
    · exact .inr ⟨hu, hmem⟩
  | skip k p => exact hu.elim
  | reset k p =>
    have ha : (w.readers k).phase = .inside p := ha
    exact Kept.touch (h.event (.began (w.readers k).stream) (by simp) (by simp) (by simp))
      (k := k) (by rw [ha]; rfl)
  | fetch k p m =>
    have hfilling : (w.readers k).phase.filling = some p := by rw [ha.1]; rfl
    refine (h.touch hfilling).of_eq rfl rfl rfl (fun m' => ?_) rfl rfl rfl rfl
    rcases eq_or_ne m' k with rfl | hm
    · simp only [Wire.next, Function.update_self]
    · simp only [Wire.next, Function.update_of_ne hm]
  | finish k p ret cut closes =>
    have hin := ha.1
    have hfilling : (w.readers k).phase.filling = some p := by rw [hin]; rfl
    have hmoved : (w.setPhase k (.parsed p ((w.readers k).outcome ret closes))).Kept := by
      refine h.setPhase (h.born (by simp [hin])) (by simp) ?_ (by simp) ?_ (by simp [Phase.past]) ?_ <;>
        intro q hq <;> cases hq
      · exact h.subject_stage k p (by rw [hin]; rfl)
      · exact h.filling k p hfilling
      · exact .inl (Phase.busy_of_filling hfilling)
    refine (hmoved.parseEvents (w.readers k).stream ret cut (k := k) (p := p)
      (by simp [Wire.setPhase, Phase.filling])).of_eq rfl rfl rfl (fun m => ?_) rfl rfl rfl rfl
    rcases eq_or_ne m k with rfl | hm
    · simp only [Wire.next, Wire.setPhase, Function.update_self, if_true]
    · simp only [Wire.next, Wire.setPhase, Function.update_of_ne hm, hm, if_false]
  | removeSkipped k p => exact absurd ha (h.no_skip k p).1
  | remove k p o => exact h.remove ha
  | deliver k p o send release ph => exact h.deliver ha
  | fail k p send ph =>
    rcases ha with ⟨hphase, -⟩ | ⟨hphase, rfl⟩
    · exact absurd hphase (h.no_skip k p).2
    · have hbusy : (w.readers k).phase.busy = some p := by rw [hphase]; rfl
      have hdead : (w.setPhase k .dead).Kept :=
        h.setPhase (h.born (by simp [hphase])) (by simp) (by simp [Phase.subject]) (by simp)
          (by simp [Phase.filling]) (by simp [Phase.past]) (by simp [Phase.busy])
      exact hdead.setErr (h.past k p (by rw [hphase]; rfl))
        (h.subject_stage k p (by rw [hphase]; rfl)) (h.free hbusy (by simp [Phase.busy])) send
  | retire k =>
    refine h.setPhase (h.born ?_) (by simp) (by simp [Phase.subject]) (by simp)
      (by simp [Phase.filling]) (by simp [Phase.past]) (by simp [Phase.busy])
    rcases ha with ha | ⟨p, ha⟩ <;> simp [ha]
  | settle n st => exact h.settle ha

theorem new : Sys.new.wire.Kept := by
  have hover (p : ℕ) : ¬ Sys.new.wire.Over p := by
    rintro (h | h | h | h | h | h) <;> cases h
  exact
    { unborn := fun k _ => rfl
      no_skip := fun k p => ⟨(fun h => by cases h), (fun h => by cases h)⟩
      nodup := List.nodup_nil
      err_stage := fun p h => by cases h
      ready_stage := fun p h => by cases h
      subject_stage := fun k p h => by cases h
      line_stage := fun p hp => absurd hp List.not_mem_nil
      peeked := fun k p h => by cases h
      filling := fun k p h => by cases h
      past := fun k p h => by cases h
      sole := fun k k' p h => by cases h
      ended := fun p h => absurd h (hover p)
      put_stage := fun p hp => absurd hp List.not_mem_nil
      released := fun p hp => absurd hp List.not_mem_nil
      ordered := List.Pairwise.nil }

end Kept

instance (w : Wire) (a : Action) : Decidable (w.Undisturbed a) :=
  match a with
  | .drop => inferInstanceAs (Decidable (∀ k < w.numReaders,
      ∀ p ∈ (w.readers k).phase.filling, w.stage p = .transferred))
  | .pass k _ => inferInstanceAs (Decidable (w.reg = some k))
  | .skip _ _ => .isFalse id
  | .dial | .close _ | .write _ _ _ | .tear _ | .register _ | .peek _ _ | .reset _ _
  | .fetch _ _ _ | .finish _ _ _ _ _ | .removeSkipped _ _ | .remove _ _ _
  | .deliver _ _ _ _ _ _ | .fail _ _ _ _ | .retire _ | .settle _ _ => .isTrue trivial

end Wire

/-- The step performs an action that disturbs no owner, if it performs any. -/
def Sys.Undisturbed (s : Sys) (l : Tid × Choice) : Prop := ∀ a ∈ s.action l, s.wire.Undisturbed a

instance (s : Sys) (l : Tid × Choice) : Decidable (s.Undisturbed l) :=
  inferInstanceAs (Decidable (∀ a ∈ s.action l, s.wire.Undisturbed a))

/-- In undisturbed runs, response objects are in one hand at a time. -/
theorem reaches_kept {cfg : Config} {s : Sys}
    (h : Guarded.Reaches (Sys.step cfg) Sys.Undisturbed Sys.new s) : s.Sound ∧ s.wire.Kept :=
  reaches_wire Wire.Undisturbed Wire.Kept Wire.Kept.new (fun _ _ hw => hw.next) h

/-- In every undisturbed run, once `DoWithContext` has put a response object back because the
call failed, no reader writes to it: no reset, no parse, no release. -/
theorem untouched_after_put (cfg : Config) (s : Sys)
    (h : Guarded.Reaches (Sys.step cfg) Sys.Undisturbed Sys.new s) :
    s.log.Pairwise fun later earlier =>
      ∀ p, earlier = .put p → later ≠ .touched p ∧ later ≠ .released p :=
  (reaches_kept h).2.ordered.imp fun hfollow p hp =>
    ⟨(hfollow p (.inl hp)).1, (hfollow p (.inl hp)).2.1⟩

/-- Caller 1 dials, starts reader 0 and writes; the answer cannot be read, the caller gets
the error and puts the object back. -/
def failedRead : List (Tid × Choice) :=
  steps (.caller 1) 26 ++ steps (.reader 0) 5 ++ [(.reader 0, .finish .early false false)] ++
    steps (.reader 0) 13 ++ [(.caller 1, .takeErr), (.client 1, .plain)]

theorem untouched_after_put_failedRead :
    ∃ s, Guarded.Reaches (Sys.step rotating) Sys.Undisturbed Sys.new s ∧
      .put 1 ∈ s.log ∧ s.log.Pairwise fun later earlier =>
        ∀ p, earlier = .put p → later ≠ .touched p ∧ later ≠ .released p := by
  obtain ⟨s, hs, hput⟩ := Guarded.exists_of_exec (Sys.step rotating) Sys.Undisturbed Sys.new
    failedRead (fun s => .put 1 ∈ s.log) (by decide +kernel)
  exact ⟨s, hs, hput, untouched_after_put rotating s hs⟩

/-- Reader 0 has the response of caller 1 in its buffer when the connection is stopped.
Caller 1 is given the error and puts the object back, and the parse goes on to its end. -/
def stoppedParse : List (Tid × Choice) :=
  steps (.caller 1) 26 ++ steps (.reader 0) 5 ++ [(.reader 0, .fetch 1)] ++ steps (.stopper 0) 8 ++
    [(.caller 1, .takeErr), (.client 1, .plain), (.reader 0, .finish .ok false false)]

/-- Without that condition, a reader writes to an object that is back in the pool. -/
theorem touched_after_put :
    ∃ s, Guarded.Reaches (Sys.step rotating) (fun _ _ => True) Sys.new s ∧
      ¬ s.log.Pairwise fun later earlier =>
        ∀ p, earlier = .put p → later ≠ .touched p ∧ later ≠ .released p := by
  obtain ⟨s, hs, rest, hlog⟩ := Guarded.exists_of_exec (Sys.step rotating) (fun _ _ => True) Sys.new
    stoppedParse (fun s => [Event.touched 1, .put 1] <+: s.log) (by decide +kernel)
  refine ⟨s, hs, fun hpairs => ?_⟩
  rw [← hlog] at hpairs
  exact ((List.pairwise_cons.mp hpairs).1 (.put 1) (by simp) 1 rfl).1 rfl

end BurstHttp.Pipeline
