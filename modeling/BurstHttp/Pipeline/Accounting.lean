/-
`activeReqs` counts the requests in flight.

A request is *owed* a decrement from the moment `doPipelined` has counted it until it
uncounts it after a failed write, or a response reader does.  In runs that are
*matched* (`Sys.Matched`: `closeConn` drops only requests that a reader has taken up,
and a reader takes up a request only while it is queued and no other reader has it)
`activeReqs` is the number of requests owed.

* `Sys.Accounted` — the invariant, `step_accounted` — matched steps keep it;
* `activeReqs_matched` — so the counter is at zero when nothing is in flight;
* `activeReqs_leaked` — in a run that is not matched it need not be.
-/
import BurstHttp.Lib.Tally
import BurstHttp.Pipeline.Pairing

namespace BurstHttp.Pipeline

open Function (update)
open Guarded (Reaches)

/-- The caller has counted its request and has not put it into `pendingReqs`. -/
def CallerPc.counted : CallerPc → Bool
  | .write _ | .uncount | .append => true
  | _ => false

/-- The caller is behind its section under `pendingMu`. -/
def CallerPc.sent : CallerPc → Bool
  | .signal | .wait | .setRelease | .setCancelled | .returned _ | .released => true
  | _ => false

/-- `Do` has not been called, or has returned. -/
def CallerPc.quiet : CallerPc → Bool
  | .idle | .returned _ | .released => true
  | _ => false

/-- The request a reader has taken up and not yet removed. -/
def ReaderPc.took : ReaderPc → Option ℕ
  | .skipCount p | .skipRemove p | .reset p | .parse p | .loadCancelled p _ | .uncount p _ _
  | .remove p _ _ => some p
  | _ => none

/-- The request a reader has taken up and not yet uncounted. -/
def ReaderPc.owing : ReaderPc → Option ℕ
  | .skipCount p | .reset p | .parse p | .loadCancelled p _ | .uncount p _ _ => some p
  | _ => none

theorem ReaderPc.took_of_owing {pc : ReaderPc} {p : ℕ} (h : pc.owing = some p) :
    pc.took = some p := by
  cases pc <;> first | exact h | cases h

namespace Sys

/-- The request is counted, and a decrement is due. -/
def Owes (s : Sys) (p : ℕ) : Prop :=
  (s.callers p).counted = true ∨ (p ∈ s.pendingReqs ∧ ∀ k, (s.readers k).pc.took ≠ some p) ∨
    ∃ k, (s.readers k).pc.owing = some p

/-- No call of `doPipelined` is in progress, and no request is queued or being read. -/
def Quiet (s : Sys) : Prop :=
  (∀ n, (s.callers n).quiet = true) ∧ s.pendingReqs = [] ∧ ∀ k, (s.readers k).pc.took = none

structure Accounted (s : Sys) : Prop where
  nodup : s.pendingReqs.Nodup
  queued : ∀ p ∈ s.pendingReqs, (s.callers p).sent = true
  taken : ∀ k p, (s.readers k).pc.took = some p → (s.callers p).sent = true
  once : ∀ k m p, (s.readers k).pc.took = some p → (s.readers m).pc.took = some p → k = m
  born : ∀ k, s.numReaders ≤ k → (s.readers k).pc = .exited
  counts : Tally.Counts s.Owes s.activeReqs

/-- The condition under which increments and decrements match: `closeConn` drops only requests
that a reader has taken up, and a reader takes up a request only while it is queued and no
other reader has it. -/
def MatchedAction (s : Sys) : Action → Prop
  | .drop => ∀ p ∈ s.pendingReqs, ∃ k < s.numReaders, (s.readers k).pc.took = some p
  | .pass k p | .skip k p =>
    p ∈ s.pendingReqs ∧ ∀ m < s.numReaders, m ≠ k → (s.readers m).pc.took ≠ some p
  | _ => True

instance (s : Sys) (a : Action) : Decidable (s.MatchedAction a) :=
  match a with
  | .drop => inferInstanceAs
      (Decidable (∀ p ∈ s.pendingReqs, ∃ k < s.numReaders, (s.readers k).pc.took = some p))
  | .pass k p | .skip k p => inferInstanceAs (Decidable
      (p ∈ s.pendingReqs ∧ ∀ m < s.numReaders, m ≠ k → (s.readers m).pc.took ≠ some p))
  | .dial | .close _ | .write _ _ _ | .tear _ | .register _ | .peek _ _ | .reset _ _
  | .fetch _ _ _ | .finish _ _ _ _ _ | .removeSkipped _ _ | .remove _ _ _
  | .deliver _ _ _ _ _ _ | .fail _ _ _ _ | .retire _ | .settle _ _ => .isTrue trivial

/-- The step performs an action that is matched, if it performs any. -/
def Matched (s : Sys) (l : Tid × Choice) : Prop := ∀ a ∈ s.action l, s.MatchedAction a

instance (s : Sys) (l : Tid × Choice) : Decidable (s.Matched l) :=
  inferInstanceAs (Decidable (∀ a ∈ s.action l, s.MatchedAction a))

namespace Accounted

variable {s s' : Sys}

theorem new : Sys.new.Accounted where
  nodup := List.nodup_nil
  queued := by simp [Sys.new]
  taken := by simp [Sys.new, ReaderPc.took]
  once := by simp [Sys.new, ReaderPc.took]
  born := by simp [Sys.new]
  counts := Tally.Counts.zero (by simp [Owes, Sys.new, CallerPc.counted, ReaderPc.owing])

/-- Steps that take up nothing and remove nothing. -/
theorem recount (h : s.Accounted) (hreqs : s'.pendingReqs = s.pendingReqs)
    (hsent : ∀ n, (s.callers n).sent = true → (s'.callers n).sent = true)
    (htook : ∀ k, (s'.readers k).pc.took = (s.readers k).pc.took)
    (hborn : ∀ k, s'.numReaders ≤ k → (s'.readers k).pc = .exited)
    (hcounts : Tally.Counts s'.Owes s'.activeReqs) : s'.Accounted where
  nodup := hreqs ▸ h.nodup
  queued p hp := hsent p (h.queued p (hreqs ▸ hp))
  taken k p hp := hsent p (h.taken k p ((htook k).symm.trans hp))
  once k m p hk hm := h.once k m p ((htook k).symm.trans hk) ((htook m).symm.trans hm)
  born := hborn
  counts := hcounts

/-- Steps that do not count, either. -/
theorem frame (h : s.Accounted) (hreqs : s'.pendingReqs = s.pendingReqs)
    (hactive : s'.activeReqs = s.activeReqs)
    (hcallers : ∀ n, (s'.callers n).counted = (s.callers n).counted ∧
      ((s.callers n).sent = true → (s'.callers n).sent = true))
    (hreaders : ∀ k, (s'.readers k).pc.took = (s.readers k).pc.took ∧
      (s'.readers k).pc.owing = (s.readers k).pc.owing)
    (hborn : ∀ k, s'.numReaders ≤ k → (s'.readers k).pc = .exited) : s'.Accounted := by
  refine h.recount hreqs (fun n => (hcallers n).2) (fun k => (hreaders k).1) hborn ?_
  rw [hactive]
  refine h.counts.congr fun p => ?_
  simp only [Owes, (hcallers p).1, hreqs, (hreaders _).1, (hreaders _).2]

/-- A caller goes on. -/
theorem move (h : s.Accounted) {n : ℕ} {pc pc' : CallerPc} (hpc : s.callers n = pc)
    (hcallers : s'.callers = update s.callers n pc') (hreqs : s'.pendingReqs = s.pendingReqs)
    (hactive : s'.activeReqs = s.activeReqs) (hreaders : s'.readers = s.readers)
    (hnum : s'.numReaders = s.numReaders) (hcounted : pc'.counted = pc.counted)
    (hsent : pc.sent = true → pc'.sent = true) : s'.Accounted := by
  subst hpc
  refine h.frame hreqs hactive (fun m => ?_) (fun k => hreaders ▸ ⟨rfl, rfl⟩)
    (fun k hk => hreaders ▸ h.born k (hnum ▸ hk))
  rw [hcallers]
  rcases eq_or_ne m n with rfl | hmn
  · simpa only [Function.update_self] using ⟨hcounted, hsent⟩
  · simp only [Function.update_of_ne hmn, true_and]
    exact id

/-- A reader that steps has been started. -/
theorem lt_of_ne_exited (h : s.Accounted) {k : ℕ} (hk : (s.readers k).pc ≠ .exited) :
    k < s.numReaders := by
  by_contra hle
  exact hk (h.born k (by omega))

theorem setReader_pc (s : Sys) (k : ℕ) (r : ResponseReader) (m : ℕ) :
    ((s.setReader k r).readers m).pc = if m = k then r.pc else (s.readers m).pc := by
  rcases eq_or_ne m k with rfl | hmk
  · simp only [Sys.setReader, Function.update_self, if_true]
  · simp only [Sys.setReader, Function.update_of_ne hmk, hmk, if_false]

theorem setReaderPc_pc (s : Sys) (k : ℕ) (pc : ReaderPc) (m : ℕ) :
    ((s.setReaderPc k pc).readers m).pc = if m = k then pc else (s.readers m).pc :=
  setReader_pc s k _ m

/-- A reader goes on. -/
theorem moveReader (h : s.Accounted) {k : ℕ} {pc : ReaderPc} (hpc : (s.readers k).pc = pc)
    {s₁ : Sys} {r : ResponseReader} (hreaders : s₁.readers = s.readers)
    (hcallers : s₁.callers = s.callers) (hreqs : s₁.pendingReqs = s.pendingReqs)
    (hactive : s₁.activeReqs = s.activeReqs) (hnum : s₁.numReaders = s.numReaders)
    (hlive : pc ≠ .exited) (htook : r.pc.took = pc.took) (howing : r.pc.owing = pc.owing) :
    (s₁.setReader k r).Accounted := by
  subst hpc
  refine h.frame hreqs hactive (fun _ => hcallers ▸ ⟨rfl, id⟩) (fun m => ?_) (fun m hm => ?_)
  · rw [setReader_pc, hreaders]
    split
    · subst m
      exact ⟨htook, howing⟩
    · exact ⟨rfl, rfl⟩
  · have hm' : s.numReaders ≤ m := hnum ▸ hm
    rw [setReader_pc, hreaders]
    split
    · subst m
      exact absurd (h.born k hm') hlive
    · exact h.born m hm'

/-! ### The steps that count -/

/-- A caller that is still before its section is owed nothing. -/
theorem not_owes (h : s.Accounted) {n : ℕ} (hcounted : (s.callers n).counted = false)
    (hsent : (s.callers n).sent = false) : ¬s.Owes n := by
  rintro (hc | ⟨hq, -⟩ | ⟨k, hk⟩)
  · exact absurd (hcounted.symm.trans hc) (by simp)
  · exact absurd (hsent.symm.trans (h.queued n hq)) (by simp)
  · exact absurd (hsent.symm.trans (h.taken k n (ReaderPc.took_of_owing hk))) (by simp)

/-- A caller counts its request, or uncounts it after a failed write. -/
theorem callerCounts (h : s.Accounted) {n : ℕ} {pc' : CallerPc} {active : ℤ}
    (hsent : (s.callers n).sent = false)
    (hcounts : Tally.Counts (s.setCaller n pc').Owes active) :
    ({ s with activeReqs := active }.setCaller n pc').Accounted := by
  refine h.recount rfl (fun m hm => ?_) (fun _ => rfl) h.born hcounts
  have hmn : m ≠ n := by
    rintro rfl
    exact absurd (hsent.symm.trans hm) (by simp)
  simpa only [Sys.setCaller, Function.update_of_ne hmn] using hm

theorem count (h : s.Accounted) {n i : ℕ} (hpc : s.callers n = .count i) :
    ({ s with activeReqs := s.activeReqs + 1 }.setCaller n (.write i)).Accounted := by
  refine h.callerCounts (by rw [hpc]; rfl) (h.counts.add (a := n) ?_ fun m => ?_)
  · exact h.not_owes (by rw [hpc]; rfl) (by rw [hpc]; rfl)
  · rcases eq_or_ne m n with rfl | hmn
    · simp [Owes, Sys.setCaller, CallerPc.counted]
    · simp only [Owes, Sys.setCaller, Function.update_of_ne hmn, hmn, false_or]

theorem uncount (h : s.Accounted) {n : ℕ} (hpc : s.callers n = .uncount) :
    ({ s with activeReqs := s.activeReqs - 1 }.setCaller n .unlockFailed).Accounted := by
  refine h.callerCounts (by rw [hpc]; rfl) (h.counts.remove (a := n) ?_ fun m => ?_)
  · exact .inl (by rw [hpc]; rfl)
  · rcases eq_or_ne m n with rfl | hmn
    · -- nobody else could owe for it
      have hsent : (s.callers m).sent = false := by rw [hpc]; rfl
      refine ⟨?_, fun hne => absurd rfl hne.1⟩
      rintro (hc | ⟨hq, -⟩ | ⟨k, hk⟩)
      · simp [Sys.setCaller, CallerPc.counted] at hc
      · exact absurd (hsent.symm.trans (h.queued m hq)) (by simp)
      · exact absurd (hsent.symm.trans (h.taken k m (ReaderPc.took_of_owing hk))) (by simp)
    · simp only [Owes, Sys.setCaller, Function.update_of_ne hmn, ne_eq, hmn, not_false_eq_true,
        true_and]

/-- A request that was counted is queued. -/
theorem append (h : s.Accounted) {n : ℕ} (hpc : s.callers n = .append) :
    ({ s with pendingReqs := s.pendingReqs ++ [n], pendingMu := none }.setCaller n
      .signal).Accounted := by
  have hsent : (s.callers n).sent = false := by rw [hpc]; rfl
  have hline : n ∉ s.pendingReqs := fun hq => absurd (hsent.symm.trans (h.queued n hq)) (by simp)
  have htook (k : ℕ) : (s.readers k).pc.took ≠ some n := fun hk =>
    absurd (hsent.symm.trans (h.taken k n hk)) (by simp)
  have hkept (m : ℕ) (hm : (s.callers m).sent = true) :
      ((s.setCaller n .signal).callers m).sent = true := by
    rcases eq_or_ne m n with rfl | hmn
    · simp [Sys.setCaller, CallerPc.sent]
    · simpa only [Sys.setCaller, Function.update_of_ne hmn] using hm
  refine ⟨?_, fun p hp => ?_, fun k p hp => hkept p (h.taken k p hp), h.once, h.born,
    h.counts.congr fun m => ?_⟩
  · exact (List.nodup_append_comm.mp (List.nodup_cons.mpr ⟨hline, h.nodup⟩ :))
  · rcases List.mem_append.mp hp with hq | hn
    · exact hkept p (h.queued p hq)
    · obtain rfl := List.mem_singleton.mp hn
      simp [Sys.setCaller, CallerPc.sent]
  · rcases eq_or_ne m n with rfl | hmn
    · have howes : s.Owes m := .inl (by rw [hpc]; rfl)
      exact iff_of_true (.inr (.inl ⟨by simp [Sys.setCaller], htook⟩)) howes
    · simp [Owes, Sys.setCaller, hmn]

/-- A reader that goes on has no say in requests it neither had nor has. -/
theorem owes_other {k q : ℕ} {pc : ReaderPc} (hcallers : s'.callers = s.callers)
    (hline : q ∈ s'.pendingReqs ↔ q ∈ s.pendingReqs)
    (hreaders : ∀ m, (s'.readers m).pc = if m = k then pc else (s.readers m).pc)
    (hold : (s.readers k).pc.took ≠ some q) (hnew : pc.took ≠ some q) :
    s'.Owes q ↔ s.Owes q := by
  have htook (m : ℕ) : (s'.readers m).pc.took = some q ↔ (s.readers m).pc.took = some q := by
    rw [hreaders]
    split
    · subst m
      exact iff_of_false hnew hold
    · rfl
  have howing (m : ℕ) : (s'.readers m).pc.owing = some q ↔ (s.readers m).pc.owing = some q := by
    rw [hreaders]
    split
    · subst m
      exact iff_of_false (mt ReaderPc.took_of_owing hnew) (mt ReaderPc.took_of_owing hold)
    · rfl
  simp only [Owes, hcallers, hline, ne_eq, htook, howing]

/-- A reader takes up a queued request that no other reader has. -/
theorem take (h : s.Accounted) {k p : ℕ} {pc : ReaderPc} (hpc : (s.readers k).pc = .check p)
    (hq : p ∈ s.pendingReqs) (hother : ∀ m < s.numReaders, m ≠ k → (s.readers m).pc.took ≠ some p)
    (htook : pc.took = some p) (howing : pc.owing = some p) : (s.setReaderPc k pc).Accounted := by
  have hk : k < s.numReaders := h.lt_of_ne_exited (by simp [hpc])
  have hnone (m : ℕ) : (s.readers m).pc.took ≠ some p := by
    intro hm
    rcases eq_or_ne m k with rfl | hmk
    · rw [hpc] at hm
      cases hm
    · refine hother m (h.lt_of_ne_exited fun hex => ?_) hmk hm
      rw [hex] at hm
      cases hm
  refine ⟨h.nodup, h.queued, fun m q hm => ?_, fun m m' q hm hm' => ?_, fun m hm => ?_,
    h.counts.congr fun q => ?_⟩
  · rw [setReaderPc_pc] at hm
    split at hm
    · obtain rfl : p = q := Option.some_inj.mp (htook.symm.trans hm)
      exact h.queued p hq
    · exact h.taken m q hm
  · rw [setReaderPc_pc] at hm hm'
    split at hm <;> split at hm'
    · exact (‹m = k›).trans (‹m' = k›).symm
    · obtain rfl : p = q := Option.some_inj.mp (htook.symm.trans hm)
      exact absurd hm' (hnone m')
    · obtain rfl : p = q := Option.some_inj.mp (htook.symm.trans hm')
      exact absurd hm (hnone m)
    · exact h.once m m' q hm hm'
  · rw [setReaderPc_pc, if_neg (Nat.ne_of_gt (hk.trans_le hm))]
    exact h.born m hm
  · by_cases hqp : q = p
    · subst hqp
      exact iff_of_true (.inr (.inr ⟨k, by rw [setReaderPc_pc, if_pos rfl, howing]⟩))
        (.inr (.inl ⟨hq, hnone⟩))
    · exact owes_other rfl Iff.rfl (setReaderPc_pc s k pc) (by simp [hpc, ReaderPc.took])
        fun hk => hqp (Option.some_inj.mp (hk.symm.trans htook))

/-- A request is not owed once it is sent, and no reader is to uncount it. -/
theorem not_owes_of_sent {p : ℕ} (hsent : (s.callers p).sent = true)
    (hline : p ∈ s.pendingReqs → ∃ k, (s.readers k).pc.took = some p)
    (hother : ∀ m, (s.readers m).pc.owing ≠ some p) : ¬s.Owes p := by
  rintro (hc | ⟨hq, hnone⟩ | ⟨m, hm⟩)
  · cases hcall : s.callers p <;> simp_all [CallerPc.counted, CallerPc.sent]
  · obtain ⟨k, hk⟩ := hline hq
    exact hnone k hk
  · exact hother m hm

/-- Nobody but the reader that has taken a request up is to uncount it. -/
theorem owing_ne (h : s.Accounted) {k p : ℕ} (htook : (s.readers k).pc.took = some p) {m : ℕ}
    (hmk : m ≠ k) : (s.readers m).pc.owing ≠ some p := fun hm =>
  hmk (h.once m k p (ReaderPc.took_of_owing hm) htook)

/-- The reader that has taken a request up uncounts it. -/
theorem pay (h : s.Accounted) {k p : ℕ} {pc pc' : ReaderPc} (hpc : (s.readers k).pc = pc)
    (howing : pc.owing = some p) (htook' : pc'.took = some p) (howing' : pc'.owing = none) :
    ({ s with activeReqs := s.activeReqs - 1 }.setReaderPc k pc').Accounted := by
  subst hpc
  have htook := ReaderPc.took_of_owing howing
  have hk : k < s.numReaders := h.lt_of_ne_exited fun hex => by
    rw [hex] at htook
    cases htook
  refine h.recount rfl (fun _ => id) (fun m => ?_) (fun m hm => ?_)
    (h.counts.remove (a := p) (.inr (.inr ⟨k, howing⟩)) fun q => ?_)
  · rw [setReaderPc_pc]
    split
    · subst m
      exact htook'.trans htook.symm
    · rfl
  · rw [setReaderPc_pc, if_neg (Nat.ne_of_gt (hk.trans_le hm))]
    exact h.born m hm
  · by_cases hqp : q = p
    · subst hqp
      refine iff_of_false (not_owes_of_sent (h.taken k q htook) (fun _ => ⟨k, ?_⟩) fun m => ?_)
        fun hne => hne.1 rfl
      · rw [setReaderPc_pc, if_pos rfl, htook']
      · rw [setReaderPc_pc]
        split
        · simp [howing']
        · exact h.owing_ne htook ‹_›
    · have hne : some p ≠ some q := fun hpq => hqp (Option.some_inj.mp hpq).symm
      rw [and_iff_right hqp]
      exact owes_other rfl Iff.rfl (setReaderPc_pc _ k pc') (htook ▸ hne) (htook' ▸ hne)

/-- The reader removes a request it has uncounted. -/
theorem remove (h : s.Accounted) {k p : ℕ} {pc pc' : ReaderPc} (hpc : (s.readers k).pc = pc)
    (htook : pc.took = some p) (howing : pc.owing = none) (htook' : pc'.took = none) :
    ({ s with pendingReqs := s.pendingReqs.erase p }.setReaderPc k pc').Accounted := by
  subst hpc
  have hk : k < s.numReaders := h.lt_of_ne_exited fun hex => by
    rw [hex] at htook
    cases htook
  have howing' (q : ℕ) : pc'.owing ≠ some q := fun hq =>
    absurd (htook'.symm.trans (ReaderPc.took_of_owing hq)) (by simp)
  have htaken (m q : ℕ)
      (hm : (({ s with pendingReqs := s.pendingReqs.erase p }.setReaderPc k pc').readers m).pc.took
        = some q) : (s.readers m).pc.took = some q := by
    rw [setReaderPc_pc] at hm
    split at hm
    · exact absurd (htook'.symm.trans hm) (by simp)
    · exact hm
  refine ⟨h.nodup.erase p, fun q hq => h.queued q (List.mem_of_mem_erase hq),
    fun m q hm => h.taken m q (htaken m q hm),
    fun m m' q hm hm' => h.once m m' q (htaken m q hm) (htaken m' q hm'), fun m hm => ?_,
    h.counts.congr fun q => ?_⟩
  · rw [setReaderPc_pc, if_neg (Nat.ne_of_gt (hk.trans_le hm))]
    exact h.born m hm
  · by_cases hqp : q = p
    · subst hqp
      refine iff_of_false (not_owes_of_sent (h.taken k q htook) (fun hq => ?_) fun m => ?_)
        (not_owes_of_sent (h.taken k q htook) (fun _ => ⟨k, htook⟩) fun m => ?_)
      · exact absurd hq h.nodup.not_mem_erase
      · rw [setReaderPc_pc]
        split
        · exact howing' q
        · exact h.owing_ne htook ‹_›
      · by_cases hmk : m = k
        · subst m
          simp [howing]
        · exact h.owing_ne htook hmk
    · have hne : some p ≠ some q := fun hpq => hqp (Option.some_inj.mp hpq).symm
      exact owes_other rfl (List.mem_erase_of_ne hqp) (setReaderPc_pc _ k pc') (htook ▸ hne)
        (by simp [htook'])

/-- The queue is dropped while a reader has every request in it. -/
theorem drop (h : s.Accounted)
    (htook : ∀ p ∈ s.pendingReqs, ∃ k < s.numReaders, (s.readers k).pc.took = some p) :
    s.dropPending.Accounted := by
  refine ⟨List.nodup_nil, fun p hp => absurd hp List.not_mem_nil, h.taken, h.once, h.born,
    h.counts.congr fun q => ?_⟩
  have hnone : ¬(q ∈ s.pendingReqs ∧ ∀ k, (s.readers k).pc.took ≠ some q) := by
    rintro ⟨hq, hn⟩
    obtain ⟨k, -, hk⟩ := htook q hq
    exact hn k hk
  simp [Owes, dropPending, hnone]

end Accounted

end Sys

/-! ### Steps -/

section Steps

variable {cfg : Config} {s s' : Sys}

/-- Every queued request has been taken up by a reader. -/
def Sys.AllTaken (s : Sys) : Prop :=
  ∀ p ∈ s.pendingReqs, ∃ k < s.numReaders, (s.readers k).pc.took = some p

theorem closeConn_accounted (h : s.Accounted) {pc : ClosePc} {r : Option ClosePc}
    (hdrop : Sys.closeAction pc = some .drop → s.AllTaken)
    (hs : s.closeConn pc = some (s', r)) : s'.Accounted := by
  have hpcs := closeConn_readers hs
  match pc with
  | .cas | .load =>
    simp only [Sys.closeConn] at hs
    split at hs <;> cases hs <;> exact { h with }
  | .close _ | .storeNil | .unhealthy | .stop none =>
    cases hs
    exact { h with }
  | .drop =>
    simp only [Sys.closeConn] at hs
    split at hs <;> cases hs
    exact h.drop (hdrop rfl)
  | .stop (some k) =>
    cases hs
    exact h.frame rfl rfl (fun _ => ⟨rfl, id⟩) (fun m => hpcs m ▸ ⟨rfl, rfl⟩)
      (fun m hm => (hpcs m).trans (h.born m hm))

theorem ensureConnection_accounted (h : s.Accounted) {n : ℕ} {ch : Choice} {pc : EnsurePc}
    {r : EnsurePc ⊕ Bool} (hs : s.ensureConnection cfg n ch pc = some (s', r)) :
    s'.Accounted := by
  match pc with
  | .test | .retest =>
    cases hs
    exact h
  | .lock | .load | .dial =>
    simp only [Sys.ensureConnection] at hs
    split at hs <;> cases hs <;> exact { h with }
  | .close _ | .storeNil | .unhealthy | .resetCount | .setHealthy | .clearClosing | .clearStopped
  | .unlock _ =>
    cases hs
    exact { h with }

/-- A caller starts a reader, which has taken up nothing. -/
theorem startLoad_accounted (h : s.Accounted) {n i j : ℕ} (hpc : s.callers n = .startLoad i) :
    ({ s with
      responseReader := some s.numReaders
      numReaders := s.numReaders + 1
      readers := update s.readers s.numReaders
        { stream := j, pc := .start } }.setCaller n (.count i)).Accounted := by
  have hexited := h.born s.numReaders le_rfl
  have hreaders (k : ℕ) : (update s.readers s.numReaders { stream := j, pc := .start } k).pc.took
        = (s.readers k).pc.took ∧
      (update s.readers s.numReaders { stream := j, pc := .start } k).pc.owing
        = (s.readers k).pc.owing := by
    rcases eq_or_ne k s.numReaders with rfl | hk
    · rw [Function.update_self, hexited]
      exact ⟨rfl, rfl⟩
    · rw [Function.update_of_ne hk]
      exact ⟨rfl, rfl⟩
  refine Sys.Accounted.move (s := { s with
    responseReader := some s.numReaders
    numReaders := s.numReaders + 1
    readers := update s.readers s.numReaders { stream := j, pc := .start } })
    (h.frame rfl rfl (fun _ => ⟨rfl, id⟩) hreaders fun k hk => ?_) hpc rfl rfl
    rfl rfl rfl rfl (by simp [CallerPc.sent])
  show (update s.readers s.numReaders _ k).pc = .exited
  have hlt : s.numReaders < k := hk
  rw [Function.update_of_ne (by omega)]
  exact h.born k (by omega)

theorem doPipelined_accounted (h : s.Accounted) {n : ℕ} {ch : Choice}
    (hdrop : s.callerAction n ch = some .drop → s.AllTaken)
    (hs : s.doPipelined cfg n ch = some s') : s'.Accounted := by
  have hstep := Sys.doPipelined_step hs
  generalize hpc : s.callers n = pc at hstep
  cases hstep with
  | @ensure rotated pc s₁ r hr =>
    refine (ensureConnection_accounted h hr).move (ensureConnection_callers hr ▸ hpc) rfl rfl rfl
      rfl rfl ?_ (by simp [CallerPc.sent])
    rcases r with pc' | _ | _ <;> cases rotated <;> rfl
  | @rotate pc s₁ r hr =>
    have h₁ := closeConn_accounted h
      (fun hd => hdrop (by simp only [Sys.callerAction, hpc, hd])) hr
    exact h₁.move (closeConn_callers hr ▸ hpc) rfl rfl rfl rfl rfl (by cases r <;> rfl)
      (by simp [CallerPc.sent])
  | @failClose pc s₁ r hr =>
    have h₁ := closeConn_accounted h (fun hd => hdrop (by
      have hnot : s.closeReturns pc = false := by cases pc <;> first | rfl | cases hd
      simp only [Sys.callerAction, hpc, hnot, hd, Bool.false_eq_true, if_false])) hr
    exact h₁.move (closeConn_callers hr ▸ hpc) rfl rfl rfl rfl rfl (by cases r <;> rfl)
      (by simp [CallerPc.sent])
  | startReader => exact startLoad_accounted h hpc
  | count => exact h.count hpc
  | uncount => exact h.uncount hpc
  | append => exact h.append hpc
  | checkClosing | prepare | needReader | startStopped | startClosing =>
    exact h.move hpc rfl rfl rfl rfl rfl (by split <;> rfl) (by simp [CallerPc.sent])
  | idle | overLimit | underLimit | loadStream | loadNil | lock | recheckClosing | recheck
  | startNone | writeTorn | writeFailed | write | unlockFailed | signal | cancel | takeErr
  | receive | setRelease | setCancelled =>
    -- the caller goes on, and neither counts nor is counted
    exact h.move hpc rfl rfl rfl rfl rfl rfl (by simp [CallerPc.sent])

theorem readerRun_accounted (h : s.Accounted) {k : ℕ} {ch : Choice}
    (hdrop : s.readerAction k ch = some .drop → s.AllTaken)
    (htake : ∀ p, (s.readers k).pc = .check p → s.closing = false →
      p ∈ s.pendingReqs ∧ ∀ m < s.numReaders, m ≠ k → (s.readers m).pc.took ≠ some p)
    (hs : s.readerRun k ch = some s') : s'.Accounted := by
  have hstep := Sys.readerRun_step hs
  generalize hpc : (s.readers k).pc = pc at hstep htake
  cases hstep with
  | parse hparse =>
    obtain ⟨i, t, log, r, rfl, -, -, hr⟩ := Sys.parse_frame hparse
    refine h.moveReader hpc rfl rfl rfl rfl rfl (by simp) ?_ ?_
    all_goals rcases hr with hr | ⟨o, hr⟩ <;> simp [hr, hpc, ReaderPc.took, ReaderPc.owing]
  | @check p hclosing | @skip p hclosing =>
    obtain ⟨hq, hother⟩ := htake p rfl hclosing
    exact h.take hpc hq hother rfl rfl
  | skipCount | uncount => exact h.pay hpc rfl rfl rfl
  | skipRemove | remove => exact h.remove hpc rfl rfl rfl
  | @deliver p o c =>
    obtain ⟨log, response, hd⟩ := s.deliver_frame k p o c
    rw [hd]
    refine h.moveReader hpc rfl rfl rfl rfl rfl (by simp) ?_ ?_
    all_goals
      dsimp only [Sys.afterDeliver]
      repeat' split
      all_goals rfl
  | @close pc p s₁ r hr =>
    have h₁ := closeConn_accounted h
      (fun hd => hdrop (by simp only [Sys.readerAction, hpc, hd])) hr
    refine h₁.moveReader ((closeConn_readers hr k).trans hpc) rfl rfl rfl rfl rfl (by simp) ?_ ?_
    · cases r <;> cases p <;> rfl
    · cases r <;> cases p <;> rfl
  | start | startNone | stop | wake | peekNone | peek | checkClosing | skipErrLeft | skipErr
  | reset | loadCancelled | recordNone | record | sendErr =>
    exact h.moveReader hpc rfl rfl rfl rfl rfl (by simp) rfl rfl

theorem stop_accounted (h : s.Accounted) {m : ℕ}
    (hdrop : ∀ pc, s.stoppers m = .closing pc → Sys.closeAction pc = some .drop → s.AllTaken)
    (hs : s.stop m = some s') : s'.Accounted := by
  unfold Sys.stop at hs
  split at hs
  · split at hs <;> cases hs <;> exact { h with }
  · case _ pc hpc =>
    obtain ⟨⟨s₁, r⟩, hr, rfl⟩ := Option.map_eq_some_iff.mp hs
    have h₁ := closeConn_accounted h (hdrop pc hpc) hr
    exact ⟨h₁.1, h₁.2, h₁.3, h₁.4, h₁.5, h₁.6⟩
  · cases hs

/-- Matched steps keep the account. -/
theorem step_accounted (h : s.Accounted) {l : Tid × Choice} (hok : s.Matched l)
    (hs : s.step cfg l = some s') : s'.Accounted := by
  obtain ⟨t, ch⟩ := l
  cases t with
  | caller n => exact doPipelined_accounted h (fun ha => hok _ ha) hs
  | client n =>
    simp only [Sys.step, Sys.releaseResponse] at hs
    split at hs <;> cases hs
    case _ hpc => exact h.move hpc rfl rfl rfl rfl rfl rfl (fun _ => rfl)
  | reader k =>
    refine readerRun_accounted h (fun ha => hok _ ha) (fun p hpc hopen => ?_) hs
    have hact : s.action (.reader k, ch)
        = some (if (s.pend p).hasResp then .pass k p else .skip k p) := by
      simp [Sys.action, Sys.readerAction, hpc, hopen]
    cases hresp : (s.pend p).hasResp with
    | true => exact hok (.pass k p) (by simpa [hresp] using hact)
    | false => exact hok (.skip k p) (by simpa [hresp] using hact)
  | stopper m =>
    refine stop_accounted h (fun pc hpc hd => ?_) hs
    exact hok .drop (by simp only [Sys.action, hpc, hd]; rfl)

end Steps

/-! ### When nothing is in flight -/

theorem Sys.Quiet.not_owes {s : Sys} (h : s.Quiet) (p : ℕ) : ¬s.Owes p := by
  obtain ⟨hcallers, hreqs, htook⟩ := h
  rintro (hcounted | ⟨hqueued, -⟩ | ⟨k, howing⟩)
  · have hquiet := hcallers p
    cases hpc : s.callers p <;> simp [hpc, CallerPc.quiet, CallerPc.counted] at hquiet hcounted
  · simp [hreqs] at hqueued
  · have := ReaderPc.took_of_owing howing
    simp [htook k] at this

/-- In every run of matched steps `activeReqs` is the number of requests for which a decrement
is due; when no call is in progress and no request is queued or being read, it is zero. -/
theorem activeReqs_matched (cfg : Config) (s : Sys)
    (h : Reaches (Sys.step cfg) Sys.Matched Sys.new s) :
    Tally.Counts s.Owes s.activeReqs ∧ (s.Quiet → s.activeReqs = 0) := by
  have hacc : s.Accounted :=
    h.invariant Sys.Accounted .new fun _ _ _ hacc hok hs => step_accounted hacc hok hs
  exact ⟨hacc.counts, fun hquiet => hacc.counts.eq_zero hquiet.not_owes⟩

/-! ### Runs -/

/-- The goroutine is no caller from `N` on. -/
def Tid.below (N : ℕ) : Tid → Bool
  | .caller n | .client n => n < N
  | .reader _ | .stopper _ => true

/-- Callers that take no step have not begun. -/
theorem step_idle {cfg : Config} {N : ℕ} {s s' : Sys} {l : Tid × Choice}
    (h : s.Sound ∧ ∀ n, N ≤ n → s.callers n = .idle) (hbelow : l.1.below N = true)
    (hs : s.step cfg l = some s') : s'.Sound ∧ ∀ n, N ≤ n → s'.callers n = .idle := by
  refine ⟨step_sound h.1 hs, fun n hn => ?_⟩
  have hne : l.1 ≠ .caller n ∧ l.1 ≠ .client n := by
    constructor <;>
    · intro ht
      rw [ht] at hbelow
      have := of_decide_eq_true hbelow
      omega
  rw [step_callers hs hne.1 hne.2]
  exact h.2 n hn

theorem callers_idle {cfg : Config} {guard : Sys → Tid × Choice → Prop} {N : ℕ} {s : Sys}
    (h : Reaches (Sys.step cfg) (fun s l => guard s l ∧ l.1.below N = true) Sys.new s) :
    ∀ n, N ≤ n → s.callers n = .idle :=
  (h.invariant (fun s => s.Sound ∧ ∀ n, N ≤ n → s.callers n = .idle)
    ⟨Sys.Sound.new, fun _ _ => rfl⟩ fun _ _ _ hinv hg hs => step_idle hinv hg.2 hs).2

/-- A reader that has done nothing has taken up no request. -/
theorem took_of_dead {pc : ReaderPc} (h : pc.phase = .dead) : pc.took = none := by
  cases pc <;> first | rfl | cases h

/-- A run of callers below `N` that leaves nothing in flight, and has a decidable outcome. -/
theorem exists_quiet (cfg : Config) (guard : Sys → Tid × Choice → Prop)
    [∀ s l, Decidable (guard s l)] (N : ℕ) (labels : List (Tid × Choice)) (P : Sys → Prop)
    [DecidablePred P]
    (h : (Guarded.exec (Sys.step cfg) (fun s l => guard s l ∧ l.1.below N = true) labels
      Sys.new).any (fun s => decide (((∀ n < N, (s.callers n).quiet = true) ∧ s.pendingReqs = [] ∧
        ∀ k < s.numReaders, (s.readers k).pc.took = none) ∧ P s)) = true) :
    ∃ s, Reaches (Sys.step cfg) guard Sys.new s ∧ s.Quiet ∧ P s := by
  obtain ⟨s, hs, ⟨hcallers, hreqs, htook⟩, hP⟩ := Guarded.exists_of_exec _ _ _ labels _ h
  have hreach := hs.mono fun _ _ hg => hg.1
  refine ⟨s, hreach, ⟨fun n => ?_, hreqs, fun k => ?_⟩, hP⟩
  · by_cases hn : n < N
    · exact hcallers n hn
    · rw [callers_idle hs n (by omega)]
      rfl
  · by_cases hk : k < s.numReaders
    · exact htook k hk
    · by_contra hne
      exact hk ((reaches_born hreach).2 k fun hdead => hne (took_of_dead hdead))

/-- Caller 1 gets the answer to its request and returns. -/
theorem activeReqs_matched_oneAnswer :
    ∃ s, Reaches (Sys.step rotating) Sys.Matched Sys.new s ∧ s.Quiet ∧
      s.callers 1 = .returned .ok ∧ s.activeReqs = 0 := by
  obtain ⟨s, hs, hquiet, hret⟩ := exists_quiet rotating Sys.Matched 2
    (oneAnswer ++ [(Tid.caller 1, Choice.plain)]) (fun s => s.callers 1 = .returned .ok)
    (by decide +kernel)
  exact ⟨s, hs, hquiet, hret, (activeReqs_matched rotating s hs).2 hquiet⟩

/-- Caller 1 has written its request and waits.  `Stop` closes the connection and drops the
request before the reader has taken it up, so that nobody uncounts it; the caller takes the
error and returns. -/
def droppedUntaken : List (Tid × Choice) :=
  steps (.caller 1) 26 ++ steps (.stopper 0) 8 ++ [(Tid.caller 1, Choice.takeErr)]

/-- In other runs, nothing is in flight and `activeReqs` is not zero. -/
theorem activeReqs_leaked :
    ∃ s, Reaches (Sys.step rotating) (fun _ _ => True) Sys.new s ∧ s.Quiet ∧ s.activeReqs = 1 :=
  exists_quiet rotating (fun _ _ => True) 2 droppedUntaken (fun s => s.activeReqs = 1)
    (by decide +kernel)

end BurstHttp.Pipeline
