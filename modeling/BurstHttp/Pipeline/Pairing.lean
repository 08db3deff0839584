/-
Each caller of a pipelined connection gets the answer to its own request.

The requests in the line are, from its head on, those whose answers the
registered reader holds or will take off its stream, in this order.  This is
kept as long as the run is *orderly* (`Wire.Orderly`): a reader takes up a
request only while it is registered, a reader is registered only on an open
stream that owes no answer, while nothing is in line, a stream is dialed only
when the earlier ones are closed, nothing is written after a torn request, and
no parse stops inside an answer.

* `Paired` — the invariant, `Paired.next` — orderly actions keep it;
* `answers_paired` — in orderly runs every answer sent to a caller was read from
  the stream its request was written to and is the answer to that request;
* `answer_mispaired` — in other runs not: a reader of a connection that was
  rotated away goes on and answers a request on the new stream.
-/
import BurstHttp.Lib.Guarded
import BurstHttp.Pipeline.Refinement

namespace BurstHttp.Pipeline

open Function (update)

namespace Phase

/-- The request a reader deals with. -/
def subject : Phase → Option ℕ
  | .idle | .dead => none
  | .peeked p | .skipping p | .skipped p | .inside p | .parsed p _ | .removed p _
  | .failing p => some p

/-- The reader will go on to the next request. -/
def live : Phase → Bool
  | .parsed _ o | .removed _ o => o.ret != .early
  | .dead | .failing _ => false
  | _ => true

/-- The request that is answered and still in line. -/
def settled : Phase → List ℕ
  | .parsed p _ => [p]
  | _ => []

end Phase

namespace Wire

/-- Reader `k` may parse an answer, now or later. -/
def Active (w : Wire) (k : ℕ) : Prop :=
  (w.reg = some k ∧ (w.readers k).phase.live = true) ∨ ∃ p, (w.readers k).phase = .inside p

/-- The condition under which requests and answers stay paired. -/
def Orderly (w : Wire) : Action → Prop
  | .dial => ∀ i < w.numStreams, (w.streams i).closed = true
  | .register i =>
    w.line = [] ∧ (w.streams i).closed = false ∧ (w.streams i).unanswered = []
  | .pass k _ => w.reg = some k
  | .skip _ _ => False
  | .write _ i _ => (w.streams i).torn = false
  | .finish _ _ _ cut _ => cut = false
  | _ => True

/-- Requests and answers are paired. -/
structure Paired (w : Wire) : Prop where
  newest : ∀ i < w.numStreams, (w.streams i).closed = false → i + 1 = w.numStreams
  answered_le : ∀ i, (w.streams i).answered ≤ (w.streams i).taken
  taken_le : ∀ i, (w.streams i).taken ≤ (w.streams i).served.length
  served : ∀ i, ∀ p ∈ (w.streams i).served, w.written p = some i
  line_written : ∀ p ∈ w.line, w.written p ≠ none
  subject_written : ∀ k p, (w.readers k).phase.subject = some p → w.written p ≠ none
  no_skip : ∀ k p, (w.readers k).phase ≠ .skipping p
  stream_lt : ∀ k, w.Active k → (w.readers k).stream < w.numStreams
  synced : ∀ k, w.Active k → (w.readers k).desync = false
  hold : ∀ k, w.Active k →
    (w.readers k).buf ++ (w.source k).served.drop (w.source k).taken = (w.source k).unanswered
  apart : ∀ k k', w.Active k → w.Active k' → (w.readers k).stream = (w.readers k').stream → k = k'
  parses : ∀ k p, (w.readers k).phase = .inside p →
    (w.source k).unanswered.head? = some p ∨
      (w.source k).unanswered = [] ∧ (w.source k).closed = true
  in_line : ∀ k, w.reg = some k → (w.readers k).phase.live = true → ∃ others,
    w.line = (w.readers k).phase.settled ++ (w.source k).unanswered ++ others ∧
      (others ≠ [] → (w.source k).closed = true)
  at_head : ∀ k p, w.reg = some k → (w.readers k).phase = .peeked p → w.line.head? = some p
  stray : ∀ k p, w.reg ≠ some k →
    ((w.readers k).phase = .inside p ∨ ∃ o, (w.readers k).phase = .parsed p o) → p ∉ w.line
  answer : ∀ k p o, (w.readers k).phase = .parsed p o ∨ (w.readers k).phase = .removed p o →
    o.ret ≠ .early → o.answer = some p ∧ w.written p = some (w.readers k).stream
  sent : ∀ p i r, .sent p i r ∈ w.log → w.written p = some i ∧ r = some p

namespace Paired

variable {w : Wire}

/-! ### Actions that touch one component -/

/-- The stage of a caller, its channels and what the log says about objects are no
matter of pairing. -/
theorem withLog (h : w.Paired) (stage : ℕ → Stage) (err ready : ℕ → Bool) (log : List Event)
    (hsent : ∀ p i r, .sent p i r ∈ log → w.written p = some i ∧ r = some p) :
    { w with stage := stage, err := err, ready := ready, log := log }.Paired :=
  { h with sent := hsent }

/-- A stream is closed or torn. -/
theorem setStream (h : w.Paired) (i : ℕ) (t : Stream) (hserved : t.served = (w.streams i).served)
    (htaken : t.taken = (w.streams i).taken) (hanswered : t.answered = (w.streams i).answered)
    (hclosed : (w.streams i).closed = true → t.closed = true) : (w.setStream i t).Paired := by
  have hsame (j : ℕ) : ((w.setStream i t).streams j).served = (w.streams j).served ∧
      ((w.setStream i t).streams j).taken = (w.streams j).taken ∧
      ((w.setStream i t).streams j).answered = (w.streams j).answered ∧
      ((w.streams j).closed = true → ((w.setStream i t).streams j).closed = true) := by
    rcases eq_or_ne j i with rfl | hj
    · simpa only [Wire.setStream, Function.update_self] using ⟨hserved, htaken, hanswered, hclosed⟩
    · simp only [Wire.setStream, Function.update_of_ne hj, imp_self, and_self]
  have hun (k : ℕ) : ((w.setStream i t).source k).unanswered = (w.source k).unanswered := by
    obtain ⟨h₁, -, h₃, -⟩ := hsame (w.readers k).stream
    exact congrArg₂ List.drop h₃ h₁
  have hcl (k : ℕ) : (w.source k).closed = true → ((w.setStream i t).source k).closed = true :=
    (hsame _).2.2.2
  exact
    { h with
      newest := fun j hj hopen => h.newest j hj (by
        by_contra hc
        exact absurd (hopen.symm.trans ((hsame j).2.2.2 (by simpa using hc))) (by simp))
      answered_le := fun j => by rw [(hsame j).2.1, (hsame j).2.2.1]; exact h.answered_le j
      taken_le := fun j => by rw [(hsame j).1, (hsame j).2.1]; exact h.taken_le j
      served := fun j => by rw [(hsame j).1]; exact h.served j
      hold := fun k hk => by
        obtain ⟨h₁, h₂, -, -⟩ := hsame (w.readers k).stream
        rw [hun k, ← h.hold k hk]
        exact congrArg ((w.readers k).buf ++ ·) (congrArg₂ List.drop h₂ h₁)
      parses := fun k p hp => by
        rw [hun k]
        exact (h.parses k p hp).imp id (And.imp_right (hcl k))
      in_line := fun k hreg hlive => by
        obtain ⟨others, hline, ho⟩ := h.in_line k hreg hlive
        exact ⟨others, by rw [hun k]; exact hline, fun hne => hcl k (ho hne)⟩ }

/-- A reader goes on without taking up an answer; the registered reader may take the
request it has settled out of the line. -/
theorem setPhase (h : w.Paired) (k : ℕ) (ph : Phase) (line : List ℕ)
    (hline : w.reg ≠ some k → line = w.line) (hsub : ∀ p ∈ line, p ∈ w.line)
    (hlive : w.reg = some k → ph.live = true → (w.readers k).phase.live = true ∧
      ∀ rest, w.line = (w.readers k).phase.settled ++ rest → line = ph.settled ++ rest)
    (hsubject : ∀ p, ph.subject = some p → w.written p ≠ none)
    (hhead : ∀ p, w.reg = some k → ph = .peeked p → line.head? = some p)
    (hinside : ∀ p, ph ≠ .inside p ∧ ph ≠ .skipping p ∧ ∀ o, ph ≠ .parsed p o)
    (hremoved : ∀ p o, ph = .removed p o → (w.readers k).phase = .parsed p o) :
    ({ w with line := line }.setPhase k ph).Paired := by
  have hactive (m : ℕ) : ({ w with line := line }.setPhase k ph).Active m → w.Active m := by
    refine forall_setPhase (P := fun m ph => (w.reg = some m ∧ ph.live = true ∨
      ∃ p, ph = .inside p) → w.Active m) ?_ (fun m _ => id) m
    rintro (⟨hreg, hl⟩ | ⟨p, hp⟩)
    · exact .inl ⟨hreg, (hlive hreg hl).1⟩
    · exact absurd hp (hinside p).1
  -- while another reader is registered the line stays
  have hkeep {m : ℕ} (hm : m ≠ k) (hreg : w.reg = some m) : line = w.line :=
    hline fun hk => hm (Option.some_inj.mp (hreg.symm.trans hk))
  exact
    { h with
      line_written := fun p hp => h.line_written p (hsub p hp)
      subject_written :=
        forall_setPhase (P := fun _ ph => ∀ p, ph.subject = some p → w.written p ≠ none) hsubject
          fun m _ => h.subject_written m
      no_skip := forall_setPhase (P := fun _ ph => ∀ p, ph ≠ .skipping p)
        (fun p => (hinside p).2.1) fun m _ => h.no_skip m
      stream_lt := fun m hm => h.stream_lt m (hactive m hm)
      synced := fun m hm => h.synced m (hactive m hm)
      hold := fun m hm => h.hold m (hactive m hm)
      apart := fun m m' hm hm' => h.apart m m' (hactive m hm) (hactive m' hm')
      parses := forall_setPhase (P := fun m ph => ∀ p, ph = .inside p →
          (w.source m).unanswered.head? = some p ∨
            (w.source m).unanswered = [] ∧ (w.source m).closed = true)
        (fun p hp => absurd hp (hinside p).1) fun m _ => h.parses m
      in_line := forall_setPhase (P := fun m ph => w.reg = some m → ph.live = true → ∃ others,
          line = ph.settled ++ (w.source m).unanswered ++ others ∧
            (others ≠ [] → (w.source m).closed = true))
        (fun hreg hl => by
          obtain ⟨hl', hrest⟩ := hlive hreg hl
          obtain ⟨others, hold, hothers⟩ := h.in_line k hreg hl'
          rw [List.append_assoc] at hold
          exact ⟨others, by rw [List.append_assoc]; exact hrest _ hold, hothers⟩)
        fun m hm hreg => hkeep hm hreg ▸ h.in_line m hreg
      at_head := forall_setPhase (P := fun m ph => ∀ p, w.reg = some m → ph = .peeked p →
          line.head? = some p) hhead fun m hm p hreg => hkeep hm hreg ▸ h.at_head m p hreg
      stray := forall_setPhase (P := fun m ph => ∀ p, w.reg ≠ some m →
          (ph = .inside p ∨ ∃ o, ph = .parsed p o) → p ∉ line)
        (fun p _ hp => hp.elim (absurd · (hinside p).1) fun ⟨o, ho⟩ => absurd ho ((hinside p).2.2 o))
        fun m _ p hreg hp hmem => h.stray m p hreg hp (hsub p hmem)
      answer := forall_setPhase (P := fun m ph => ∀ p o, ph = .parsed p o ∨ ph = .removed p o →
          o.ret ≠ .early → o.answer = some p ∧ w.written p = some (w.readers m).stream)
        (fun p o hp => hp.elim (absurd · ((hinside p).2.2 o)) fun hr =>
          h.answer k p o (.inl (hremoved p o hr)))
        fun m _ => h.answer m }

theorem active_of_inside {k p : ℕ} (h : (w.readers k).phase = .inside p) : w.Active k :=
  .inr ⟨p, h⟩

/-- The registered reader begins to fill the response of the first request in line: the
answer it will read is the answer to this request, or there is none. -/
theorem pass (h : w.Paired) {k p : ℕ} (hphase : (w.readers k).phase = .peeked p)
    (hreg : w.reg = some k) : (w.setPhase k (.inside p)).Paired := by
  have hlive : (w.readers k).phase.live = true := by rw [hphase]; rfl
  have hactive (m : ℕ) : (w.setPhase k (.inside p)).Active m → w.Active m :=
    forall_setPhase (P := fun m ph => (w.reg = some m ∧ ph.live = true ∨ ∃ p, ph = .inside p) →
      w.Active m) (fun _ => .inl ⟨hreg, hlive⟩) (fun m _ => id) m
  have hhead := h.at_head k p hreg hphase
  obtain ⟨others, hline, hothers⟩ := h.in_line k hreg hlive
  rw [hphase] at hline
  have hparses : (w.source k).unanswered.head? = some p ∨
      (w.source k).unanswered = [] ∧ (w.source k).closed = true := by
    cases hun : (w.source k).unanswered with
    | nil =>
      -- the request in front was written on another stream
      refine .inr ⟨rfl, hothers fun hnil => ?_⟩
      rw [hline, hun, hnil] at hhead
      exact absurd hhead (by simp [Phase.settled])
    | cons q rest =>
      rw [hline, hun] at hhead
      exact .inl hhead
  exact
    { h with
      subject_written :=
        forall_setPhase (P := fun _ ph => ∀ p, ph.subject = some p → w.written p ≠ none)
          (fun q hq => h.subject_written k q (by rw [hphase]; exact hq))
          fun m _ => h.subject_written m
      no_skip := forall_setPhase (P := fun _ ph => ∀ p, ph ≠ .skipping p) (by simp)
        fun m _ => h.no_skip m
      stream_lt := fun m hm => h.stream_lt m (hactive m hm)
      synced := fun m hm => h.synced m (hactive m hm)
      hold := fun m hm => h.hold m (hactive m hm)
      apart := fun m m' hm hm' => h.apart m m' (hactive m hm) (hactive m' hm')
      parses := forall_setPhase (P := fun m ph => ∀ p, ph = .inside p →
          (w.source m).unanswered.head? = some p ∨
            (w.source m).unanswered = [] ∧ (w.source m).closed = true)
        (fun q hq => Phase.inside.inj hq ▸ hparses) fun m _ => h.parses m
      in_line := forall_setPhase (P := fun m ph => w.reg = some m → ph.live = true → ∃ others,
          w.line = ph.settled ++ (w.source m).unanswered ++ others ∧
            (others ≠ [] → (w.source m).closed = true))
        (fun _ _ => ⟨others, hline, hothers⟩) fun m _ => h.in_line m
      at_head := forall_setPhase (P := fun m ph => ∀ p, w.reg = some m → ph = .peeked p →
          w.line.head? = some p) (by simp) fun m _ => h.at_head m
      stray := forall_setPhase (P := fun m ph => ∀ p, w.reg ≠ some m →
          (ph = .inside p ∨ ∃ o, ph = .parsed p o) → p ∉ w.line)
        (fun _ hne => absurd hreg hne) fun m _ => h.stray m
      answer := forall_setPhase (P := fun m ph => ∀ p o, ph = .parsed p o ∨ ph = .removed p o →
          o.ret ≠ .early → o.answer = some p ∧ w.written p = some (w.readers m).stream)
        (by simp) fun m _ => h.answer m }

/-! ### Streams -/

theorem dial (h : w.Paired) (hclosed : ∀ i < w.numStreams, (w.streams i).closed = true) :
    (w.next .dial).Paired := by
  have hold (i : ℕ) (hi : i < w.numStreams) : (w.next .dial).streams i = w.streams i :=
    Function.update_of_ne (Nat.ne_of_lt hi) _ _
  have hsource (k : ℕ) (hk : w.Active k) : (w.next .dial).source k = w.source k :=
    hold _ (h.stream_lt k hk)
  -- the new stream carries nothing
  have hcases {P : ℕ → Stream → Prop} (hnew : P w.numStreams {}) (hi : ∀ i, P i (w.streams i))
      (i : ℕ) : P i ((w.next .dial).streams i) := by
    rcases eq_or_ne i w.numStreams with rfl | hne
    · simpa only [next, Function.update_self] using hnew
    · simpa only [next, Function.update_of_ne hne] using hi i
  exact
    { h with
      newest := fun i hi hopen => by
        rcases Nat.lt_succ_iff_lt_or_eq.mp hi with hlt | rfl
        · rw [hold i hlt] at hopen
          exact absurd ((hclosed i hlt).symm.trans hopen) (by simp)
        · rfl
      answered_le := hcases (P := fun _ t => t.answered ≤ t.taken) (Nat.le_refl 0) h.answered_le
      taken_le := hcases (P := fun _ t => t.taken ≤ t.served.length) (Nat.le_refl 0) h.taken_le
      served := hcases (P := fun i t => ∀ p ∈ t.served, w.written p = some i) (by simp) h.served
      stream_lt := fun k hk => Nat.lt_succ_of_lt (h.stream_lt k hk)
      hold := fun k hk => by rw [hsource k hk]; exact h.hold k hk
      parses := fun k p hp => by rw [hsource k (active_of_inside hp)]; exact h.parses k p hp
      in_line := fun k hreg hl => by rw [hsource k (.inl ⟨hreg, hl⟩)]; exact h.in_line k hreg hl }

/-- A request is written on an open stream. -/
theorem write (h : w.Paired) {n i : ℕ} (hfresh : w.written n = none) (hi : i < w.numStreams)
    (hopen : (w.streams i).closed = false) : (w.next (.write n i n)).Paired := by
  have hne {p : ℕ} (hp : w.written p ≠ none) : p ≠ n := fun hpn => hp (hpn ▸ hfresh)
  have hwritten {p : ℕ} (hp : w.written p ≠ none) :
      (w.next (.write n i n)).written p = w.written p := Function.update_of_ne (hne hp) _ _
  have hother {j : ℕ} (hj : j ≠ i) : (w.next (.write n i n)).streams j = w.streams j :=
    Function.update_of_ne hj _ _
  have hself : (w.next (.write n i n)).streams i =
      { w.streams i with served := (w.streams i).served ++ [n] } := Function.update_self _ _ _
  have hle : (w.streams i).answered ≤ (w.streams i).served.length :=
    (h.answered_le i).trans (h.taken_le i)
  have hun : ((w.next (.write n i n)).streams i).unanswered = (w.streams i).unanswered ++ [n] := by
    rw [hself, Stream.unanswered, List.drop_append_of_le_length hle]
    rfl
  have hcases {P : ℕ → Stream → Prop} (hs : P i ((w.next (.write n i n)).streams i))
      (hj : ∀ j, j ≠ i → P j (w.streams j)) (j : ℕ) : P j ((w.next (.write n i n)).streams j) := by
    rcases eq_or_ne j i with rfl | hne
    · exact hs
    · exact (hother hne).symm ▸ hj j hne
  -- what an earlier stream says about a reader still holds; a reader of `i` sees one more
  have hsource (k : ℕ) {Q : Stream → Prop} (hsame : Q (w.source k))
      (hi : (w.readers k).stream = i → Q (w.source k) → Q ((w.next (.write n i n)).streams i)) :
      Q ((w.next (.write n i n)).source k) := by
    rcases eq_or_ne (w.readers k).stream i with hk | hk
    · have hrw : (w.next (.write n i n)).source k = (w.next (.write n i n)).streams i :=
        congrArg _ hk
      exact hrw ▸ hi hk hsame
    · have hrw : (w.next (.write n i n)).source k = w.source k := hother hk
      exact hrw ▸ hsame
  exact
    { h with
      newest := fun j hj hc => h.newest j hj (by
        rcases eq_or_ne j i with rfl | hji
        · exact hopen
        · rwa [hother hji] at hc)
      answered_le := hcases (P := fun _ t => t.answered ≤ t.taken)
        (by rw [hself]; exact h.answered_le i) fun j _ => h.answered_le j
      taken_le := hcases (P := fun _ t => t.taken ≤ t.served.length)
        (by rw [hself, List.length_append]; exact (h.taken_le i).trans (Nat.le_add_right _ _))
        fun j _ => h.taken_le j
      served := hcases (P := fun j t => ∀ p ∈ t.served, (w.next (.write n i n)).written p = some j)
        (fun p hp => by
          rw [hself] at hp
          rcases List.mem_append.mp hp with hp | hp
          · rw [hwritten (by rw [h.served i p hp]; simp), h.served i p hp]
          · rw [List.mem_singleton.mp hp]
            exact Function.update_self _ _ _)
        fun j _ p hp => by rw [hwritten (by rw [h.served j p hp]; simp), h.served j p hp]
      line_written := fun p hp => by
        rcases List.mem_append.mp hp with hp | hp
        · rw [hwritten (h.line_written p hp)]
          exact h.line_written p hp
        · rw [List.mem_singleton.mp hp]
          simp [next]
      subject_written := fun k p hp => by
        rw [hwritten (h.subject_written k p hp)]
        exact h.subject_written k p hp
      hold := fun k hk => hsource k (Q := fun t =>
          (w.readers k).buf ++ t.served.drop t.taken = t.unanswered) (h.hold k hk) fun hki hold => by
        have hold : (w.readers k).buf ++ (w.streams i).served.drop (w.streams i).taken =
            (w.streams i).unanswered := hki ▸ hold
        rw [hun, ← hold, hself, List.drop_append_of_le_length (h.taken_le i), List.append_assoc]
      parses := fun k p hp => hsource k (Q := fun t =>
          t.unanswered.head? = some p ∨ t.unanswered = [] ∧ t.closed = true) (h.parses k p hp)
        fun hki hparse => by
          have hparse : (w.streams i).unanswered.head? = some p ∨
              (w.streams i).unanswered = [] ∧ (w.streams i).closed = true := hki ▸ hparse
          rcases hparse with hhead | ⟨-, hc⟩
          · rw [hun, List.head?_append, hhead]
            exact .inl rfl
          · exact absurd (hopen.symm.trans hc) (by simp)
      in_line := fun k hreg hl => by
        obtain ⟨others, hline, hothers⟩ := h.in_line k hreg hl
        have hlt := h.stream_lt k (.inl ⟨hreg, hl⟩)
        rcases eq_or_ne (w.readers k).stream i with hki | hki
        · -- the stream is open, so nobody else is in line
          have hsrc : w.source k = w.streams i := congrArg _ hki
          have hnil : others = [] := by
            by_contra hne
            exact absurd (hopen.symm.trans (hsrc ▸ hothers hne)) (by simp)
          refine ⟨[], ?_, by simp⟩
          have hrw : (w.next (.write n i n)).source k = (w.next (.write n i n)).streams i :=
            congrArg _ hki
          rw [hrw, hun]
          show w.line ++ [n] = _
          rw [hline, hnil, hsrc]
          simp [next]
        · -- the reader's stream is closed, since an open one would be the newest
          have hrw : (w.next (.write n i n)).source k = w.source k := hother hki
          refine ⟨others ++ [n], ?_, fun _ => ?_⟩
          · rw [hrw]
            show w.line ++ [n] = _
            rw [hline]
            simp [next]
          · rw [hrw]
            by_contra hc
            have h₁ := h.newest _ hlt ((Bool.not_eq_true _).mp hc)
            have h₂ := h.newest i hi hopen
            omega
      at_head := fun k p hreg hp => by
        show (w.line ++ [n]).head? = some p
        rw [List.head?_append, h.at_head k p hreg hp]
        rfl
      stray := fun k p hreg hp hmem => by
        rcases List.mem_append.mp hmem with hmem | hmem
        · exact h.stray k p hreg hp hmem
        · refine hne (h.subject_written k p ?_) (List.mem_singleton.mp hmem)
          rcases hp with hp | ⟨o, hp⟩
          · exact congrArg Phase.subject hp
          · exact congrArg Phase.subject hp
      answer := fun k p o hp hret => by
        obtain ⟨hanswer, hw⟩ := h.answer k p o hp hret
        exact ⟨hanswer, (hwritten (by rw [hw]; simp)).trans hw⟩
      sent := fun p j r hmem => by
        obtain ⟨hw, hr⟩ := h.sent p j r hmem
        exact ⟨(hwritten (by rw [hw]; simp)).trans hw, hr⟩ }

/-! ### Readers -/

/-- A reader is started on an open stream that owes no answer. -/
theorem register (h : w.Paired) {i : ℕ} (hreg : w.reg = none) (hi : i < w.numStreams)
    (hline : w.line = []) (hopen : (w.streams i).closed = false)
    (hun : (w.streams i).unanswered = []) : (w.next (.register i)).Paired := by
  have hself : (w.next (.register i)).readers w.numReaders = ⟨i, [], false, .idle⟩ :=
    Function.update_self _ _ _
  have hother {k : ℕ} (hk : k ≠ w.numReaders) : (w.next (.register i)).readers k = w.readers k :=
    Function.update_of_ne hk _ _
  have hcases {P : ℕ → Reader → Prop} (hs : P w.numReaders ⟨i, [], false, .idle⟩)
      (hk : ∀ k, k ≠ w.numReaders → P k (w.readers k)) (k : ℕ) :
      P k ((w.next (.register i)).readers k) := by
    rcases eq_or_ne k w.numReaders with rfl | hne
    · exact hself.symm ▸ hs
    · exact (hother hne).symm ▸ hk k hne
  -- the other readers that may still parse are the ones inside a response
  have hactive {k : ℕ} (hk : k ≠ w.numReaders) (ha : (w.next (.register i)).Active k) :
      ∃ p, (w.readers k).phase = .inside p := by
    rcases ha with ⟨hr, -⟩ | ⟨p, hp⟩
    · exact absurd (Option.some_inj.mp hr).symm hk
    · exact ⟨p, by rwa [hother hk] at hp⟩
  have hforall {P : ℕ → Reader → Prop} (hs : P w.numReaders ⟨i, [], false, .idle⟩)
      (hk : ∀ k, w.Active k → P k (w.readers k)) (k : ℕ) (ha : (w.next (.register i)).Active k) :
      P k ((w.next (.register i)).readers k) := by
    rcases eq_or_ne k w.numReaders with rfl | hne
    · exact hself.symm ▸ hs
    · obtain ⟨p, hp⟩ := hactive hne ha
      exact (hother hne).symm ▸ hk k (active_of_inside hp)
  -- nobody is inside a response on the stream of the new one
  have hfree {k : ℕ} (hk : k ≠ w.numReaders) (ha : (w.next (.register i)).Active k) :
      ((w.next (.register i)).readers k).stream ≠ i := by
    rintro hki
    obtain ⟨p, hp⟩ := hactive hk ha
    have hsrc : w.source k = w.streams i := by
      rw [hother hk] at hki
      exact congrArg _ hki
    rcases h.parses k p hp with hhead | ⟨-, hc⟩
    · rw [hsrc, hun] at hhead
      exact absurd hhead (by simp)
    · rw [hsrc, hopen] at hc
      exact absurd hc (by simp)
  have htaken : (w.streams i).served.drop (w.streams i).taken = [] := by
    rw [List.drop_eq_nil_iff]
    exact (List.drop_eq_nil_iff.mp hun).trans (h.answered_le i)
  have hidle : ((w.next (.register i)).readers w.numReaders).phase = .idle := by rw [hself]
  exact
    { h with
      subject_written := hcases (P := fun _ r => ∀ p, r.phase.subject = some p →
        w.written p ≠ none) (by simp [Phase.subject]) fun k _ => h.subject_written k
      no_skip := hcases (P := fun _ r => ∀ p, r.phase ≠ .skipping p) (by simp) fun k _ => h.no_skip k
      stream_lt := hforall (P := fun _ r => r.stream < w.numStreams) hi h.stream_lt
      synced := hforall (P := fun _ r => r.desync = false) rfl h.synced
      hold := hforall (P := fun _ r => r.buf ++ (w.streams r.stream).served.drop
          (w.streams r.stream).taken = (w.streams r.stream).unanswered)
        (by rw [htaken, hun]; rfl) h.hold
      apart := fun k k' ha ha' hstream => by
        rcases eq_or_ne k w.numReaders with rfl | hk <;> rcases eq_or_ne k' w.numReaders with rfl | hk'
        · rfl
        · rw [hself] at hstream
          exact absurd hstream.symm (hfree hk' ha')
        · rw [hself] at hstream
          exact absurd hstream (hfree hk ha)
        · obtain ⟨p, hp⟩ := hactive hk ha
          obtain ⟨p', hp'⟩ := hactive hk' ha'
          rw [hother hk, hother hk'] at hstream
          exact h.apart k k' (active_of_inside hp) (active_of_inside hp') hstream
      parses := hcases (P := fun _ r => ∀ p, r.phase = .inside p →
          (w.streams r.stream).unanswered.head? = some p ∨
            (w.streams r.stream).unanswered = [] ∧ (w.streams r.stream).closed = true)
        (by simp) fun k _ => h.parses k
      in_line := fun k hr _ => by
        obtain rfl := Option.some_inj.mp hr
        refine ⟨[], ?_, by simp⟩
        rw [hidle]
        show w.line = [] ++ (w.streams ((w.next (.register i)).readers w.numReaders).stream).unanswered ++ []
        rw [hself, hline, hun]
        rfl
      at_head := fun k p hr hp => by
        obtain rfl := Option.some_inj.mp hr
        exact absurd (hidle.symm.trans hp) (by simp)
      stray := hcases (P := fun k r => ∀ p, (w.next (.register i)).reg ≠ some k →
          (r.phase = .inside p ∨ ∃ o, r.phase = .parsed p o) → p ∉ w.line)
        (by simp) fun k _ p _ hp => h.stray k p (by simp [hreg]) hp
      answer := hcases (P := fun _ r => ∀ p o, r.phase = .parsed p o ∨ r.phase = .removed p o →
          o.ret ≠ .early → o.answer = some p ∧ w.written p = some r.stream)
        (by simp) fun k _ => h.answer k }

/-- `closeConn` empties the line and lets the reader go. -/
theorem drop (h : w.Paired) : (w.next .drop).Paired := by
  have hactive {k : ℕ} (ha : (w.next .drop).Active k) : w.Active k := by
    rcases ha with ⟨hr, -⟩ | hp
    · exact absurd hr (by simp [next])
    · exact .inr hp
  exact
    { h with
      line_written := fun p hp => absurd hp (by simp [next])
      stream_lt := fun k hk => h.stream_lt k (hactive hk)
      synced := fun k hk => h.synced k (hactive hk)
      hold := fun k hk => h.hold k (hactive hk)
      apart := fun k k' hk hk' => h.apart k k' (hactive hk) (hactive hk')
      in_line := fun k hr => absurd hr (by simp [next])
      at_head := fun k p hr => absurd hr (by simp [next])
      stray := fun k p _ _ => by simp [next] }

/-- A reader inside the response of `p` gets on: it takes answers into its buffer, or ends
the parse with the answer it was to read. -/
theorem advance (h : w.Paired) {k p : ℕ} (hin : (w.readers k).phase = .inside p) {t : Stream}
    {r : Reader} {log : List Event} (hstream : r.stream = (w.readers k).stream)
    (hserved : t.served = (w.source k).served) (hclosed : t.closed = (w.source k).closed)
    (hle : t.answered ≤ t.taken) (hle' : t.taken ≤ t.served.length) (hsync : r.desync = false)
    (hhold : r.phase.live = true → r.buf ++ t.served.drop t.taken = t.unanswered)
    (hphase : (r.phase = .inside p ∧ t.unanswered = (w.source k).unanswered) ∨
      ∃ o, r.phase = .parsed p o ∧
        (o.ret ≠ .early → o.answer = some p ∧ (w.source k).unanswered = p :: t.unanswered))
    (hsent : ∀ q i x, .sent q i x ∈ log → .sent q i x ∈ w.log) :
    { w with
      streams := update w.streams (w.readers k).stream t
      readers := update w.readers k r
      log := log }.Paired := by
  set w' : Wire := { w with
    streams := update w.streams (w.readers k).stream t
    readers := update w.readers k r
    log := log } with hw'
  have hk : w.Active k := active_of_inside hin
  have hself : w'.readers k = r := Function.update_self _ _ _
  have hother {m : ℕ} (hm : m ≠ k) : w'.readers m = w.readers m := Function.update_of_ne hm _ _
  have hcases {P : ℕ → Reader → Prop} (hs : P k r) (hm : ∀ m, m ≠ k → P m (w.readers m)) (m : ℕ) :
      P m (w'.readers m) := by
    rcases eq_or_ne m k with rfl | hne
    · exact hself.symm ▸ hs
    · exact (hother hne).symm ▸ hm m hne
  have hstreams {P : ℕ → Stream → Prop} (hs : P (w.readers k).stream t)
      (hj : ∀ j, P j (w.streams j)) (j : ℕ) : P j (w'.streams j) := by
    rcases eq_or_ne j (w.readers k).stream with rfl | hne
    · simpa only [hw', Function.update_self] using hs
    · simpa only [hw', Function.update_of_ne hne] using hj j
  have hactive {m : ℕ} (ha : w'.Active m) : w.Active m := by
    rcases eq_or_ne m k with rfl | hm
    · exact hk
    · rcases ha with ⟨hr, hl⟩ | ⟨q, hq⟩
      · exact .inl ⟨hr, by rwa [hother hm] at hl⟩
      · exact .inr ⟨q, by rwa [hother hm] at hq⟩
  have hsame (m : ℕ) : (w'.readers m).stream = (w.readers m).stream :=
    hcases (P := fun m r => r.stream = (w.readers m).stream) hstream (fun m _ => rfl) m
  have hsourcek : w'.source k = t := by
    rw [source, hsame]
    exact Function.update_self _ _ _
  -- no other reader that may parse reads this stream
  have hsource {m : ℕ} (hm : m ≠ k) (ha : w.Active m) : w'.source m = w.source m := by
    rw [source, hsame]
    exact Function.update_of_ne (fun hmk => hm (h.apart m k ha hk hmk)) _ _
  have hsubject : r.phase.subject = some p := by
    rcases hphase with ⟨hp, -⟩ | ⟨o, hp, -⟩ <;> rw [hp] <;> rfl
  have hlive {m : ℕ} (ha : w'.Active m) : (w'.readers m).phase.live = true := by
    rcases ha with ⟨-, hl⟩ | ⟨q, hq⟩
    · exact hl
    · rw [hq]
      rfl
  exact
    { newest := fun j hj hopen => h.newest j hj (hstreams
        (P := fun j t => t.closed = false → (w.streams j).closed = false)
        (fun hc => hclosed.symm.trans hc) (fun _ => id) j hopen)
      answered_le := hstreams (P := fun _ t => t.answered ≤ t.taken) hle h.answered_le
      taken_le := hstreams (P := fun _ t => t.taken ≤ t.served.length) hle' h.taken_le
      served := hstreams (P := fun i t => ∀ p ∈ t.served, w.written p = some i)
        (by rw [hserved]; exact h.served _) h.served
      line_written := h.line_written
      subject_written := hcases (P := fun _ r => ∀ p, r.phase.subject = some p →
          w.written p ≠ none)
        (fun q hq => h.subject_written k q (by rw [hin, ← hq, hsubject]; rfl))
        fun m _ => h.subject_written m
      no_skip := hcases (P := fun _ r => ∀ p, r.phase ≠ .skipping p)
        (fun q hq => by rcases hphase with ⟨hp, -⟩ | ⟨o, hp, -⟩ <;> simp [hp] at hq)
        fun m _ => h.no_skip m
      stream_lt := fun m ha => by rw [hsame]; exact h.stream_lt m (hactive ha)
      synced := fun m ha => by
        rcases eq_or_ne m k with rfl | hm
        · rw [hself, hsync]
        · rw [hother hm]
          exact h.synced m (hactive ha)
      hold := fun m ha => by
        rcases eq_or_ne m k with rfl | hm
        · rw [hself, hsourcek]
          exact hhold (hself ▸ hlive ha)
        · rw [hother hm, hsource hm (hactive ha)]
          exact h.hold m (hactive ha)
      apart := fun m m' ha ha' hmm => by
        rw [hsame, hsame] at hmm
        exact h.apart m m' (hactive ha) (hactive ha') hmm
      parses := fun m q hq => by
        rcases eq_or_ne m k with rfl | hm
        · rw [hself] at hq
          rw [hsourcek]
          rcases hphase with ⟨hp, hun⟩ | ⟨o, hp, -⟩
          · rw [hun, hclosed]
            exact h.parses m q (hin.trans (hp.symm.trans hq))
          · exact absurd (hp.symm.trans hq) (by simp)
        · rw [hother hm] at hq
          rw [hsource hm (active_of_inside hq)]
          exact h.parses m q hq
      in_line := fun m hreg hl => by
        rcases eq_or_ne m k with rfl | hm
        · obtain ⟨others, hline, hothers⟩ := h.in_line m hreg (by rw [hin]; rfl)
          rw [hin] at hline
          rw [hself] at hl ⊢
          rw [hsourcek]
          refine ⟨others, ?_, fun hne => hclosed.trans (hothers hne)⟩
          rcases hphase with ⟨hp, hun⟩ | ⟨o, hp, ho⟩
          · rw [hp, hun]
            exact hline
          · -- the answered request is now the one that is settled
            rw [hp] at hl ⊢
            rw [(ho (by simpa [Phase.live] using hl)).2] at hline
            exact hline
        · rw [hother hm] at hl ⊢
          rw [hsource hm (.inl ⟨hreg, hl⟩)]
          exact h.in_line m hreg hl
      at_head := hcases (P := fun m r => ∀ p, w.reg = some m → r.phase = .peeked p →
          w.line.head? = some p)
        (fun q _ hq => by rcases hphase with ⟨hp, -⟩ | ⟨o, hp, -⟩ <;> simp [hp] at hq)
        fun m _ => h.at_head m
      stray := hcases (P := fun m r => ∀ p, w.reg ≠ some m →
          (r.phase = .inside p ∨ ∃ o, r.phase = .parsed p o) → p ∉ w.line)
        (fun q hreg hq => by
          have hqs : r.phase.subject = some q := by
            rcases hq with hq | ⟨o, hq⟩ <;> rw [hq] <;> rfl
          rw [hsubject, Option.some_inj] at hqs
          exact hqs ▸ h.stray k p hreg (.inl hin))
        fun m _ => h.stray m
      answer := hcases (P := fun _ r => ∀ p o, r.phase = .parsed p o ∨ r.phase = .removed p o →
          o.ret ≠ .early → o.answer = some p ∧ w.written p = some r.stream)
        (fun q o hq hret => by
          rcases hphase with ⟨hp, -⟩ | ⟨o', hp, ho⟩
          · simp [hp] at hq
          · rw [hp] at hq
            obtain ⟨rfl, rfl⟩ : p = q ∧ o' = o := by simpa using hq
            obtain ⟨hanswer, hun⟩ := ho hret
            have hmem : p ∈ (w.source k).unanswered := hun ▸ List.mem_cons_self
            exact ⟨hanswer, hstream ▸ h.served _ p (List.mem_of_mem_drop hmem)⟩)
        fun m _ => h.answer m
      sent := fun q i x hmem => h.sent q i x (hsent q i x hmem) }

theorem fetch (h : w.Paired) {k p m : ℕ} (hin : (w.readers k).phase = .inside p) :
    (w.next (.fetch k p m)).Paired := by
  have hk := active_of_inside hin
  have hsplit : w.fetched k m ++ (w.source k).served.drop
      ((w.source k).taken + (w.fetched k m).length) =
        (w.source k).served.drop (w.source k).taken := by
    rw [← List.drop_drop]
    exact List.prefix_iff_eq_append.mp (List.take_prefix _ _)
  have hlen : (w.fetched k m).length ≤ (w.source k).served.length - (w.source k).taken := by
    rw [fetched, List.length_take, List.length_drop]
    exact Nat.min_le_right _ _
  refine h.advance hin rfl rfl rfl ?_ ?_ (h.synced k hk) (fun _ => ?_) (.inl ⟨hin, rfl⟩) ?_
  · exact (h.answered_le _).trans (Nat.le_add_right _ _)
  · have htaken := h.taken_le (w.readers k).stream
    show (w.source k).taken + _ ≤ (w.source k).served.length
    have : (w.source k).taken ≤ (w.source k).served.length := htaken
    omega
  · show (w.readers k).buf ++ w.fetched k m ++ _ = (w.source k).unanswered
    rw [List.append_assoc, hsplit]
    exact h.hold k hk
  · intro q i x hmem
    simpa using hmem

theorem sent_parseEvents {p i q j : ℕ} {ret : ParseRet} {cut : Bool} {x : Option ℕ}
    {log : List Event} (h : .sent q j x ∈ parseEvents p i ret cut ++ log) : .sent q j x ∈ log := by
  rcases List.mem_append.mp h with h | h
  · unfold parseEvents at h
    split_ifs at h <;> simp at h
  · exact h

/-- A parse ends, and not inside an answer. -/
theorem finish (h : w.Paired) {k p : ℕ} {ret : ParseRet} {closes : Bool}
    (hin : (w.readers k).phase = .inside p)
    (hbuf : ret ≠ .early → (w.readers k).desync = false → (w.readers k).buf ≠ []) :
    (w.next (.finish k p ret false closes)).Paired := by
  have hk := active_of_inside hin
  have hsync := h.synced k hk
  have hhold := h.hold k hk
  rcases eq_or_ne ret .early with rfl | hret
  · rw [finish_of_not_consumes (.inl rfl)]
    have hstreams : w.streams = update w.streams (w.readers k).stream (w.source k) :=
      (Function.update_eq_self _ _).symm
    rw [hstreams]
    exact h.advance hin rfl rfl rfl (h.answered_le _) (h.taken_le _) (by simp [hsync])
      (by simp [Phase.live]) (.inr ⟨_, rfl, by simp⟩) fun _ _ _ => sent_parseEvents
  · obtain ⟨q, rest, hcons⟩ := List.exists_cons_of_ne_nil (hbuf hret hsync)
    have hno : ¬(ret = .early ∨ (w.readers k).desync = true) := by simp [hret, hsync]
    rw [hcons, List.cons_append] at hhold
    -- the first answer in the buffer is the one that is due
    have hqp : q = p := by
      rcases h.parses k p hin with hhead | ⟨hnil, -⟩
      · rw [← hhold] at hhead
        exact Option.some_inj.mp hhead
      · rw [hnil] at hhold
        exact absurd hhold (by simp)
    have htail : (w.source k).served.drop ((w.source k).answered + 1) =
        rest ++ (w.source k).served.drop (w.source k).taken := by
      rw [← List.tail_drop, ← Stream.unanswered, ← hhold, List.tail_cons]
    have hlt : (w.source k).answered + 1 ≤ (w.source k).taken := by
      have hlen := congrArg List.length hhold
      have h₁ : (w.source k).taken ≤ (w.source k).served.length := h.taken_le _
      simp only [Stream.unanswered, List.length_cons, List.length_append, List.length_drop] at hlen
      omega
    rw [finish_of_consumes hno hcons]
    refine h.advance hin rfl rfl rfl hlt (h.taken_le _) rfl (fun _ => htail.symm)
      (.inr ⟨_, rfl, fun _ => ⟨congrArg some hqp, ?_⟩⟩) fun _ _ _ => sent_parseEvents
    rw [← hhold, hqp]
    exact congrArg (p :: ·) htail.symm

/-- A request leaves the line when its answer has been parsed. -/
theorem remove (h : w.Paired) {k p : ℕ} {o : Parsed} (hphase : (w.readers k).phase = .parsed p o) :
    (w.next (.remove k p o)).Paired := by
  refine h.setPhase k (.removed p o) (w.line.erase p) (fun hreg => ?_)
    (fun q => List.mem_of_mem_erase) (fun hreg hl => ?_) (fun q hq => ?_) (by simp) (by simp)
    (fun q o' hq => ?_)
  · exact List.erase_of_not_mem (h.stray k p hreg (.inr ⟨o, hphase⟩))
  · rw [hphase]
    refine ⟨hl, fun rest hline => ?_⟩
    rw [hline]
    simp [Phase.settled]
  · exact h.subject_written k q (by rw [hphase]; exact hq)
  · cases hq
    exact hphase

/-- A reader goes on with the line as it is. -/
theorem move (h : w.Paired) {k : ℕ} {ph : Phase}
    (hlive : ph.live = true → (w.readers k).phase.live = true ∧ (w.readers k).phase.settled = [])
    (hph : ph = .idle ∨ ph = .dead ∨ ∃ p, ph = .peeked p ∧ w.line.head? = some p ∨
      ph = .failing p ∧ w.written p ≠ none) : (w.setPhase k ph).Paired := by
  refine h.setPhase k ph w.line (fun _ => rfl) (fun _ => id) (fun _ hl => ?_) (fun p hp => ?_)
    (fun p _ hp => ?_) (fun p => ?_) (fun p o hp => ?_)
  · obtain ⟨hl', hnil⟩ := hlive hl
    refine ⟨hl', fun rest hrest => ?_⟩
    rw [hrest, hnil]
    rcases hph with rfl | rfl | ⟨q, ⟨rfl, -⟩ | ⟨rfl, -⟩⟩ <;> rfl
  · rcases hph with rfl | rfl | ⟨q, ⟨rfl, hq⟩ | ⟨rfl, hq⟩⟩
    · cases hp
    · cases hp
    · cases hp
      exact h.line_written p (List.mem_of_mem_head? hq)
    · cases hp
      exact hq
  · rcases hph with rfl | rfl | ⟨q, ⟨rfl, hq⟩ | ⟨rfl, -⟩⟩ <;> cases hp
    exact hq
  · rcases hph with rfl | rfl | ⟨q, ⟨rfl, -⟩ | ⟨rfl, -⟩⟩ <;> simp
  · rcases hph with rfl | rfl | ⟨q, ⟨rfl, -⟩ | ⟨rfl, -⟩⟩ <;> cases hp

/-- Orderly actions keep requests and answers paired. -/
theorem next (h : w.Paired) {a : Action} (ha : w.Enabled a) (ho : w.Orderly a) :
    (w.next a).Paired := by
  cases a with
  | dial => exact h.dial ho
  | close i => exact h.setStream i _ rfl rfl rfl fun _ => rfl
  | tear i => exact h.setStream i _ rfl rfl rfl id
  | write n i q =>
    obtain ⟨-, hfresh, hi, hopen, hq⟩ := ha
    obtain rfl := hq ho
    exact h.write hfresh hi hopen
  | register i =>
    obtain ⟨hline, hopen, hun⟩ := ho
    exact h.register ha.1 ha.2 hline hopen hun
  | drop => exact h.drop
  | peek k p =>
    exact h.move (fun _ => by rw [ha.1]; exact ⟨rfl, rfl⟩) (.inr (.inr ⟨p, .inl ⟨rfl, ha.2⟩⟩))
  | pass k p => exact h.pass ha ho
  | skip k p => exact ho.elim
  | reset k p => exact h.withLog _ _ _ _ (by simpa using h.sent)
  | fetch k p m => exact h.fetch ha.1
  | finish k p ret cut closes =>
    obtain rfl : cut = false := ho
    exact h.finish ha.1 ha.2
  | removeSkipped k p => exact absurd ha (h.no_skip k p)
  | remove k p o => exact h.remove ha
  | deliver k p o send release ph =>
    obtain ⟨hphase, hsend, -, hph⟩ := ha
    have hsent := h.withLog w.stage w.err (if send then update w.ready p true else w.ready) ((if send then
        [Event.sent p (w.readers k).stream o.answer] else []) ++
        (if release then [Event.released p] else []) ++ w.log) fun q i r hmem => by
      rcases send with _ | _
      · refine h.sent q i r ?_
        cases release <;> simpa using hmem
      · obtain ⟨hret, rfl⟩ := hsend rfl
        obtain ⟨hanswer, hwritten⟩ := h.answer k p o (.inr hphase) hret
        simp only [if_true, Bool.false_eq_true, if_false, List.append_nil, List.singleton_append,
          List.mem_cons, Event.sent.injEq] at hmem
        rcases hmem with ⟨rfl, rfl, rfl⟩ | hmem
        · exact ⟨hwritten, hanswer⟩
        · exact h.sent q i r hmem
    refine hsent.move (k := k) (fun hl => ?_) ?_
    · show _ ∧ _
      rw [hphase]
      refine ⟨?_, rfl⟩
      by_contra hret
      have hearly : o.ret = .early := by simpa [Phase.live] using hret
      rw [if_pos hearly] at hph
      rcases hph with rfl | rfl <;> simp [Phase.live] at hl
    · split at hph
      · rcases hph with rfl | rfl
        · exact .inr (.inl rfl)
        · exact .inr (.inr ⟨p, .inr ⟨rfl, h.subject_written k p (by rw [hphase]; rfl)⟩⟩)
      · rcases hph with rfl | rfl
        · exact .inr (.inl rfl)
        · exact .inl rfl
  | fail k p send ph =>
    have hlog := h.withLog w.stage (update w.err p (send || w.err p)) w.ready w.log h.sent
    rcases ha with ⟨hphase, rfl⟩ | ⟨hphase, rfl⟩
    · exact hlog.move (k := k) (fun _ => by show _ ∧ _; rw [hphase]; exact ⟨rfl, rfl⟩) (.inl rfl)
    · exact hlog.move (k := k) (fun hl => absurd hl (by simp [Phase.live])) (.inr (.inl rfl))
  | retire k => exact h.move (fun hl => absurd hl (by simp [Phase.live])) (.inr (.inl rfl))
  | settle n st =>
    refine h.withLog _ _ _ _ fun p i r hmem => h.sent p i r ?_
    split at hmem
    · simpa using hmem
    · exact hmem

theorem new : Sys.new.wire.Paired := by
  have hactive (k : ℕ) : ¬ Sys.new.wire.Active k := by
    rintro (⟨hr, -⟩ | ⟨p, hp⟩)
    · cases hr
    · cases hp
  exact
    { newest := fun i hi => absurd hi (Nat.not_lt_zero i)
      answered_le := fun _ => Nat.le_refl 0
      taken_le := fun _ => Nat.le_refl 0
      served := fun i p hp => absurd hp List.not_mem_nil
      line_written := fun p hp => absurd hp List.not_mem_nil
      subject_written := fun k p hp => by cases hp
      no_skip := fun k p hp => by cases hp
      stream_lt := fun k hk => absurd hk (hactive k)
      synced := fun k hk => absurd hk (hactive k)
      hold := fun k hk => absurd hk (hactive k)
      apart := fun k _ hk => absurd hk (hactive k)
      parses := fun k p hp => by cases hp
      in_line := fun k hr => by cases hr
      at_head := fun k p hr => by cases hr
      stray := fun k p _ _ => List.not_mem_nil
      answer := fun k p o hp => by rcases hp with hp | hp <;> cases hp
      sent := fun p i r hmem => absurd hmem List.not_mem_nil }

end Paired

instance (w : Wire) (a : Action) : Decidable (w.Orderly a) :=
  match a with
  | .dial => inferInstanceAs (Decidable (∀ i < w.numStreams, (w.streams i).closed = true))
  | .register i =>
    inferInstanceAs (Decidable (w.line = [] ∧ (w.streams i).closed = false ∧
      (w.streams i).unanswered = []))
  | .pass k _ => inferInstanceAs (Decidable (w.reg = some k))
  | .skip _ _ => .isFalse id
  | .write _ i _ => inferInstanceAs (Decidable ((w.streams i).torn = false))
  | .finish _ _ _ cut _ => inferInstanceAs (Decidable (cut = false))
  | .close _ | .tear _ | .drop | .peek _ _ | .reset _ _ | .fetch _ _ _ | .removeSkipped _ _
  | .remove _ _ _ | .deliver _ _ _ _ _ _ | .fail _ _ _ _ | .retire _ | .settle _ _ =>
    .isTrue trivial

end Wire

/-- The step performs an action that is orderly, if it performs any. -/
def Sys.Orderly (s : Sys) (l : Tid × Choice) : Prop := ∀ a ∈ s.action l, s.wire.Orderly a

instance (s : Sys) (l : Tid × Choice) : Decidable (s.Orderly l) :=
  inferInstanceAs (Decidable (∀ a ∈ s.action l, s.wire.Orderly a))

/-- In every orderly run, every answer given to a caller was read from the stream its
request was written to, and is the server's answer to that request. -/
theorem answers_paired (cfg : Config) (s : Sys)
    (h : Guarded.Reaches (Sys.step cfg) Sys.Orderly Sys.new s) (p i : ℕ) (answer : Option ℕ)
    (hsent : .sent p i answer ∈ s.log) : (s.pend p).written = some i ∧ answer = some p :=
  (reaches_wire Wire.Orderly Wire.Paired Wire.Paired.new (fun _ _ hw => hw.next) h).2.sent p i answer hsent

/-! ### Runs -/

/-- `m` steps of one goroutine in which nothing is left to choose. -/
def steps (t : Tid) (m : ℕ) : List (Tid × Choice) := List.replicate m (t, .plain)

/-- One request per connection, and no timeouts. -/
def rotating : Config where
  enablePipelining := true
  maxRequestsPerConn := 1
  idleTimeout := 0
  readTimeout := 0
  writeTimeout := 0
  enableHealthScoring := false
  enablePipelineAutoTune := false
  maxPipelinedRequests := 10
  maxRespSize := 65536
  maxReqSize := 65536
  headerReadSize := 4096
  bodyReadSize := 4096
  maxRespSize_pos := by decide
  maxReqSize_pos := by decide
  headerReadSize_pos := by decide
  bodyReadSize_pos := by decide

/-- Caller 1 dials, starts reader 0 and writes; the reader answers it. -/
def oneAnswer : List (Tid × Choice) :=
  steps (.caller 1) 26 ++ steps (.reader 0) 5 ++
    [(.reader 0, .fetch 1), (.reader 0, .finish .ok false false)] ++ steps (.reader 0) 5

theorem answers_paired_oneAnswer :
    ∃ s, Guarded.Reaches (Sys.step rotating) Sys.Orderly Sys.new s ∧
      .sent 1 0 (some 1) ∈ s.log ∧ (s.pend 1).written = some 0 := by
  obtain ⟨s, hs, hsent⟩ := Guarded.exists_of_exec (Sys.step rotating) Sys.Orderly Sys.new
    oneAnswer (fun s => .sent 1 0 (some 1) ∈ s.log) (by decide +kernel)
  exact ⟨s, hs, hsent, (answers_paired rotating s hs 1 0 (some 1) hsent).1⟩

/-- Callers 1 and 2 write on stream 0, and reader 0 takes both answers into its buffer and
gives the first to caller 1.  Caller 3 rotates the connection away, dials stream 1, starts
reader 1 and writes.  Reader 0, still in its inner loop, finds request 3 in line and the
connection not closing. -/
def staleReader : List (Tid × Choice) :=
  steps (.caller 1) 26 ++ steps (.caller 2) 13 ++ steps (.reader 0) 5 ++
    [(.reader 0, .fetch 2), (.reader 0, .finish .ok false false)] ++ steps (.reader 0) 5 ++
    steps (.caller 3) 35 ++ steps (.reader 0) 3 ++ [(.reader 0, .finish .ok false false)] ++
    steps (.reader 0) 5

/-- Without order, caller 3 is given the answer to request 2, from another stream. -/
theorem answer_mispaired :
    ∃ s, Guarded.Reaches (Sys.step rotating) (fun _ _ => True) Sys.new s ∧
      .sent 3 0 (some 2) ∈ s.log ∧ (s.pend 3).written = some 1 :=
  Guarded.exists_of_exec (Sys.step rotating) (fun _ _ => True) Sys.new staleReader
    (fun s => .sent 3 0 (some 2) ∈ s.log ∧ (s.pend 3).written = some 1) (by decide +kernel)

end BurstHttp.Pipeline
