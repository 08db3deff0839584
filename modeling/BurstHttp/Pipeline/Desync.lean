/-
No reader parses a stream on which a parse has gone wrong.

A parse that fails, or stops inside an answer, leaves its reader somewhere inside
a message.  In runs that are orderly and *intact* (`Wire.Intact`: no parse fails
after it has stored a status code) that reader is the only one on its stream and
never parses again, and no other reader is started on the stream.

* `Unbroken` — the invariant, `Unbroken.next` — intact actions keep it;
* `reaches_unbroken` — in intact runs no parse begins on a stream after one has
  gone wrong there.
-/
import BurstHttp.Pipeline.Pairing

namespace BurstHttp.Pipeline

open Function (update)

/-- A parse does not begin on a stream on which one has gone wrong. -/
def Event.InStep (later earlier : Event) : Prop :=
  ∀ i, earlier = .broke i → later ≠ .began i

/-- A parse fails with a status code stored. -/
def Action.failsLate : Action → Bool
  | .finish _ _ .late _ _ => true
  | _ => false

namespace Wire

/-- The condition under which a stream is not read past a failure. -/
def Intact (w : Wire) (a : Action) : Prop := w.Orderly a ∧ a.failsLate = false

instance (w : Wire) (a : Action) : Decidable (w.Intact a) := inferInstanceAs (Decidable (_ ∧ _))

structure Unbroken (w : Wire) : Prop where
  paired : w.Paired
  dialed : ∀ i, .broke i ∈ w.log → i < w.numStreams
  avoided : ∀ i, .broke i ∈ w.log → ∀ k, w.Active k → (w.readers k).stream ≠ i
  owing : ∀ i, .broke i ∈ w.log →
    (w.streams i).closed = true ∨ (w.streams i).unanswered ≠ []
  ordered : w.log.Pairwise Event.InStep

variable {w : Wire}

/-- Readers that go on without taking up a request do not become active. -/
theorem active_of_setPhase {k m : ℕ} {ph : Phase}
    (h : ph.live = true → (w.readers k).phase.live = true) (hin : ∀ p, ph ≠ .inside p)
    (hm : (w.setPhase k ph).Active m) : w.Active m := by
  refine forall_setPhase (P := fun m ph => (w.reg = some m ∧ ph.live = true ∨
    ∃ p, ph = .inside p) → w.Active m) ?_ (fun m _ => id) m hm
  rintro (⟨hreg, hl⟩ | ⟨p, hp⟩)
  · exact .inl ⟨hreg, h hl⟩
  · exact absurd hp (hin p)

/-- A reader that may parse could do so before, or has just been started. -/
theorem active_next {a : Action} {k : ℕ} (ha : w.Enabled a) (ho : w.Orderly a)
    (hk : (w.next a).Active k) :
    w.Active k ∧ ((w.next a).readers k).stream = (w.readers k).stream ∨
      ∃ i, a = .register i ∧ ((w.next a).readers k).stream = i := by
  cases a with
  | register i =>
    rcases eq_or_ne k w.numReaders with rfl | hne
    · exact .inr ⟨i, rfl, by simp [Wire.next]⟩
    · have hsame : (w.next (.register i)).readers k = w.readers k := Function.update_of_ne hne _ _
      rcases hk with ⟨hr, -⟩ | ⟨p, hp⟩
      · exact absurd (Option.some_inj.mp hr).symm hne
      · rw [hsame] at hp ⊢
        exact .inl ⟨.inr ⟨p, hp⟩, rfl⟩
  | drop =>
    rcases hk with ⟨hr, -⟩ | hp
    · cases hr
    · exact .inl ⟨.inr hp, rfl⟩
  | dial | close _ | tear _ | write _ _ _ | reset _ _ | settle _ _ => exact .inl ⟨hk, rfl⟩
  | peek m p =>
    exact .inl ⟨active_of_setPhase (fun _ => by rw [ha.1]; rfl) (by simp) hk, rfl⟩
  | pass m p =>
    have hphase : (w.readers m).phase = .peeked p := ha
    refine .inl ⟨forall_setPhase (P := fun k ph => (w.reg = some k ∧ ph.live = true ∨
      ∃ p, ph = .inside p) → w.Active k) (fun _ => .inl ⟨ho, by rw [hphase]; rfl⟩)
      (fun m _ => id) k hk, rfl⟩
  | skip m p => exact ho.elim
  | removeSkipped m p =>
    have hphase : (w.readers m).phase = .skipping p := ha
    exact .inl ⟨active_of_setPhase (fun _ => by rw [hphase]; rfl) (by simp) hk, rfl⟩
  | remove m p o =>
    have hphase : (w.readers m).phase = .parsed p o := ha
    exact .inl ⟨active_of_setPhase (fun hl => by rw [hphase]; exact hl) (by simp) hk, rfl⟩
  | deliver m p o send release ph =>
    obtain ⟨hphase, -, -, hph⟩ := ha
    refine .inl ⟨active_of_setPhase (fun hl => ?_) ?_ hk, rfl⟩
    · rw [hphase]
      split at hph
      · rcases hph with rfl | rfl <;> simp [Phase.live] at hl
      · simpa [Phase.live] using ‹o.ret ≠ .early›
    · split at hph <;> rcases hph with rfl | rfl <;> simp
  | fail m p send ph =>
    rcases ha with ⟨hphase, rfl⟩ | ⟨hphase, rfl⟩
    · exact .inl ⟨active_of_setPhase (fun _ => by rw [hphase]; rfl) (by simp) hk, rfl⟩
    · exact .inl ⟨active_of_setPhase (by simp [Phase.live]) (by simp) hk, rfl⟩
  | retire m => exact .inl ⟨active_of_setPhase (by simp [Phase.live]) (by simp) hk, rfl⟩
  | fetch m p n =>
    rcases eq_or_ne k m with rfl | hne
    · exact .inl ⟨.inr ⟨p, ha.1⟩, by simp [Wire.next]⟩
    · have hsame : (w.next (.fetch m p n)).readers k = w.readers k := Function.update_of_ne hne _ _
      rw [Active, hsame] at hk
      exact .inl ⟨hk, by rw [hsame]⟩
  | finish m p ret cut closes =>
    rcases eq_or_ne k m with rfl | hne
    · exact .inl ⟨.inr ⟨p, ha.1⟩, by simp [Wire.next]⟩
    · have hsame : (w.next (.finish m p ret cut closes)).readers k = w.readers k :=
        Function.update_of_ne hne _ _
      rw [Active, hsame] at hk
      exact .inl ⟨hk, by rw [hsame]⟩

/-- A parse goes wrong where one ends without nil, or inside an answer. -/
theorem broke_next {a : Action} {i : ℕ} (h : .broke i ∈ (w.next a).log) :
    .broke i ∈ w.log ∨ ∃ k p ret cut closes, a = .finish k p ret cut closes ∧
      (ret ≠ .ok ∨ cut = true) ∧ i = (w.readers k).stream := by
  cases a with
  | reset k p => exact .inl (by simpa [Wire.next] using h)
  | fetch k p m => exact .inl (by simpa [Wire.next] using h)
  | finish k p ret cut closes =>
    rcases List.mem_append.mp h with hev | hold
    · unfold parseEvents at hev
      have hwrong (hi : i = (w.readers k).stream) (hbad : ¬(ret = .ok ∧ cut = false)) :
          ∃ k' p' ret' cut' closes', Action.finish k p ret cut closes = .finish k' p' ret' cut' closes' ∧
            (ret' ≠ .ok ∨ cut' = true) ∧ i = (w.readers k').stream := by
        refine ⟨k, p, ret, cut, closes, rfl, ?_, hi⟩
        rcases eq_or_ne ret .ok with hret | hret
        · exact .inr (by simpa [hret] using hbad)
        · exact .inl hret
      split_ifs at hev with hearly hwhole
      · exact .inr (hwrong (by simpa using hev) (by simp [hearly]))
      · simp at hev
      · exact .inr (hwrong (by simpa using hev) hwhole)
    · exact .inl hold
  | deliver k p o send release ph =>
    refine .inl ?_
    rcases List.mem_append.mp h with hev | hold
    · cases send <;> cases release <;> simp at hev
    · exact hold
  | settle n st =>
    refine .inl ?_
    simp only [Wire.next] at h
    split at h
    · simpa using h
    · exact h
  | dial | close _ | tear _ | write _ _ _ | register _ | drop | peek _ _ | pass _ _ | skip _ _
  | removeSkipped _ _ | remove _ _ _ | fail _ _ _ _ | retire _ => exact .inl h

/-- A parse begins where a reader is about to fill a response. -/
theorem ordered_next {a : Action} (h : w.log.Pairwise Event.InStep)
    (hbegin : ∀ k p, a = .reset k p → .broke (w.readers k).stream ∉ w.log) :
    (w.next a).log.Pairwise Event.InStep := by
  -- only one kind of event could be out of step
  have hcons {e : Event} {log : List Event} (hlog : log.Pairwise Event.InStep)
      (he : ∀ i, e ≠ .began i) : (e :: log).Pairwise Event.InStep :=
    List.pairwise_cons.mpr ⟨fun _ _ i _ => he i, hlog⟩
  cases a with
  | reset k p =>
    refine hcons (List.pairwise_cons.mpr ⟨fun e he i hei hbegan => ?_, h⟩) (by simp)
    obtain rfl := Event.began.inj hbegan
    exact hbegin k p rfl (hei ▸ he)
  | fetch k p m => exact hcons h (by simp)
  | finish k p ret cut closes =>
    simp only [Wire.next, parseEvents]
    split_ifs
    · exact hcons h (by simp)
    · exact hcons h (by simp)
    · exact hcons (hcons h (by simp)) (by simp)
  | deliver k p o send release ph =>
    show List.Pairwise _ (_ ++ _ ++ w.log)
    cases send <;> cases release
    · exact h
    · exact hcons h (by simp)
    · exact hcons h (by simp)
    · exact hcons (hcons h (by simp)) (by simp)
  | settle n st =>
    simp only [Wire.next]
    split
    · exact hcons h (by simp)
    · exact h
  | dial | close _ | tear _ | write _ _ _ | register _ | drop | peek _ _ | pass _ _ | skip _ _
  | removeSkipped _ _ | remove _ _ _ | fail _ _ _ _ | retire _ => exact h

/-- A stream that is closed or owes an answer stays so, until a reader parses one. -/
theorem owing_next {a : Action} {i : ℕ} (hi : i < w.numStreams)
    (h : (w.streams i).closed = true ∨ (w.streams i).unanswered ≠ [])
    (hfinish : ∀ k p ret cut closes, a = .finish k p ret cut closes →
      (w.readers k).stream = i → ret = .early) :
    ((w.next a).streams i).closed = true ∨ ((w.next a).streams i).unanswered ≠ [] := by
  have hupdate {j : ℕ} {t : Stream} (ht : (w.streams j).closed = true ∨
      (w.streams j).unanswered ≠ [] → t.closed = true ∨ t.unanswered ≠ []) :
      (update w.streams j t i).closed = true ∨ (update w.streams j t i).unanswered ≠ [] := by
    rcases eq_or_ne i j with rfl | hne
    · rw [Function.update_self]
      exact ht h
    · rw [Function.update_of_ne hne]
      exact h
  cases a with
  | dial =>
    have hne : i ≠ w.numStreams := Nat.ne_of_lt hi
    simpa only [Wire.next, Function.update_of_ne hne] using h
  | close j => exact hupdate fun _ => .inl rfl
  | tear j => exact hupdate id
  | write n j q =>
    refine hupdate (.imp id fun hne hnil => hne ?_)
    rw [Stream.unanswered, List.drop_eq_nil_iff] at hnil ⊢
    rw [List.length_append] at hnil
    exact Nat.le_of_add_right_le hnil
  | fetch k p m => exact hupdate id
  | finish k p ret cut closes =>
    rcases eq_or_ne (w.readers k).stream i with hk | hk
    · rw [finish_of_not_consumes (.inl (hfinish k p ret cut closes rfl hk))]
      exact h
    · simpa only [Wire.next, Function.update_of_ne hk.symm] using h
  | register _ | drop | peek _ _ | pass _ _ | skip _ _ | reset _ _ | removeSkipped _ _
  | remove _ _ _ | deliver _ _ _ _ _ _ | fail _ _ _ _ | retire _ | settle _ _ => exact h

theorem numStreams_next (a : Action) : w.numStreams ≤ (w.next a).numStreams := by
  cases a <;> simp [Wire.next, setStream, setPhase]

namespace Unbroken

/-- In an intact run, a parse that goes wrong has stored no status code. -/
theorem early_of_broke {k p : ℕ} {ret : ParseRet} {cut closes : Bool}
    (ho : w.Intact (.finish k p ret cut closes)) (h : ret ≠ .ok ∨ cut = true) : ret = .early := by
  have hcut : cut = false := ho.1
  cases ret with
  | early => rfl
  | late => exact absurd ho.2 (by simp [Action.failsLate])
  | ok => simp [hcut] at h

/-- Intact actions keep broken streams from being read. -/
theorem next (h : w.Unbroken) {a : Action} (ha : w.Enabled a) (ho : w.Intact a) :
    (w.next a).Unbroken := by
  have hpaired := h.paired.next ha ho.1
  refine ⟨hpaired, fun i hi => ?_, fun i hi k hk => ?_, fun i hi => ?_,
    ordered_next h.ordered ?_⟩
  · refine Nat.lt_of_lt_of_le ?_ (numStreams_next a)
    rcases broke_next hi with hold | ⟨k, p, ret, cut, closes, rfl, -, rfl⟩
    · exact h.dialed i hold
    · exact h.paired.stream_lt k (.inr ⟨p, ha.1⟩)
  · rcases active_next ha ho.1 hk with ⟨hactive, hstream⟩ | ⟨j, rfl, hstream⟩
    · rw [hstream]
      rcases broke_next hi with hold | ⟨m, p, ret, cut, closes, rfl, hbad, rfl⟩
      · exact h.avoided i hold k hactive
      · -- the reader that failed is done, and no other reads this stream
        intro hkm
        obtain rfl := h.paired.apart k m hactive (.inr ⟨p, ha.1⟩) hkm
        have hearly := early_of_broke ho hbad
        subst hearly
        rcases hk with ⟨-, hl⟩ | ⟨q, hq⟩
        · simp [Wire.next, Phase.live, Reader.outcome] at hl
        · simp [Wire.next] at hq
    · rw [hstream]
      rcases broke_next hi with hold | ⟨m, p, ret, cut, closes, hfin, -, -⟩
      · rintro rfl
        obtain ⟨-, hopen, hun⟩ := ho.1
        rcases h.owing j hold with hc | hne
        · exact absurd (hc.symm.trans hopen) (by simp)
        · exact hne hun
      · cases hfin
  · rcases broke_next hi with hold | ⟨k, p, ret, cut, closes, rfl, hbad, rfl⟩
    · refine owing_next (h.dialed i hold) (h.owing i hold) fun k p ret cut closes hfin hk => ?_
      subst hfin
      exact absurd hk (h.avoided i hold k (.inr ⟨p, ha.1⟩))
    · refine owing_next (h.paired.stream_lt k (.inr ⟨p, ha.1⟩)) ?_
        fun m q ret' cut' closes' hfin _ => by cases hfin; exact early_of_broke ho hbad
      rcases h.paired.parses k p ha.1 with hhead | ⟨-, hc⟩
      · exact .inr fun hnil => by
          have hnil : (w.source k).unanswered = [] := hnil
          rw [hnil] at hhead
          cases hhead
      · exact .inl hc
  · rintro k p rfl hmem
    exact h.avoided _ hmem k (.inr ⟨p, ha⟩) rfl

theorem new : Sys.new.wire.Unbroken :=
  ⟨Paired.new, fun _ h => absurd h List.not_mem_nil, fun _ h => absurd h List.not_mem_nil,
    fun _ h => absurd h List.not_mem_nil, List.Pairwise.nil⟩

end Unbroken

end Wire

/-- The step performs an action that keeps streams intact, if it performs any. -/
def Sys.Intact (s : Sys) (l : Tid × Choice) : Prop := ∀ a ∈ s.action l, s.wire.Intact a

instance (s : Sys) (l : Tid × Choice) : Decidable (s.Intact l) :=
  inferInstanceAs (Decidable (∀ a ∈ s.action l, s.wire.Intact a))

/-- In intact runs, no parse begins on a stream after one has gone wrong there. -/
theorem reaches_unbroken {cfg : Config} {s : Sys}
    (h : Guarded.Reaches (Sys.step cfg) Sys.Intact Sys.new s) : s.log.Pairwise Event.InStep :=
  (reaches_wire Wire.Intact Wire.Unbroken Wire.Unbroken.new (fun _ _ hw => hw.next) h).2.ordered

end BurstHttp.Pipeline
