/-
Shared resources with a use count and a claim mark.

Users come to a resource in one of three ways.  They *claim* it, by moving its
count from 0 to 1, and leave a mark that tells them later that they are counted;
they are *issued* it when it is new; or they are *lent* it without a claim.  A
user that starts work takes the mark away if it finds one, and adds itself to the
count otherwise; a user that is done takes itself off the count.

* `State`, `Action`, `State.next` — the protocol;
* `State.Clear` — nobody claims or is lent a resource to which another user is
  still on the way without being counted, and nobody is lent one in use;
* `State.Exclusive` — every resource has one user at most, and its count says so;
* `Exclusive.next` — clear actions keep that.
-/
import Mathlib.Data.Int.Notation
import Mathlib.Logic.Function.Basic

namespace Lease

open Function (update)

/-- How far a user has got with a resource. -/
inductive Ticket
  | claimed    -- it has claimed the resource, and will leave the mark
  | ready      -- it has the resource, and will look for the mark
  | counting   -- it has found none, and will add itself to the count
  | inside     -- it works
  deriving DecidableEq, Repr

/-- The tickets of users that may not be counted. -/
def Ticket.early : Ticket → Bool
  | .ready | .counting => true
  | .claimed | .inside => false

/-- What a user adds to the count of its resource, which is marked or not. -/
def Ticket.weight : Ticket → Bool → ℤ
  | .claimed, _ | .inside, _ => 1
  | .ready, marked => if marked then 1 else 0
  | .counting, _ => 0

/-- `has` says which resource a user has, and how far it has got. -/
structure State (ι κ : Type) where
  count : κ → ℤ
  mark : κ → Bool
  has : ι → Option (κ × Ticket)

inductive Action (ι κ : Type)
  | issue (n : ι) (c : κ)
  | lend (n : ι) (c : κ)
  | claim (n : ι) (c : κ)
  | setMark (n : ι) (c : κ)
  | take (n : ι) (c : κ)
  | miss (n : ι) (c : κ)
  | add (n : ι) (c : κ)
  | leave (n : ι) (c : κ)
  | discard (n : ι) (c : κ)

namespace State

variable {ι κ : Type} [DecidableEq ι] [DecidableEq κ]

def next (w : State ι κ) : Action ι κ → State ι κ
  | .issue n c => ⟨update w.count c 0, update w.mark c false, update w.has n (some (c, .ready))⟩
  | .lend n c => { w with has := update w.has n (some (c, .ready)) }
  | .claim n c =>
    { w with count := update w.count c 1, has := update w.has n (some (c, .claimed)) }
  | .setMark n c =>
    { w with mark := update w.mark c true, has := update w.has n (some (c, .ready)) }
  | .take n c =>
    { w with mark := update w.mark c false, has := update w.has n (some (c, .inside)) }
  | .miss n c => { w with has := update w.has n (some (c, .counting)) }
  | .add n c =>
    { w with count := update w.count c (w.count c + 1), has := update w.has n (some (c, .inside)) }
  | .leave n c =>
    { w with count := update w.count c (w.count c - 1), has := update w.has n none }
  | .discard n _ => { w with has := update w.has n none }

/-- The state after an action, if there is one. -/
def after (w : State ι κ) : Option (Action ι κ) → State ι κ
  | none => w
  | some a => w.next a

/-- When an action can happen. -/
def Enabled (w : State ι κ) : Action ι κ → Prop
  | .issue n c => w.has n = none ∧ ∀ m t, w.has m ≠ some (c, t)
  | .lend n _ => w.has n = none
  | .claim n c => w.has n = none ∧ w.count c = 0
  | .setMark n c => w.has n = some (c, .claimed)
  | .take n c => w.has n = some (c, .ready) ∧ w.mark c = true
  | .miss n c => w.has n = some (c, .ready) ∧ w.mark c = false
  | .add n c => w.has n = some (c, .counting)
  | .leave n c => w.has n = some (c, .inside)
  | .discard n c => w.has n = some (c, .ready)

/-- Nobody is on the way to `c` without being counted, for all the count shows. -/
def NoneEarly (w : State ι κ) (c : κ) : Prop :=
  ∀ m, (w.has m).all (fun x => !(decide (x.1 = c) && x.2.early)) = true

/-- The condition under which resources are not shared. -/
def Clear (w : State ι κ) : Action ι κ → Prop
  | .claim _ c => w.NoneEarly c
  | .lend _ c => w.count c = 0 ∧ w.NoneEarly c
  | _ => True

/-- Every resource has one user at most, and the count and the mark of a resource show
how far it has got; one that failed before it came to work may have left the mark. -/
structure Exclusive (w : State ι κ) : Prop where
  sole : ∀ n m c t u, w.has n = some (c, t) → w.has m = some (c, u) → n = m
  weighed : ∀ n c t, w.has n = some (c, t) → w.count c = t.weight (w.mark c)
  unmarked : ∀ n c t, w.has n = some (c, t) → t ≠ .ready → w.mark c = false
  free : ∀ c, (∀ n t, w.has n ≠ some (c, t)) → w.count c = if w.mark c then 1 else 0

variable {w : State ι κ}

omit [DecidableEq ι] in
/-- A resource that counts 0, with nobody on the way, has no user. -/
theorem Exclusive.unused (h : w.Exclusive) {c : κ} (hzero : w.count c = 0)
    (hearly : w.NoneEarly c) (n : ι) (t : Ticket) : w.has n ≠ some (c, t) := by
  intro hn
  have hweight := h.weighed n c t hn
  have ht := hearly n
  rw [hn] at ht
  cases t with
  | claimed => simp [Ticket.weight, hzero] at hweight
  | inside => simp [Ticket.weight, hzero] at hweight
  | ready => simp [Ticket.early] at ht
  | counting => simp [Ticket.early] at ht

/-- A user that has a resource to itself goes on with it, or comes to it. -/
theorem Exclusive.hold (h : w.Exclusive) {n : ι} {c : κ} (t : Ticket) (count : ℤ) (mark : Bool)
    (hn : w.has n = none ∨ ∃ u, w.has n = some (c, u))
    (hothers : ∀ m u, m ≠ n → w.has m ≠ some (c, u))
    (hweight : count = t.weight mark) (hmark : t ≠ .ready → mark = false) :
    (State.mk (update w.count c count) (update w.mark c mark)
      (update w.has n (some (c, t)))).Exclusive := by
  -- another user has another resource, and has kept it
  have hother {m : ι} {d : κ} {u : Ticket} (hm : update w.has n (some (c, t)) m = some (d, u)) :
      m = n ∧ d = c ∧ u = t ∨ m ≠ n ∧ d ≠ c ∧ w.has m = some (d, u) := by
    rcases eq_or_ne m n with rfl | hmn
    · rw [Function.update_self] at hm
      cases hm
      exact .inl ⟨rfl, rfl, rfl⟩
    · rw [Function.update_of_ne hmn] at hm
      exact .inr ⟨hmn, fun hd => hothers m u hmn (hd ▸ hm), hm⟩
  refine ⟨fun m k d u v hm hk => ?_, fun m d u hm => ?_, fun m d u hm hu => ?_, fun d hd => ?_⟩
  · rcases hother hm with ⟨rfl, rfl, -⟩ | ⟨-, hdc, hm'⟩
    · rcases hother hk with ⟨rfl, -⟩ | ⟨-, hne, -⟩
      · rfl
      · exact absurd rfl hne
    · rcases hother hk with ⟨-, hd, -⟩ | ⟨-, -, hk'⟩
      · exact absurd hd hdc
      · exact h.sole m k d u v hm' hk'
  · rcases hother hm with ⟨-, rfl, rfl⟩ | ⟨-, hdc, hm'⟩
    · simpa only [Function.update_self] using hweight
    · simpa only [Function.update_of_ne hdc] using h.weighed m d u hm'
  · rcases hother hm with ⟨-, rfl, rfl⟩ | ⟨-, hdc, hm'⟩
    · simpa only [Function.update_self] using hmark hu
    · simpa only [Function.update_of_ne hdc] using h.unmarked m d u hm' hu
  · have hdc : d ≠ c := by
      rintro rfl
      exact hd n t (by simp)
    simp only [Function.update_of_ne hdc]
    refine h.free d fun m u hm => ?_
    rcases eq_or_ne m n with rfl | hmn
    · rcases hn with hnone | ⟨v, hv⟩
      · exact absurd (hm.symm.trans hnone) (by simp)
      · exact hdc (congrArg Prod.fst (Option.some_inj.mp (hm.symm.trans hv)))
    · exact hd m u ((Function.update_of_ne hmn _ _).trans hm)

/-- A user that has a resource to itself gives it up. -/
theorem Exclusive.giveUp (h : w.Exclusive) {n : ι} {c : κ} {t : Ticket} {count : ℤ}
    (hn : w.has n = some (c, t)) (hcount : count = if w.mark c then 1 else 0) :
    (State.mk (update w.count c count) w.mark (update w.has n none)).Exclusive := by
  have hother {m : ι} {d : κ} {u : Ticket} (hm : update w.has n none m = some (d, u)) :
      d ≠ c ∧ w.has m = some (d, u) := by
    rcases eq_or_ne m n with rfl | hmn
    · rw [Function.update_self] at hm
      cases hm
    · rw [Function.update_of_ne hmn] at hm
      exact ⟨fun hd => hmn (h.sole m n c u t (hd ▸ hm) hn), hm⟩
  refine ⟨fun m k d u v hm hk => ?_, fun m d u hm => ?_, fun m d u hm hu => ?_, fun d hd => ?_⟩
  · exact h.sole m k d u v (hother hm).2 (hother hk).2
  · obtain ⟨hdc, hm'⟩ := hother hm
    simpa only [Function.update_of_ne hdc] using h.weighed m d u hm'
  · exact h.unmarked m d u (hother hm).2 hu
  · rcases eq_or_ne d c with rfl | hdc
    · simpa only [Function.update_self] using hcount
    · simp only [Function.update_of_ne hdc]
      refine h.free d fun m u hm => ?_
      rcases eq_or_ne m n with rfl | hmn
      · exact hdc (congrArg Prod.fst (Option.some_inj.mp (hm.symm.trans hn)))
      · exact hd m u ((Function.update_of_ne hmn _ _).trans hm)

omit [DecidableEq ι] [DecidableEq κ] in
theorem Exclusive.others (h : w.Exclusive) {n : ι} {c : κ} {t : Ticket}
    (hn : w.has n = some (c, t)) (m : ι) (u : Ticket) (hmn : m ≠ n) : w.has m ≠ some (c, u) :=
  fun hm => hmn (h.sole m n c u t hm hn)

/-- Clear actions keep the users of resources apart. -/
theorem Exclusive.next (h : w.Exclusive) {a : Action ι κ} (ha : w.Enabled a) (hc : w.Clear a) :
    (w.next a).Exclusive := by
  cases a with
  | issue n c =>
    obtain ⟨hn, hnobody⟩ := ha
    exact h.hold .ready 0 false (.inl hn) (fun m u _ => hnobody m u) rfl (by simp)
  | lend n c =>
    have hnobody := h.unused hc.1 hc.2
    have hcount := h.free c hnobody
    have := h.hold .ready _ _ (.inl ha) (fun m u _ => hnobody m u) hcount (by simp)
    rwa [Function.update_eq_self, Function.update_eq_self] at this
  | claim n c =>
    obtain ⟨hn, hzero⟩ := ha
    have hnobody := h.unused hzero hc
    -- the count shows that no mark is left
    have hmark : w.mark c = false := by
      have hfree := h.free c hnobody
      rw [hzero] at hfree
      by_contra hne
      simp [hne] at hfree
    have := h.hold .claimed 1 _ (.inl hn) (fun m u _ => hnobody m u) rfl
      fun _ => hmark
    rwa [Function.update_eq_self] at this
  | setMark n c =>
    have hcount : w.count c = 1 := h.weighed n c .claimed ha
    have := h.hold .ready _ true (.inr ⟨_, ha⟩) (h.others ha) hcount (by simp)
    rwa [Function.update_eq_self] at this
  | take n c =>
    obtain ⟨hn, hmark⟩ := ha
    have hcount : w.count c = 1 := by
      have := h.weighed n c .ready hn
      rwa [hmark] at this
    have := h.hold .inside _ false (.inr ⟨_, hn⟩) (h.others hn) hcount
      fun _ => rfl
    rwa [Function.update_eq_self] at this
  | miss n c =>
    obtain ⟨hn, hmark⟩ := ha
    have hcount : w.count c = 0 := by
      have := h.weighed n c .ready hn
      rwa [hmark] at this
    have := h.hold .counting _ _ (.inr ⟨_, hn⟩) (h.others hn) hcount fun _ => hmark
    rwa [Function.update_eq_self, Function.update_eq_self] at this
  | add n c =>
    have hcount : w.count c = 0 := h.weighed n c .counting ha
    have hmark := h.unmarked n c .counting ha (by simp)
    have := h.hold .inside _ _ (.inr ⟨_, ha⟩) (h.others ha)
      (show w.count c + 1 = 1 by omega) fun _ => hmark
    rwa [Function.update_eq_self] at this
  | leave n c =>
    have hcount : w.count c = 1 := h.weighed n c .inside ha
    have hmark := h.unmarked n c .inside ha (by simp)
    refine h.giveUp ha ?_
    rw [hmark, hcount]
    rfl
  | discard n c =>
    have := h.giveUp ha (h.weighed n c .ready ha)
    rwa [Function.update_eq_self] at this

end State

end Lease
