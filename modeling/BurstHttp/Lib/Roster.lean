/-
A list of members that is kept without a lock, and two counters beside it.

Workers enter members in a shared list and take members off it.  The list, the
counter of places and the counter of members are three cells, and a worker changes
one of them at a time.  It *reserves* a place, makes a member, which comes out well
or not, and *enters* it; or it *takes* a batch of members off the list, dismisses
them one after the other and pays for them on both counters.  The list may also be
cleared for good.

* `Duty`, `Shared`, `Acts` — what a worker still has to do, the cells, and what a
  worker can do next;
* `Balanced`, `Balanced.next` — what the counters say while the list stands;
* `Kept`, `Kept.next` — a member that was made well is about to be entered, or is
  listed, or is dismissed or about to be, as long as no worker gives one up because
  there is no list any more.
-/
import Mathlib.Algebra.BigOperators.Group.Finset.Basic
import Mathlib.Algebra.BigOperators.Group.Finset.Piecewise
import Mathlib.Algebra.Order.BigOperators.Group.Finset
import Mathlib.Algebra.Order.Ring.Int
import Mathlib.Data.Fintype.Basic
import Mathlib.Data.List.Basic
import Mathlib.Logic.Function.Basic

namespace Roster

open Function (update)

/-! ### The protocol -/

/-- What a worker has in hand. -/
inductive Duty (α : Type)
  | free
  | reserved                              -- it has a place for a member
  | making (a : α)                        -- it has a place, and makes `a`
  | ready (a : α)                         -- it has a place, and `a` is made
  | entered                               -- it has entered a member, and will count it
  | looking (batch : List α)              -- it will take the batch off the list
  | taken (k : ℕ) (out : List α)          -- it has taken `k` off, and will dismiss `out`
  | settling (k : ℕ)                      -- it has given `k` places back
  | clearing (out : List α)               -- it has cleared the list, and will dismiss `out`

namespace Duty

variable {α : Type}

/-- The places a worker has that are not members. -/
def places : Duty α → ℕ
  | .reserved | .making _ | .ready _ => 1
  | .taken k _ => k
  | _ => 0

/-- By how much the counter of members is ahead on account of a worker. -/
def ahead : Duty α → ℤ
  | .entered => -1
  | .taken k _ | .settling k => k
  | _ => 0

/-- The member a worker has that is not listed yet. -/
def holds : Duty α → Option α
  | .making a | .ready a => some a
  | _ => none

/-- The members a worker is going to dismiss. -/
def out : Duty α → List α
  | .taken _ out | .clearing out => out
  | _ => []

end Duty

/-- The cells that workers share, and which members were ever made, made well or
dismissed. -/
structure Shared (α : Type) where
  listed : Option (List α)
  places : ℤ
  size : ℤ
  made : α → Bool
  sound : α → Bool
  dismissed : α → Bool

/-- The two acts that not every result allows, and the rest. -/
inductive Deed
  | plain
  | giveUp
  | clear
  deriving DecidableEq

section

variable {α : Type} [DecidableEq α]

/-- What a worker can do next, where `limit` bounds the places. -/
inductive Acts (limit : ℤ) (sh : Shared α) : Deed → Duty α → Shared α → Duty α → Prop
  | quiet (d : Duty α) : Acts limit sh .plain d sh d
  | reserve : sh.places < limit →
      Acts limit sh .plain .free { sh with places := sh.places + 1 } .reserved
  | make (a : α) : sh.made a = false →
      Acts limit sh .plain .reserved
        { sh with made := update sh.made a true, dismissed := update sh.dismissed a false }
        (.making a)
  | fail (a : α) : Acts limit sh .plain (.making a) sh .reserved
  | succeed (a : α) :
      Acts limit sh .plain (.making a) { sh with sound := update sh.sound a true } (.ready a)
  | giveUp (a : α) : sh.listed = none → Acts limit sh .giveUp (.ready a) sh .reserved
  | release : Acts limit sh .plain .reserved { sh with places := sh.places - 1 } .free
  | enter (a : α) (members : List α) : sh.listed = some members →
      Acts limit sh .plain (.ready a) { sh with listed := some (members ++ [a]) } .entered
  | count : Acts limit sh .plain .entered { sh with size := sh.size + 1 } .free
  | look (batch : List α) : Acts limit sh .plain .free sh (.looking batch)
  | leave (batch : List α) : Acts limit sh .plain (.looking batch) sh .free
  | take (batch members : List α) : sh.listed = some members →
      Acts limit sh .plain (.looking batch)
        { sh with listed := some (members.filter (· ∉ batch)) }
        (.taken (members.length - (members.filter (· ∉ batch)).length) batch)
  | dismiss (k : ℕ) (a : α) (out : List α) :
      Acts limit sh .plain (.taken k (a :: out))
        { sh with dismissed := update sh.dismissed a true } (.taken k out)
  | giveBack (k : ℕ) :
      Acts limit sh .plain (.taken k []) { sh with places := sh.places - k } (.settling k)
  | settle (k : ℕ) : Acts limit sh .plain (.settling k) { sh with size := sh.size - k } .free
  | clear : Acts limit sh .clear .free { sh with listed := none } (.clearing (sh.listed.getD []))
  | dismissLast (a : α) (out : List α) :
      Acts limit sh .plain (.clearing (a :: out))
        { sh with dismissed := update sh.dismissed a true } (.clearing out)

end

/-- The cells and the workers. -/
structure State (ι α : Type) where
  shared : Shared α
  duty : ι → Duty α

variable {ι α : Type} [DecidableEq ι] {s : State ι α}

/-! ### The counters -/

theorem sum_update [Fintype ι] {δ : Type} (f : δ → ℤ) (g : ι → δ) (i : ι) (d : δ) :
    ∑ j, f (update g i d j) = ∑ j, f (g j) + (f d - f (g i)) := by
  have hcomp (j : ι) : f (update g i d j) = update (fun j => f (g j)) i (f d) j := by
    rcases eq_or_ne j i with rfl | hj
    · rw [Function.update_self, Function.update_self]
    · rw [Function.update_of_ne hj, Function.update_of_ne hj]
  simp only [hcomp]
  rw [Finset.sum_update_of_mem (Finset.mem_univ i), Finset.sdiff_singleton_eq_erase,
    ← Finset.add_sum_erase _ (fun j => f (g j)) (Finset.mem_univ i)]
  omega

/-- The counters say how many members are listed, up to what workers still have to do,
and nobody makes a member that another worker makes or that is listed. -/
structure Balanced [Fintype ι] (limit : ℤ) (s : State ι α) (members : List α) : Prop where
  listed : s.shared.listed = some members
  nodup : members.Nodup
  places : s.shared.places = members.length + ∑ i, ((s.duty i).places : ℤ)
  size : s.shared.size = members.length + ∑ i, (s.duty i).ahead
  bounded : s.shared.places ≤ max limit 0
  made : ∀ a ∈ members, s.shared.made a = true
  held : ∀ i a, (s.duty i).holds = some a → s.shared.made a = true ∧ a ∉ members
  apart : ∀ i j a, (s.duty i).holds = some a → (s.duty j).holds = some a → i = j

section Balanced

variable [Fintype ι] {limit : ℤ} {members : List α}

omit [DecidableEq ι] in
/-- Nobody has done anything yet. -/
theorem Balanced.start (hlisted : s.shared.listed = some []) (hplaces : s.shared.places = 0)
    (hsize : s.shared.size = 0) (hfree : ∀ i, s.duty i = .free) : Balanced limit s [] := by
  refine ⟨hlisted, List.nodup_nil, ?_, ?_, ?_, by simp, fun i a hi => ?_, fun i j a hi => ?_⟩
  · simp [hplaces, hfree, Duty.places]
  · simp [hsize, hfree, Duty.ahead]
  · rw [hplaces]
    exact le_max_right limit 0
  · rw [hfree] at hi
    cases hi
  · rw [hfree] at hi
    cases hi

/-- One worker has acted: members are those from before and what it has entered, the
counters have moved with what it owes, and what it makes now is new. -/
theorem Balanced.act (hb : Balanced limit s members) {i : ι} {d' : Duty α} {sh' : Shared α}
    {members' : List α} (hlisted : sh'.listed = some members') (hnodup : members'.Nodup)
    (hfrom : ∀ a ∈ members', a ∈ members ∨ (s.duty i).holds = some a)
    (hplaces : sh'.places - members'.length - d'.places
      = s.shared.places - members.length - (s.duty i).places)
    (hsize : sh'.size - members'.length - d'.ahead
      = s.shared.size - members.length - (s.duty i).ahead)
    (hbound : sh'.places ≤ max limit 0)
    (hmade : ∀ a, s.shared.made a = true → sh'.made a = true)
    (hholds : ∀ a, d'.holds = some a →
      (s.duty i).holds = some a ∧ a ∉ members' ∨ s.shared.made a = false ∧ sh'.made a = true) :
    Balanced limit ⟨sh', update s.duty i d'⟩ members' := by
  have hknown (a : α) (ha : a ∈ members') : s.shared.made a = true := by
    rcases hfrom a ha with hin | hi
    · exact hb.made a hin
    · exact (hb.held i a hi).1
  -- what another worker makes is neither listed nor made by this one
  have hother {j : ι} {a : α} (hj : (s.duty j).holds = some a) (hne : j ≠ i) :
      a ∉ members' ∧ d'.holds ≠ some a := by
    refine ⟨fun ha => ?_, fun ha => ?_⟩
    · rcases hfrom a ha with hin | hi
      · exact (hb.held j a hj).2 hin
      · exact hne (hb.apart j i a hj hi)
    · rcases hholds a ha with ⟨hi, -⟩ | ⟨hnew, -⟩
      · exact hne (hb.apart j i a hj hi)
      · rw [(hb.held j a hj).1] at hnew
        cases hnew
  refine ⟨hlisted, hnodup, ?_, ?_, hbound, fun a ha => hmade a (hknown a ha), ?_, ?_⟩
  · have hsum := sum_update (fun d : Duty α => (d.places : ℤ)) s.duty i d'
    have := hb.places
    dsimp only at hsum ⊢
    omega
  · have hsum := sum_update (fun d : Duty α => d.ahead) s.duty i d'
    have := hb.size
    dsimp only at hsum ⊢
    omega
  · intro j a hj
    rcases eq_or_ne j i with rfl | hne
    · simp only [Function.update_self] at hj
      rcases hholds a hj with ⟨hold, hnot⟩ | ⟨hnew, hmade'⟩
      · exact ⟨hmade a (hb.held j a hold).1, hnot⟩
      · refine ⟨hmade', fun ha => ?_⟩
        rw [hknown a ha] at hnew
        cases hnew
    · simp only [Function.update_of_ne hne] at hj
      exact ⟨hmade a (hb.held j a hj).1, (hother hj hne).1⟩
  · intro j k a hj hk
    rcases eq_or_ne j i with rfl | hji
    · rcases eq_or_ne k j with rfl | hkj
      · rfl
      · simp only [Function.update_self, Function.update_of_ne hkj] at hj hk
        exact absurd hj (hother hk hkj).2
    · rcases eq_or_ne k i with rfl | hki
      · simp only [Function.update_self, Function.update_of_ne hji] at hj hk
        exact absurd hk (hother hj hji).2
      · simp only [Function.update_of_ne hji, Function.update_of_ne hki] at hj hk
        exact hb.apart j k a hj hk

/-- An act that leaves the list alone, and makes nothing. -/
theorem Balanced.stay (hb : Balanced limit s members) {i : ι} {d' : Duty α} {sh' : Shared α}
    (hlisted : sh'.listed = s.shared.listed) (hmade : sh'.made = s.shared.made)
    (hplaces : sh'.places - d'.places = s.shared.places - (s.duty i).places)
    (hsize : sh'.size - d'.ahead = s.shared.size - (s.duty i).ahead)
    (hbound : sh'.places ≤ s.shared.places ∨ sh'.places ≤ limit)
    (hholds : ∀ a, d'.holds = some a → (s.duty i).holds = some a) :
    Balanced limit ⟨sh', update s.duty i d'⟩ members := by
  have hb' := hb.bounded
  refine hb.act (hlisted.trans hb.listed) hb.nodup (fun a ha => .inl ha) (by omega) (by omega)
    (by omega) (fun a ha => hmade ▸ ha) fun a ha => .inl ⟨hholds a ha, ?_⟩
  exact (hb.held i a (hholds a ha)).2

variable [DecidableEq α]

/-- The counters stay right as long as the list is not cleared. -/
theorem Balanced.next (hb : Balanced limit s members) {i : ι} {deed : Deed} {sh' : Shared α}
    {d' : Duty α} (h : Acts limit s.shared deed (s.duty i) sh' d') (hdeed : deed ≠ .clear) :
    ∃ members', Balanced limit ⟨sh', update s.duty i d'⟩ members' := by
  generalize hd : s.duty i = d at h
  cases h with
  | quiet =>
    refine ⟨members, ?_⟩
    rw [← hd, Function.update_eq_self]
    exact hb
  | reserve hroom =>
    refine ⟨members, hb.stay rfl rfl ?_ ?_ (.inr ?_) ?_⟩ <;> simp [hd, Duty.places, Duty.ahead,
      Duty.holds]
    omega
  | make a hnew =>
    refine ⟨members, hb.act hb.listed hb.nodup (fun b hb => .inl hb) ?_ ?_ hb.bounded ?_ ?_⟩
    · simp [hd, Duty.places]
    · simp [hd, Duty.ahead]
    · intro b hb
      rcases eq_or_ne b a with rfl | hne
      · simp
      · simpa [Function.update_of_ne hne] using hb
    · intro b hb
      obtain rfl : a = b := by simpa [Duty.holds] using hb
      exact .inr ⟨hnew, by simp⟩
  | fail a | release | count | look batch | leave batch | giveBack k | settle k
  | dismiss k a out | dismissLast a out =>
    refine ⟨members, hb.stay rfl rfl ?_ ?_ (.inl ?_) ?_⟩ <;> simp [hd, Duty.places, Duty.ahead,
      Duty.holds]
  | succeed a =>
    refine ⟨members, hb.stay rfl rfl ?_ ?_ (.inl ?_) ?_⟩ <;> simp [hd, Duty.places, Duty.ahead,
      Duty.holds]
  | giveUp a hnone =>
    rw [hb.listed] at hnone
    cases hnone
  -- the place of what is entered was the worker's, and is now the member's
  | enter a l hl =>
    obtain rfl : l = members := Option.some_inj.mp (hl.symm.trans hb.listed)
    have hnot : a ∉ l := (hb.held i a (by rw [hd]; rfl)).2
    refine ⟨l ++ [a], hb.act rfl ?_ (fun b hb => ?_) ?_ ?_ hb.bounded (fun _ => id) ?_⟩
    · exact List.nodup_append.mpr ⟨hb.nodup, List.nodup_singleton a, by
        rintro b hb c hc rfl
        exact hnot (List.mem_singleton.mp hc ▸ hb)⟩
    · rcases List.mem_append.mp hb with hb | hb
      · exact .inl hb
      · refine .inr ?_
        rw [hd, List.mem_singleton.mp hb]
        rfl
    · simp [hd, Duty.places]
      omega
    · simp [hd, Duty.ahead]
      omega
    · simp [Duty.holds]
  -- a worker owes what it has taken off, however much of its batch others took before it
  | take batch l hl =>
    obtain rfl : l = members := Option.some_inj.mp (hl.symm.trans hb.listed)
    have hle := List.length_filter_le (fun a => decide (a ∉ batch)) l
    refine ⟨_, hb.act rfl (hb.nodup.filter _) (fun a ha => .inl (List.mem_of_mem_filter ha))
      ?_ ?_ hb.bounded (fun _ => id) ?_⟩
    · simp only [hd, Duty.places]
      omega
    · simp only [hd, Duty.ahead]
      omega
    · simp [Duty.holds]
  | clear => exact absurd rfl hdeed

omit [DecidableEq ι] [DecidableEq α] in
/-- Places that are taken, and not by members, are places nonetheless. -/
theorem Balanced.length_add_le (hb : Balanced limit s members) (f : ι → ℕ)
    (hf : ∀ i, f i ≤ (s.duty i).places) :
    (members.length : ℤ) + ∑ i, (f i : ℤ) ≤ s.shared.places := by
  have hsum : ∑ i, (f i : ℤ) ≤ ∑ i, ((s.duty i).places : ℤ) :=
    Finset.sum_le_sum fun i _ => by exact_mod_cast hf i
  have := hb.places
  omega

omit [DecidableEq ι] [DecidableEq α] in
/-- When nobody owes anything, both counters say how many members there are. -/
theorem Balanced.at_rest (hb : Balanced limit s members) (hplaces : ∀ i, (s.duty i).places = 0)
    (hahead : ∀ i, (s.duty i).ahead = 0) :
    s.shared.places = members.length ∧ s.shared.size = members.length := by
  have hcount := hb.places
  have hsize := hb.size
  simp only [hplaces, hahead] at hcount hsize
  simp only [Nat.cast_zero, Finset.sum_const_zero, add_zero] at hcount hsize
  exact ⟨hcount, hsize⟩

end Balanced

/-! ### The members -/

/-- Somebody still knows of `a`, or it is dismissed. -/
def Accounted (s : State ι α) (a : α) : Prop :=
  (∃ i, s.duty i = .ready a) ∨ (∃ members, s.shared.listed = some members ∧ a ∈ members)
    ∨ s.shared.dismissed a = true ∨ ∃ i, a ∈ (s.duty i).out

/-- Every member that was made well is accounted for. -/
structure Kept (s : State ι α) : Prop where
  held : ∀ i a, (s.duty i).holds = some a → s.shared.made a = true
  made : ∀ a, s.shared.sound a = true → s.shared.made a = true
  accounted : ∀ a, s.shared.sound a = true → Accounted s a

section Kept

variable {a : α} {i : ι} {d' : Duty α} {sh' : Shared α}

omit [DecidableEq ι] in
theorem Kept.start (hfree : ∀ i, s.duty i = .free) (hsound : ∀ a, s.shared.sound a = false) :
    Kept s := by
  refine ⟨fun i a hi => ?_, fun a ha => ?_, fun a ha => ?_⟩
  · rw [hfree] at hi
    cases hi
  · rw [hsound] at ha
    cases ha
  · rw [hsound] at ha
    cases ha

/-- One worker has acted: what it knew of, and what was listed, must not be lost. -/
theorem Accounted.act (ha : Accounted s a)
    (hready : s.duty i = .ready a → Accounted ⟨sh', update s.duty i d'⟩ a)
    (hlisted : ∀ members, s.shared.listed = some members → a ∈ members →
      Accounted ⟨sh', update s.duty i d'⟩ a)
    (hdismissed : s.shared.dismissed a = true → sh'.dismissed a = true)
    (hout : a ∈ (s.duty i).out → Accounted ⟨sh', update s.duty i d'⟩ a) :
    Accounted ⟨sh', update s.duty i d'⟩ a := by
  rcases ha with ⟨j, hj⟩ | ⟨members, hl, hin⟩ | hd | ⟨j, hj⟩
  · rcases eq_or_ne j i with rfl | hne
    · exact hready hj
    · exact .inl ⟨j, (Function.update_of_ne hne _ _).trans hj⟩
  · exact hlisted members hl hin
  · exact .inr (.inr (.inl (hdismissed hd)))
  · rcases eq_or_ne j i with rfl | hne
    · exact hout hj
    · refine .inr (.inr (.inr ⟨j, ?_⟩))
      simpa only [Function.update_of_ne hne] using hj

/-- An act of a worker that knew of no member that was made well, and leaves the list alone. -/
theorem Accounted.stay (ha : Accounted s a) (hlisted : sh'.listed = s.shared.listed)
    (hdismissed : s.shared.dismissed a = true → sh'.dismissed a = true)
    (hready : s.duty i ≠ .ready a) (hout : (s.duty i).out = []) :
    Accounted ⟨sh', update s.duty i d'⟩ a := by
  refine ha.act (fun h => absurd h hready) (fun members hl hin => ?_) hdismissed
    (fun h => absurd (hout ▸ h) List.not_mem_nil)
  exact .inr (.inl ⟨members, hlisted.trans hl, hin⟩)

variable [DecidableEq α]

/-- A worker that dismisses the first of the members it has to. -/
theorem Accounted.dismiss (ha : Accounted s a) {b : α} {out : List α}
    (hnot : s.duty i ≠ .ready a) (hout : (s.duty i).out = b :: out) (hout' : d'.out = out) :
    Accounted ⟨{ s.shared with dismissed := update s.shared.dismissed b true },
      update s.duty i d'⟩ a := by
  have hmono (h : s.shared.dismissed a = true) : update s.shared.dismissed b true a = true := by
    rcases eq_or_ne a b with rfl | hne
    · simp
    · rwa [Function.update_of_ne hne]
  refine ha.act (fun h => absurd h hnot) (fun members hl hin => ?_) hmono fun hin => ?_
  · exact .inr (.inl ⟨members, hl, hin⟩)
  · rw [hout] at hin
    rcases List.mem_cons.mp hin with rfl | hin
    · exact .inr (.inr (.inl (by simp)))
    · refine .inr (.inr (.inr ⟨i, ?_⟩))
      simpa only [Function.update_self, hout'] using hin

/-- A member that was made well stays accounted for, unless it is given up. -/
theorem Kept.accounted_next (hk : Kept s) {limit : ℤ} {deed : Deed}
    (h : Acts limit s.shared deed (s.duty i) sh' d') (hdeed : deed ≠ .giveUp)
    (hsound : sh'.sound a = true) : Accounted ⟨sh', update s.duty i d'⟩ a := by
  generalize hd : s.duty i = d at h
  cases h with
  | quiet =>
    rw [← hd, Function.update_eq_self]
    exact hk.accounted a hsound
  | reserve _ | fail _ | release | count | look _ | leave _ | giveBack _ | settle _ =>
    exact (hk.accounted a hsound).stay rfl id (by simp [hd]) (by rw [hd]; rfl)
  | make b hnew =>
    -- what is made now was not made before
    have hne : a ≠ b := by
      rintro rfl
      exact Bool.false_ne_true (hnew.symm.trans (hk.made a hsound))
    refine (hk.accounted a hsound).stay rfl (fun h => ?_) (by simp [hd]) (by rw [hd]; rfl)
    exact (Function.update_of_ne hne _ _).trans h
  | succeed b =>
    rcases eq_or_ne a b with rfl | hne
    · exact .inl ⟨i, by simp⟩
    · have hsound' : s.shared.sound a = true := by simpa [Function.update_of_ne hne] using hsound
      exact (hk.accounted a hsound').stay rfl id (by simp [hd]) (by rw [hd]; rfl)
  | giveUp => exact absurd rfl hdeed
  | enter b members hl =>
    refine (hk.accounted a hsound).act (fun hr => ?_) (fun l hl' hin => ?_) id (fun hin => ?_)
    · obtain rfl : b = a := by simpa [hd] using hr
      exact .inr (.inl ⟨_, rfl, by simp⟩)
    · obtain rfl : members = l := Option.some_inj.mp (hl.symm.trans hl')
      exact .inr (.inl ⟨_, rfl, List.mem_append_left _ hin⟩)
    · simp [hd, Duty.out] at hin
  | take batch members hl =>
    refine (hk.accounted a hsound).act (fun hr => ?_) (fun l hl' hin => ?_) id (fun hin => ?_)
    · simp [hd] at hr
    · -- a member that is taken off is in the batch
      obtain rfl : members = l := Option.some_inj.mp (hl.symm.trans hl')
      by_cases hbatch : a ∈ batch
      · exact .inr (.inr (.inr ⟨i, by simpa [Duty.out] using hbatch⟩))
      · exact .inr (.inl ⟨_, rfl, List.mem_filter.mpr ⟨hin, by simpa using hbatch⟩⟩)
    · simp [hd, Duty.out] at hin
  | dismiss k b out => exact (hk.accounted a hsound).dismiss (by simp [hd]) (by rw [hd]; rfl) rfl
  | dismissLast b out =>
    exact (hk.accounted a hsound).dismiss (by simp [hd]) (by rw [hd]; rfl) rfl
  | clear =>
    refine (hk.accounted a hsound).act (fun hr => ?_) (fun l hl' hin => ?_) id (fun hin => ?_)
    · simp [hd] at hr
    · exact .inr (.inr (.inr ⟨i, by simpa [Duty.out, hl'] using hin⟩))
    · simp [hd, Duty.out] at hin

omit [DecidableEq ι] in
/-- Members are made once, and nothing is made well that was not made. -/
theorem Kept.made_next (hk : Kept s) {limit : ℤ} {deed : Deed}
    (h : Acts limit s.shared deed (s.duty i) sh' d') :
    (∀ b, s.shared.made b = true → sh'.made b = true) ∧
      (∀ b, d'.holds = some b → sh'.made b = true) ∧
      ∀ b, sh'.sound b = true → sh'.made b = true := by
  have hheld := hk.held i
  generalize s.duty i = d at h hheld
  cases h with
  | quiet => exact ⟨fun _ => id, hheld, hk.made⟩
  | make b hnew =>
    have hmono (c : α) (hc : s.shared.made c = true) : update s.shared.made b true c = true := by
      rcases eq_or_ne c b with rfl | hne
      · simp
      · rwa [Function.update_of_ne hne]
    refine ⟨hmono, fun c hc => ?_, fun c hc => hmono c (hk.made c hc)⟩
    obtain rfl : b = c := by simpa [Duty.holds] using hc
    simp
  | succeed b =>
    refine ⟨fun _ => id, hheld, fun c hc => ?_⟩
    rcases eq_or_ne c b with rfl | hne
    · exact hheld c rfl
    · exact hk.made c (by simpa [Function.update_of_ne hne] using hc)
  | reserve _ | fail _ | giveUp _ _ | release | enter _ _ _ | count | look _ | leave _
  | take _ _ _ | dismiss _ _ _ | giveBack _ | settle _ | clear | dismissLast _ _ =>
    exact ⟨fun _ => id, fun b hb => by simp [Duty.holds] at hb, hk.made⟩

/-- Members that were made well stay accounted for, as long as nobody gives one up. -/
theorem Kept.next (hk : Kept s) {limit : ℤ} {deed : Deed}
    (h : Acts limit s.shared deed (s.duty i) sh' d') (hdeed : deed ≠ .giveUp) :
    Kept ⟨sh', update s.duty i d'⟩ := by
  obtain ⟨hmono, hheld, hmade⟩ := hk.made_next h
  refine ⟨fun j b hj => ?_, hmade, fun b hb => hk.accounted_next h hdeed hb⟩
  rcases eq_or_ne j i with rfl | hne
  · exact hheld b (by simpa only [Function.update_self] using hj)
  · exact hmono b (hk.held j b (by simpa only [Function.update_of_ne hne] using hj))

omit [DecidableEq ι] [DecidableEq α] in
/-- When no worker has a member in hand, what was made well is listed or dismissed. -/
theorem Kept.at_rest (hk : Kept s) (hready : ∀ i, s.duty i ≠ .ready a)
    (hout : ∀ i, (s.duty i).out = []) (hsound : s.shared.sound a = true) :
    (∃ members, s.shared.listed = some members ∧ a ∈ members) ∨ s.shared.dismissed a = true := by
  rcases hk.accounted a hsound with ⟨j, hj⟩ | hl | hd | ⟨j, hj⟩
  · exact absurd hj (hready j)
  · exact .inl hl
  · exact .inr hd
  · rw [hout] at hj
    exact absurd hj List.not_mem_nil

end Kept

end Roster
