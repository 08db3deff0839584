/-
Guarded runs of a labelled transition system.

A system is a partial step function `step : σ → ℓ → Option σ`; a run is
*guarded* when every one of its steps meets a condition on the state before it
and its label.

* `Reaches` — what guarded runs reach from a state;
* `Reaches.invariant` — what guarded steps keep holds wherever a guarded run
  leads;
* `exec` — the run of a list of labels, as long as the guard holds, and
  `reaches_of_exec` — it reaches its end;
* `final` — the state at its end.
-/
import Mathlib.Data.List.Basic

namespace Guarded

variable {σ ℓ : Type} {step : σ → ℓ → Option σ} {guard : σ → ℓ → Prop}

/-- `s'` is reached from `s` by steps that all meet `guard`. -/
inductive Reaches (step : σ → ℓ → Option σ) (guard : σ → ℓ → Prop) (s : σ) : σ → Prop
  | refl : Reaches step guard s s
  | tail {s' s'' : σ} (l : ℓ) : Reaches step guard s s' → guard s' l → step s' l = some s'' →
      Reaches step guard s s''

/-- What holds at the start and is kept by guarded steps holds at the end. -/
theorem Reaches.invariant {s s' : σ} (h : Reaches step guard s s') (inv : σ → Prop) (hinit : inv s)
    (hstep : ∀ s l s', inv s → guard s l → step s l = some s' → inv s') : inv s' := by
  induction h with
  | refl => exact hinit
  | tail l _ hguard hs ih => exact hstep _ l _ ih hguard hs

/-- A weaker guard lets more runs through. -/
theorem Reaches.mono {guard' : σ → ℓ → Prop} {s s' : σ} (h : Reaches step guard s s')
    (hguard : ∀ s l, guard s l → guard' s l) : Reaches step guard' s s' :=
  h.invariant (Reaches step guard' s) .refl fun _ l _ ih hg hs => ih.tail l (hguard _ l hg) hs

/-- So does one that is weaker where an invariant holds. -/
theorem Reaches.mono_of_invariant {guard' : σ → ℓ → Prop} {s s' : σ} (h : Reaches step guard s s')
    (inv : σ → Prop) (hinit : inv s)
    (hstep : ∀ s l s', inv s → guard s l → step s l = some s' → inv s')
    (hguard : ∀ s l, inv s → guard s l → guard' s l) : Reaches step guard' s s' :=
  (h.invariant (fun t => Reaches step guard' s t ∧ inv t) ⟨.refl, hinit⟩ fun s l s' ht hg hs =>
    ⟨ht.1.tail l (hguard s l ht.2 hg) hs, hstep s l s' ht.2 hg hs⟩).1

theorem Reaches.head {s₀ s s' : σ} {l : ℓ} (hguard : guard s₀ l) (hs : step s₀ l = some s)
    (h : Reaches step guard s s') : Reaches step guard s₀ s' := by
  induction h with
  | refl => exact .tail l .refl hguard hs
  | tail l' _ hguard' hs' ih => exact .tail l' ih hguard' hs'

theorem Reaches.trans {s₀ s s' : σ} (h : Reaches step guard s₀ s) (h' : Reaches step guard s s') :
    Reaches step guard s₀ s' := by
  induction h' with
  | refl => exact h
  | tail l _ hguard hs ih => exact .tail l ih hguard hs

/-- The run of `labels` from `s`, if every step meets the guard and can be taken. -/
def exec (step : σ → ℓ → Option σ) (guard : σ → ℓ → Prop) [∀ s l, Decidable (guard s l)] :
    List ℓ → σ → Option σ
  | [], s => some s
  | l :: labels, s => if guard s l then (step s l).bind (exec step guard labels) else none

theorem reaches_of_exec [∀ s l, Decidable (guard s l)] {s s' : σ} (labels : List ℓ)
    (h : exec step guard labels s = some s') : Reaches step guard s s' := by
  induction labels generalizing s with
  | nil =>
    rw [exec, Option.some_inj] at h
    exact h ▸ .refl
  | cons l labels ih =>
    rw [exec] at h
    split at h
    case isTrue hguard =>
      obtain ⟨s₁, hs₁, hrest⟩ := Option.bind_eq_some_iff.mp h
      exact (ih hrest).head hguard hs₁
    case isFalse => cases h

/-- A run with a decidable outcome reaches a state with that outcome. -/
theorem exists_of_exec (step : σ → ℓ → Option σ) (guard : σ → ℓ → Prop)
    [∀ s l, Decidable (guard s l)] (s : σ) (labels : List ℓ) (P : σ → Prop) [DecidablePred P]
    (h : (exec step guard labels s).any (fun s' => decide (P s')) = true) :
    ∃ s', Reaches step guard s s' ∧ P s' := by
  cases hs : exec step guard labels s with
  | none => simp [hs] at h
  | some s' => exact ⟨s', reaches_of_exec labels hs, by simpa [hs] using h⟩

/-- Where the run of `labels` leads; it stays at `s` if it cannot be taken. -/
def final (step : σ → ℓ → Option σ) (guard : σ → ℓ → Prop) [∀ s l, Decidable (guard s l)]
    (labels : List ℓ) (s : σ) : σ :=
  (exec step guard labels s).getD s

theorem reaches_final (step : σ → ℓ → Option σ) (guard : σ → ℓ → Prop)
    [∀ s l, Decidable (guard s l)] (labels : List ℓ) (s : σ) :
    Reaches step guard s (final step guard labels s) := by
  unfold final
  cases hs : exec step guard labels s with
  | none => exact .refl
  | some s' => exact reaches_of_exec labels hs

end Guarded
