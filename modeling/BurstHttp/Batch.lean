/-
A batch of requests (batch.go, `BatchWithContext`).

The call adds the number of its entries to a wait group, starts a goroutine for each entry and
waits.  A goroutine calls `DoWithContext`, stores what it returns at the index of its entry, puts
the request back if the batch has taken it from the pool, and then reports to the wait group: the
deferred calls run in reverse order.  What `DoWithContext` returns is some `ρ`.

* `Run`, `Run.step` — the call and its goroutines, one step at a time;
* `Fits` — what a goroutine has done, where it is; `Sound` — with the wait group;
* `batch_returned` — what there is when the call returns, and that it is not stuck before.
-/
import BurstHttp.Lib.Guarded
import BurstHttp.Lib.Tally

namespace BurstHttp.Batch

open Function (update)
open Guarded (Reaches)
open Tally (Counts)

inductive TaskPc (ρ : Type)
  | unborn
  | call
  | store (r : ρ)
  | release
  | done                      -- it will call `wg.Done`
  | exited

/-- The goroutine of an entry, with a record of what `DoWithContext` has returned to it and of
how often it has put its request back. -/
structure Task (ρ : Type) where
  pc : TaskPc ρ
  did : List ρ
  puts : ℕ

/-- A `BatchResult` is an index with what `DoWithContext` has returned. -/
structure Run (ρ : Type) where
  spawned : ℕ
  tasks : ℕ → Task ρ
  wg : ℤ
  results : ℕ → Option (ℕ × ρ)
  returned : Bool

/-- The call goes on, `DoWithContext` returns to a goroutine, or a goroutine goes on. -/
inductive Label (ρ : Type)
  | main
  | answer (i : ℕ) (r : ρ)
  | task (i : ℕ)

variable {ρ : Type}

/-- Behind `wg.Add(n)`; `owned` says which entries have a request of the pool. -/
def Run.new (owned : List Bool) : Run ρ where
  spawned := 0
  tasks := fun _ => ⟨.unborn, [], 0⟩
  wg := owned.length
  results := fun _ => none
  returned := false

def Run.step (owned : List Bool) (x : Run ρ) : Label ρ → Option (Run ρ)
  | .main =>
    if x.returned then none
    else if x.spawned < owned.length then
      some { x with
        spawned := x.spawned + 1
        tasks := update x.tasks x.spawned ⟨.call, [], 0⟩ }
    else if x.wg = 0 then some { x with returned := true }
    else none
  | .answer i r =>
    match x.tasks i with
    | ⟨.call, did, puts⟩ => some { x with tasks := update x.tasks i ⟨.store r, r :: did, puts⟩ }
    | _ => none
  | .task i =>
    match x.tasks i with
    | ⟨.store r, did, puts⟩ =>
      let pc := if owned.getD i false then .release else .done
      some { x with
        tasks := update x.tasks i ⟨pc, did, puts⟩
        results := update x.results i (some (i, r)) }
    | ⟨.release, did, puts⟩ => some { x with tasks := update x.tasks i ⟨.done, did, puts + 1⟩ }
    | ⟨.done, did, puts⟩ =>
      some { x with tasks := update x.tasks i ⟨.exited, did, puts⟩, wg := x.wg - 1 }
    | _ => none

/-- How often a request is to be put back. -/
def due (owned : List Bool) (i : ℕ) : ℕ := if owned.getD i false then 1 else 0

/-- A goroutine has done what it should, up to where it is. -/
def Fits (owned : List Bool) (i : ℕ) (result : Option (ℕ × ρ)) (t : Task ρ) : Prop :=
  match t.pc with
  | .unborn | .call => t.did = [] ∧ result = none ∧ t.puts = 0
  | .store r => t.did = [r] ∧ result = none ∧ t.puts = 0
  | .release => ∃ r, t.did = [r] ∧ result = some (i, r) ∧ t.puts + 1 = due owned i
  | .done | .exited => ∃ r, t.did = [r] ∧ result = some (i, r) ∧ t.puts = due owned i

/-- An entry whose goroutine has not reported. -/
def Run.Pending (owned : List Bool) (x : Run ρ) (i : ℕ) : Prop :=
  i < owned.length ∧ (x.tasks i).pc ≠ .exited

structure Sound (owned : List Bool) (x : Run ρ) : Prop where
  spawned_le : x.spawned ≤ owned.length
  born : ∀ i, i < x.spawned ↔ (x.tasks i).pc ≠ .unborn
  fits : ∀ i, Fits owned i (x.results i) (x.tasks i)
  counted : Counts (x.Pending owned) x.wg
  returned : x.returned = true → ∀ i, ¬x.Pending owned i

variable {owned : List Bool} {x x' : Run ρ}

theorem sound_new : Sound owned (Run.new owned : Run ρ) where
  spawned_le := Nat.zero_le _
  born := fun i => by simp [Run.new]
  fits := fun _ => ⟨rfl, rfl, rfl⟩
  counted := ⟨Finset.range owned.length, fun i => by simp [Run.Pending, Run.new], by simp [Run.new]⟩
  returned := fun h => by cases h

/-- A goroutine that is counted goes on, or starts, and is counted still unless it exits. -/
theorem Sound.move (h : Sound owned x) {i spawned : ℕ} {t : Task ρ} {wg : ℤ}
    {results : ℕ → Option (ℕ × ρ)} (hspawned : spawned ≤ owned.length) (hlt : i < spawned)
    (hborn : ∀ j, j ≠ i → (j < spawned ↔ j < x.spawned)) (hleft : (x.tasks i).pc ≠ .exited)
    (hpc : t.pc ≠ .unborn)
    (hwg : (t.pc ≠ .exited ∧ wg = x.wg) ∨ (t.pc = .exited ∧ wg = x.wg - 1))
    (hresults : ∀ j, j ≠ i → results j = x.results j) (hfits : Fits owned i (results i) t) :
    Sound owned ⟨spawned, update x.tasks i t, wg, results, x.returned⟩ := by
  have hpending : x.Pending owned i := ⟨lt_of_lt_of_le hlt hspawned, hleft⟩
  refine ⟨hspawned, fun j => ?_, fun j => ?_, ?_, fun hret => absurd hpending (h.returned hret i)⟩
  · by_cases hj : j = i
    · subst hj
      simp [hlt, hpc]
    · simpa [Function.update_of_ne hj, hborn j hj] using h.born j
  · by_cases hj : j = i
    · subst hj
      simpa using hfits
    · simpa [Function.update_of_ne hj, hresults j hj] using h.fits j
  · obtain ⟨hpc', rfl⟩ | ⟨hpc', rfl⟩ := hwg
    · refine h.counted.congr fun j => ?_
      by_cases hj : j = i
      · subst hj
        simp [Run.Pending, hpc', hleft]
      · simp [Run.Pending, Function.update_of_ne hj]
    · refine h.counted.remove hpending fun j => ?_
      by_cases hj : j = i
      · subst hj
        simp [Run.Pending, hpc']
      · simp [Run.Pending, hj]

theorem Sound.step (h : Sound owned x) (l : Label ρ) (hs : x.step owned l = some x') :
    Sound owned x' := by
  cases l with
  | main =>
    simp only [Run.step] at hs
    split_ifs at hs with hreturned hlt hzero <;> cases hs
    · -- `wg.Add(n)` has counted it before it starts
      have hunborn : (x.tasks x.spawned).pc = .unborn := by
        by_contra hborn
        exact absurd ((h.born _).mpr hborn) (lt_irrefl _)
      have hfits := h.fits x.spawned
      rw [Fits, hunborn] at hfits
      exact h.move hlt (Nat.lt_succ_self _) (fun j hj => by omega) (by simp [hunborn]) (by simp)
        (.inl ⟨by simp, rfl⟩) (fun _ _ => rfl) ⟨rfl, hfits.2.1, rfl⟩
    · refine ⟨h.spawned_le, h.born, h.fits, h.counted, fun _ i hi => ?_⟩
      obtain ⟨debtors, hmem, hcard⟩ := h.counted
      have hpos := Finset.card_pos.mpr ⟨i, (hmem i).mpr hi⟩
      omega
  | answer i r =>
    have hfits := h.fits i
    simp only [Run.step] at hs
    split at hs <;> cases hs
    case h_1 ht =>
      rw [ht] at hfits
      obtain ⟨rfl, hnone, hputs⟩ := hfits
      exact h.move h.spawned_le ((h.born i).mpr (by simp [ht])) (fun _ _ => .rfl) (by simp [ht])
        (by simp) (.inl ⟨by simp, rfl⟩) (fun _ _ => rfl) ⟨rfl, hnone, hputs⟩
  | task i =>
    have hfits := h.fits i
    simp only [Run.step] at hs
    split at hs <;> cases hs
    all_goals
      rename_i ht
      rw [ht] at hfits
      refine h.move h.spawned_le ((h.born i).mpr (by simp [ht])) (fun _ _ => .rfl) (by simp [ht])
        ?_ ?_ (fun j hj => by simp [hj]) ?_
    -- the result is stored, the request put back, `wg.Done` called
    · split <;> simp
    · exact .inl ⟨by split <;> simp, rfl⟩
    · obtain ⟨rfl, -, rfl⟩ := hfits
      split <;> simp_all [Fits, due]
    · simp
    · exact .inl ⟨by simp, rfl⟩
    · exact hfits
    · simp
    · exact .inr ⟨rfl, rfl⟩
    · exact hfits

/-- The call is not stuck: it goes on itself, or a goroutine does or is in `DoWithContext`. -/
theorem Sound.live (h : Sound owned x) (hreturned : x.returned = false) :
    (x.step owned .main).isSome ∨
      ∃ i, (x.tasks i).pc = .call ∨ (x.step owned (.task i)).isSome := by
  by_cases hlt : x.spawned < owned.length
  · simp [Run.step, hreturned, hlt]
  by_cases hzero : x.wg = 0
  · simp [Run.step, hreturned, hlt, hzero]
  -- Somebody has not reported, and everybody is born.
  by_contra! hstuck
  refine hzero (h.counted.eq_zero fun i hpending => ?_)
  obtain ⟨hi, hpc⟩ := hpending
  have hborn := (h.born i).mp (by omega)
  have hstay := hstuck.2 i
  rcases ht : x.tasks i with ⟨pc, did, puts⟩
  cases pc <;> simp_all [Run.step]

/-- However the goroutines take turns, a request is put back only behind its result, and at most
once; the call is not stuck; and when it returns, `DoWithContext` has returned exactly once for
each entry, the result is at the entry's index, and what was taken from the pool is back. -/
theorem batch_returned (h : Reaches (Run.step owned) (fun _ _ => True) (Run.new owned) x) :
    (∀ i, (x.tasks i).puts ≤ due owned i ∧
      (0 < (x.tasks i).puts → ∃ r, (x.tasks i).did = [r] ∧ x.results i = some (i, r))) ∧
    (x.returned = false → (x.step owned .main).isSome ∨
      ∃ i, (x.tasks i).pc = .call ∨ (x.step owned (.task i)).isSome) ∧
    (x.returned = true → ∀ i < owned.length, ∃ r, (x.tasks i).did = [r] ∧
      x.results i = some (i, r) ∧ (x.tasks i).puts = due owned i) := by
  have hsound := h.invariant (Sound owned) sound_new fun _ l _ hi _ hs => hi.step l hs
  refine ⟨fun i => ?_, hsound.live, fun hret i hi => ?_⟩
  · have hfits := hsound.fits i
    rw [Fits] at hfits
    split at hfits <;> grind
  · have hexited : (x.tasks i).pc = .exited := by
      by_contra hpc
      exact hsound.returned hret i ⟨hi, hpc⟩
    have hfits := hsound.fits i
    rwa [Fits, hexited] at hfits

theorem batch_returned_two : ∃ x : Run ℕ,
    Reaches (Run.step [true, false]) (fun _ _ => True) (Run.new [true, false]) x ∧
      x.returned = true ∧ ∃ r, x.results 0 = some (0, r) := by
  obtain ⟨x, hx, hret⟩ := Guarded.exists_of_exec (Run.step [true, false]) (fun _ _ => True)
    (Run.new [true, false]) [.main, .main, .answer 1 7, .task 1, .answer 0 5, .task 1, .task 0,
      .task 0, .task 0, .main] (fun x => x.returned = true) (by decide +kernel)
  obtain ⟨r, -, hresult, -⟩ := (batch_returned hx).2.2 hret 0 (by decide)
  exact ⟨x, hx, hret, r, hresult⟩

end BurstHttp.Batch
