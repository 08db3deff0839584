/-
A counter that is kept by hand.

Processes add to and subtract from a shared counter which is meant to say how many
of them *owe* something.  `Counts owes n` is what it should say: `n` is the number of
those that owe.  It is kept when one who does not owe begins to and one is added
(`Counts.add`), and when one who does owe ceases to and one is taken off
(`Counts.remove`).  `AtMost owes n` is weaker: those that owe are no more than `n`.
-/
import Mathlib.Data.Finset.Card
import Mathlib.Data.Int.Notation

namespace Tally

variable {α : Type} {owes owes' : α → Prop} {n : ℤ}

/-- There are `n` that owe. -/
def Counts (owes : α → Prop) (n : ℤ) : Prop :=
  ∃ debtors : Finset α, (∀ a, a ∈ debtors ↔ owes a) ∧ (debtors.card : ℤ) = n

namespace Counts

theorem zero (h : ∀ a, ¬owes a) : Counts owes 0 :=
  ⟨∅, fun a => by simp [h a], rfl⟩

theorem congr (hc : Counts owes n) (h : ∀ a, owes' a ↔ owes a) : Counts owes' n := by
  obtain ⟨debtors, hmem, hcard⟩ := hc
  exact ⟨debtors, fun a => (hmem a).trans (h a).symm, hcard⟩

/-- One more owes. -/
theorem add (hc : Counts owes n) {a : α} (ha : ¬owes a) (h : ∀ b, owes' b ↔ b = a ∨ owes b) :
    Counts owes' (n + 1) := by
  classical
  obtain ⟨debtors, hmem, rfl⟩ := hc
  refine ⟨insert a debtors, fun b => ?_, ?_⟩
  · rw [Finset.mem_insert, hmem, h]
  · rw [Finset.card_insert_of_notMem (mt (hmem a).mp ha)]
    omega

/-- One has paid. -/
theorem remove (hc : Counts owes n) {a : α} (ha : owes a) (h : ∀ b, owes' b ↔ b ≠ a ∧ owes b) :
    Counts owes' (n - 1) := by
  classical
  obtain ⟨debtors, hmem, rfl⟩ := hc
  have hmem_a := (hmem a).mpr ha
  refine ⟨debtors.erase a, fun b => ?_, ?_⟩
  · rw [Finset.mem_erase, hmem, h]
  · have hpos := Finset.card_pos.mpr ⟨a, hmem_a⟩
    rw [Finset.card_erase_of_mem hmem_a]
    omega

/-- When nobody owes, the counter is at zero. -/
theorem eq_zero (hc : Counts owes n) (h : ∀ a, ¬owes a) : n = 0 := by
  obtain ⟨debtors, hmem, rfl⟩ := hc
  have hempty : debtors = ∅ := Finset.eq_empty_of_forall_notMem fun a ha => h a ((hmem a).mp ha)
  rw [hempty]
  rfl

end Counts

/-- There are no more than `n` that owe. -/
def AtMost (owes : α → Prop) (n : ℤ) : Prop :=
  ∃ debtors : Finset α, (∀ a, owes a → a ∈ debtors) ∧ (debtors.card : ℤ) ≤ n

namespace AtMost

theorem zero (h : ∀ a, ¬owes a) : AtMost owes 0 := ⟨∅, fun a ha => absurd ha (h a), le_rfl⟩

theorem mono (hc : AtMost owes n) (h : ∀ a, owes' a → owes a) : AtMost owes' n := by
  obtain ⟨debtors, hmem, hcard⟩ := hc
  exact ⟨debtors, fun a ha => hmem a (h a ha), hcard⟩

theorem add (hc : AtMost owes n) (a : α) (h : ∀ b, owes' b → b = a ∨ owes b) :
    AtMost owes' (n + 1) := by
  classical
  obtain ⟨debtors, hmem, hcard⟩ := hc
  refine ⟨insert a debtors, fun b hb => ?_, ?_⟩
  · exact Finset.mem_insert.mpr ((h b hb).imp_right (hmem b))
  · have := Finset.card_insert_le a debtors
    omega

theorem remove (hc : AtMost owes n) {a : α} (ha : owes a) (h : ∀ b, owes' b → b ≠ a ∧ owes b) :
    AtMost owes' (n - 1) := by
  classical
  obtain ⟨debtors, hmem, hcard⟩ := hc
  refine ⟨debtors.erase a, fun b hb => ?_, ?_⟩
  · exact Finset.mem_erase.mpr ⟨(h b hb).1, hmem b (h b hb).2⟩
  · have hpos := Finset.card_pos.mpr ⟨a, hmem a ha⟩
    rw [Finset.card_erase_of_mem (hmem a ha)]
    omega

end AtMost

end Tally
