/-
Buffers of fixed size that are filled from the front.

A `Page` is a buffer whose first `pos` items have been written; what lies behind
them is left over from earlier uses.  `Page.put` writes a list behind them if there
is room.

* `put_eq_none_iff`, `written_of_put` — when a write fails, and what it leaves;
* `put_bind_put` — two writes in a row are one write of both lists, so that a
  sequence of writes fails exactly if the whole does not fit.
-/
import Mathlib.Data.List.Basic

structure Page (α : Type) where
  buf : List α
  pos : ℕ
  pos_le : pos ≤ buf.length

namespace Page

variable {α : Type}

/-- A buffer in which nothing has been written yet. -/
def blank (buf : List α) : Page α := ⟨buf, 0, Nat.zero_le _⟩

/-- What has been written. -/
def written (p : Page α) : List α := p.buf.take p.pos

/-- The items that follow it have been written too. -/
def put (l : List α) (p : Page α) : Option (Page α) :=
  if h : p.pos + l.length ≤ p.buf.length then
    some
      { buf := p.buf.take p.pos ++ l ++ p.buf.drop (p.pos + l.length)
        pos := p.pos + l.length
        pos_le := by simp only [List.length_append, List.length_take, List.length_drop]; omega }
  else none

@[simp] theorem written_blank (buf : List α) : (blank buf).written = [] := rfl

@[simp] theorem length_written (p : Page α) : p.written.length = p.pos := by
  rw [written, List.length_take, Nat.min_eq_left p.pos_le]

theorem put_eq_none_iff {l : List α} {p : Page α} :
    p.put l = none ↔ p.buf.length < p.pos + l.length := by
  unfold put
  split <;> simp <;> omega

theorem put_of_le {l : List α} {p : Page α} (h : p.pos + l.length ≤ p.buf.length) :
    ∃ q, p.put l = some q := by
  rw [← Option.isSome_iff_exists, Option.isSome_iff_ne_none, ne_eq, put_eq_none_iff]
  omega

/-- What a write that succeeds leaves. -/
theorem of_put {l : List α} {p q : Page α} (h : p.put l = some q) :
    q.written = p.written ++ l ∧ q.pos = p.pos + l.length ∧ q.buf.length = p.buf.length := by
  unfold put at h
  split at h
  case isFalse => cases h
  case isTrue hroom =>
    cases h
    have hpos := p.pos_le
    refine ⟨?_, rfl, ?_⟩
    · simp only [written]
      rw [List.take_left']
      simp [Nat.min_eq_left hpos]
    · simp only [List.length_append, List.length_take, List.length_drop]
      omega

theorem written_of_put {l : List α} {p q : Page α} (h : p.put l = some q) :
    q.written = p.written ++ l := (of_put h).1

@[simp] theorem put_nil (p : Page α) : p.put [] = some p := by
  have hpos := p.pos_le
  simp [put, hpos]

/-- Two writes in a row. -/
theorem put_bind_put (l l' : List α) (p : Page α) :
    (p.put l).bind (put l') = p.put (l ++ l') := by
  have hpos := p.pos_le
  by_cases hroom : p.pos + l.length ≤ p.buf.length
  · have hlen : (p.buf.take p.pos ++ l).length = p.pos + l.length := by
      simp [Nat.min_eq_left hpos]
    have hbuf : (p.buf.take p.pos ++ l ++ p.buf.drop (p.pos + l.length)).length = p.buf.length := by
      simp only [List.length_append, List.length_take, List.length_drop]
      omega
    simp only [put, hroom, dite_true, Option.bind_some, hbuf, List.length_append, Nat.add_assoc]
    split
    · congr 2
      -- behind both lists, the old contents from where they end
      rw [List.take_left' hlen, ← Nat.add_assoc, ← List.drop_drop, List.drop_left' hlen,
        List.drop_drop, List.append_assoc _ l l']
    · rfl
  · have hnone : p.put l = none := put_eq_none_iff.mpr (by omega)
    rw [hnone, Option.bind_none, eq_comm, put_eq_none_iff, List.length_append]
    omega

end Page
