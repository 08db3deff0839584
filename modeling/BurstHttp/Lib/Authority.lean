/-
Authorities: a host, and maybe a port behind a colon.

A host that is an address of IPv6 stands in brackets, since it has colons of its own; any
other host has none.

* `split` — the host and the port of a text, as bytes and as a number, whatever other bytes the
  host has;
* `decode` — the same, where a host that is not in brackets has to be a registered name
  (`isRegName`);
* `split_name`, `split_literal` — it undoes the two ways to write a host;
* `head_of_split`, `colon_of_split` — what it says about a text that is not one of them.
-/
import BurstHttp.Lib.Decimal
import Mathlib.Data.List.TakeWhile
import Mathlib.Tactic.SplitIfs

namespace Authority

open Decimal (isDigit value digits)

/-- What may follow a host: nothing, or a colon and digits; without digits there is no port. -/
def port : List UInt8 → Option (Option ℕ)
  | [] => some none
  | b :: s =>
    if b = 58 ∧ s.all isDigit then some (if s = [] then none else some (value s)) else none

/-- The host and the port. -/
def split (s : List UInt8) : Option (List UInt8 × Option ℕ) :=
  if s.head? = some 91 then
    let literal := s.tail.takeWhile (· ≠ 93)
    if 91 ∈ literal then none
    else
      match s.tail.dropWhile (· ≠ 93) with
      | [] => none
      | _ :: rest => (port rest).map fun p => (literal, p)
  else (port (s.dropWhile (· ≠ 58))).map fun p => (s.takeWhile (· ≠ 58), p)

/-- Letters, digits and the marks `-._~!$&'()*+,;=`. -/
def isNameByte (b : UInt8) : Bool :=
  (97 ≤ b && b ≤ 122) || (65 ≤ b && b ≤ 90) || isDigit b || b ∈ [45, 46, 95, 126, 33, 36, 38, 39,
    40, 41, 42, 43, 44, 59, 61]

def isHexByte (b : UInt8) : Bool :=
  isDigit b || (97 ≤ b && b ≤ 102) || (65 ≤ b && b ≤ 70)

/-- A registered name: a percent sign stands in front of two hexadecimal digits. -/
def isRegName : List UInt8 → Bool
  | [] => true
  | 37 :: a :: b :: s => isHexByte a && isHexByte b && isRegName s
  | b :: s => isNameByte b && isRegName s

/-- The host and the port, where the host is a literal in brackets or a registered name.  Which
literals are addresses is left open. -/
def decode (s : List UInt8) : Option (List UInt8 × Option ℕ) :=
  (split s).filter fun x => s.head? = some 91 || isRegName x.1

@[simp] theorem port_nil : port [] = some none := rfl

/-- Bytes that are neither allowed nor hexadecimal digits do not stand in a name. -/
theorem notMem_of_isRegName {c : UInt8} (hname : isNameByte c = false) (hhex : isHexByte c = false)
    (hpercent : c ≠ 37) {s : List UInt8} (h : isRegName s = true) : c ∉ s := by
  induction s using isRegName.induct with
  | case1 => simp
  | case2 a b s ih =>
    rw [isRegName, Bool.and_eq_true, Bool.and_eq_true] at h
    obtain ⟨⟨ha, hb⟩, hs⟩ := h
    intro hmem
    simp only [List.mem_cons] at hmem
    rcases hmem with heq | rfl | rfl | hmem
    · exact hpercent heq
    · exact Bool.false_ne_true (hhex.symm.trans ha)
    · exact Bool.false_ne_true (hhex.symm.trans hb)
    · exact ih hs hmem
  | case3 b s hnot ih =>
    rw [isRegName, Bool.and_eq_true] at h
    · intro hmem
      rcases List.mem_cons.mp hmem with rfl | hmem
      · exact Bool.false_ne_true (hname.symm.trans h.1)
      · exact ih h.2 hmem
    · exact hnot

@[simp] theorem port_digits (n : ℕ) : port (58 :: digits n) = some (some n) := by
  rw [port, if_pos ⟨rfl, Decimal.all_digits n⟩, if_neg (Decimal.digits_ne_nil n),
    Decimal.value_digits]

/-- A list without `b` in front of one that begins with it. -/
theorem takeWhile_ne {b : UInt8} {l : List UInt8} (h : b ∉ l) (m : List UInt8) :
    (l ++ b :: m).takeWhile (· ≠ b) = l ∧ (l ++ b :: m).dropWhile (· ≠ b) = b :: m := by
  have hall : ∀ x ∈ l, decide (x ≠ b) = true := fun x hx =>
    decide_eq_true fun heq => h (heq ▸ hx)
  rw [List.takeWhile_append_of_pos hall, List.dropWhile_append_of_pos hall]
  simp

/-- A host without a colon, and what follows it. -/
theorem split_name {host rest : List UInt8} (hcolon : 58 ∉ host) (hbracket : host.head? ≠ some 91)
    (hrest : rest = [] ∨ ∃ s, rest = 58 :: s) :
    split (host ++ rest) = (port rest).map fun p => (host, p) := by
  have hhead : (host ++ rest).head? ≠ some 91 := by
    cases host with
    | nil =>
      rcases hrest with rfl | ⟨s, rfl⟩
      · simp
      · simp
    | cons b host => simpa using hbracket
  rw [split, if_neg hhead]
  rcases hrest with rfl | ⟨s, rfl⟩
  · have hall : ∀ x ∈ host, decide (x ≠ 58) = true := fun x hx =>
      decide_eq_true fun heq => hcolon (heq ▸ hx)
    rw [List.append_nil, List.takeWhile_eq_self_iff.mpr hall, List.dropWhile_eq_nil_iff.mpr hall]
  · obtain ⟨htake, hdrop⟩ := takeWhile_ne hcolon s
    rw [htake, hdrop]

/-- A host in brackets, and what follows it. -/
theorem split_literal {host : List UInt8} (hopen : 91 ∉ host) (hclose : 93 ∉ host)
    (rest : List UInt8) :
    split (91 :: host ++ 93 :: rest) = (port rest).map fun p => (host, p) := by
  obtain ⟨htake, hdrop⟩ := takeWhile_ne hclose rest
  have hhead : (91 :: host ++ 93 :: rest).head? = some 91 := rfl
  rw [split, if_pos hhead]
  dsimp only [List.cons_append, List.tail_cons]
  rw [htake, hdrop, if_neg hopen]

/-- With two colons outside of brackets nothing is read. -/
theorem split_colons {host : List UInt8} (hcolon : 58 ∈ host) (hbracket : host.head? ≠ some 91)
    (rest : List UInt8) : split (host ++ 58 :: rest) = none := by
  obtain ⟨front, back, rfl, hfront⟩ := List.eq_append_cons_of_mem hcolon
  have hhead : (front ++ 58 :: back ++ 58 :: rest).head? ≠ some 91 := by
    rwa [List.head?_append_of_ne_nil _ (by simp)]
  rw [split, if_neg hhead, List.append_assoc, List.cons_append, (takeWhile_ne hfront _).2, port,
    if_neg]
  · rfl
  · simp [isDigit]

/-- The host that is read does not begin with a bracket. -/
theorem head_of_split {s host : List UInt8} {p : Option ℕ} (h : split s = some (host, p)) :
    host.head? ≠ some 91 := by
  intro hhead
  rw [split] at h
  dsimp only at h
  split_ifs at h with hopen hmem
  · split at h
    · cases h
    · obtain ⟨q, -, hq⟩ := Option.map_eq_some_iff.mp h
      rw [← (Prod.mk.inj hq).1] at hhead
      exact hmem (List.mem_of_mem_head? hhead)
  · obtain ⟨q, -, hq⟩ := Option.map_eq_some_iff.mp h
    rw [← (Prod.mk.inj hq).1] at hhead
    -- the host begins where the text begins
    refine hopen ?_
    cases s with
    | nil => simp at hhead
    | cons b s =>
      rw [List.takeWhile_cons] at hhead
      split at hhead
      · simpa using hhead
      · simp at hhead

/-- Outside of brackets, it has no colon. -/
theorem colon_of_split {s host : List UInt8} {p : Option ℕ} (h : split s = some (host, p))
    (hopen : s.head? ≠ some 91) : 58 ∉ host := by
  rw [split, if_neg hopen] at h
  obtain ⟨q, -, hq⟩ := Option.map_eq_some_iff.mp h
  rw [← (Prod.mk.inj hq).1]
  intro hmem
  simpa using List.mem_takeWhile_imp hmem

end Authority
