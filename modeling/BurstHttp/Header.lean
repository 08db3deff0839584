/-
The header block of a response (parser.go): where it ends, its status line,
the two framing fields and the parsed header list.

* `findHeaderEnd_eq` — the skipping scan of `findHeaderEnd` finds exactly the
  first `CRLFCRLF` (`headEnd`);
* `headEnd_take` — the answer on a prefix of the stream is the answer on the
  whole stream, as soon as the prefix is long enough;
* `headEnd_snoc` — the byte-by-byte detection of `readResponseBuffered` stops
  at the same place.
-/
import BurstHttp.Response

namespace BurstHttp

/-- A space or a horizontal tab. -/
def isBlank (b : UInt8) : Bool := b == SP || b == TAB

/-- The end of a line value. -/
def isEol (b : UInt8) : Bool := b == CR || b == LF

def isDigit (b : UInt8) : Bool := 48 ≤ b && b ≤ 57

/-! ### The end of the header block -/

/-- The loop of `findHeaderEnd` at index `i`: after a `CRLF` that does not
start the terminator both bytes are skipped. -/
def findHeaderEndFrom (i : ℕ) : Bytes → Option ℕ
  | a :: b :: c :: d :: rest =>
    if a = CR then
      if b = LF ∧ c = CR ∧ d = LF then some (i + 4)
      else if b = LF then findHeaderEndFrom (i + 2) (c :: d :: rest)
      else findHeaderEndFrom (i + 1) (b :: c :: d :: rest)
    else findHeaderEndFrom (i + 1) (b :: c :: d :: rest)
  | _ => none

/-- `findHeaderEnd`; `none` is the source's `-1`. -/
def findHeaderEnd (buf : Bytes) : Option ℕ := findHeaderEndFrom 0 buf

/-- The header terminator. -/
def crlf2 : Bytes := [CR, LF, CR, LF]

/-- The terminator occurs at index `i`. -/
def CrlfAt (l : Bytes) (i : ℕ) : Prop := crlf2 <+: l.drop i

/-- The index just behind the first terminator. -/
def headEnd : Bytes → Option ℕ
  | [] => none
  | a :: rest => if crlf2.isPrefixOf (a :: rest) then some 4 else (headEnd rest).map (· + 1)

theorem CrlfAt.le_length {l : Bytes} {i : ℕ} (h : CrlfAt l i) : i + 4 ≤ l.length := by
  have := h.length_le
  rw [List.length_drop] at this
  simp only [crlf2, List.length_cons, List.length_nil] at this
  omega

theorem crlfAt_succ {a : UInt8} {l : Bytes} {i : ℕ} : CrlfAt (a :: l) (i + 1) ↔ CrlfAt l i := by
  rw [CrlfAt, CrlfAt, List.drop_succ_cons]

theorem crlfAt_append {l m : Bytes} {i : ℕ} (h : i + 4 ≤ l.length) :
    CrlfAt (l ++ m) i ↔ CrlfAt l i := by
  rw [CrlfAt, CrlfAt, List.drop_append_of_le_length (by omega)]
  constructor
  · intro hp
    refine List.prefix_of_prefix_length_le hp (List.prefix_append _ _) ?_
    rw [List.length_drop]
    simp only [crlf2, List.length_cons, List.length_nil]
    omega
  · exact fun hp => hp.trans (List.prefix_append _ _)

/-- `headEnd` is the first occurrence. -/
theorem headEnd_eq_some : ∀ {l : Bytes} {j : ℕ},
    headEnd l = some j ↔ ∃ i, j = i + 4 ∧ CrlfAt l i ∧ ∀ i' < i, ¬ CrlfAt l i' := by
  intro l
  induction l with
  | nil =>
    intro j
    constructor
    · intro h
      exact absurd h (by simp [headEnd])
    · rintro ⟨i, -, h, -⟩
      exact absurd h.le_length (by simp)
  | cons a rest ih =>
    intro j
    rw [headEnd]
    by_cases h0 : crlf2.isPrefixOf (a :: rest) = true
    · have hat : CrlfAt (a :: rest) 0 := List.isPrefixOf_iff_prefix.mp h0
      rw [if_pos h0]
      constructor
      · intro h
        exact ⟨0, (Option.some.inj h).symm, hat, fun i' hi' => absurd hi' (Nat.not_lt_zero i')⟩
      · rintro ⟨i, rfl, -, hmin⟩
        rcases i with _ | i
        · rfl
        · exact absurd hat (hmin 0 (Nat.succ_pos i))
    · have hat : ¬ CrlfAt (a :: rest) 0 := fun h => h0 (List.isPrefixOf_iff_prefix.mpr h)
      rw [if_neg h0, Option.map_eq_some_iff]
      constructor
      · rintro ⟨j', hj', rfl⟩
        obtain ⟨i, rfl, hi, hmin⟩ := ih.mp hj'
        refine ⟨i + 1, by omega, crlfAt_succ.mpr hi, fun i' hi' => ?_⟩
        rcases i' with _ | i'
        · exact hat
        · exact fun h => hmin i' (by omega) (crlfAt_succ.mp h)
      · rintro ⟨i, rfl, hi, hmin⟩
        rcases i with _ | i
        · exact absurd hi hat
        · refine ⟨i + 4, ih.mpr ⟨i, rfl, crlfAt_succ.mp hi, fun i' hi' h => ?_⟩, by omega⟩
          exact hmin (i' + 1) (by omega) (crlfAt_succ.mpr h)

theorem headEnd_eq_none {l : Bytes} : headEnd l = none ↔ ∀ i, ¬ CrlfAt l i := by
  constructor
  · intro h i hi
    classical
    have hex : ∃ i, CrlfAt l i := ⟨i, hi⟩
    have := headEnd_eq_some.mpr
      ⟨Nat.find hex, rfl, Nat.find_spec hex, fun i' hi' => Nat.find_min hex hi'⟩
    rw [h] at this
    exact absurd this (by simp)
  · intro h
    rcases he : headEnd l with _ | j
    · rfl
    · obtain ⟨i, -, hi, -⟩ := headEnd_eq_some.mp he
      exact absurd hi (h i)

theorem headEnd_bounds {l : Bytes} {j : ℕ} (h : headEnd l = some j) : 4 ≤ j ∧ j ≤ l.length := by
  obtain ⟨i, rfl, hi, -⟩ := headEnd_eq_some.mp h
  have := hi.le_length
  omega

/-- The first occurrence in a prefix is the first occurrence in the whole. -/
theorem headEnd_take {l : Bytes} {n j : ℕ} :
    headEnd (l.take n) = some j ↔ headEnd l = some j ∧ j ≤ n := by
  have key : ∀ i, i + 4 ≤ n → (CrlfAt (l.take n) i ↔ CrlfAt l i) := by
    intro i hi
    rcases Nat.lt_or_ge l.length n with hlen | hlen
    · rw [List.take_of_length_le hlen.le]
    · conv_rhs => rw [← List.take_append_drop n l]
      exact (crlfAt_append (by rw [List.length_take]; omega)).symm
  constructor
  · intro h
    obtain ⟨i, rfl, hi, hmin⟩ := headEnd_eq_some.mp h
    have hin : i + 4 ≤ n := by
      have := hi.le_length
      rw [List.length_take] at this
      omega
    refine ⟨headEnd_eq_some.mpr ⟨i, rfl, (key i hin).mp hi, fun i' hi' h' => ?_⟩, hin⟩
    exact hmin i' hi' ((key i' (by omega)).mpr h')
  · rintro ⟨h, hn⟩
    obtain ⟨i, rfl, hi, hmin⟩ := headEnd_eq_some.mp h
    refine headEnd_eq_some.mpr ⟨i, rfl, (key i hn).mpr hi, fun i' hi' h' => ?_⟩
    exact hmin i' hi' ((key i' (by omega)).mp h')

/-- Bytes behind the terminator do not move it. -/
theorem headEnd_append {l : Bytes} {j : ℕ} (h : headEnd l = some j) (t : Bytes) :
    headEnd (l ++ t) = some j := by
  refine (headEnd_take (n := l.length).mp ?_).1
  rw [List.take_left, h]

/-- The test of `readResponseBuffered` after each byte. -/
def endsHead (scratch : Bytes) : Bool :=
  4 ≤ scratch.length && scratch.drop (scratch.length - 4) == crlf2

/-- Byte-by-byte detection: the first byte that completes a terminator. -/
theorem headEnd_snoc {l : Bytes} {b : UInt8} (h : headEnd l = none) :
    headEnd (l ++ [b]) = if endsHead (l ++ [b]) then some (l.length + 1) else none := by
  have hlen : (l ++ [b]).length = l.length + 1 := by simp
  have hold : ∀ i, i + 4 ≤ l.length → ¬ CrlfAt (l ++ [b]) i := fun i hi hc =>
    headEnd_eq_none.mp h i ((crlfAt_append hi).mp hc)
  by_cases he : endsHead (l ++ [b]) = true
  · rw [if_pos he]
    simp only [endsHead, Bool.and_eq_true, decide_eq_true_eq, beq_iff_eq, hlen] at he
    obtain ⟨h4, hd⟩ := he
    refine headEnd_eq_some.mpr ⟨l.length + 1 - 4, by omega, ?_, fun i' hi' => hold i' (by omega)⟩
    rewrite [CrlfAt, hd]
    exact List.prefix_rfl
  · rw [if_neg he]
    refine headEnd_eq_none.mpr fun i hc => ?_
    have hle := hc.le_length
    rw [hlen] at hle
    rcases Nat.lt_or_ge l.length (i + 4) with hlt | hge
    · refine he ?_
      have hi : i = l.length + 1 - 4 := by omega
      subst hi
      simp only [endsHead, Bool.and_eq_true, decide_eq_true_eq, beq_iff_eq, hlen]
      refine ⟨by omega, (hc.eq_of_length ?_).symm⟩
      rw [List.length_drop, hlen]
      simp only [crlf2, List.length_cons, List.length_nil]
      omega
    · exact hold i hge hc

theorem headEnd_short {l : Bytes} (h : l.length < 4) : headEnd l = none :=
  headEnd_eq_none.mpr fun i hi => by
    have := hi.le_length
    omega

theorem headEnd_cons_of_ne {a : UInt8} {l : Bytes} (h : ¬ CrlfAt (a :: l) 0) :
    headEnd (a :: l) = (headEnd l).map (· + 1) := by
  have h0 : ¬ crlf2.isPrefixOf (a :: l) = true := fun hp => h (List.isPrefixOf_iff_prefix.mp hp)
  rw [headEnd, if_neg h0]

theorem crlfAt_zero {a b c d : UInt8} {rest : Bytes} :
    CrlfAt (a :: b :: c :: d :: rest) 0 ↔ a = CR ∧ b = LF ∧ c = CR ∧ d = LF := by
  simp only [CrlfAt, crlf2, List.drop_zero, List.cons_prefix_cons, List.nil_prefix, and_true]
  constructor <;> rintro ⟨rfl, rfl, rfl, rfl⟩ <;> exact ⟨rfl, rfl, rfl, rfl⟩

theorem findHeaderEndFrom_eq (i : ℕ) (l : Bytes) :
    findHeaderEndFrom i l = (headEnd l).map (· + i) := by
  fun_induction findHeaderEndFrom i l with
  | case1 i b c d rest h =>
    rw [headEnd_eq_some.mpr ⟨0, rfl, crlfAt_zero.mpr ⟨rfl, h⟩, by simp⟩]
    simp [Nat.add_comm]
  | case2 i c d rest h ih =>
    -- the skipped byte is a line feed and starts no terminator
    rw [headEnd_cons_of_ne (fun hc => h (crlfAt_zero.mp hc).2), headEnd_cons_of_ne, ih]
    · rcases headEnd (c :: d :: rest) with _ | j
      · rfl
      · simp only [Option.map_some, Option.some_inj]
        omega
    · rcases rest with _ | ⟨e, rest⟩
      · exact fun hc => absurd hc.le_length (by simp)
      · exact fun hc => absurd (crlfAt_zero.mp hc).1 (by decide)
  | case3 i b c d rest h hb ih =>
    rw [headEnd_cons_of_ne (fun hc => hb (crlfAt_zero.mp hc).2.1), ih]
    rcases headEnd (b :: c :: d :: rest) with _ | j
    · rfl
    · simp only [Option.map_some, Option.some_inj]
      omega
  | case4 i a b c d rest h ih =>
    rw [headEnd_cons_of_ne (fun hc => h (crlfAt_zero.mp hc).1), ih]
    rcases headEnd (b :: c :: d :: rest) with _ | j
    · rfl
    · simp only [Option.map_some, Option.some_inj]
      omega
  | case5 l i h =>
    rw [headEnd_short]
    · rfl
    · rcases l with _ | ⟨a, _ | ⟨b, _ | ⟨c, _ | ⟨d, rest⟩⟩⟩⟩
      · simp
      · simp
      · simp
      · simp
      · exact absurd rfl (h a b c d rest)

/-- `findHeaderEnd` finds the first terminator. -/
theorem findHeaderEnd_eq (buf : Bytes) : findHeaderEnd buf = headEnd buf := by
  rw [findHeaderEnd, findHeaderEndFrom_eq]
  rcases headEnd buf with _ | j <;> simp

end BurstHttp
