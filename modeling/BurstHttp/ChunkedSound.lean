/-
What a chunked body looks like that the decoder accepts.

`reading` cuts a stream the way the chunk loop does, as a function of the bytes alone: size
lines, data, the line behind the data, trailers, the empty line or the end of the stream.
`ChunkedBody` is the grammar of RFC 7230, section 4.1.

* `chunkLoop_reading` — what the loop has consumed when it returns nil is a reading;
* `sizeLine_iff` — which of the size lines it accepts are those of the grammar;
* `chunked_sound_iff` — the chunks that were read are a complete chunked body exactly when
  every line ends in CRLF and holds nothing else, no size is signed or cut off, and the
  empty line has arrived;
* `chunked_lenient` — a stream that is accepted and is none.
-/
import BurstHttp.ChunkedRange
import BurstHttp.OneLimit

namespace BurstHttp

/-! ### The grammar -/

/-- A chunk: its size in hexadecimal digits, an extension, and the data. -/
structure BodyChunk where
  size : Bytes
  ext : Bytes
  data : Bytes
  size_ne_nil : size ≠ []
  size_spec : hexValue 0 size = some data.length
  ext_spec : IsExtension ext
  data_ne_nil : data ≠ []

def BodyChunk.wire (c : BodyChunk) : Bytes := c.size ++ c.ext ++ CRLF ++ c.data ++ CRLF

/-- A complete chunked body: the chunks, a chunk of size zero, trailer lines and the empty
line. -/
structure ChunkedBody where
  chunks : List BodyChunk
  lastSize : Bytes
  lastExt : Bytes
  trailers : List Bytes
  lastSize_ne_nil : lastSize ≠ []
  lastSize_spec : hexValue 0 lastSize = some 0
  lastExt_spec : IsExtension lastExt
  trailers_spec : ∀ t ∈ trailers, t ≠ [] ∧ CR ∉ t ∧ LF ∉ t

namespace ChunkedBody

/-- The lines behind the chunks, without their `LF`. -/
def endLines (m : ChunkedBody) : List Bytes :=
  (m.lastSize ++ m.lastExt ++ [CR]) :: m.trailers.map (· ++ [CR]) ++ [[CR]]

def wire (m : ChunkedBody) : Bytes :=
  (m.chunks.map BodyChunk.wire).flatten ++ (m.endLines.map (· ++ [LF])).flatten

end ChunkedBody

/-! ### Readings -/

/-- A chunk as the loop takes it from the stream: the size line, the data, and the bytes up
to the next `LF`. -/
structure RawChunk where
  line : Bytes
  data : Bytes
  eol : Bytes
  deriving DecidableEq

def RawChunk.wire (c : RawChunk) : Bytes := c.line ++ LF :: (c.data ++ (c.eol ++ [LF]))

/-- What the loop takes from a stream up to the zero chunk and the trailers behind it.
`blank` is the line that ended the trailers; without one the stream ended, in `piece`. -/
structure Reading where
  chunks : List RawChunk
  last : Bytes
  trailers : List Bytes
  blank : Option Bytes
  piece : Bytes
  deriving DecidableEq

namespace Reading

/-- The lines behind the chunks. -/
def endLines (R : Reading) : List Bytes := R.last :: R.trailers ++ R.blank.toList

def wire (R : Reading) : Bytes :=
  (R.chunks.map RawChunk.wire).flatten ++ ((R.endLines.map (· ++ [LF])).flatten ++ R.piece)

end Reading

/-- The trailers, the blank line, the piece the stream ends in, and what is left. -/
def readTrailers (l : Bytes) : List Bytes × Option Bytes × Bytes × Bytes :=
  if _h : LF ∈ l then
    if ChunkReader.lineEnd ((lineOf l).take 64) = [] then ([], some (lineOf l), [], afterLine l)
    else
      let x := readTrailers (afterLine l)
      (lineOf l :: x.1, x.2)
  else ([], none, l, [])
termination_by l.length
decreasing_by exact length_afterLine_lt _h

/-- The stream as the loop cuts it, and what is left. -/
def reading (l : Bytes) : Option (Reading × Bytes) :=
  if _h : LF ∈ l then
    match chunkSize (lineOf l) with
    | none => none
    | some v =>
      if v < 0 then none
      else if v = 0 then
        let x := readTrailers (afterLine l)
        some (⟨[], lineOf l, x.1, x.2.1, x.2.2.1⟩, x.2.2.2)
      else if v ≤ (afterLine l).length then
        let rest := (afterLine l).drop v.toNat
        (reading (afterLine rest)).map fun x =>
          ({ x.1 with chunks := ⟨lineOf l, (afterLine l).take v.toNat, lineOf rest⟩ :: x.1.chunks }, x.2)
      else none
  else none
termination_by l.length
decreasing_by
  have h1 := length_afterLine_lt _h
  have h2 := length_afterLine_le ((afterLine l).drop v.toNat)
  rw [List.length_drop] at h2
  omega

/-- How a reading is cut. -/
structure Reading.WellCut (R : Reading) : Prop where
  chunks : ∀ c ∈ R.chunks, LF ∉ c.line ∧ chunkSize c.line = some (c.data.length : ℤ) ∧
    c.data ≠ [] ∧ LF ∉ c.eol
  last : LF ∉ R.last ∧ chunkSize R.last = some 0
  trailers : ∀ t ∈ R.trailers, LF ∉ t ∧ ChunkReader.lineEnd (t.take 64) ≠ []
  blank : ∀ e ∈ R.blank, LF ∉ e ∧ R.piece = []
  piece : LF ∉ R.piece

theorem readTrailers_spec (l : Bytes) :
    l = (((readTrailers l).1 ++ (readTrailers l).2.1.toList).map (· ++ [LF])).flatten
        ++ (readTrailers l).2.2.1 ++ (readTrailers l).2.2.2 ∧
      (∀ t ∈ (readTrailers l).1, LF ∉ t ∧ ChunkReader.lineEnd (t.take 64) ≠ []) ∧
      (∀ e ∈ (readTrailers l).2.1, LF ∉ e ∧ (readTrailers l).2.2.1 = []) ∧
      LF ∉ (readTrailers l).2.2.1 := by
  induction hn : l.length using Nat.strong_induction_on generalizing l with
  | _ n ih =>
    rw [readTrailers]
    split
    · rename_i hlf
      have hline := lineOf_append_afterLine hlf
      split
      · refine ⟨?_, by simp, ?_, by simp⟩
        · simpa using hline
        · intro e he
          obtain rfl := Option.mem_some_iff.mp he
          exact ⟨not_mem_lineOf l, rfl⟩
      · rename_i hblank
        obtain ⟨heq, htr, hbl, hpc⟩ := ih _ (hn ▸ length_afterLine_lt hlf) (afterLine l) rfl
        refine ⟨?_, ?_, hbl, hpc⟩
        · conv_lhs => rw [hline, heq]
          simp
        · intro t ht
          rcases List.mem_cons.mp ht with rfl | ht
          · exact ⟨not_mem_lineOf l, hblank⟩
          · exact htr t ht
    · rename_i hlf
      exact ⟨by simp, by simp, by simp, hlf⟩

/-- A reading is the stream up to what is left. -/
theorem reading_spec {l rest : Bytes} {R : Reading} (h : reading l = some (R, rest)) :
    l = R.wire ++ rest ∧ R.WellCut := by
  induction hn : l.length using Nat.strong_induction_on generalizing l R with
  | _ n ih =>
    rw [reading] at h
    split at h
    swap
    · exact absurd h (by simp)
    rename_i hlf
    have hline := lineOf_append_afterLine hlf
    have hnot := not_mem_lineOf l
    split at h
    · exact absurd h (by simp)
    rename_i v hv
    split_ifs at h with hneg hzero hle
    · subst hzero
      obtain ⟨heq, htr, hbl, hpc⟩ := readTrailers_spec (afterLine l)
      obtain ⟨rfl, rfl⟩ := Prod.mk.inj (Option.some.inj h)
      refine ⟨?_, by simp, ⟨hnot, hv⟩, htr, hbl, hpc⟩
      conv_lhs => rw [hline, heq]
      simp [Reading.wire, Reading.endLines]
    · obtain ⟨⟨R', rest'⟩, hrec, hx⟩ := Option.map_eq_some_iff.mp h
      obtain ⟨rfl, rfl⟩ := Prod.mk.inj hx
      have hrest : LF ∈ (afterLine l).drop v.toNat := by
        by_contra hnone
        rw [afterLine_of_not_mem hnone, reading, dif_neg (by simp)] at hrec
        exact absurd hrec (by simp)
      have hsplit : afterLine l = (afterLine l).take v.toNat
          ++ (lineOf ((afterLine l).drop v.toNat)
            ++ LF :: afterLine ((afterLine l).drop v.toNat)) := by
        rw [← lineOf_append_afterLine hrest, List.take_append_drop]
      have hlt := length_afterLine_lt hlf
      have hle2 := length_afterLine_le ((afterLine l).drop v.toNat)
      rw [List.length_drop] at hle2
      obtain ⟨heq, hcut⟩ := ih _ (by omega) hrec rfl
      have hdata : ((afterLine l).take v.toNat).length = v.toNat := by
        rw [List.length_take]
        omega
      refine ⟨?_, ?_, hcut.last, hcut.trailers, hcut.blank, hcut.piece⟩
      · conv_lhs => rw [hline, hsplit, heq]
        simp [Reading.wire, Reading.endLines, RawChunk.wire]
      · intro c hc
        rcases List.mem_cons.mp hc with rfl | hc
        · refine ⟨hnot, ?_, ?_, not_mem_lineOf _⟩
          · rw [hdata, hv]
            congr 1
            omega
          · intro hnil
            have hzero' : ((afterLine l).take v.toNat).length = 0 := congrArg List.length hnil
            omega
        · exact hcut.chunks c hc

/-! ### The loop -/

theorem drainTrailers_flat (s : ChunkReader) :
    s.drainTrailers.flat = (readTrailers s.flat).2.2.2 := by
  induction hn : s.flat.length using Nat.strong_induction_on generalizing s with
  | _ n ih =>
    have hfst := s.readLine_fst
    have hsnd := ChunkReader.readLine_flat [] s
    rw [ChunkReader.drainTrailers_step, readTrailers]
    generalize s.readLine [] = x at hfst hsnd ⊢
    obtain ⟨res, s1⟩ := x
    dsimp only at hfst hsnd ⊢
    by_cases hlf : LF ∈ s.flat
    · rw [if_pos hlf] at hfst
      rw [dif_pos hlf, hfst]
      rcases hline : ChunkReader.lineEnd ((lineOf s.flat).take 64) with _ | ⟨a, line⟩
      · rw [if_pos rfl]
        exact hsnd
      · rw [if_neg (by simp), ← hsnd]
        have hlt := length_afterLine_lt hlf
        exact ih _ (by rw [hsnd]; omega) s1 rfl
    · rw [if_neg hlf] at hfst
      rw [dif_neg hlf, hfst]
      rw [afterLine_of_not_mem hlf] at hsnd
      exact hsnd

/-- The size behind each decision to go on. -/
theorem chunkLine_size (maxBody : ℤ) (resp : Response) {bodyLen : ℕ} (line : Bytes)
    (hlt : bodyLen < 2 ^ 63) :
    (chunkLine maxBody resp bodyLen line = .last → parseInt16 (line.takeWhile (· != 59)) = some 0) ∧
    ∀ resp' n, chunkLine maxBody resp bodyLen line = .data resp' n →
      ∃ v, parseInt16 (line.takeWhile (· != 59)) = some v ∧ 0 < v ∧ n = bodyLen + v.toNat ∧
        n < 2 ^ 63 := by
  unfold chunkLine
  rcases hv : parseInt16 (line.takeWhile (· != 59)) with _ | v
  · simp
  have hbound := parseInt16_lt hv
  dsimp only
  have hsum : 0 < v → wrap64 (bodyLen + v) < bodyLen ∨
      (wrap64 (bodyLen + v) = bodyLen + v ∧ bodyLen + v < 2 ^ 63) := by
    intro hpos
    by_cases hover : 2 ^ 63 ≤ bodyLen + v
    · rw [wrap64_over hover (by omega)]
      exact Or.inl (by omega)
    · exact Or.inr ⟨wrap64_eq (by omega) (by omega), by omega⟩
  generalize wrap64 (bodyLen + v) = required at hsum ⊢
  generalize resp.ensureBufferSize required = x
  obtain ⟨_ | _, resp₁⟩ := x
  · split_ifs with h1 h2 h3
    · simp
    · simp [h2]
    · simp
    · simp
  · split_ifs with h1 h2 h3 h4
    · simp
    · simp [h2]
    · simp
    · simp
    · refine ⟨by simp, fun resp' n hdata => ?_⟩
      obtain ⟨rfl, rfl⟩ := ChunkLine.data.inj hdata
      have hpos : 0 < v := by omega
      rcases hsum hpos with hbad | ⟨hsame, hlt'⟩
      · exact absurd hbad h4
      · exact ⟨v, rfl, hpos, by omega, by omega⟩

/-- What the loop has consumed when it returns nil is a reading of the stream. -/
theorem chunkLoop_reading {maxBody : ℤ} {resp : Response} {bodyLen : ℕ} (hlt : bodyLen < 2 ^ 63)
    {s : ChunkReader} (h : (chunkLoop maxBody resp bodyLen s).1.1 = .nil) :
    ∃ R, reading s.flat = some (R, (chunkLoop maxBody resp bodyLen s).2.flat) ∧
      (chunkLoop maxBody resp bodyLen s).1.2.contentLength
        = bodyLen + (R.chunks.map RawChunk.data).flatten.length := by
  induction hn : s.flat.length using Nat.strong_induction_on generalizing resp bodyLen s with
  | _ n ih =>
    have hfst := s.readLine_fst
    have hsnd := ChunkReader.readLine_flat [] s
    rw [chunkLoop_eq] at h ⊢
    dsimp only at h ⊢
    generalize s.readLine [] = x at h hfst hsnd ⊢
    obtain ⟨res, s1⟩ := x
    dsimp only at h hfst hsnd ⊢
    by_cases hlf : LF ∈ s.flat
    swap
    · rw [if_neg hlf] at hfst
      rw [hfst] at h
      exact absurd h (by simp [chunkLoopThen])
    rw [if_pos hlf] at hfst
    rw [hfst] at h ⊢
    rw [reading, dif_pos hlf]
    unfold chunkLoopThen at h ⊢
    dsimp only at h ⊢
    have hsize : chunkSize (lineOf s.flat)
      = parseInt16 ((ChunkReader.lineEnd ((lineOf s.flat).take 64)).takeWhile (· != 59)) := rfl
    generalize ChunkReader.lineEnd ((lineOf s.flat).take 64) = line at h hsize ⊢
    obtain ⟨hlast, hdata⟩ := chunkLine_size maxBody resp line hlt
    rcases hline : chunkLine maxBody resp bodyLen line with ⟨ret, resp'⟩ | _ | ⟨resp', bodyLen'⟩
    · rw [hline] at h
      exact absurd h (chunkLine_fail_ne_nil hline)
    · rw [hsize, hlast hline]
      dsimp only
      rw [if_neg (by omega), if_pos rfl, drainTrailers_flat, hsnd]
      exact ⟨_, rfl, by simp⟩
    · obtain ⟨v, hv, hpos, rfl, hlt'⟩ := hdata resp' bodyLen' hline
      rw [hline] at h
      rw [hsize, hv]
      dsimp only
      obtain ⟨s2, hflat2, -, -, hexact⟩ := s1.readExact_eq (bodyLen + v.toNat - bodyLen)
      have hsub : bodyLen + v.toNat - bodyLen = v.toNat := by omega
      rw [hsub, hsnd] at hflat2
      rw [hsub] at hexact
      simp only [hsub, hexact, chunkLoopData, hsnd] at h ⊢
      by_cases hshort : (afterLine s.flat).length < v.toNat
      · rw [if_pos hshort] at h
        exact absurd h (by simp)
      · rw [if_neg hshort] at h ⊢
        dsimp only at h ⊢
        have hflat3 := ChunkReader.readLine_flat [] s2
        have hlt1 := length_afterLine_lt hlf
        have hle2 := length_afterLine_le s2.flat
        rw [hflat2, List.length_drop] at hle2
        obtain ⟨R, hR, hlen⟩ :=
          ih (s2.readLine []).2.flat.length (by rw [hflat3, hflat2]; omega) hlt' h rfl
        rw [hflat3, hflat2] at hR
        rw [if_neg (by omega), if_neg (by omega), if_pos (by omega), hR]
        refine ⟨_, rfl, ?_⟩
        rw [hlen, List.map_cons, List.flatten_cons, List.length_append, List.length_take]
        dsimp only
        omega

/-! ### Size lines -/

/-- A size line of the grammar, without its `LF`. -/
def IsSizeLine (line : Bytes) (n : ℕ) : Prop :=
  ∃ size ext, line = size ++ ext ++ [CR] ∧ size ≠ [] ∧ hexValue 0 size = some n ∧ IsExtension ext

/-- The line ends in `CR` and has no other. -/
def Clean (line : Bytes) : Prop := line.getLast? = some CR ∧ CR ∉ line.dropLast

instance (line : Bytes) : Decidable (Clean line) := inferInstanceAs (Decidable (_ ∧ _))

/-- What stands before the extension in a clean line. -/
def sizeDigits (line : Bytes) : Bytes := line.dropLast.takeWhile (· != 59)

/-- No sign, and no digit but zeros cut off. -/
def WholeSize (line : Bytes) : Prop :=
  line.head? ≠ some 43 ∧ line.head? ≠ some 45 ∧
    ((sizeDigits line).length ≤ 64 ∨ ∀ b ∈ sizeDigits line, b = 48)

instance (line : Bytes) : Decidable (WholeSize line) := inferInstanceAs (Decidable (_ ∧ _ ∧ _))

theorem Clean.eq_append {line : Bytes} (h : Clean line) : line = line.dropLast ++ [CR] := by
  obtain ⟨l, rfl⟩ := List.getLast?_eq_some_iff.mp h.1
  rw [List.dropLast_concat]

theorem clean_append {line : Bytes} (h : CR ∉ line) : Clean (line ++ [CR]) := by
  rw [Clean, List.dropLast_concat]
  exact ⟨by simp, h⟩

theorem hexValue_eq_zero {digits : Bytes} (h : hexValue 0 digits = some 0) : ∀ b ∈ digits, b = 48 := by
  induction digits with
  | nil => simp
  | cons c digits ih =>
    rw [hexValue] at h
    obtain ⟨d, hd, hrest⟩ := Option.bind_eq_some_iff.mp h
    have hle := le_hexValue hrest
    obtain rfl : d = 0 := by
      by_contra hne
      have hpow : 0 < 16 ^ digits.length := Nat.pow_pos (by omega)
      have : 0 < (0 * 16 + d) * 16 ^ digits.length := Nat.mul_pos (by omega) hpow
      omega
    intro b hb
    rcases List.mem_cons.mp hb with rfl | hb
    · by_contra hne
      exact absurd (hexDigit_pos hd hne) (by omega)
    · exact ih hrest b hb

theorem hexValue_zeros {digits : Bytes} (h : ∀ b ∈ digits, b = 48) : hexValue 0 digits = some 0 := by
  induction digits with
  | nil => rfl
  | cons c digits ih =>
    obtain rfl := h c List.mem_cons_self
    rw [hexValue, show hexDigit 48 = some 0 by decide, Option.bind_some]
    exact ih fun b hb => h b (List.mem_cons_of_mem _ hb)

/-- A number that is read without a sign is the number that stands there. -/
theorem parseInt16_unsigned {digits : Bytes} {n : ℕ} (h : parseInt16 digits = some (n : ℤ))
    (h43 : digits.head? ≠ some 43) (h45 : digits.head? ≠ some 45) :
    digits ≠ [] ∧ hexValue 0 digits = some n := by
  rcases digits with _ | ⟨b, rest⟩
  · exact absurd h (by simp [parseInt16])
  · rw [List.head?_cons, ne_eq, Option.some_inj] at h43 h45
    rw [parseInt16, if_neg h43, if_neg h45, parseMagnitude, if_neg (by simp)] at h
    obtain ⟨un, hun, hval⟩ := Option.bind_eq_some_iff.mp h
    refine ⟨by simp, ?_⟩
    rw [if_neg (by simp)] at hval
    split_ifs at hval
    have := Option.some.inj hval
    rw [hun]
    congr 1
    omega

theorem takeWhile_append_ext {size ext : Bytes} (h59 : (59 : UInt8) ∉ size) (hext : IsExtension ext) :
    (size ++ ext).takeWhile (· != 59) = size := by
  have hpos : ∀ b ∈ size, (b != 59) = true := fun b hb => bne_iff_ne.mpr fun he => h59 (he ▸ hb)
  rw [List.takeWhile_append_of_pos hpos]
  rcases hext with rfl | ⟨hhead, -, -⟩
  · simp
  · obtain ⟨e, rfl⟩ := List.head?_eq_some_iff.mp hhead
    simp

/-- Among the size lines that the loop reads, those of the grammar are the clean ones that are
neither signed nor cut off. -/
theorem sizeLine_iff {line : Bytes} {n : ℕ} (hlf : LF ∉ line)
    (hsize : chunkSize line = some (n : ℤ)) :
    IsSizeLine line n ↔ Clean line ∧ WholeSize line := by
  constructor
  · rintro ⟨size, ext, rfl, hne, hval, hext⟩
    have h59 := hexValue_not_mem (c := 59) (by decide) hval
    have hcr := hexValue_not_mem (c := CR) (by decide) hval
    have hcrExt : CR ∉ ext := by
      rcases hext with rfl | ⟨-, h, -⟩
      · simp
      · exact h
    have hdigits : sizeDigits (size ++ ext ++ [CR]) = size := by
      rw [sizeDigits, List.dropLast_concat, takeWhile_append_ext h59 hext]
    have hhead : (size ++ ext ++ [CR]).head? = size.head? := by
      rw [List.append_assoc, List.head?_append_of_ne_nil _ hne]
    refine ⟨clean_append (by simp [hcr, hcrExt]), ?_, ?_, ?_⟩
    · rw [hhead]
      exact fun h => hexValue_not_mem (by decide) hval (List.mem_of_mem_head? h)
    · rw [hhead]
      exact fun h => hexValue_not_mem (by decide) hval (List.mem_of_mem_head? h)
    · rw [hdigits]
      by_cases hlen : size.length ≤ 64
      · exact Or.inl hlen
      -- the number that is read is the one of the first 64 digits
      right
      rw [chunkSize, takeWhile_sizeLine h59 hcr hext] at hsize
      rw [← List.take_append_drop 64 size, hexValue_append] at hval
      obtain ⟨w, hw, hrest⟩ := Option.bind_eq_some_iff.mp hval
      have htake : size.take 64 ≠ [] := by
        intro hnil
        have := congrArg List.length hnil
        rw [List.length_take, List.length_nil] at this
        omega
      rw [parseInt16_hex hw htake] at hsize
      split_ifs at hsize
      obtain rfl : w = n := by
        have := Option.some.inj hsize
        omega
      have hle := le_hexValue hrest
      obtain ⟨k, hk⟩ : ∃ k, (size.drop 64).length = k + 1 :=
        ⟨size.length - 65, by rw [List.length_drop]; omega⟩
      rw [hk, Nat.pow_succ] at hle
      obtain rfl : w = 0 := by
        by_contra hne0
        have hpow : 0 < 16 ^ k := Nat.pow_pos (by omega)
        have : w * 1 < w * (16 ^ k * 16) := Nat.mul_lt_mul_of_pos_left (by omega) (by omega)
        omega
      refine hexValue_eq_zero ?_
      rw [← List.take_append_drop 64 size, hexValue_append, hw, Option.bind_some, hrest]
  · rintro ⟨hclean, h43, h45, hwhole⟩
    have hline := hclean.eq_append
    obtain ⟨-, hcr⟩ := hclean
    have hlf' : LF ∉ line.dropLast := fun h => hlf (List.dropLast_subset line h)
    rw [sizeDigits] at hwhole
    generalize line.dropLast = t at hline hcr hlf' hwhole
    subst hline
    have hsplit := List.takeWhile_append_dropWhile (p := (· != (59 : UInt8))) (l := t)
    have h59 : (59 : UInt8) ∉ t.takeWhile (· != 59) := by
      intro hmem
      have := List.mem_takeWhile_imp hmem
      simp at this
    have hext : IsExtension (t.dropWhile (· != 59)) := by
      have hstop := List.head?_dropWhile_not (· != (59 : UInt8)) t
      rcases he : t.dropWhile (· != 59) with _ | ⟨c, e⟩
      · exact Or.inl rfl
      · rw [he] at hstop
        have hsub : ∀ b ∈ c :: e, b ∈ t := fun b hb => (List.dropWhile_suffix _).subset (he ▸ hb)
        refine Or.inr ⟨?_, fun h => hcr (hsub _ h), fun h => hlf' (hsub _ h)⟩
        simpa using hstop
    generalize t.takeWhile (· != 59) = size at hsplit h59 hwhole
    generalize t.dropWhile (· != 59) = ext at hsplit hext
    subst hsplit
    have hcr' : CR ∉ size := fun h => hcr (List.mem_append_left _ h)
    rw [chunkSize, takeWhile_sizeLine h59 hcr' hext] at hsize
    have hne : size ≠ [] := by
      rintro rfl
      exact absurd hsize (by simp [parseInt16])
    refine ⟨size, ext, rfl, hne, ?_, hext⟩
    rcases hwhole with hlen | hzeros
    · rw [List.take_of_length_le hlen] at hsize
      rw [List.append_assoc, List.head?_append_of_ne_nil _ hne] at h43 h45
      exact (parseInt16_unsigned hsize h43 h45).2
    · have htake : ∀ b ∈ size.take 64, b = 48 := fun b hb => hzeros b (List.mem_of_mem_take hb)
      have hne' : size.take 64 ≠ [] := by simpa using hne
      rw [parseInt16_hex (hexValue_zeros htake) hne', if_neg (by omega)] at hsize
      obtain rfl : n = 0 := by
        have := Option.some.inj hsize
        omega
      exact hexValue_zeros hzeros

/-! ### Chunks and trailers -/

/-- The first `LF` cuts a stream in one way. -/
theorem line_inj {a b x y : Bytes} (ha : LF ∉ a) (hb : LF ∉ b) (h : a ++ LF :: x = b ++ LF :: y) :
    a = b ∧ x = y := by
  have hline := congrArg lineOf h
  have hafter := congrArg afterLine h
  rw [lineOf_append ha, lineOf_append hb] at hline
  rw [afterLine_append ha, afterLine_append hb] at hafter
  exact ⟨hline, hafter⟩

theorem lines_inj {as bs : List Bytes} {x y : Bytes} (ha : ∀ a ∈ as, LF ∉ a) (hb : ∀ b ∈ bs, LF ∉ b)
    (hx : LF ∉ x) (hy : LF ∉ y)
    (h : (as.map (· ++ [LF])).flatten ++ x = (bs.map (· ++ [LF])).flatten ++ y) :
    as = bs ∧ x = y := by
  induction as generalizing bs with
  | nil =>
    rcases bs with _ | ⟨b, bs⟩
    · exact ⟨rfl, h⟩
    · refine absurd ?_ hx
      rw [List.map_nil, List.flatten_nil, List.nil_append] at h
      rw [h]
      simp
  | cons a as ih =>
    rcases bs with _ | ⟨b, bs⟩
    · refine absurd ?_ hy
      rw [List.map_nil, List.flatten_nil, List.nil_append] at h
      rw [← h]
      simp
    · simp only [List.map_cons, List.flatten_cons, List.append_assoc, List.singleton_append] at h
      obtain ⟨rfl, hrest⟩ := line_inj (ha a List.mem_cons_self) (hb b List.mem_cons_self) h
      obtain ⟨rfl, rfl⟩ := ih (fun c hc => ha c (List.mem_cons_of_mem _ hc))
        (fun c hc => hb c (List.mem_cons_of_mem _ hc)) hrest
      exact ⟨rfl, rfl⟩

theorem IsSizeLine.not_mem_LF {line : Bytes} {n : ℕ} (h : IsSizeLine line n) : LF ∉ line := by
  obtain ⟨size, ext, rfl, -, hval, hext⟩ := h
  have h1 := hexValue_not_mem (c := LF) (by decide) hval
  have h2 := hext.not_mem_LF
  simp [h1, h2, show LF ≠ CR by decide]

/-- A chunk that the loop took is one of the grammar. -/
def RawChunk.Strict (c : RawChunk) : Prop := IsSizeLine c.line c.data.length ∧ c.eol = [CR]

theorem BodyChunk.wire_eq (c : BodyChunk) :
    IsSizeLine (c.size ++ c.ext ++ [CR]) c.data.length ∧
      c.wire = (RawChunk.wire ⟨c.size ++ c.ext ++ [CR], c.data, [CR]⟩) := by
  refine ⟨⟨c.size, c.ext, rfl, c.size_ne_nil, c.size_spec, c.ext_spec⟩, ?_⟩
  simp [wire, RawChunk.wire]

/-- Chunks of the grammar with the data of the chunks that were read stand at the same
places. -/
theorem chunks_strict {cs : List RawChunk} {ms : List BodyChunk} {x y : Bytes}
    (hcut : ∀ c ∈ cs, LF ∉ c.line ∧ LF ∉ c.eol)
    (hdata : ms.map BodyChunk.data = cs.map RawChunk.data)
    (h : (ms.map BodyChunk.wire).flatten ++ y = (cs.map RawChunk.wire).flatten ++ x) :
    (∀ c ∈ cs, c.Strict) ∧ y = x := by
  induction cs generalizing ms with
  | nil =>
    obtain rfl := List.map_eq_nil_iff.mp hdata
    exact ⟨by simp, h⟩
  | cons c cs ih =>
    rcases ms with _ | ⟨m, ms⟩
    · exact absurd hdata (by simp)
    rw [List.map_cons, List.map_cons, List.cons.injEq] at hdata
    obtain ⟨hsize, hwire⟩ := m.wire_eq
    obtain ⟨hline, heol⟩ := hcut c List.mem_cons_self
    simp only [List.map_cons, List.flatten_cons, hwire, RawChunk.wire, List.append_assoc,
      List.cons_append, List.nil_append] at h
    have h' : (m.size ++ m.ext ++ [CR]) ++ LF :: (m.data ++ ([CR] ++ LF ::
        ((ms.map BodyChunk.wire).flatten ++ y)))
        = c.line ++ LF :: (c.data ++ (c.eol ++ LF :: ((cs.map RawChunk.wire).flatten ++ x))) := by
      simpa using h
    obtain ⟨hl, hrest⟩ := line_inj hsize.not_mem_LF hline h'
    rw [hdata.1] at hrest
    obtain ⟨he, hrest⟩ := line_inj (by decide) heol (List.append_cancel_left hrest)
    obtain ⟨hall, hxy⟩ := ih (fun d hd => hcut d (List.mem_cons_of_mem _ hd)) hdata.2 hrest
    refine ⟨fun d hd => ?_, hxy⟩
    rcases List.mem_cons.mp hd with rfl | hd
    · refine ⟨?_, he.symm⟩
      rw [← hl, ← hdata.1]
      exact hsize
    · exact hall d hd

theorem exists_chunks {cs : List RawChunk} (h : ∀ c ∈ cs, c.Strict ∧ c.data ≠ []) :
    ∃ ms : List BodyChunk, ms.map BodyChunk.data = cs.map RawChunk.data ∧
      ms.map BodyChunk.wire = cs.map RawChunk.wire := by
  induction cs with
  | nil => exact ⟨[], rfl, rfl⟩
  | cons c cs ih =>
    obtain ⟨ms, hdata, hwire⟩ := ih fun d hd => h d (List.mem_cons_of_mem _ hd)
    obtain ⟨⟨⟨size, ext, hline, hne, hval, hext⟩, heol⟩, hdata'⟩ := h c List.mem_cons_self
    refine ⟨⟨size, ext, c.data, hne, hval, hext, hdata'⟩ :: ms, by rw [List.map_cons, hdata]; rfl, ?_⟩
    rw [List.map_cons, List.map_cons, hwire, (BodyChunk.wire_eq _).2]
    obtain ⟨line, data, eol⟩ := c
    dsimp only at hline heol ⊢
    rw [hline, heol]

namespace Reading

/-- The chunks that were read, and what was read behind them, are a complete chunked body. -/
def Sound (R : Reading) : Prop :=
  ∃ m : ChunkedBody, m.wire = R.wire ∧ m.chunks.map BodyChunk.data = R.chunks.map RawChunk.data

/-- None of what the loop tolerates: every line ends in CRLF and has no other CR, no size is
signed or cut off, nothing stands between the data of a chunk and its CRLF, and the trailers
are closed by an empty line. -/
structure Orderly (R : Reading) : Prop where
  sizes : ∀ line ∈ R.last :: R.chunks.map RawChunk.line, Clean line ∧ WholeSize line
  ends : ∀ c ∈ R.chunks, c.eol = [CR]
  trailers : ∀ t ∈ R.trailers, Clean t
  complete : R.blank = some [CR]

instance (R : Reading) : Decidable R.Orderly :=
  decidable_of_iff ((∀ line ∈ R.last :: R.chunks.map RawChunk.line, Clean line ∧ WholeSize line) ∧
      (∀ c ∈ R.chunks, c.eol = [CR]) ∧ (∀ t ∈ R.trailers, Clean t) ∧ R.blank = some [CR])
    ⟨fun ⟨h1, h2, h3, h4⟩ => ⟨h1, h2, h3, h4⟩, fun h => ⟨h.sizes, h.ends, h.trailers, h.complete⟩⟩

theorem orderly_of_sound {R : Reading} (hcut : R.WellCut) (h : R.Sound) : R.Orderly := by
  obtain ⟨m, hwire, hdata⟩ := h
  obtain ⟨hstrict, hend⟩ := chunks_strict
    (fun c hc => ⟨(hcut.chunks c hc).1, (hcut.chunks c hc).2.2.2⟩) hdata hwire
  have hlast : IsSizeLine (m.lastSize ++ m.lastExt ++ [CR]) 0 :=
    ⟨m.lastSize, m.lastExt, rfl, m.lastSize_ne_nil, m.lastSize_spec, m.lastExt_spec⟩
  have hmLines : ∀ l ∈ m.endLines, LF ∉ l := by
    intro l hl
    rcases List.mem_append.mp hl with hl | hl
    · rcases List.mem_cons.mp hl with rfl | hl
      · exact hlast.not_mem_LF
      · obtain ⟨t, ht, rfl⟩ := List.mem_map.mp hl
        simp [(m.trailers_spec t ht).2.2, show LF ≠ CR by decide]
    · obtain rfl := List.mem_singleton.mp hl
      decide
  have hRLines : ∀ l ∈ R.endLines, LF ∉ l := by
    intro l hl
    rcases List.mem_append.mp hl with hl | hl
    · rcases List.mem_cons.mp hl with rfl | hl
      · exact hcut.last.1
      · exact (hcut.trailers l hl).1
    · exact (hcut.blank l (Option.mem_toList.mp hl)).1
  rw [← List.append_nil (List.flatten _)] at hend
  obtain ⟨hlines, -⟩ := lines_inj hmLines hRLines (by simp) hcut.piece hend
  rw [ChunkedBody.endLines, endLines, List.cons_append, List.cons_append, List.cons.injEq] at hlines
  obtain ⟨hsame, htrailers⟩ := hlines
  rw [hsame] at hlast
  have hblank : R.blank = some [CR] ∧ R.trailers = m.trailers.map (· ++ [CR]) := by
    rcases hb : R.blank with _ | e
    · -- the empty line would be one of the trailers
      rw [hb, Option.toList_none, List.append_nil] at htrailers
      have hmem : [CR] ∈ R.trailers := by
        rw [← htrailers]
        simp
      exact absurd (by decide) (hcut.trailers _ hmem).2
    · rw [hb, Option.toList_some] at htrailers
      obtain ⟨h1, h2⟩ := List.append_inj' htrailers rfl
      rw [List.cons.injEq] at h2
      exact ⟨by rw [h2.1], h1.symm⟩
  refine ⟨?_, fun c hc => (hstrict c hc).2, ?_, hblank.1⟩
  · intro line hline
    rcases List.mem_cons.mp hline with rfl | hline
    · exact (sizeLine_iff hcut.last.1 hcut.last.2).mp hlast
    · obtain ⟨c, hc, rfl⟩ := List.mem_map.mp hline
      obtain ⟨hlf, hsize, -, -⟩ := hcut.chunks c hc
      exact (sizeLine_iff hlf hsize).mp (hstrict c hc).1
  · intro t ht
    rw [hblank.2] at ht
    obtain ⟨u, hu, rfl⟩ := List.mem_map.mp ht
    exact clean_append (m.trailers_spec u hu).2.1

theorem sound_of_orderly {R : Reading} (hcut : R.WellCut) (h : R.Orderly) : R.Sound := by
  have hstrict : ∀ c ∈ R.chunks, c.Strict ∧ c.data ≠ [] := by
    intro c hc
    obtain ⟨hlf, hsize, hne, -⟩ := hcut.chunks c hc
    have hline := h.sizes c.line (List.mem_cons_of_mem _ (List.mem_map_of_mem hc))
    exact ⟨⟨(sizeLine_iff hlf hsize).mpr hline, h.ends c hc⟩, hne⟩
  obtain ⟨ms, hdata, hwire⟩ := exists_chunks hstrict
  obtain ⟨size, ext, hlast, hne, hval, hext⟩ :=
    (sizeLine_iff hcut.last.1 hcut.last.2).mpr (h.sizes R.last List.mem_cons_self)
  have htrailers : (R.trailers.map List.dropLast).map (· ++ [CR]) = R.trailers := by
    rw [List.map_map]
    conv_rhs => rw [← List.map_id R.trailers]
    exact List.map_congr_left fun t ht => (h.trailers t ht).eq_append.symm
  refine ⟨⟨ms, size, ext, R.trailers.map List.dropLast, hne, hval, hext, ?_⟩, ?_, hdata⟩
  · intro t ht
    obtain ⟨u, hu, rfl⟩ := List.mem_map.mp ht
    obtain ⟨hlf, hnonblank⟩ := hcut.trailers u hu
    have hclean := h.trailers u hu
    refine ⟨fun hnil => hnonblank ?_, hclean.2, fun hmem => hlf (List.dropLast_subset u hmem)⟩
    rw [hclean.eq_append, hnil]
    decide
  · have hpiece := (hcut.blank _ h.complete).2
    rw [ChunkedBody.wire, wire, ChunkedBody.endLines, endLines, hwire, htrailers, ← hlast, h.complete,
      hpiece, List.append_nil]
    rfl

end Reading

/-- The data of the chunks that the loop takes from a stream. -/
def chunksRead (l : Bytes) : List Bytes :=
  match reading l with
  | none => []
  | some (R, _) => R.chunks.map RawChunk.data

/-- The loop has nothing to tolerate in a stream. -/
def OrderlyStream (l : Bytes) : Prop := ∃ x ∈ reading l, x.1.Orderly

instance (l : Bytes) : Decidable (OrderlyStream l) :=
  decidable_of_iff ((reading l).any (fun x => decide x.1.Orderly) = true)
    (by simp [OrderlyStream, Option.any_eq_true])

theorem sound_iff_orderly {l rest : Bytes} {R : Reading} (h : reading l = some (R, rest)) :
    (∃ m : ChunkedBody, l = m.wire ++ rest ∧ m.chunks.map BodyChunk.data = chunksRead l) ↔
      OrderlyStream l := by
  obtain ⟨heq, hcut⟩ := reading_spec h
  have hread : chunksRead l = R.chunks.map RawChunk.data := by rw [chunksRead, h]
  rw [hread]
  constructor
  · rintro ⟨m, hm, hdata⟩
    rw [heq] at hm
    exact ⟨(R, rest), h, Reading.orderly_of_sound hcut ⟨m, (List.append_cancel_right hm).symm, hdata⟩⟩
  · rintro ⟨x, hx, horderly⟩
    obtain rfl : (R, rest) = x := Option.some.inj (h.symm.trans hx)
    obtain ⟨m, hm, hdata⟩ := Reading.sound_of_orderly hcut horderly
    exact ⟨m, by rw [hm, ← heq], hdata⟩

/-- When the decoder returns nil, the bytes it has consumed are a complete chunked body, with
the chunks that it read, exactly when it had nothing to tolerate. -/
theorem chunked_sound_iff {maxBody : ℤ} {resp : Response} {leftover : Bytes} {r : Reader}
    (hnil : (readChunkedBody r leftover resp maxBody).1.1 = .nil) :
    (readChunkedBody r leftover resp maxBody).1.2.contentLength
        = (chunksRead (leftover ++ r.flat)).flatten.length ∧
      ((∃ m : ChunkedBody,
          leftover ++ r.flat = m.wire ++ (chunkLoop maxBody resp 0 ⟨leftover, r⟩).2.flat ∧
          m.chunks.map BodyChunk.data = chunksRead (leftover ++ r.flat)) ↔
        OrderlyStream (leftover ++ r.flat)) := by
  have hloop : (chunkLoop maxBody resp 0 ⟨leftover, r⟩).1.1 = .nil := hnil
  obtain ⟨R, hR, hlen⟩ := chunkLoop_reading (by omega) hloop
  have hR' : reading (leftover ++ r.flat)
      = some (R, (chunkLoop maxBody resp 0 ⟨leftover, r⟩).2.flat) := hR
  refine ⟨?_, sound_iff_orderly hR'⟩
  show (chunkLoop maxBody resp 0 ⟨leftover, r⟩).1.2.contentLength = _
  rw [hlen, chunksRead, hR']
  simp

theorem chunked_sound_hello : ∃ m : ChunkedBody,
    helloChunked ++ Feed.flat (.ofSegs [] GoErr.eof) = m.wire
        ++ (chunkLoop 10 ⟨0, 0, [], [], [], 0, []⟩ 0 ⟨helloChunked, .ofSegs [] .eof⟩).2.flat ∧
      m.chunks.map BodyChunk.data = [ascii "hello"] := by
  have hnil : (readChunkedBody (.ofSegs [] .eof) helloChunked ⟨0, 0, [], [], [], 0, []⟩ 10).1.1
      = .nil := by decide +kernel
  have hread : chunksRead (helloChunked ++ Feed.flat (.ofSegs [] GoErr.eof)) = [ascii "hello"] := by
    decide +kernel
  rw [← hread]
  exact (chunked_sound_iff hnil).2.mpr (by decide +kernel)

/-- A size with a sign, bare `LF`s, a byte behind the data, and no empty line at the end. -/
def lenientStream : Bytes := ascii "+1\nab\n-0\n"

/-- It is accepted, all of it, as the body `a`. -/
theorem chunked_lenient :
    (readChunkedBody (.ofSegs [] .eof) lenientStream ⟨0, 0, [], [], [], 0, []⟩ 10).1.1 = .nil ∧
    (chunkLoop 10 ⟨0, 0, [], [], [], 0, []⟩ 0 ⟨lenientStream, .ofSegs [] .eof⟩).2.flat = [] ∧
    chunksRead lenientStream = [ascii "a"] ∧
    ∀ m : ChunkedBody, m.wire ≠ lenientStream := by
  refine ⟨by decide +kernel, by decide +kernel, by decide +kernel, fun m hm => ?_⟩
  have hcr : CR ∈ m.wire := by
    rw [ChunkedBody.wire, ChunkedBody.endLines]
    simp
  rw [hm] at hcr
  exact absurd hcr (by decide +kernel)

end BurstHttp
