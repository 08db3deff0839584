/-
Chunked encoding, and what the decoder makes of it.

`ChunkedMessage` is a chunked body as a server writes it: non-empty chunks with
minimal hexadecimal sizes, optional extensions, trailers.  `readChunkedBody`
accepts every such body and reports its length, but each time the body buffer
has to grow the bytes stored so far are replaced by zeros: `lostPrefix` is the
number of bytes the last growth loses (`chunkLoop_encoded`).

* `readResponse_chunked`, `readResponseBuffered_chunked` — the body the two
  parsers return;
* `chunked_roundtrip_iff` — decoding undoes encoding exactly when the lost
  bytes are zero.
-/
import BurstHttp.ReadHead
import BurstHttp.Recycled

namespace BurstHttp

abbrev CRLF : Bytes := [CR, LF]

/-! ### Sizes -/

/-- `digits` is `n` in hexadecimal, without leading zeros. -/
def MinimalHex (digits : Bytes) (n : ℕ) : Prop :=
  hexValue 0 digits = some n ∧ digits.head? ≠ some 48

instance (digits : Bytes) (n : ℕ) : Decidable (MinimalHex digits n) :=
  inferInstanceAs (Decidable (_ ∧ _))

theorem hexDigit_pos {b : UInt8} {d : ℕ} (h : hexDigit b = some d) (hb : b ≠ 48) : 0 < d := by
  have hne : b.toNat ≠ 48 := fun he => hb (UInt8.toNat_inj.mp he)
  unfold hexDigit isDigit at h
  simp only [Bool.and_eq_true, decide_eq_true_eq, UInt8.le_iff_toNat_le] at h
  split_ifs at h with h1 h2 h3
  · have := h1.1
    simp only [Option.some.injEq] at h
    change 48 ≤ b.toNat at this
    omega
  · have := h2.1
    simp only [Option.some.injEq] at h
    change 97 ≤ b.toNat at this
    omega
  · have := h3.1
    simp only [Option.some.injEq] at h
    change 65 ≤ b.toNat at this
    omega

/-- No byte with another meaning in a chunk-size line is a digit. -/
theorem hexValue_not_mem {c : UInt8} (hc : hexDigit c = none) {digits : Bytes} {acc n : ℕ}
    (h : hexValue acc digits = some n) : c ∉ digits := by
  induction digits generalizing acc with
  | nil => simp
  | cons b rest ih =>
    rw [hexValue] at h
    obtain ⟨d, hd, hrest⟩ := Option.bind_eq_some_iff.mp h
    intro hmem
    rcases List.mem_cons.mp hmem with rfl | hmem
    · rw [hc] at hd
      exact absurd hd (by simp)
    · exact ih hrest hmem

theorem le_hexValue {digits : Bytes} {acc n : ℕ} (h : hexValue acc digits = some n) :
    acc * 16 ^ digits.length ≤ n := by
  induction digits generalizing acc with
  | nil =>
    rw [hexValue, Option.some_inj] at h
    simp [h]
  | cons b rest ih =>
    rw [hexValue] at h
    obtain ⟨d, -, hrest⟩ := Option.bind_eq_some_iff.mp h
    calc acc * 16 ^ (rest.length + 1) = acc * 16 * 16 ^ rest.length := by
          rw [Nat.pow_succ, Nat.mul_comm (16 ^ rest.length) 16, Nat.mul_assoc]
      _ ≤ (acc * 16 + d) * 16 ^ rest.length := Nat.mul_le_mul_right _ (Nat.le_add_right _ _)
      _ ≤ n := ih hrest

/-- A minimal representation of a 63-bit number has at most 16 digits. -/
theorem MinimalHex.length_le {digits : Bytes} {n : ℕ} (h : MinimalHex digits n) (hn : n < 2 ^ 63) :
    digits.length ≤ 16 := by
  obtain ⟨hval, hhead⟩ := h
  rcases digits with _ | ⟨b, rest⟩
  · simp
  · rw [hexValue] at hval
    obtain ⟨d, hd, hrest⟩ := Option.bind_eq_some_iff.mp hval
    have hb : b ≠ 48 := fun he => hhead (by rw [he]; rfl)
    have hpos := hexDigit_pos hd hb
    have hle := le_hexValue hrest
    by_contra hlen
    have hlen' : 16 ≤ rest.length := by
      rw [List.length_cons] at hlen
      omega
    have h16 : 16 ^ 16 ≤ 16 ^ rest.length := Nat.pow_le_pow_right (by omega) hlen'
    have h1 : 1 * 16 ^ rest.length ≤ (0 * 16 + d) * 16 ^ rest.length :=
      Nat.mul_le_mul_right _ (by omega)
    omega

theorem MinimalHex.ne_nil {digits : Bytes} {n : ℕ} (h : MinimalHex digits n) (hn : 0 < n) :
    digits ≠ [] := by
  rintro rfl
  have := h.1
  rw [hexValue, Option.some_inj] at this
  omega

/-- Digits without a sign, up to the largest `int`. -/
theorem parseInt16_hex {digits : Bytes} {n : ℕ} (h : hexValue 0 digits = some n)
    (hne : digits ≠ []) : parseInt16 digits = if 2 ^ 63 ≤ n then none else some (n : ℤ) := by
  have h43 := hexValue_not_mem (c := 43) (by decide) h
  have h45 := hexValue_not_mem (c := 45) (by decide) h
  rcases digits with _ | ⟨b, rest⟩
  · exact absurd rfl hne
  · rw [parseInt16, if_neg fun he => h43 (by rw [he]; exact List.mem_cons_self),
      if_neg fun he => h45 (by rw [he]; exact List.mem_cons_self), parseMagnitude, if_neg hne, h]
    rfl

theorem parseInt16_digits {digits : Bytes} {n : ℕ} (h : hexValue 0 digits = some n)
    (hne : digits ≠ []) (hn : n < 2 ^ 63) : parseInt16 digits = some (n : ℤ) := by
  rw [parseInt16_hex h hne, if_neg (by omega)]

/-! ### Lines -/

/-- Nothing, or a `;` and what follows it on the line. -/
def IsExtension (ext : Bytes) : Prop :=
  ext = [] ∨ (ext.head? = some 59 ∧ CR ∉ ext ∧ LF ∉ ext)

instance (ext : Bytes) : Decidable (IsExtension ext) := inferInstanceAs (Decidable (_ ∨ _))

theorem IsExtension.not_mem_LF {ext : Bytes} (h : IsExtension ext) : LF ∉ ext := by
  rcases h with rfl | ⟨-, -, h⟩
  · simp
  · exact h

theorem lineEnd_snoc (l : Bytes) : ChunkReader.lineEnd (l ++ [CR]) = l := by
  rw [ChunkReader.lineEnd, if_pos (by simp), List.dropLast_concat]

/-- Cutting a `CR` off the end does not touch what stands before a `;`. -/
theorem takeWhile_lineEnd {a : Bytes} (ha : (59 : UInt8) ∉ a) (tl : Bytes) :
    (ChunkReader.lineEnd (a ++ 59 :: tl)).takeWhile (· != 59) = a := by
  have hfront : ∀ tl' : Bytes, (a ++ 59 :: tl').takeWhile (· != 59) = a := by
    intro tl'
    have hpos : ∀ b ∈ a, (b != 59) = true := fun b hb => bne_iff_ne.mpr fun he => ha (he ▸ hb)
    rw [List.takeWhile_append_of_pos hpos, List.takeWhile_cons_of_neg (by simp), List.append_nil]
  unfold ChunkReader.lineEnd
  split
  · rename_i h
    rcases tl with _ | ⟨c, tl⟩
    · rw [List.getLast?_concat] at h
      exact absurd h (by decide)
    · rw [List.dropLast_append_of_ne_nil (by simp), List.dropLast_cons_cons]
      exact hfront _
  · exact hfront tl

/-- What the loop parses of a chunk-size line, of which it keeps 64 bytes. -/
theorem takeWhile_sizeLine {size ext : Bytes} (h59 : (59 : UInt8) ∉ size) (hcr : CR ∉ size)
    (hext : IsExtension ext) :
    (ChunkReader.lineEnd ((size ++ ext ++ [CR]).take 64)).takeWhile (· != 59) = size.take 64 := by
  have hclean : ∀ k, (size.take k).takeWhile (· != 59) = size.take k := by
    intro k
    refine List.takeWhile_eq_self_iff.mpr fun b hb => bne_iff_ne.mpr ?_
    rintro rfl
    exact h59 (List.mem_of_mem_take hb)
  by_cases hlen : size.length < 64
  · rw [List.take_of_length_le hlen.le]
    rcases hext with rfl | ⟨hhead, -, -⟩
    · rw [List.append_nil, List.take_of_length_le (by simp; omega), lineEnd_snoc]
      have := hclean size.length
      rwa [List.take_length] at this
    · obtain ⟨e, rfl⟩ := List.head?_eq_some_iff.mp hhead
      obtain ⟨k, hk⟩ : ∃ k, 64 - size.length = k + 1 := ⟨63 - size.length, by omega⟩
      rw [List.append_assoc, List.cons_append, List.take_append, List.take_of_length_le (by omega),
        hk, List.take_succ_cons]
      exact takeWhile_lineEnd h59 _
  · -- the line is cut inside the digits
    rw [List.append_assoc, List.take_append_of_le_length (by omega), ChunkReader.lineEnd, if_neg]
    · exact hclean 64
    · intro hlast
      exact hcr (List.mem_of_mem_take (List.mem_of_getLast? hlast))

/-- A trailer line is not empty, however long it is. -/
theorem trailerLine_ne_nil {line : Bytes} (hne : line ≠ []) (hcr : CR ∉ line) :
    ChunkReader.lineEnd ([] ++ (line ++ [CR]).take (64 - 0)) ≠ [] := by
  rcases line with _ | ⟨a, l⟩
  · exact absurd rfl hne
  have ha : a ≠ CR := fun he => hcr (he ▸ List.mem_cons_self)
  rw [List.nil_append, List.cons_append, show 64 - 0 = 63 + 1 from rfl, List.take_succ_cons]
  unfold ChunkReader.lineEnd
  split
  · rename_i h
    rcases htl : (l ++ [CR]).take 63 with _ | ⟨c, tl⟩
    · rw [htl, List.getLast?_singleton, Option.some_inj] at h
      exact absurd h ha
    · rw [List.dropLast_cons_cons]
      simp
  · simp

/-! ### Encoded bodies -/

/-- A chunk as it is sent. -/
structure Chunk where
  data : Bytes
  size : Bytes
  ext : Bytes
  data_ne_nil : data ≠ []
  size_spec : MinimalHex size data.length
  ext_spec : IsExtension ext

def Chunk.wire (c : Chunk) : Bytes := c.size ++ c.ext ++ CRLF ++ c.data ++ CRLF

/-- A chunked body as it is sent: the chunks, the extension of the last chunk,
and the trailer lines. -/
structure ChunkedMessage where
  chunks : List Chunk
  lastExt : Bytes
  trailers : List Bytes
  lastExt_spec : IsExtension lastExt
  trailers_spec : ∀ t ∈ trailers, t ≠ [] ∧ CR ∉ t ∧ LF ∉ t

namespace ChunkedMessage

/-- The data of the chunks. -/
def content (m : ChunkedMessage) : Bytes := (m.chunks.map Chunk.data).flatten

/-- What stands behind the chunks. -/
def ending (m : ChunkedMessage) : Bytes :=
  48 :: m.lastExt ++ CRLF ++ (m.trailers.map (· ++ CRLF)).flatten ++ CRLF

def wire (m : ChunkedMessage) : Bytes := (m.chunks.map Chunk.wire).flatten ++ m.ending

end ChunkedMessage

/-- The trailer loop stops behind the empty line. -/
theorem drainTrailers_lines (trailers : List Bytes)
    (h : ∀ t ∈ trailers, t ≠ [] ∧ CR ∉ t ∧ LF ∉ t) (rest : Bytes) (s : ChunkReader)
    (hs : s.flat = (trailers.map (· ++ CRLF)).flatten ++ CRLF ++ rest) :
    s.drainTrailers.flat = rest := by
  induction trailers generalizing s with
  | nil =>
    obtain ⟨s', hread, hflat, -, -⟩ :=
      ChunkReader.readLine_line [] [CR] rest (by decide) s hs
    rw [ChunkReader.drainTrailers_step, hread]
    exact hflat
  | cons t ts ih =>
    obtain ⟨hne, hcr, hlf⟩ := h t List.mem_cons_self
    have hs' : s.flat = (t ++ [CR]) ++ LF :: ((ts.map (· ++ CRLF)).flatten ++ CRLF ++ rest) := by
      rw [hs]
      simp [CRLF]
    obtain ⟨s', hread, hflat, -, -⟩ :=
      ChunkReader.readLine_line [] (t ++ [CR]) _ (by simp [hlf, show LF ≠ CR by decide]) s hs'
    rw [ChunkReader.drainTrailers_step, hread]
    rcases hline : ChunkReader.lineEnd ([] ++ (t ++ [CR]).take (64 - 0)) with _ | ⟨a, l⟩
    · exact absurd hline (trailerLine_ne_nil hne hcr)
    · exact ih (fun t' ht' => h t' (List.mem_cons_of_mem _ ht')) s' hflat

/-! ### The buffer -/

/-- The number of bytes the last growth of the buffer loses, for chunks of the
given lengths behind `bodyLen` bytes of body in a buffer of `len` bytes, when
`lost` bytes are lost already. -/
def lostPrefix (len bodyLen lost : ℕ) : List ℕ → ℕ
  | [] => lost
  | n :: ns =>
    if bodyLen + n ≤ len then lostPrefix len (bodyLen + n) lost ns
    else lostPrefix (Response.grownSize len (bodyLen + n : ℕ)).toNat (bodyLen + n) bodyLen ns

/-- The buffer holds `done`, but for the first `lost` bytes, which are zero. -/
structure Stored (resp : Response) (lost : ℕ) (done : Bytes) : Prop where
  maxSize : resp.maxSize = 0
  fits : done.length ≤ resp.bodyBuf.length
  lost_le : lost ≤ done.length
  front : resp.bodyBuf.take done.length = List.replicate lost 0 ++ done.drop lost

/-- In a new buffer everything is lost. -/
theorem Stored.zeroed {resp : Response} {lost n : ℕ} {done : Bytes} (h : Stored resp lost done)
    (hn : done.length ≤ n) : Stored { resp with bodyBuf := List.replicate n 0 } done.length done := by
  refine ⟨h.maxSize, ?_, le_rfl, ?_⟩
  · show done.length ≤ (List.replicate _ 0).length
    rw [List.length_replicate]
    exact hn
  · show (List.replicate _ 0).take done.length = _
    rw [List.take_replicate, min_eq_left hn, List.drop_length, List.append_nil]

/-- Making room for `n` more bytes either keeps the buffer or loses everything
stored so far. -/
theorem Stored.grow {resp : Response} {lost : ℕ} {done : Bytes} (h : Stored resp lost done)
    (n : ℕ) :
    ∃ buf lost', resp.ensureBufferSize (done.length + n : ℕ) = (true, { resp with bodyBuf := buf }) ∧
      Stored { resp with bodyBuf := buf } lost' done ∧ done.length + n ≤ buf.length ∧
      ∀ ns, lostPrefix resp.bodyBuf.length done.length lost (n :: ns)
        = lostPrefix buf.length (done.length + n) lost' ns := by
  by_cases hfit : done.length + n ≤ resp.bodyBuf.length
  · refine ⟨resp.bodyBuf, lost, Response.ensureBufferSize_fits (by omega), h, hfit, fun ns => ?_⟩
    rw [lostPrefix, if_pos hfit]
  · have hgrown := Response.le_grownSize resp.bodyBuf.length (done.length + n : ℕ)
    refine ⟨List.replicate (Response.grownSize resp.bodyBuf.length (done.length + n : ℕ)).toNat 0,
      done.length, Response.ensureBufferSize_grow h.maxSize (by omega), h.zeroed (by omega), ?_,
      fun ns => ?_⟩
    · rw [List.length_replicate]
      omega
    · rw [lostPrefix, if_neg hfit, List.length_replicate]

/-- Storing the data of a chunk. -/
theorem Stored.append {resp : Response} {lost : ℕ} {done : Bytes} (h : Stored resp lost done)
    (bs : Bytes) (hroom : done.length + bs.length ≤ resp.bodyBuf.length) :
    Stored { resp with bodyBuf := overwrite resp.bodyBuf done.length bs } lost (done ++ bs) := by
  have hlost := h.lost_le
  refine ⟨h.maxSize, ?_, ?_, ?_⟩
  · show (done ++ bs).length ≤ (overwrite resp.bodyBuf done.length bs).length
    rw [overwrite_length hroom, List.length_append]
    exact hroom
  · rw [List.length_append]
    omega
  · show (overwrite resp.bodyBuf done.length bs).take (done ++ bs).length = _
    rw [List.length_append, overwrite_take h.fits, h.front, List.append_assoc,
      List.drop_append_of_le_length hlost]

/-- The decision on the size line of a chunk of `n` bytes that fits the limit. -/
theorem chunkLine_data {maxBody : ℤ} {resp : Response} {lost : ℕ} {done line : Bytes} {n : ℕ}
    (h : Stored resp lost done) (hn : 0 < n) (hmax : (done.length + n : ℕ) ≤ maxBody)
    (hint : maxBody < 2 ^ 63)
    (hline : parseInt16 (line.takeWhile (· != 59)) = some (n : ℤ)) :
    ∃ buf lost', chunkLine maxBody resp done.length line
        = .data { resp with bodyBuf := buf } (done.length + n) ∧
      Stored { resp with bodyBuf := buf } lost' done ∧ done.length + n ≤ buf.length ∧
      ∀ ns, lostPrefix resp.bodyBuf.length done.length lost (n :: ns)
        = lostPrefix buf.length (done.length + n) lost' ns := by
  obtain ⟨buf, lost', hensure, hstored, hlen, hlost⟩ := h.grow n
  refine ⟨buf, lost', ?_, hstored, hlen, hlost⟩
  have hwrap : wrap64 ((done.length : ℤ) + n) = (done.length + n : ℕ) := by
    rw [wrap64_eq (by omega) (by omega)]
    omega
  rw [chunkLine, hline]
  dsimp only
  rw [if_neg (by omega), if_neg (by omega), hwrap, if_neg (by omega), hensure]
  dsimp only
  rw [if_neg (by omega)]
  rfl

/-! ### The loop on an encoded body -/

/-- Reading the size line of a chunk. -/
theorem readLine_size {digits ext more : Bytes} {n : ℕ} (hval : hexValue 0 digits = some n)
    (hlen : digits.length ≤ 16) (hext : IsExtension ext) (s : ChunkReader)
    (hs : s.flat = digits ++ ext ++ CRLF ++ more) :
    ∃ line s', s.readLine [] = (.ok line, s') ∧ line.takeWhile (· != 59) = digits ∧
      s'.flat = more := by
  have hlf : LF ∉ digits ++ ext ++ [CR] := by
    have h1 := hexValue_not_mem (c := LF) (by decide) hval
    have h2 := hext.not_mem_LF
    simp [h1, h2, show LF ≠ CR by decide]
  obtain ⟨s', hread, hflat, -, -⟩ :=
    ChunkReader.readLine_line [] (digits ++ ext ++ [CR]) more hlf s (by rw [hs]; simp [CRLF])
  refine ⟨_, s', hread, ?_, hflat⟩
  have hkept := takeWhile_sizeLine (hexValue_not_mem (c := 59) (by decide) hval)
    (hexValue_not_mem (c := CR) (by decide) hval) hext
  rwa [List.take_of_length_le (show digits.length ≤ 64 by omega)] at hkept

/-- The size line of an encoded chunk. -/
theorem readLine_chunk (c : Chunk) (hn : c.data.length < 2 ^ 63) {more : Bytes} (s : ChunkReader)
    (hs : s.flat = c.wire ++ more) :
    ∃ line s', s.readLine [] = (.ok line, s') ∧
      parseInt16 (line.takeWhile (· != 59)) = some (c.data.length : ℤ) ∧
      s'.flat = c.data ++ ([CR] ++ LF :: more) := by
  have hpos : 0 < c.data.length := List.length_pos_iff.mpr c.data_ne_nil
  have hs' : s.flat = c.size ++ c.ext ++ CRLF ++ (c.data ++ ([CR] ++ LF :: more)) := by
    rw [hs]
    simp [Chunk.wire]
  obtain ⟨line, s', hread, hline, hflat⟩ :=
    readLine_size c.size_spec.1 (c.size_spec.length_le hn) c.ext_spec s hs'
  refine ⟨line, s', hread, ?_, hflat⟩
  rw [hline]
  exact parseInt16_digits c.size_spec.1 (c.size_spec.ne_nil hpos) hn

/-- One round of the loop on an encoded chunk that fits the limit. -/
theorem chunkLoop_chunk {maxBody : ℤ} (hint : maxBody < 2 ^ 63) (c : Chunk) {more : Bytes}
    {resp : Response} {lost : ℕ} {done : Bytes} (h : Stored resp lost done)
    (hmax : (done.length + c.data.length : ℕ) ≤ maxBody) (s : ChunkReader)
    (hs : s.flat = c.wire ++ more) :
    ∃ buf lost' s', chunkLoop maxBody resp done.length s
        = chunkLoop maxBody { resp with bodyBuf := buf } (done ++ c.data).length s' ∧
      Stored { resp with bodyBuf := buf } lost' (done ++ c.data) ∧ s'.flat = more ∧
      ∀ ns, lostPrefix resp.bodyBuf.length done.length lost (c.data.length :: ns)
        = lostPrefix buf.length (done ++ c.data).length lost' ns := by
  obtain ⟨line, s1, hread, hparse, hflat1⟩ := readLine_chunk c (by omega) s hs
  obtain ⟨buf, lost', hdata, hstored, hroom, hlost⟩ :=
    chunkLine_data h (List.length_pos_iff.mpr c.data_ne_nil) hmax hint hparse
  -- the data
  obtain ⟨s2, hflat2, -, -, hexact⟩ := ChunkReader.readExact_eq s1 c.data.length
  rw [hflat1, List.take_left, if_neg (by simp)] at hexact
  rw [hflat1, List.drop_left] at hflat2
  -- the line end behind it
  obtain ⟨s3, hread3, hflat3, -, -⟩ :=
    ChunkReader.readLine_line [] [CR] _ (by decide) s2 hflat2
  refine ⟨overwrite buf done.length c.data, lost', s3, ?_, hstored.append c.data hroom, hflat3, ?_⟩
  · rw [chunkLoop_eq]
    simp only [hread, chunkLoopThen, hdata]
    rw [show done.length + c.data.length - done.length = c.data.length by omega, hexact,
      List.length_append]
    simp only [chunkLoopData, hread3]
  · intro ns
    rw [hlost, overwrite_length hroom, List.length_append]

/-- The loop on the rest of an encoded body, `done` being behind it: it stops
behind the last line, with every byte before the last growth of the buffer
replaced by zero. -/
theorem chunkLoop_encoded {maxBody : ℤ} (hint : maxBody < 2 ^ 63) (ending : ChunkedMessage)
    (chunks : List Chunk) (rest : Bytes) {resp : Response} {lost : ℕ} {done : Bytes}
    (h : Stored resp lost done) {content : Bytes}
    (hcontent : content = done ++ (chunks.map Chunk.data).flatten)
    (hmax : (content.length : ℤ) ≤ maxBody) (s : ChunkReader)
    (hs : s.flat = (chunks.map Chunk.wire).flatten ++ ending.ending ++ rest) :
    ∃ buf s', chunkLoop maxBody resp done.length s
        = ((.nil, { resp with bodyBuf := buf, contentLength := content.length,
                              body := List.replicate (lostPrefix resp.bodyBuf.length done.length lost
                                        (chunks.map fun c => c.data.length)) 0
                                ++ content.drop (lostPrefix resp.bodyBuf.length done.length lost
                                        (chunks.map fun c => c.data.length)) }), s') ∧
      s'.flat = rest := by
  induction chunks generalizing resp lost done s with
  | nil =>
    rw [List.map_nil, List.flatten_nil, List.append_nil] at hcontent
    have hs' : s.flat = [48] ++ ending.lastExt ++ CRLF
        ++ ((ending.trailers.map (· ++ CRLF)).flatten ++ CRLF ++ rest) := by
      rw [hs]
      simp [ChunkedMessage.ending]
    obtain ⟨line, s', hread, hline, hflat⟩ :=
      readLine_size (n := 0) (by decide) (by decide) ending.lastExt_spec s hs'
    refine ⟨resp.bodyBuf, s'.drainTrailers, ?_,
      drainTrailers_lines _ ending.trailers_spec rest s' hflat⟩
    have hlast : chunkLine maxBody resp done.length line = .last := by
      rw [chunkLine, hline]
      rfl
    rw [chunkLoop_eq]
    simp only [hread, chunkLoopThen, hlast, h.front, hcontent]
    rfl
  | cons c chunks ih =>
    have hcontent' : content = (done ++ c.data) ++ (chunks.map Chunk.data).flatten := by
      rw [hcontent]
      simp
    have hlen : done.length + c.data.length ≤ content.length := by
      rw [hcontent', List.length_append, List.length_append]
      omega
    have hs' : s.flat = c.wire ++ ((chunks.map Chunk.wire).flatten ++ ending.ending ++ rest) := by
      rw [hs]
      simp
    obtain ⟨buf, lost', s1, hround, hstored, hflat, hlost⟩ :=
      chunkLoop_chunk hint c h (by omega) s hs'
    obtain ⟨buf', s', hloop, hrest⟩ := ih hstored hcontent' s1 hflat
    refine ⟨buf', s', ?_, hrest⟩
    rw [hround, List.map_cons, hlost]
    exact hloop

/-! ### The parsers on an encoded body -/

section

variable {m : ChunkedMessage} {maxBody : ℤ} {method head : Bytes} {status : ℕ} {resp : Response}

/-- The number of bytes of `m` that are lost when it is read into `resp`. -/
def ChunkedMessage.lost (m : ChunkedMessage) (resp : Response) : ℕ :=
  lostPrefix resp.bodyBuf.length 0 0 (m.chunks.map fun c => c.data.length)

/-- The body the decoder returns for `m`. -/
def ChunkedMessage.decoded (m : ChunkedMessage) (resp : Response) : Bytes :=
  List.replicate (m.lost resp) 0 ++ m.content.drop (m.lost resp)

/-- The body reader on an encoded body, wherever the leftover bytes end. -/
theorem readChunkedBody_encoded (hint : maxBody < 2 ^ 63) (hmax : (m.content.length : ℤ) ≤ maxBody)
    (leftover : Bytes) (resp : Response) (hsize : resp.maxSize = 0) {rest : Bytes} {r : Reader}
    (hflat : leftover ++ r.flat = m.wire ++ rest) :
    ∃ buf r', readChunkedBody r leftover resp maxBody
      = ((.nil, { resp with bodyBuf := buf, contentLength := m.content.length,
                            body := m.decoded resp }), r') := by
  have hstored : Stored resp 0 [] := ⟨hsize, Nat.zero_le _, le_rfl, by simp⟩
  obtain ⟨buf, s', hloop, -⟩ := chunkLoop_encoded hint m m.chunks rest hstored
    (List.nil_append m.content).symm hmax ⟨leftover, r⟩
    (by rw [show ChunkReader.flat ⟨leftover, r⟩ = leftover ++ r.flat from rfl, hflat]; rfl)
  refine ⟨buf, s'.r, ?_⟩
  rw [readChunkedBody, show chunkLoop maxBody resp 0 ⟨leftover, r⟩ = _ from hloop]
  rfl

/-- What `readResponse` makes of a chunked response. -/
theorem readResponse_chunked (hint : maxBody < 2 ^ 63) (hmax : (m.content.length : ℤ) ≤ maxBody)
    (hsize : resp.maxSize = 0) (hhead : headEnd head = some head.length)
    (hframe : framing method head = .chunked status) {bufLen headerReadSize : ℕ}
    (hfits : head.length ≤ bufLen) (hread : 0 < headerReadSize) (bodyReadSize : ℕ)
    {rest : Bytes} {r : Reader} (hr : r.flat = head ++ (m.wire ++ rest)) :
    (readResponse r bufLen resp maxBody method headerReadSize bodyReadSize).1.1 = .nil ∧
    (readResponse r bufLen resp maxBody method headerReadSize bodyReadSize).1.2.visible
      = ((status : ℤ), headerList head, m.decoded resp, (m.content.length : ℤ)) := by
  have hat : headAt bufLen r.flat = some (head, m.wire ++ rest) :=
    headAt_of_front hhead hfits hr
  obtain ⟨leftover, r', hhdr, hflat, -, -⟩ :=
    readResponse_head hat resp maxBody method hread bodyReadSize
  obtain ⟨buf, r'', hbody⟩ := readChunkedBody_encoded hint hmax leftover { resp with
    statusCode := status, rawHeaderBuf := head, headers := headerList head } hsize hflat
  rw [hhdr, readBody, hframe]
  dsimp only
  rw [parseHeaders_of_head hhead, hbody]
  exact ⟨rfl, rfl⟩

/-- What `readResponseBuffered` makes of a chunked response that is not
compressed. -/
theorem readResponseBuffered_chunked (gunzip : Bytes → Gunzip) (hint : maxBody < 2 ^ 63)
    (hmax : (m.content.length : ℤ) ≤ maxBody) (hsize : resp.maxSize = 0)
    (hhead : headEnd head = some head.length) (hframe : framing method head = .chunked status)
    (hplain : isGzip (headerList head) = false) {scratchLen : ℕ} (hfits : head.length ≤ scratchLen)
    {rest : Bytes} {br : Reader} (hbr : br.flat = head ++ (m.wire ++ rest)) :
    (readResponseBuffered gunzip scratchLen resp maxBody method br).1.1 = .nil ∧
    (readResponseBuffered gunzip scratchLen resp maxBody method br).1.2.visible
      = ((status : ℤ), headerList head, m.decoded resp, (m.content.length : ℤ)) := by
  have hat : headAt scratchLen br.flat = some (head, m.wire ++ rest) :=
    headAt_of_front hhead hfits hbr
  obtain ⟨br', hhdr, hflat, -, -⟩ := readResponseBuffered_head hat gunzip resp maxBody method
  obtain ⟨buf, br'', hbody⟩ := readChunkedBody_encoded hint hmax [] { resp with
    statusCode := status, rawHeaderBuf := head, headers := headerList head } hsize hflat
  have hnot : ∀ resp' : Response, resp'.headers = headerList head →
      decompressBody gunzip resp' = (.nil, resp') := by
    intro resp' h
    unfold decompressBody
    split
    · rfl
    · rw [h, hplain, if_pos (by rfl)]
  rw [hhdr, readBodyBuffered, hframe]
  dsimp only
  rw [parseHeaders_of_head hhead, hbody, thenDecompress, hnot _ rfl]
  exact ⟨rfl, rfl⟩

end

/-- No more bytes are lost than there are. -/
theorem lostPrefix_le (len : ℕ) {bodyLen lost : ℕ} (h : lost ≤ bodyLen) (ns : List ℕ) :
    lostPrefix len bodyLen lost ns ≤ bodyLen + ns.sum := by
  induction ns generalizing len bodyLen lost with
  | nil => exact h
  | cons n ns ih =>
    rw [lostPrefix, List.sum_cons, ← Nat.add_assoc]
    split
    · exact ih _ (by omega)
    · exact ih _ (by omega)

theorem ChunkedMessage.lost_le (m : ChunkedMessage) (resp : Response) :
    m.lost resp ≤ m.content.length := by
  have h := lostPrefix_le resp.bodyBuf.length (le_refl 0) (m.chunks.map fun c => c.data.length)
  rw [Nat.zero_add] at h
  rw [content, List.length_flatten, List.map_map]
  exact h

/-- Losing the first bytes changes nothing exactly when they are zero. -/
theorem replicate_append_drop_eq_iff {n : ℕ} {l : Bytes} (hle : n ≤ l.length) :
    List.replicate n 0 ++ l.drop n = l ↔ ∀ b ∈ l.take n, b = 0 := by
  have hlen : (l.take n).length = n := by rw [List.length_take, min_eq_left hle]
  constructor
  · intro h b hb
    have htake := congrArg (List.take n) h
    rw [List.take_left' List.length_replicate] at htake
    rw [← htake] at hb
    exact List.eq_of_mem_replicate hb
  · intro h
    have hzero : l.take n = List.replicate n 0 := List.eq_replicate_iff.mpr ⟨hlen, h⟩
    rw [← hzero, List.take_append_drop]

/-- The decoder returns what was encoded exactly when the bytes it loses are
zero. -/
theorem ChunkedMessage.decoded_eq_iff (m : ChunkedMessage) (resp : Response) :
    m.decoded resp = m.content ↔ ∀ b ∈ m.content.take (m.lost resp), b = 0 :=
  replicate_append_drop_eq_iff (m.lost_le resp)

/-- Both parsers accept every chunked response; they return what was encoded
exactly when every byte before the chunk that last made the buffer grow is
zero. -/
theorem chunked_roundtrip_iff (gunzip : Bytes → Gunzip) {m : ChunkedMessage} {maxBody : ℤ}
    (hint : maxBody < 2 ^ 63) (hmax : (m.content.length : ℤ) ≤ maxBody) {resp : Response}
    (hsize : resp.maxSize = 0) {method head : Bytes} {status : ℕ}
    (hhead : headEnd head = some head.length) (hframe : framing method head = .chunked status)
    (hplain : isGzip (headerList head) = false) {bufLen headerReadSize : ℕ}
    (hfits : head.length ≤ bufLen) (hread : 0 < headerReadSize) (bodyReadSize : ℕ)
    {rest : Bytes} {r br : Reader} (hr : r.flat = head ++ (m.wire ++ rest))
    (hbr : br.flat = head ++ (m.wire ++ rest)) :
    (((readResponse r bufLen resp maxBody method headerReadSize bodyReadSize).1.1 = .nil ∧
      (readResponse r bufLen resp maxBody method headerReadSize bodyReadSize).1.2.body = m.content ∧
      (readResponse r bufLen resp maxBody method headerReadSize bodyReadSize).1.2.contentLength
        = m.content.length) ∧
     ((readResponseBuffered gunzip bufLen resp maxBody method br).1.1 = .nil ∧
      (readResponseBuffered gunzip bufLen resp maxBody method br).1.2.body = m.content ∧
      (readResponseBuffered gunzip bufLen resp maxBody method br).1.2.contentLength
        = m.content.length)) ↔
    ∀ b ∈ m.content.take (m.lost resp), b = 0 := by
  obtain ⟨hnil, hvis⟩ :=
    readResponse_chunked hint hmax hsize hhead hframe hfits hread bodyReadSize hr
  obtain ⟨hnilB, hvisB⟩ :=
    readResponseBuffered_chunked gunzip hint hmax hsize hhead hframe hplain hfits hbr
  simp only [Response.visible, Prod.mk.injEq] at hvis hvisB
  obtain ⟨-, -, hbody, hlen⟩ := hvis
  obtain ⟨-, -, hbodyB, hlenB⟩ := hvisB
  rw [← m.decoded_eq_iff resp, hbody, hbodyB]
  exact ⟨fun h => h.1.2.1, fun h => ⟨⟨hnil, h, hlen⟩, hnilB, h, hlenB⟩⟩

/-- Two chunks of one byte, the second with an extension. -/
def abMessage : ChunkedMessage where
  chunks :=
    [⟨ascii "a", ascii "1", [], by decide, by decide, by decide⟩,
     ⟨ascii "b", ascii "1", ascii ";x", by decide, by decide, by decide⟩]
  lastExt := []
  trailers := [ascii "t: u"]
  lastExt_spec := by decide
  trailers_spec := by decide

def abHead : Bytes := ascii "HTTP/1.1 200 OK\r\nTransfer-Encoding: chunked\r\n\r\n"

theorem abWire_flat : Feed.flat (.ofSegs [abHead, abMessage.wire] GoErr.eof)
    = abHead ++ (abMessage.wire ++ []) :=
  (Feed.ofSegs_delivers [abHead, abMessage.wire] GoErr.eof).flat

theorem abHead_spec : headEnd abHead = some abHead.length ∧
    framing (ascii "GET") abHead = .chunked 200 ∧ abHead.length ≤ 64 := by
  decide +kernel

/-- A buffer of two bytes is large enough for both chunks. -/
theorem chunked_roundtrip_ab :
    (readResponse (.ofSegs [abHead, abMessage.wire] .eof) 64 ⟨0, 0, [], [], [7, 7], 0, []⟩ 10
        (ascii "GET") 16 16).1.2.body = abMessage.content := by
  obtain ⟨hhead, hframe, hlen⟩ := abHead_spec
  have hiff := chunked_roundtrip_iff (m := abMessage) (fun _ => .data [])
    (show (10 : ℤ) < 2 ^ 63 by decide) (by decide) (show Response.maxSize ⟨0, 0, [], [], [7, 7], 0, []⟩ = 0 from rfl)
    hhead hframe (by decide +kernel) hlen (show 0 < 16 by decide) 16 abWire_flat abWire_flat
  exact (hiff.mpr (by decide +kernel)).1.2.1

/-- With a buffer of one byte the second chunk makes it grow, and the first byte
of the body is lost. -/
theorem chunked_ab_lost :
    (readResponse (.ofSegs [abHead, abMessage.wire] .eof) 64 ⟨0, 0, [], [], [7], 0, []⟩ 10
        (ascii "GET") 16 16).1.1 = .nil ∧
    (readResponse (.ofSegs [abHead, abMessage.wire] .eof) 64 ⟨0, 0, [], [], [7], 0, []⟩ 10
        (ascii "GET") 16 16).1.2.body = [0, 98] ∧
    (readResponseBuffered (fun _ => .data []) 64 ⟨0, 0, [], [], [7], 0, []⟩ 10 (ascii "GET")
        (.ofSegs [abHead, abMessage.wire] .eof)).1.2.body = [0, 98] ∧
    abMessage.content = [97, 98] := by
  obtain ⟨hhead, hframe, hlen⟩ := abHead_spec
  have hdec : abMessage.decoded ⟨0, 0, [], [], [7], 0, []⟩ = [0, 98] := by decide +kernel
  obtain ⟨hnil, hvis⟩ := readResponse_chunked (m := abMessage) (show (10 : ℤ) < 2 ^ 63 by decide)
    (by decide) (show Response.maxSize ⟨0, 0, [], [], [7], 0, []⟩ = 0 from rfl) hhead hframe
    hlen (show 0 < 16 by decide) 16 abWire_flat
  obtain ⟨-, hvisB⟩ := readResponseBuffered_chunked (m := abMessage) (fun _ => .data [])
    (show (10 : ℤ) < 2 ^ 63 by decide) (by decide)
    (show Response.maxSize ⟨0, 0, [], [], [7], 0, []⟩ = 0 from rfl) hhead hframe (by decide +kernel)
    hlen abWire_flat
  simp only [Response.visible, Prod.mk.injEq, hdec] at hvis hvisB
  exact ⟨hnil, hvis.2.2.1, hvisB.2.2.1, by decide +kernel⟩

end BurstHttp
