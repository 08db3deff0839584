/-
How large a delivered body can be.

A body *fits* when `ContentLength` is its length and it is within
`MaxResponseBodySize`.  All three framings keep to that, also where a read fails;
the one thing that does not is `decompressBody`, whose output nobody measures once
`Reset` has cleared `maxSize`.

* `chunkLoop_fits`, `untilEOFLoop_fits`, `readSized_fits`, `readResponse_fits` —
  what is read fits;
* `decompressBody_fits_iff` — what is decoded fits unless the decoder inflates it;
* `delivered_fits_iff` — a response that is delivered, in either mode, fits unless
  it came as a complete gzip body that the decoder inflates.
-/
import BurstHttp.FailedReads

namespace BurstHttp

namespace Response

/-- `ContentLength` is the length of the body, which is within the limit. -/
def Fits (maxBody : ℤ) (r : Response) : Prop :=
  r.contentLength = r.body.length ∧ (r.body.length : ℤ) ≤ maxBody

instance (maxBody : ℤ) (r : Response) : Decidable (r.Fits maxBody) :=
  inferInstanceAs (Decidable (_ ∧ _))

/-- A response without a body, as `Reset` leaves it; what the buffer holds does not
matter. -/
structure Blank (r : Response) : Prop where
  contentLength : r.contentLength = 0
  body : r.body = []
  maxSize : r.maxSize = 0

/-- The body is there, declared as gzip, and decoded to more than the limit. -/
def Inflates (gunzip : Bytes → Gunzip) (maxBody : ℤ) (r : Response) : Prop :=
  r.body ≠ [] ∧ isGzip r.headers = true ∧
    ∃ data, gunzip r.body = .data data ∧ maxBody < data.length

theorem reset_blank (r : Response) : r.reset.Blank := ⟨rfl, rfl, rfl⟩

theorem Blank.fits {r : Response} (h : r.Blank) {maxBody : ℤ} (hmax : 0 < maxBody) :
    r.Fits maxBody := by
  refine ⟨?_, ?_⟩
  · rw [h.contentLength, h.body]
    rfl
  · rw [h.body]
    exact hmax.le

theorem Blank.withBuf {r : Response} (h : r.Blank) (buf : Bytes) :
    { r with bodyBuf := buf }.Blank := ⟨h.contentLength, h.body, h.maxSize⟩

theorem Blank.withStatus {r : Response} (h : r.Blank) (status : ℤ) :
    { r with statusCode := status }.Blank := ⟨h.contentLength, h.body, h.maxSize⟩

theorem Blank.withLength {r : Response} (h : r.Blank) {length : ℤ} (hzero : length = 0) :
    { r with contentLength := length }.Blank := ⟨hzero, h.body, h.maxSize⟩

theorem Blank.ensureBufferSize {r : Response} (h : r.Blank) (required : ℤ) :
    (r.ensureBufferSize required).2.Blank := by
  obtain ⟨buf, hframe⟩ := r.ensureBufferSize_frame required
  rw [hframe]
  exact h.withBuf buf

/-- Without a `maxSize` every size is granted. -/
theorem ensureBufferSize_unlimited {r : Response} (h : r.maxSize = 0) (required : ℤ) :
    (r.ensureBufferSize required).1 = true := by
  by_cases hfits : required ≤ r.bodyBuf.length
  · rw [ensureBufferSize_fits hfits]
  · rw [ensureBufferSize_grow h (by omega)]

end Response

theorem parseHeaders_frame (head : Bytes) (resp : Response) :
    ∃ raw headers, parseHeaders head resp = { resp with rawHeaderBuf := raw, headers := headers } := by
  unfold parseHeaders
  dsimp only
  split
  · exact ⟨_, _, rfl⟩
  · exact ⟨_, _, rfl⟩
  · exact ⟨_, _, rfl⟩

theorem Response.Blank.declared {resp : Response} (h : resp.Blank) (head : Bytes)
    (status length : ℤ) :
    (parseHeaders head
        { resp with statusCode := status, contentLength := length }).contentLength = length ∧
      (parseHeaders head
        { resp with statusCode := status, contentLength := length }).maxSize = 0 := by
  obtain ⟨raw, headers, hframe⟩ :=
    parseHeaders_frame head { resp with statusCode := status, contentLength := length }
  rw [hframe]
  exact ⟨rfl, h.maxSize⟩

theorem Response.Blank.parseHeaders {resp : Response} (h : resp.Blank) (head : Bytes) :
    (BurstHttp.parseHeaders head resp).Blank := by
  obtain ⟨raw, headers, hframe⟩ := parseHeaders_frame head resp
  rw [hframe]
  exact ⟨h.contentLength, h.body, h.maxSize⟩

/-- A body that is the front of the buffer. -/
theorem fits_take {resp : Response} {n : ℕ} {maxBody : ℤ} (hlen : n ≤ resp.bodyBuf.length)
    (hle : (n : ℤ) ≤ maxBody) :
    { resp with contentLength := n, body := resp.bodyBuf.take n }.Fits maxBody := by
  have htake : (resp.bodyBuf.take n).length = n := by rw [List.length_take, min_eq_left hlen]
  refine ⟨?_, ?_⟩
  · show (n : ℤ) = (resp.bodyBuf.take n).length
    rw [htake]
  · show ((resp.bodyBuf.take n).length : ℤ) ≤ maxBody
    rw [htake]
    exact hle

/-! ### The body readers -/

section Readers

variable {maxBody : ℤ} (hmax : 0 < maxBody)
include hmax

/-- A chunk that is accepted brings the body to a length within the limit, and the buffer is
large enough for it. -/
theorem chunkLine_bounds {resp : Response} (h : resp.Blank) (bodyLen : ℕ) (line : Bytes) :
    (∀ ret resp', chunkLine maxBody resp bodyLen line = .fail ret resp' → resp'.Blank) ∧
    ∀ resp' n, chunkLine maxBody resp bodyLen line = .data resp' n →
      resp'.Blank ∧ bodyLen ≤ n ∧ n ≤ resp'.bodyBuf.length ∧ (n : ℤ) ≤ maxBody := by
  unfold chunkLine
  rcases parseInt16 (line.takeWhile (· != 59)) with _ | chunkSize
  · simp [h]
  dsimp only
  have hblank := h.ensureBufferSize (wrap64 (bodyLen + chunkSize))
  have hroom := resp.ensureBufferSize_le (wrap64 (bodyLen + chunkSize))
  rcases hens : resp.ensureBufferSize (wrap64 (bodyLen + chunkSize)) with ⟨_ | _, resp'⟩
  · rw [hens] at hblank
    dsimp only at hblank ⊢
    split_ifs
    · simp [h]
    · simp
    · simp [h]
    · simp [hblank]
  · rw [hens] at hblank hroom
    have hroom := hroom rfl
    dsimp only at hroom hblank ⊢
    split_ifs
    · simp [h]
    · simp
    · simp [h]
    · simp [hblank]
    · refine ⟨by simp, ?_⟩
      intro resp'' n hdata
      obtain ⟨rfl, rfl⟩ := ChunkLine.data.inj hdata
      exact ⟨hblank, by omega, by omega, by omega⟩

theorem chunkLoop_fits {resp : Response} (h : resp.Blank) {bodyLen : ℕ}
    (hlen : bodyLen ≤ resp.bodyBuf.length) (hle : (bodyLen : ℤ) ≤ maxBody) (s : ChunkReader) :
    (chunkLoop maxBody resp bodyLen s).1.2.Fits maxBody ∧
      (chunkLoop maxBody resp bodyLen s).1.2.maxSize = 0 := by
  induction hn : s.flat.length using Nat.strong_induction_on generalizing resp bodyLen s with
  | _ n ih =>
    rw [chunkLoop_eq]
    dsimp only
    rcases hread : s.readLine [] with ⟨_ | line, s1⟩
    · exact ⟨h.fits hmax, h.maxSize⟩
    obtain ⟨hfail, hdata⟩ := chunkLine_bounds hmax h bodyLen line
    unfold chunkLoopThen
    dsimp only
    rcases hline : chunkLine maxBody resp bodyLen line with ⟨ret, resp'⟩ | _ | ⟨resp', bodyLen'⟩
    · have hblank := hfail ret resp' hline
      exact ⟨hblank.fits hmax, hblank.maxSize⟩
    · exact ⟨fits_take hlen hle, h.maxSize⟩
    · obtain ⟨hblank, hgrow, hlen', hle'⟩ := hdata resp' bodyLen' hline
      have hlt := ChunkReader.round_flat_lt hread (bodyLen' - bodyLen)
      obtain ⟨s2, -, -, -, hexact⟩ := s1.readExact_eq (bodyLen' - bodyLen)
      -- the data lies inside the buffer, so the buffer keeps its length
      have hkeep : (overwrite resp'.bodyBuf bodyLen (s1.readExact (bodyLen' - bodyLen)).1).length
          = resp'.bodyBuf.length := by
        apply overwrite_length
        rw [hexact, List.length_take]
        omega
      unfold chunkLoopData
      dsimp only
      split
      · exact ⟨(hblank.withBuf _).fits hmax, hblank.maxSize⟩
      · exact ih _ (hn ▸ hlt) (hblank.withBuf _) (by rw [hkeep]; exact hlen') hle' _ rfl

/-- Before a read of a body that ends with the stream: there is room for what is asked for,
within the limit. -/
theorem untilEOFStep_bounds {resp : Response} (h : resp.Blank) (bodyReadSize offset : ℕ)
    (hlen : offset ≤ resp.bodyBuf.length) :
    (untilEOFStep maxBody bodyReadSize resp offset).resp.Blank ∧
    (∀ resp', untilEOFStep maxBody bodyReadSize resp offset = .stop resp' →
      offset ≤ resp'.bodyBuf.length ∧ (offset : ℤ) ≤ maxBody) ∧
    ∀ resp' n, untilEOFStep maxBody bodyReadSize resp offset = .read resp' n →
      offset + n ≤ resp'.bodyBuf.length ∧ ((offset + n : ℕ) : ℤ) ≤ maxBody := by
  unfold untilEOFStep
  by_cases hfull : 0 < maxBody ∧ maxBody ≤ offset
  · rw [if_pos hfull]
    exact ⟨h, by simp, by simp⟩
  rw [if_neg hfull]
  dsimp only
  generalize (if 0 < maxBody ∧ maxBody < offset + bodyReadSize then maxBody
    else (offset + bodyReadSize : ℤ)) = required
  have hblank := h.ensureBufferSize required
  have hgrown : resp.bodyBuf.length ≤ (resp.ensureBufferSize required).2.bodyBuf.length := by
    have hroom := resp.ensureBufferSize_le required
      (Response.ensureBufferSize_unlimited h.maxSize required)
    by_cases hfits : required ≤ resp.bodyBuf.length
    · rw [Response.ensureBufferSize_fits hfits]
    · omega
  generalize resp.ensureBufferSize required = x at hblank hgrown ⊢
  generalize htoRead : min ((x.2.bodyBuf.length : ℤ) - offset) bodyReadSize = toRead
  split_ifs
  · exact ⟨hblank, by simp, by simp⟩
  · exact ⟨hblank, fun resp' hstop => UntilEOFStep.stop.inj hstop ▸ ⟨by omega, by omega⟩, by simp⟩
  · refine ⟨hblank, by simp, ?_⟩
    intro resp' n hread
    obtain ⟨rfl, rfl⟩ := UntilEOFStep.read.inj hread
    exact ⟨by omega, by omega⟩
  · exact ⟨hblank, fun resp' hstop => UntilEOFStep.stop.inj hstop ▸ ⟨by omega, by omega⟩, by simp⟩
  · refine ⟨hblank, by simp, ?_⟩
    intro resp' n hread
    obtain ⟨rfl, rfl⟩ := UntilEOFStep.read.inj hread
    exact ⟨by omega, by omega⟩

theorem untilEOFLoop_fits {resp : Response} (h : resp.Blank) (bodyReadSize : ℕ) {offset : ℕ}
    (hlen : offset ≤ resp.bodyBuf.length) (r : Reader) :
    (untilEOFLoop maxBody bodyReadSize resp offset r).1.2.Fits maxBody ∧
      (untilEOFLoop maxBody bodyReadSize resp offset r).1.2.maxSize = 0 := by
  induction hn : r.flat.length using Nat.strong_induction_on generalizing resp offset r with
  | _ n ih =>
    obtain ⟨hblank, hstop, hread⟩ := untilEOFStep_bounds hmax h bodyReadSize offset hlen
    rw [untilEOFLoop]
    rcases hstep : untilEOFStep maxBody bodyReadSize resp offset with resp' | resp' | ⟨resp', toRead⟩
    · rw [hstep] at hblank
      exact ⟨hblank.fits hmax, hblank.maxSize⟩
    · rw [hstep] at hblank
      obtain ⟨hlen', hle'⟩ := hstop resp' hstep
      exact ⟨fits_take hlen' hle', hblank.maxSize⟩
    · rw [hstep] at hblank
      obtain ⟨hlen', hle'⟩ := hread resp' toRead hstep
      have hdone : (untilEOFDone resp' offset).Fits maxBody := fits_take (by omega) (by omega)
      dsimp only
      split
      · split
        · exact ⟨hdone, hblank.maxSize⟩
        · exact ⟨hblank.fits hmax, hblank.maxSize⟩
      · exact ⟨hdone, hblank.maxSize⟩
      · rename_i b bs r' hgot
        have hshort := Feed.read_length_le hgot
        rw [List.length_cons] at hshort
        have hkeep : (overwrite resp'.bodyBuf offset (b :: bs)).length = resp'.bodyBuf.length := by
          apply overwrite_length
          rw [List.length_cons]
          omega
        exact ih _ (hn ▸ Feed.read_flat_lt hgot) (hblank.withBuf _) (by rw [hkeep]; omega) _ rfl

theorem readResponseUntilEOF_fits {resp : Response} (h : resp.Blank) (r : Reader)
    (head leftover : Bytes) (bodyReadSize : ℕ) :
    (readResponseUntilEOF r head leftover resp maxBody bodyReadSize).1.2.Fits maxBody ∧
      (readResponseUntilEOF r head leftover resp maxBody bodyReadSize).1.2.maxSize = 0 := by
  unfold readResponseUntilEOF
  dsimp only
  have hhead : (parseHeaders head { resp with statusCode := (parseStatusCode head).1 }).Blank :=
    (h.withStatus _).parseHeaders head
  generalize parseHeaders head { resp with statusCode := (parseStatusCode head).1 } = resp₁ at hhead ⊢
  split
  · have hroom := resp₁.ensureBufferSize_le leftover.length
      (Response.ensureBufferSize_unlimited hhead.maxSize _)
    rw [if_pos (Response.ensureBufferSize_unlimited hhead.maxSize _)]
    refine untilEOFLoop_fits hmax ((hhead.ensureBufferSize _).withBuf _) _ ?_ r
    show leftover.length ≤ (overwrite _ 0 leftover).length
    rw [overwrite_length (by omega)]
    omega
  · exact untilEOFLoop_fits hmax hhead _ (Nat.zero_le _) r

omit hmax in
/-- The buffer that `ensureBufferSize` gives for a body of declared length. -/
theorem sized_buffer {resp : Response} {length : ℤ} (hlength : resp.contentLength = length)
    (hsize : resp.maxSize = 0) :
    ∃ resp', resp.ensureBufferSize length = (true, resp') ∧ resp'.contentLength = length ∧
      resp'.maxSize = 0 ∧ length ≤ resp'.bodyBuf.length := by
  have hgrant := Response.ensureBufferSize_unlimited hsize length
  have hroom := resp.ensureBufferSize_le length hgrant
  obtain ⟨buf, hframe⟩ := resp.ensureBufferSize_frame length
  refine ⟨(resp.ensureBufferSize length).2, Prod.ext hgrant rfl, ?_, ?_, hroom⟩
  · rw [hframe]
    exact hlength
  · rw [hframe]
    exact hsize

omit hmax in
/-- A body of declared length, whether all of it has arrived or not. -/
theorem fits_sized {resp : Response} {length : ℤ} (hlength : resp.contentLength = length)
    (hnonneg : 0 ≤ length) (hle : length ≤ maxBody) (hroom : length ≤ resp.bodyBuf.length)
    {data : Bytes} (hdata : data.length ≤ length.toNat) :
    { resp with
      bodyBuf := overwrite resp.bodyBuf 0 data
      body := (overwrite resp.bodyBuf 0 data).take length.toNat }.Fits maxBody := by
  have hkeep : (overwrite resp.bodyBuf 0 data).length = resp.bodyBuf.length :=
    overwrite_length (by omega)
  have htake : ((overwrite resp.bodyBuf 0 data).take length.toNat).length = length.toNat := by
    rw [List.length_take, hkeep]
    omega
  refine ⟨?_, ?_⟩
  · show resp.contentLength = ((overwrite resp.bodyBuf 0 data).take length.toNat).length
    omega
  · show (((overwrite resp.bodyBuf 0 data).take length.toNat).length : ℤ) ≤ maxBody
    omega

theorem readSized_fits {resp : Response} {length : ℤ} (hlength : resp.contentLength = length)
    (hsize : resp.maxSize = 0) (hle : length ≤ maxBody) (r : Reader) (leftover : Bytes)
    (bodyReadSize : ℕ) (hpanic : (readSized r leftover resp length bodyReadSize).1.1 ≠ .panic) :
    (readSized r leftover resp length bodyReadSize).1.2.Fits maxBody ∧
      (readSized r leftover resp length bodyReadSize).1.2.maxSize = 0 := by
  obtain ⟨resp', hens, hcl, hms, hroom⟩ := sized_buffer hlength hsize
  unfold readSized at hpanic ⊢
  by_cases hzero : length = 0
  · rw [if_pos hzero]
    exact ⟨⟨hlength.trans hzero, hmax.le⟩, hsize⟩
  rw [if_neg hzero, hens] at hpanic ⊢
  dsimp only at hpanic ⊢
  by_cases hneg : length < 0
  · rw [if_pos hneg] at hpanic
    exact absurd rfl hpanic
  rw [if_neg hneg]
  obtain ⟨r', -, -, -, hfill⟩ := Feed.fill_eq GoErr.eof
    (show 0 < (if bodyReadSize = 0 then 65536 else bodyReadSize) by split <;> omega) r
    (length.toNat - (leftover.take length.toNat).length)
  rw [hfill]
  dsimp only
  have hshort : (leftover.take length.toNat ++
      r.flat.take (length.toNat - (leftover.take length.toNat).length)).length ≤ length.toNat := by
    rw [List.length_append, List.length_take, List.length_take]
    omega
  have hfits := fits_sized hcl (by omega) hle hroom hshort
  split
  · exact ⟨hfits, hms⟩
  · exact ⟨hfits, hms⟩

theorem readBody_fits {resp : Response} (h : resp.Blank) (r : Reader) (head leftover method : Bytes)
    (bodyReadSize : ℕ)
    (hpanic : (readBody r head leftover resp maxBody method bodyReadSize).1.1 ≠ .panic) :
    (readBody r head leftover resp maxBody method bodyReadSize).1.2.Fits maxBody ∧
      (readBody r head leftover resp maxBody method bodyReadSize).1.2.maxSize = 0 := by
  unfold readBody at hpanic ⊢
  rcases hf : framing method head with _ | status | status | status | ⟨status, length⟩
  · exact ⟨h.fits hmax, h.maxSize⟩
  · have hblank := ((h.withStatus status).withLength rfl).parseHeaders head
    exact ⟨⟨hblank.contentLength, hmax.le⟩, hblank.maxSize⟩
  · exact chunkLoop_fits hmax ((h.withStatus status).parseHeaders head) (Nat.zero_le _) hmax.le _
  · exact readResponseUntilEOF_fits hmax h r head leftover bodyReadSize
  · rw [hf] at hpanic
    dsimp only at hpanic ⊢
    by_cases hbig : maxBody < length
    · rw [if_pos hbig]
      exact ⟨h.fits hmax, h.maxSize⟩
    · rw [if_neg hbig] at hpanic ⊢
      obtain ⟨hlength, hsize⟩ := h.declared head status length
      exact readSized_fits hmax hlength hsize (by omega) r leftover bodyReadSize hpanic

theorem readResponse_fits {resp : Response} (h : resp.Blank) (r : Reader) (bufLen : ℕ)
    (method : Bytes) (headerReadSize bodyReadSize : ℕ)
    (hpanic : (readResponse r bufLen resp maxBody method headerReadSize bodyReadSize).1.1 ≠ .panic) :
    (readResponse r bufLen resp maxBody method headerReadSize bodyReadSize).1.2.Fits maxBody ∧
      (readResponse r bufLen resp maxBody method headerReadSize bodyReadSize).1.2.maxSize = 0 := by
  unfold readResponse at hpanic ⊢
  rcases hhead : readHeader bufLen (min headerReadSize bufLen) [] r with ⟨_ | ⟨headerEnd, buf⟩, r'⟩
  · exact ⟨h.fits hmax, h.maxSize⟩
  · rw [hhead] at hpanic
    exact readBody_fits hmax h r' _ _ method bodyReadSize hpanic

end Readers

/-! ### Decoding on top -/

/-- A complete response that the decoder inflates. -/
def Inflated (gunzip : Bytes → Gunzip) (maxBody : ℤ) (x : Ret × Response) : Prop :=
  x.1 = .nil ∧ x.2.Inflates gunzip maxBody

/-- Nothing but the decoder makes a body too large. -/
theorem decompressBody_fits_iff (gunzip : Bytes → Gunzip) {maxBody : ℤ} {resp : Response}
    (hfits : resp.Fits maxBody) (hsize : resp.maxSize = 0) :
    (decompressBody gunzip resp).2.Fits maxBody ↔ ¬resp.Inflates gunzip maxBody := by
  unfold decompressBody Response.Inflates
  by_cases hempty : resp.body.length = 0
  · rw [if_pos hempty]
    simp [List.length_eq_zero_iff.mp hempty, hfits]
  rw [if_neg hempty]
  by_cases hgzip : isGzip resp.headers = true
  · rw [hgzip]
    rcases gunzip resp.body with e | e | data
    · simp [hfits]
    · simp [hfits]
    · simp [Response.ensureBufferSize_unlimited hsize, Response.Fits,
        List.length_eq_zero_iff.not.mp hempty]
  · simp [hgzip, hfits]

/-- The decoder that leaves bodies as they are does so. -/
theorem decompressBody_data {resp : Response} (hsize : resp.maxSize = 0) :
    (decompressBody .data resp).1 = .nil ∧ (decompressBody .data resp).2.body = resp.body ∧
      (decompressBody .data resp).2.headers = resp.headers := by
  unfold decompressBody
  split
  · exact ⟨rfl, rfl, rfl⟩
  split
  · exact ⟨rfl, rfl, rfl⟩
  · obtain ⟨buf, hframe⟩ := resp.ensureBufferSize_frame resp.body.length
    simp [Response.ensureBufferSize_unlimited hsize, hframe]

/-- `f` reads a response that fits, whatever the decoder, and then decodes it. -/
structure Decodes (maxBody : ℤ) (f : (Bytes → Gunzip) → Ret × Response) (raw : Ret × Response) :
    Prop where
  eq : ∀ gunzip, f gunzip = thenDecompress gunzip raw
  fits : raw.1 ≠ .panic → raw.2.Fits maxBody ∧ raw.2.maxSize = 0

namespace Decodes

variable {maxBody : ℤ} {f : (Bytes → Gunzip) → Ret × Response} {raw : Ret × Response}

/-- With the decoder off, the response is the one that was read. -/
theorem plain (h : Decodes maxBody f raw) (hpanic : raw.1 ≠ .panic) :
    (f .data).1 = raw.1 ∧ (f .data).2.body = raw.2.body ∧ (f .data).2.headers = raw.2.headers := by
  rw [h.eq]
  obtain ⟨_ | e | _, resp⟩ := raw
  · exact decompressBody_data (h.fits hpanic).2
  · exact ⟨rfl, rfl, rfl⟩
  · exact absurd rfl hpanic

theorem panic_iff (h : Decodes maxBody f raw) (gunzip : Bytes → Gunzip) :
    (f gunzip).1 = .panic ↔ raw.1 = .panic := by
  rw [h.eq]
  obtain ⟨_ | e | _, resp⟩ := raw
  · show (decompressBody gunzip resp).1 = .panic ↔ _
    unfold decompressBody
    split
    · simp
    split
    · simp
    cases gunzip resp.body <;> simp
  · simp [thenDecompress]
  · simp [thenDecompress]

theorem statusCode (h : Decodes maxBody f raw) (gunzip : Bytes → Gunzip) :
    (f gunzip).2.statusCode = raw.2.statusCode := by
  rw [h.eq]
  exact congrArg Prod.fst (thenDecompress_shown gunzip raw)

/-- What decodes was complete. -/
theorem plain_nil (h : Decodes maxBody f raw) {gunzip : Bytes → Gunzip}
    (hnil : (f gunzip).1 = .nil) : (f .data).1 = .nil := by
  have hraw : raw.1 = .nil := by
    rw [h.eq] at hnil
    obtain ⟨_ | e | _, resp⟩ := raw
    · rfl
    · exact hnil
    · exact hnil
  rw [(h.plain (by simp [hraw])).1, hraw]

theorem fits_iff (h : Decodes maxBody f raw) (gunzip : Bytes → Gunzip)
    (hpanic : (f gunzip).1 ≠ .panic) :
    (f gunzip).2.Fits maxBody ↔ ¬Inflated gunzip maxBody (f .data) := by
  have hraw : raw.1 ≠ .panic := fun hp => hpanic ((h.panic_iff gunzip).mpr hp)
  obtain ⟨hret, hbody, hheaders⟩ := h.plain hraw
  obtain ⟨hfits, hsize⟩ := h.fits hraw
  unfold Inflated Response.Inflates
  rw [hret, hbody, hheaders, h.eq]
  obtain ⟨_ | e | _, resp⟩ := raw
  · exact (decompressBody_fits_iff gunzip hfits hsize).trans (not_congr (and_iff_right rfl).symm)
  · simpa [thenDecompress] using hfits
  · exact absurd rfl hraw

end Decodes

theorem readDecoded_decodes {maxBody : ℤ} (hmax : 0 < maxBody) {resp : Response} (h : resp.Blank)
    (r : Reader) (bufLen : ℕ) (method : Bytes) (headerReadSize bodyReadSize : ℕ) :
    Decodes maxBody
      (fun gunzip =>
        (readDecoded gunzip r bufLen resp maxBody method headerReadSize bodyReadSize).1)
      (readResponse r bufLen resp maxBody method headerReadSize bodyReadSize).1 :=
  ⟨fun _ => readDecoded_eq _ _ _ _ _ _ _ _,
    readResponse_fits hmax h r bufLen method headerReadSize bodyReadSize⟩

theorem readDecoded_reader (gunzip : Bytes → Gunzip) (r : Reader) (bufLen : ℕ) (resp : Response)
    (maxBody : ℤ) (method : Bytes) (headerReadSize bodyReadSize : ℕ) :
    (readDecoded gunzip r bufLen resp maxBody method headerReadSize bodyReadSize).2
      = (readResponse r bufLen resp maxBody method headerReadSize bodyReadSize).2 := by
  unfold readDecoded
  split
  · rename_i hread
    rw [hread]
  · rfl

theorem readSizedBuffered_decodes {maxBody : ℤ} (hmax : 0 < maxBody) {resp : Response}
    {length : ℤ} (hlength : resp.contentLength = length) (hsize : resp.maxSize = 0)
    (hle : length ≤ maxBody) (br : Reader) :
    ∃ raw, Decodes maxBody (fun gunzip => (readSizedBuffered gunzip resp length br).1) raw := by
  obtain ⟨resp', hens, hcl, hms, hroom⟩ := sized_buffer hlength hsize
  unfold readSizedBuffered
  by_cases hzero : length = 0
  · refine ⟨(.nil, { resp with body := [] }), fun gunzip => ?_, fun _ => ?_⟩
    · rw [if_pos hzero]
      exact (decompressBody_of_empty gunzip rfl).symm
    · exact ⟨⟨hlength.trans hzero, hmax.le⟩, hsize⟩
  simp only [if_neg hzero, hens]
  by_cases hneg : length < 0
  · exact ⟨(.panic, resp'), fun _ => by rw [if_pos hneg]; rfl, fun hp => absurd rfl hp⟩
  simp only [if_neg hneg]
  obtain ⟨br', -, -, -, hfill⟩ := Feed.fill_eq GoErr.eof (Nat.succ_pos length.toNat) br length.toNat
  have hfull : br.readFull .eof length.toNat = _ := hfill
  have hshort : (br.flat.take length.toNat).length ≤ length.toNat := by
    rw [List.length_take]
    omega
  have hfits := fits_sized hcl (by omega) hle hroom hshort
  simp only [hfull]
  -- `io.ReadFull` has got all of the body, or not
  by_cases hcut : br.flat.length < length.toNat
  · exact ⟨(.error _, _), fun _ => by rw [if_pos hcut]; rfl, fun _ => ⟨hfits, hms⟩⟩
  · exact ⟨(.nil, _), fun _ => by rw [if_neg hcut]; rfl, fun _ => ⟨hfits, hms⟩⟩

theorem readResponseBuffered_decodes {maxBody : ℤ} (hmax : 0 < maxBody) {resp : Response}
    (h : resp.Blank) (scratchLen : ℕ) (method : Bytes) (br : Reader) :
    ∃ raw, Decodes maxBody
      (fun gunzip => (readResponseBuffered gunzip scratchLen resp maxBody method br).1) raw := by
  unfold readResponseBuffered
  rcases readHeaderBuffered scratchLen [] br with ⟨_ | head, br'⟩
  · exact ⟨(.error _, resp), fun _ => rfl, fun _ => ⟨h.fits hmax, h.maxSize⟩⟩
  unfold readBodyBuffered
  dsimp only
  rcases framing method head with _ | status | status | status | ⟨status, length⟩
  · exact ⟨(.error _, resp), fun _ => rfl, fun _ => ⟨h.fits hmax, h.maxSize⟩⟩
  · have hblank := ((h.withStatus status).withLength rfl).parseHeaders head
    exact ⟨(.nil, _), fun gunzip => (decompressBody_of_empty gunzip rfl).symm,
      fun _ => ⟨⟨hblank.contentLength, hmax.le⟩, hblank.maxSize⟩⟩
  · exact ⟨_, fun _ => rfl, fun _ =>
      chunkLoop_fits hmax ((h.withStatus status).parseHeaders head) (Nat.zero_le _) hmax.le _⟩
  · exact ⟨_, fun _ => rfl, fun _ => readResponseUntilEOF_fits hmax h br' head [] 65536⟩
  · dsimp only
    by_cases hbig : 0 < maxBody ∧ maxBody < length
    · simp only [if_pos hbig]
      exact ⟨(.error _, resp), fun _ => rfl, fun _ => ⟨h.fits hmax, h.maxSize⟩⟩
    · simp only [if_neg hbig]
      obtain ⟨hlength, hsize⟩ := h.declared head status length
      exact readSizedBuffered_decodes hmax hlength hsize (by omega) br'

/-! ### Sequential requests -/

namespace Conn

variable (cfg : Config)

/-- What a call returns is a complete response that the decoder inflates. -/
def Inflated (gunzip : Bytes → Gunzip) (x : DoRet × Conn) : Prop :=
  ∃ plain, x.1 = .ok plain ∧ x.2.log.head?.map ParseEvent.ret = some .nil ∧
    plain.Inflates gunzip cfg.maxRespSize

/-- One response read, at a fixed clock: the decoder has a say in the response and in the
logged outcome, and in nothing else. -/
theorem readResponse_decodes (env : ReadEnv) (isFinal : Bool) (timeout : ℤ) (method : Bytes)
    {resp : Response} (h : resp.Blank) (st : TcpStream) (time : TimeCache) :
    ∃ f raw st', Decodes cfg.maxRespSize f raw ∧
      ∀ (gunzip : Bytes → Gunzip) (c : Conn), c.time = time →
        ∃ c', c.readResponse cfg gunzip env isFinal timeout method resp st = (f gunzip, st', c') ∧
          c'.time = time ∧ c'.log.head?.map ParseEvent.ret = some (f gunzip).1 := by
  have hdecodes (r : Reader) := readDecoded_decodes cfg.maxRespSize_pos h r env.bufLen method
    cfg.headerReadSize cfg.bodyReadSize
  rcases hdl : (time.readDeadline env.now timeout).bind env.setDeadline with _ | e
  · generalize hr : Feed.ofSegs
      (st.unread ++ env.arrives (time.readDeadline env.now timeout)) (env.closing (time.readDeadline env.now timeout)) = r
    refine ⟨_, _, { st with unread := (BurstHttp.readResponse r env.bufLen resp cfg.maxRespSize
      method cfg.headerReadSize cfg.bodyReadSize).2.segs }, hdecodes r, ?_⟩
    rintro gunzip c rfl
    simp only [readResponse, hdl, hr, readDecoded_reader]
    exact ⟨_, rfl, rfl, rfl⟩
  · -- the deadline cannot be set, and nothing is read
    refine ⟨_, (.error (wrapError .network "set read deadline failed" e), resp), st,
      ⟨fun _ => rfl, fun _ => ⟨h.fits cfg.maxRespSize_pos, h.maxSize⟩⟩, ?_⟩
    rintro gunzip c rfl
    simp only [readResponse, hdl]
    exact ⟨_, rfl, rfl, rfl⟩

/-- The response that `finish` returns is the one that was read. -/
theorem finish_ok {env : Env} {body : Bytes} {x : Ret × Response} {c : Conn} {resp : Response}
    (h : (c.finish cfg env body x).1 = .ok resp) : resp = x.2 ∧ x.1 ≠ .panic := by
  obtain ⟨_ | e | _, resp'⟩ := x
  · exact ⟨(DoRet.ok.inj h).symm, by simp⟩
  · simp only [finish] at h
    split_ifs at h
    exact ⟨(DoRet.ok.inj h).symm, by simp⟩
  · cases h

theorem finish_of_nil {env : Env} {body : Bytes} {x : Ret × Response} {c : Conn}
    (h : x.1 = .nil) : (c.finish cfg env body x).1 = .ok x.2 := by
  obtain ⟨_ | e | _, resp'⟩ := x
  · rfl
  · cases h
  · cases h

/-- What the last read of a request returns fits unless it is inflated.  The two connections
are those of runs with different decoders. -/
theorem readFinal_fits_iff (gunzip : Bytes → Gunzip) (env : Env) (req : Request) (timeout : ℤ)
    (body : Bytes) {resp : Response} (h : resp.Blank) (st : TcpStream) {c c₀ : Conn}
    (htime : c.time = c₀.time) {resp' : Response}
    (hok : (c.readFinal cfg gunzip env req timeout body resp st).1 = .ok resp') :
    resp'.Fits cfg.maxRespSize ↔
      ¬Inflated cfg gunzip (c₀.readFinal cfg .data env req timeout body resp st) := by
  obtain ⟨f, raw, st', hf, hread⟩ := readResponse_decodes cfg env.read true timeout req.method h st
    c₀.time
  obtain ⟨c', hc', -, -⟩ := hread gunzip c htime
  obtain ⟨c₀', hc₀', -, hlog⟩ := hread .data c₀ rfl
  unfold readFinal at hok ⊢
  rw [hc'] at hok
  rw [hc₀']
  obtain ⟨rfl, hpanic⟩ := finish_ok cfg hok
  rw [hf.fits_iff gunzip hpanic]
  refine not_congr ⟨?_, ?_⟩
  · rintro ⟨hnil, hinflates⟩
    refine ⟨_, finish_of_nil cfg hnil, ?_, hinflates⟩
    show (c₀'.finish cfg env body (f .data)).2.log.head?.map ParseEvent.ret = _
    rw [finish_log, hlog, hnil]
  · rintro ⟨plain, hplain, hnil, hinflates⟩
    obtain ⟨rfl, -⟩ := finish_ok cfg hplain
    refine ⟨?_, hinflates⟩
    rw [finish_log, hlog] at hnil
    exact Option.some_inj.mp hnil

/-- The response object of the answer to `Expect: 100-continue`. -/
theorem continueResp_blank :
    (⟨0, 0, [], [], List.replicate 512 0, 0, []⟩ : Response).Blank := ⟨rfl, rfl, rfl⟩

theorem exchange_fits_iff (gunzip : Bytes → Gunzip) (env : Env) (req : Request) (timeout : ℤ)
    (body : Bytes) {resp : Response} (h : resp.Blank) (st : TcpStream) (c : Conn) {resp' : Response}
    (hok : (c.exchange cfg gunzip env req timeout body resp st).1 = .ok resp') :
    resp'.Fits cfg.maxRespSize ↔
      ¬Inflated cfg gunzip (c.exchange cfg .data env req timeout body resp st) := by
  unfold exchange at hok ⊢
  dsimp only at hok ⊢
  split at hok
  · cases hok
  split at hok
  · -- `Expect: 100-continue`: the first answer may be the response
    rw [if_pos ‹_›]
    obtain ⟨f, raw, st', hf, hread⟩ := readResponse_decodes cfg env.continueRead false timeout
      req.method continueResp_blank st c.time
    obtain ⟨c', hc', htime, -⟩ := hread gunzip c rfl
    obtain ⟨c₀, hc₀, htime₀, hlog⟩ := hread .data c rfl
    rw [hc'] at hok
    rw [hc₀]
    have hiff := hf.fits_iff gunzip
    have hplain := @Decodes.plain_nil _ _ _ hf gunzip
    have hstatus : (f gunzip).2.statusCode = (f .data).2.statusCode :=
      (hf.statusCode gunzip).trans (hf.statusCode .data).symm
    rcases hg : f gunzip with ⟨_ | e | _, answer⟩
    · rw [hg] at hok hiff hstatus hplain
      have hnil := hplain rfl
      rcases hd : f .data with ⟨ret, plain⟩
      rw [hd] at hnil hlog hiff hstatus
      obtain rfl : ret = .nil := hnil
      dsimp only at hok hstatus ⊢
      by_cases hcontinue : answer.statusCode ≠ 100
      · rw [if_pos hcontinue] at hok
        rw [if_pos (hstatus ▸ hcontinue)]
        obtain rfl := DoRet.ok.inj hok
        refine (hiff (by simp)).trans (not_congr ⟨?_, ?_⟩)
        · rintro ⟨-, hinflates⟩
          exact ⟨_, rfl, hlog, hinflates⟩
        · rintro ⟨_, hanswer, -, hinflates⟩
          obtain rfl := DoRet.ok.inj hanswer
          exact ⟨rfl, hinflates⟩
      · rw [if_neg hcontinue] at hok
        rw [if_neg (hstatus ▸ hcontinue)]
        cases hbody : env.writeBody with
        | some e =>
          rw [hbody] at hok
          cases hok
        | none =>
          rw [hbody] at hok
          exact readFinal_fits_iff cfg gunzip env req timeout body h st' (htime.trans htime₀.symm) hok
    · rw [hg] at hok
      cases hok
    · rw [hg] at hok
      cases hok
  · rw [if_neg ‹_›]
    exact readFinal_fits_iff cfg gunzip env req timeout body h st rfl hok

theorem doClaimed_fits_iff (gunzip : Bytes → Gunzip) (env : Env) (req : Request) (c : Conn)
    {resp : Response} (hok : (c.doClaimed cfg gunzip env req).1 = .ok resp) :
    resp.Fits cfg.maxRespSize ↔ ¬Inflated cfg gunzip (c.doClaimed cfg .data env req) := by
  unfold doClaimed at hok ⊢
  cases hctx : env.ctx with
  | some e =>
    rw [hctx] at hok
    cases hok
  | none =>
    rw [hctx] at hok
    dsimp only at hok ⊢
    generalize (if 0 < cfg.maxRequestsPerConn ∧ cfg.maxRequestsPerConn ≤ c.reqsOnConn then
      c.closeConn.ensureConnection cfg env.redial env.redialNow else (true, c)) = x at hok ⊢
    split at hok
    · cases hok
    rw [if_neg ‹_›]
    split at hok
    · cases hok
    split at hok
    · cases hok
    split at hok
    · cases hok
    · exact exchange_fits_iff cfg gunzip env req _ _ (Response.reset_blank _) _ x.2 hok

/-- What a sequential request returns fits unless it came as a complete body that the decoder
inflates. -/
theorem doRequest_fits_iff (gunzip : Bytes → Gunzip) (env : Env) (req : Request) (c : Conn)
    {resp : Response} (hok : (c.doRequest cfg gunzip env req).1 = .ok resp) :
    resp.Fits cfg.maxRespSize ↔ ¬Inflated cfg gunzip (c.doRequest cfg .data env req) := by
  unfold doRequest at hok ⊢
  dsimp only at hok ⊢
  split at hok
  · cases hok
  · rw [if_neg ‹_›]
    exact doClaimed_fits_iff cfg gunzip env req _ hok

end Conn

/-! ### Delivered responses -/

/-- A response that is delivered fits, unless it was received as a complete gzip body that the
decoder inflates: what a sequential request returns, and what a reader of a pipelined connection
has parsed when it sends it to the caller.  What was received is what the same code has with a
decoder that leaves bodies as they are. -/
theorem delivered_fits_iff (cfg : Config) (gunzip : Bytes → Gunzip) :
    (∀ (env : Env) (req : Request) (c : Conn) (resp : Response),
      (c.doRequest cfg gunzip env req).1 = .ok resp →
      (resp.Fits cfg.maxRespSize ↔ ¬Conn.Inflated cfg gunzip (c.doRequest cfg .data env req))) ∧
    (∀ (scratchLen : ℕ) (resp : Response) (method : Bytes) (br : Reader),
      (readResponseBuffered gunzip scratchLen resp.reset cfg.maxRespSize method br).1.1 ≠ .panic →
      ((readResponseBuffered gunzip scratchLen resp.reset cfg.maxRespSize method br).1.2.Fits
          cfg.maxRespSize ↔
        ¬Inflated gunzip cfg.maxRespSize
          (readResponseBuffered .data scratchLen resp.reset cfg.maxRespSize method br).1)) := by
  refine ⟨fun env req c resp hok => Conn.doRequest_fits_iff cfg gunzip env req c hok, ?_⟩
  intro scratchLen resp method br hpanic
  obtain ⟨raw, hraw⟩ := readResponseBuffered_decodes cfg.maxRespSize_pos resp.reset_blank
    scratchLen method br
  exact hraw.fits_iff gunzip hpanic

/-- The response, if there is one. -/
def DoRet.resp? : DoRet → Option Response
  | .ok resp => some resp
  | _ => none

theorem DoRet.eq_ok_of_resp? {x : DoRet} {resp : Response} (h : x.resp? = some resp) :
    x = .ok resp := by
  cases x with
  | ok resp' => exact congrArg DoRet.ok (Option.some_inj.mp h)
  | err e => cases h
  | panic => cases h

/-- At most ten bytes of body are allowed. -/
def tenBytes : Config := { unpipelined with maxRespSize := 10, maxRespSize_pos := by decide }

/-- A decoder that makes eleven bytes of everything. -/
def eleven (_ : Bytes) : Gunzip := .data (List.replicate 11 0)

def gzipHi : Bytes :=
  ascii "HTTP/1.1 200 OK\r\nContent-Encoding: gzip\r\nContent-Length: 2\r\n\r\nhi"

/-- A gzip body of two bytes becomes one of eleven, with a limit of ten, in either mode. -/
theorem delivered_too_large :
    ((Conn.new 0 1).doRequest tenBytes eleven (arriving gzipHi .eof) getRequest).1.resp?.map
      (fun resp => resp.body.length) = some 11 ∧
    (readResponseBuffered eleven 4096 ⟨0, 0, [], [], [], 0, []⟩ tenBytes.maxRespSize (ascii "GET")
      (.ofSegs [gzipHi] .eof)).1.2.body.length = 11 := by
  decide +kernel

/-- A body without `Content-Encoding` is not decoded. -/
theorem delivered_fits_okHi :
    (∃ resp, ((Conn.new 0 1).doRequest tenBytes eleven (arriving okHi .eof) getRequest).1
      = .ok resp ∧ resp.Fits 10) ∧
    (readResponseBuffered eleven 4096 ⟨0, 0, [], [], [], 0, []⟩ tenBytes.maxRespSize (ascii "GET")
      (.ofSegs [okHi] .eof)).1.2.Fits 10 := by
  constructor
  · obtain ⟨resp, hresp⟩ := Option.isSome_iff_exists.mp (show ((Conn.new 0 1).doRequest tenBytes
      eleven (arriving okHi .eof) getRequest).1.resp?.isSome = true by decide +kernel)
    have hok := DoRet.eq_ok_of_resp? hresp
    refine ⟨resp, hok, ?_⟩
    refine ((delivered_fits_iff tenBytes eleven).1 _ _ _ resp hok).mpr ?_
    rintro ⟨plain, hplain, -, -, hgzip, -⟩
    have hnone : ((Conn.new 0 1).doRequest tenBytes .data (arriving okHi .eof) getRequest).1.resp?.all
        (fun resp => !isGzip resp.headers) = true := by
      decide +kernel
    rw [hplain] at hnone
    simp [DoRet.resp?, hgzip] at hnone
  · refine ((delivered_fits_iff tenBytes eleven).2 4096 ⟨0, 0, [], [], [], 0, []⟩ (ascii "GET")
      (.ofSegs [okHi] .eof) (by decide +kernel)).mpr ?_
    rintro ⟨-, -, hgzip, -⟩
    exact absurd hgzip (by decide +kernel)

end BurstHttp
