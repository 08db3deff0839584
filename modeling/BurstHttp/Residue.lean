/-
No residue of earlier responses.

The body of a response is a slice of a recycled buffer, taken before it is filled.
Two runs of a parser on the same reader, with responses whose buffers have the same
length and the same limit, go the same way whatever the responses held before; where
they succeed, they store the same status, headers, length and body.

* `untilEOFLoop_agree`, `readSized_same_buffer` — the body readers that are not in
  `Recycled`;
* `readResponse_same`, `readResponseBuffered_same` — the parsers;
* `parsed_forgets` — a parsed response does not depend on recycled memory.
-/
import BurstHttp.Agreement

namespace BurstHttp

open Response (Agree)

/-- Two runs that go the same way: they return the same, leave the reader the same, and
if they succeed store the same exported fields in buffers with the same limits. -/
structure SameRun {σ : Type} (x y : (Ret × Response) × σ) : Prop where
  ret : x.1.1 = y.1.1
  rest : x.2 = y.2
  visible : x.1.1 = .nil → x.1.2.visible = y.1.2.visible
  limits : x.1.1 = .nil → x.1.2.limits = y.1.2.limits

theorem SameRun.of_failed {σ : Type} (ret : Ret) {a b : Response} {r : σ} (h : ret ≠ .nil) :
    SameRun ((ret, a), r) ((ret, b), r) :=
  ⟨rfl, rfl, fun hnil => absurd hnil h, fun hnil => absurd hnil h⟩

theorem SameOutcome.sameRun {σ : Type} {a b : Response} (h : SameOutcome (.nil, a) (.nil, b))
    (r : σ) : SameRun ((.nil, a), r) ((.nil, b), r) :=
  ⟨rfl, rfl, h.visible, h.limits⟩

/-! ### Bodies delimited by the end of the stream -/

/-- The two steps before a read correspond. -/
inductive UntilEOFStep.Agree (n : ℕ) : UntilEOFStep → UntilEOFStep → Prop
  | fail (a b : Response) : Agree n (.fail a) (.fail b)
  | stop (a b : Response) (h : Response.Agree n a b) : Agree n (.stop a) (.stop b)
  | read (a b : Response) (toRead : ℕ) (h : Response.Agree n a b)
      (hroom : n + toRead ≤ a.bodyBuf.length) : Agree n (.read a toRead) (.read b toRead)

theorem untilEOFStep_agree (maxBody : ℤ) (bodyReadSize : ℕ) {n : ℕ} {a b : Response}
    (h : Agree n a b) :
    UntilEOFStep.Agree n (untilEOFStep maxBody bodyReadSize a n)
      (untilEOFStep maxBody bodyReadSize b n) := by
  unfold untilEOFStep
  by_cases hfull : 0 < maxBody ∧ maxBody ≤ n
  · rw [if_pos hfull, if_pos hfull]
    exact .fail a b
  rw [if_neg hfull, if_neg hfull]
  dsimp only
  generalize (if 0 < maxBody ∧ maxBody < n + bodyReadSize then maxBody
    else (n + bodyReadSize : ℤ)) = required
  obtain ⟨hok, hag⟩ := Response.ensureBufferSize_agree h required
  generalize a.ensureBufferSize required = x at hok hag ⊢
  generalize b.ensureBufferSize required = y at hok hag ⊢
  rw [← hok, ← hag.length]
  by_cases hshort : x.1 = false ∧ x.2.bodyBuf.length ≤ n
  · rw [if_pos hshort, if_pos hshort]
    exact .fail _ _
  rw [if_neg hshort, if_neg hshort]
  generalize htoRead : min ((x.2.bodyBuf.length : ℤ) - n) bodyReadSize = toRead
  generalize hcut : (if 0 < maxBody ∧ maxBody - n < toRead then maxBody - n else toRead) = cut
  have hle : cut ≤ (x.2.bodyBuf.length : ℤ) - n := by
    rw [← hcut]
    split <;> omega
  by_cases hnone : cut ≤ 0
  · rw [if_pos hnone, if_pos hnone]
    exact .stop _ _ hag
  · rw [if_neg hnone, if_neg hnone]
    exact .read _ _ _ hag (by omega)

theorem untilEOFDone_visible {n : ℕ} {a b : Response} (h : Agree n a b) :
    (untilEOFDone a n).visible = (untilEOFDone b n).visible := by
  simp only [untilEOFDone, Response.visible, h.statusCode, h.headers, h.front]

/-- The loop on agreeing responses: each block that is read extends the common front. -/
theorem untilEOFLoop_agree (maxBody : ℤ) (bodyReadSize : ℕ) {n : ℕ} {a b : Response}
    (h : Agree n a b) (r : Reader) :
    SameRun (untilEOFLoop maxBody bodyReadSize a n r) (untilEOFLoop maxBody bodyReadSize b n r) := by
  induction hk : r.flat.length using Nat.strong_induction_on generalizing n a b r with
  | _ k ih =>
    have hstep := untilEOFStep_agree maxBody bodyReadSize h
    rw [untilEOFLoop, untilEOFLoop]
    generalize untilEOFStep maxBody bodyReadSize a n = sa at hstep ⊢
    generalize untilEOFStep maxBody bodyReadSize b n = sb at hstep ⊢
    cases hstep with
    | fail a' b' => exact .of_failed _ (by simp)
    | stop a' b' hag => exact ⟨rfl, rfl, fun _ => untilEOFDone_visible hag, fun _ => hag.limits⟩
    | read a' b' toRead hag hroom =>
      dsimp only
      split
      · split
        · exact ⟨rfl, rfl, fun _ => untilEOFDone_visible hag, fun _ => hag.limits⟩
        · exact .of_failed _ (by simp)
      · exact ⟨rfl, rfl, fun _ => untilEOFDone_visible hag, fun _ => hag.limits⟩
      · rename_i c bs r' hread
        have hlen := Feed.read_length_le hread
        exact ih _ (hk ▸ Feed.read_flat_lt hread) (hag.overwrite (c :: bs) (by omega)) _ rfl

theorem readResponseUntilEOF_same {head : Bytes} (hhead : headEnd head = some head.length)
    {a b : Response} (h : a.limits = b.limits) (r : Reader) (leftover : Bytes) (maxBody : ℤ)
    (bodyReadSize : ℕ) :
    SameRun (readResponseUntilEOF r head leftover a maxBody bodyReadSize)
      (readResponseUntilEOF r head leftover b maxBody bodyReadSize) := by
  unfold readResponseUntilEOF
  simp only [parseHeaders_of_head hhead]
  generalize ha : ({ a with
    statusCode := (parseStatusCode head).1
    rawHeaderBuf := head
    headers := headerList head } : Response) = a'
  generalize hb : ({ b with
    statusCode := (parseStatusCode head).1
    rawHeaderBuf := head
    headers := headerList head } : Response) = b'
  have hag : Agree 0 a' b' := by
    subst ha hb
    exact ⟨rfl, rfl, h, rfl⟩
  split
  · -- the bytes behind the header block go to the front of the buffer
    obtain ⟨hok, hag'⟩ := Response.ensureBufferSize_agree hag leftover.length
    have hroom := a'.ensureBufferSize_le leftover.length
    generalize a'.ensureBufferSize leftover.length = x at hok hag' hroom ⊢
    generalize b'.ensureBufferSize leftover.length = y at hok hag' ⊢
    rw [← hok, ← hag'.length]
    generalize hin : (if x.1 = true then leftover else leftover.take x.2.bodyBuf.length) = inBuf
    have hfits : inBuf.length ≤ x.2.bodyBuf.length := by
      rw [← hin]
      split
      · have := hroom ‹_›
        omega
      · rw [List.length_take]
        omega
    have hfront := hag'.overwrite inBuf (by omega)
    rw [Nat.zero_add] at hfront
    exact untilEOFLoop_agree maxBody _ hfront r
  · exact untilEOFLoop_agree maxBody _ hag r

/-! ### The other body readers -/

theorem readChunkedBody_same_buffer {a b : Response} (h : Agree 0 a b) (r : Reader)
    (leftover : Bytes) (maxBody : ℤ) :
    SameRun (readChunkedBody r leftover a maxBody) (readChunkedBody r leftover b maxBody) := by
  obtain ⟨hret, hrest, hnil⟩ := chunkLoop_agree maxBody h (Nat.zero_le _) ⟨leftover, r⟩
  exact ⟨hret, congrArg ChunkReader.r hrest, fun hx => (hnil hx).1, fun hx => (hnil hx).2⟩

/-- What the two buffers of a body of declared length look like: both are large enough, or
both are refused. -/
theorem ensureBufferSize_sized {a b : Response} (h : Agree 0 a b)
    (hlen : a.contentLength = b.contentLength) (length : ℤ) :
    (a.ensureBufferSize length).1 = (b.ensureBufferSize length).1 ∧
      Agree 0 (a.ensureBufferSize length).2 (b.ensureBufferSize length).2 ∧
      (a.ensureBufferSize length).2.contentLength = (b.ensureBufferSize length).2.contentLength := by
  obtain ⟨hok, hag⟩ := Response.ensureBufferSize_agree h length
  obtain ⟨bufA, hA⟩ := a.ensureBufferSize_frame length
  obtain ⟨bufB, hB⟩ := b.ensureBufferSize_frame length
  refine ⟨hok, hag, ?_⟩
  rw [hA, hB]
  exact hlen

/-- Bodies of declared length: a read that succeeds has overwritten all of the slice. -/
theorem readSized_same_buffer {a b : Response} (h : Agree 0 a b)
    (hlen : a.contentLength = b.contentLength) (r : Reader) (leftover : Bytes) (length : ℤ)
    (bodyReadSize : ℕ) :
    SameRun (readSized r leftover a length bodyReadSize)
      (readSized r leftover b length bodyReadSize) := by
  unfold readSized
  by_cases hzero : length = 0
  · rw [if_pos hzero, if_pos hzero]
    refine ⟨rfl, rfl, fun _ => ?_, fun _ => h.limits⟩
    simp only [Response.visible, h.statusCode, h.headers, hlen]
  rw [if_neg hzero, if_neg hzero]
  obtain ⟨hok, hag, hcl⟩ := ensureBufferSize_sized h hlen length
  have hroom := a.ensureBufferSize_le length
  generalize a.ensureBufferSize length = x at hok hag hcl hroom ⊢
  generalize b.ensureBufferSize length = y at hok hag hcl ⊢
  obtain ⟨okA, a'⟩ := x
  obtain ⟨okB, b'⟩ := y
  dsimp only at hok hag hcl hroom
  obtain rfl := hok
  rcases okA with _ | _
  · exact .of_failed _ (by simp)
  have hroom := hroom rfl
  dsimp only
  by_cases hneg : length < 0
  · rw [if_pos hneg, if_pos hneg]
    exact .of_failed _ (by simp)
  rw [if_neg hneg, if_neg hneg]
  have hcap : 0 < (if bodyReadSize = 0 then 65536 else bodyReadSize) := by
    split <;> omega
  obtain ⟨r', -, -, -, hfill⟩ :=
    Feed.fill_eq GoErr.eof hcap r (length.toNat - (leftover.take length.toNat).length)
  rw [hfill]
  dsimp only
  by_cases hshort : r.flat.length < length.toNat - (leftover.take length.toNat).length
  · rw [if_pos hshort]
    exact .of_failed _ (by simp)
  · rw [if_neg hshort]
    have hbs : (leftover.take length.toNat ++
        r.flat.take (length.toNat - (leftover.take length.toNat).length)).length
        = length.toNat := by
      rw [List.length_append, List.length_take, List.length_take]
      rw [List.length_take] at hshort
      omega
    exact (sized_same hag hcl hbs (by omega)).sameRun r'

/-- The same without decompression, for the byte-wise parser. -/
theorem readSizedBuffered_same_buffer (gunzip : Bytes → Gunzip) {a b : Response} (h : Agree 0 a b)
    (hlen : a.contentLength = b.contentLength) (length : ℤ) (br : Reader) :
    ∃ x y : (Ret × Response) × Reader, SameRun x y ∧
      readSizedBuffered gunzip a length br = (thenDecompress gunzip x.1, x.2) ∧
      readSizedBuffered gunzip b length br = (thenDecompress gunzip y.1, y.2) := by
  unfold readSizedBuffered
  by_cases hzero : length = 0
  · rw [if_pos hzero, if_pos hzero]
    refine ⟨((.nil, { a with body := [] }), br), ((.nil, { b with body := [] }), br), ?_, ?_, ?_⟩
    · refine ⟨rfl, rfl, fun _ => ?_, fun _ => h.limits⟩
      simp only [Response.visible, h.statusCode, h.headers, hlen]
    · rw [thenDecompress, decompressBody_of_empty gunzip rfl]
    · rw [thenDecompress, decompressBody_of_empty gunzip rfl]
  rw [if_neg hzero, if_neg hzero]
  obtain ⟨hok, hag, hcl⟩ := ensureBufferSize_sized h hlen length
  have hroom := a.ensureBufferSize_le length
  generalize a.ensureBufferSize length = x at hok hag hcl hroom ⊢
  generalize b.ensureBufferSize length = y at hok hag hcl ⊢
  obtain ⟨okA, a'⟩ := x
  obtain ⟨okB, b'⟩ := y
  dsimp only at hok hag hcl hroom
  obtain rfl := hok
  rcases okA with _ | _
  · exact ⟨_, _, .of_failed (.error .responseTooLarge) (by simp), rfl, rfl⟩
  have hroom := hroom rfl
  dsimp only
  by_cases hneg : length < 0
  · rw [if_pos hneg, if_pos hneg]
    exact ⟨_, _, .of_failed .panic (by simp), rfl, rfl⟩
  rw [if_neg hneg, if_neg hneg]
  obtain ⟨br', -, -, -, hfull⟩ := Feed.fill_eq GoErr.eof (Nat.succ_pos length.toNat) br length.toNat
  rw [Feed.readFull, hfull]
  dsimp only
  by_cases hshort : br.flat.length < length.toNat
  · rw [if_pos hshort]
    exact ⟨_, _, .of_failed (.error _) (by simp), rfl, rfl⟩
  · rw [if_neg hshort]
    have hbs : (br.flat.take length.toNat).length = length.toNat := by
      rw [List.length_take]
      omega
    exact ⟨_, _, (sized_same hag hcl hbs (by omega)).sameRun br', rfl, rfl⟩

/-! ### The parsers -/

/-- What the block-wise header loop returns is a complete header block at the front of the
buffer. -/
theorem readHeader_ok {bufLen readSize headerEnd : ℕ} {buf buf' : Bytes} {r r' : Reader}
    (h : readHeader bufLen readSize buf r = (.ok (headerEnd, buf'), r')) :
    headEnd buf' = some headerEnd := by
  fun_induction readHeader bufLen readSize buf r with
  | case1 => simp at h
  | case2 => simp at h
  | case3 => simp at h
  | case4 buf r _ b bs r'' _ headerEnd' hfind =>
    simp only [Prod.mk.injEq, Except.ok.injEq] at h
    obtain ⟨⟨rfl, rfl⟩, -⟩ := h
    rwa [findHeaderEnd_eq] at hfind
  | case5 buf r _ b bs r'' _ _ ih => exact ih h

theorem readHeaderBuffered_ok {scratchLen : ℕ} {scratch head : Bytes} {br br' : Reader}
    (hscr : headEnd scratch = none)
    (h : readHeaderBuffered scratchLen scratch br = (.ok head, br')) :
    headEnd head = some head.length := by
  fun_induction readHeaderBuffered scratchLen scratch br with
  | case1 => simp at h
  | case2 => simp at h
  | case3 scratch br _ b br'' _ hend =>
    simp only [Prod.mk.injEq, Except.ok.injEq] at h
    obtain ⟨rfl, -⟩ := h
    rw [headEnd_snoc hscr, if_pos hend, List.length_append, List.length_singleton]
  | case4 scratch br _ b br'' _ hend ih =>
    refine ih ?_ h
    rw [headEnd_snoc hscr, if_neg hend]

section Parsers

variable {a b : Response} (h : a.limits = b.limits)
include h

theorem readBody_same_buffer {head : Bytes} (hhead : headEnd head = some head.length) (r : Reader)
    (leftover : Bytes) (maxBody : ℤ) (method : Bytes) (bodyReadSize : ℕ) :
    SameRun (readBody r head leftover a maxBody method bodyReadSize)
      (readBody r head leftover b maxBody method bodyReadSize) := by
  unfold readBody
  rcases framing method head with _ | status | status | status | ⟨status, length⟩
  · exact .of_failed _ (by simp)
  · simp only [parseHeaders_of_head hhead]
    exact ⟨rfl, rfl, fun _ => rfl, fun _ => h⟩
  · simp only [parseHeaders_of_head hhead]
    refine readChunkedBody_same_buffer ?_ r leftover maxBody
    exact ⟨rfl, rfl, h, rfl⟩
  · exact readResponseUntilEOF_same hhead h r leftover maxBody bodyReadSize
  · simp only [parseHeaders_of_head hhead]
    split
    · exact .of_failed _ (by simp)
    · refine readSized_same_buffer ?_ ?_ r leftover length bodyReadSize
      · exact ⟨rfl, rfl, h, rfl⟩
      · rfl

/-- The block-wise parser. -/
theorem readResponse_same (r : Reader) (bufLen : ℕ) (maxBody : ℤ) (method : Bytes)
    (headerReadSize bodyReadSize : ℕ) :
    SameRun (readResponse r bufLen a maxBody method headerReadSize bodyReadSize)
      (readResponse r bufLen b maxBody method headerReadSize bodyReadSize) := by
  unfold readResponse
  rcases hread : readHeader bufLen (min headerReadSize bufLen) [] r with ⟨e | ⟨headerEnd, buf⟩, r'⟩
  · exact .of_failed _ (by simp)
  · have hhead : headEnd (buf.take headerEnd) = some (buf.take headerEnd).length := by
      have hend := readHeader_ok hread
      rw [headEnd_take.mpr ⟨hend, le_rfl⟩, List.length_take, min_eq_left (headEnd_bounds hend).2]
    exact readBody_same_buffer h hhead r' _ maxBody method bodyReadSize

theorem readBodyBuffered_same_buffer (gunzip : Bytes → Gunzip) {head : Bytes}
    (hhead : headEnd head = some head.length) (maxBody : ℤ) (method : Bytes) (br : Reader) :
    ∃ x y : (Ret × Response) × Reader, SameRun x y ∧
      readBodyBuffered gunzip head a maxBody method br = (thenDecompress gunzip x.1, x.2) ∧
      readBodyBuffered gunzip head b maxBody method br = (thenDecompress gunzip y.1, y.2) := by
  unfold readBodyBuffered
  rcases framing method head with _ | status | status | status | ⟨status, length⟩
  · exact ⟨_, _, .of_failed (.error badStatus) (by simp), rfl, rfl⟩
  · simp only [parseHeaders_of_head hhead]
    refine ⟨((.nil, { a with
        statusCode := status, contentLength := 0, body := [], headers := headerList head,
        rawHeaderBuf := head }), br), ((.nil, { b with
        statusCode := status, contentLength := 0, body := [], headers := headerList head,
        rawHeaderBuf := head }), br), ⟨rfl, rfl, fun _ => rfl, fun _ => h⟩, ?_, ?_⟩
    · rw [thenDecompress, decompressBody_of_empty gunzip rfl]
    · rw [thenDecompress, decompressBody_of_empty gunzip rfl]
  · simp only [parseHeaders_of_head hhead]
    refine ⟨_, _, readChunkedBody_same_buffer ?_ br [] maxBody, rfl, rfl⟩
    exact ⟨rfl, rfl, h, rfl⟩
  · exact ⟨_, _, readResponseUntilEOF_same hhead h br [] maxBody 65536, rfl, rfl⟩
  · simp only [parseHeaders_of_head hhead]
    split
    · exact ⟨_, _, .of_failed (.error .responseTooLarge) (by simp), rfl, rfl⟩
    · refine readSizedBuffered_same_buffer gunzip ?_ ?_ length br
      · exact ⟨rfl, rfl, h, rfl⟩
      · rfl

/-- The byte-wise parser, in front of its decompression. -/
theorem readResponseBuffered_same (gunzip : Bytes → Gunzip) (scratchLen : ℕ) (maxBody : ℤ)
    (method : Bytes) (br : Reader) :
    ∃ x y : (Ret × Response) × Reader, SameRun x y ∧
      readResponseBuffered gunzip scratchLen a maxBody method br
        = (thenDecompress gunzip x.1, x.2) ∧
      readResponseBuffered gunzip scratchLen b maxBody method br
        = (thenDecompress gunzip y.1, y.2) := by
  unfold readResponseBuffered
  rcases hread : readHeaderBuffered scratchLen [] br with ⟨e | head, br'⟩
  · exact ⟨_, _, .of_failed (.error e) (by simp), rfl, rfl⟩
  · exact readBodyBuffered_same_buffer h gunzip (readHeaderBuffered_ok headEnd_nil hread) maxBody
      method br'

end Parsers

/-- Decompression on top of two runs that go the same way. -/
theorem SameRun.thenDecompress {σ : Type} {x y : (Ret × Response) × σ} (h : SameRun x y)
    (gunzip : Bytes → Gunzip) (hnil : (thenDecompress gunzip x.1).1 = .nil) :
    (BurstHttp.thenDecompress gunzip y.1).1 = .nil ∧
      (BurstHttp.thenDecompress gunzip x.1).2.visible
        = (BurstHttp.thenDecompress gunzip y.1).2.visible := by
  have hsame : SameOutcome x.1 y.1 := ⟨by rw [h.ret], h.visible, h.limits⟩
  obtain ⟨hiff, hvisible⟩ := hsame.thenDecompress gunzip
  exact ⟨hiff.mp hnil, hvisible hnil⟩

/-- **Parsed responses do not depend on recycled memory.**  Take two responses whose body
buffers have the same length and the same limit.  If a parse into the first returns nil, then so
does the same parse into the second, with the same status, headers, length and body; in either
mode. -/
theorem parsed_forgets (gunzip : Bytes → Gunzip) (r : Reader) (bufLen : ℕ) (maxBody : ℤ)
    (method : Bytes) (headerReadSize bodyReadSize : ℕ) {a b : Response} (h : a.limits = b.limits) :
    ((readDecoded gunzip r bufLen a maxBody method headerReadSize bodyReadSize).1.1 = .nil →
      (readDecoded gunzip r bufLen b maxBody method headerReadSize bodyReadSize).1.1 = .nil ∧
      (readDecoded gunzip r bufLen a maxBody method headerReadSize bodyReadSize).1.2.visible
        = (readDecoded gunzip r bufLen b maxBody method headerReadSize bodyReadSize).1.2.visible) ∧
    ((readResponseBuffered gunzip bufLen a maxBody method r).1.1 = .nil →
      (readResponseBuffered gunzip bufLen b maxBody method r).1.1 = .nil ∧
      (readResponseBuffered gunzip bufLen a maxBody method r).1.2.visible
        = (readResponseBuffered gunzip bufLen b maxBody method r).1.2.visible) := by
  constructor
  · rw [readDecoded_eq, readDecoded_eq]
    exact (readResponse_same h r bufLen maxBody method headerReadSize bodyReadSize).thenDecompress
      gunzip
  · obtain ⟨x, y, hsame, hx, hy⟩ := readResponseBuffered_same h gunzip bufLen maxBody method r
    rw [hx, hy]
    exact hsame.thenDecompress gunzip

def closedHi : Reader := .ofSegs [ascii "HTTP/1.1 200 OK\r\n\r\nhi"] .eof

/-- A body that ends with the stream, read into buffers with different contents. -/
theorem parsed_forgets_closedHi :
    (readDecoded (fun _ => .data []) closedHi 64
        ⟨0, 0, [], [⟨ascii "Old", ascii "1"⟩], [1, 2, 3], 0, []⟩ 10 (ascii "GET") 64 1).1.2.visible
      = (readDecoded (fun _ => .data []) closedHi 64
        ⟨0, 0, [], [], [7, 7, 7], 0, []⟩ 10 (ascii "GET") 64 1).1.2.visible := by
  have hlimits : Response.limits ⟨0, 0, [], [⟨ascii "Old", ascii "1"⟩], [1, 2, 3], 0, []⟩
      = Response.limits ⟨0, 0, [], [], [7, 7, 7], 0, []⟩ := rfl
  have hforgets := (parsed_forgets (fun _ => .data []) closedHi 64 10 (ascii "GET") 64 1 hlimits).1
  exact (hforgets (by decide +kernel)).2

end BurstHttp
