/-
The two response parsers agree.

`Connection.readResponse` reads in blocks and re-injects what it read behind
the header block into the body readers; `readResponseBuffered` reads byte by
byte.  On the same stream, however it is cut, both succeed or both fail, and
on success the exported fields of the response are the same
(`readDecoded_iff_readResponseBuffered`).  Bodies that are delimited by the
end of the stream are excluded: there the two ask for buffers of different
sizes.
-/
import BurstHttp.ReadHead
import BurstHttp.Recycled

namespace BurstHttp

/-- Both calls succeed or both fail; on success the exported fields and the
buffer limits are the same. -/
structure SameOutcome (x y : Ret × Response) : Prop where
  ret : x.1 = .nil ↔ y.1 = .nil
  visible : x.1 = .nil → x.2.visible = y.2.visible
  limits : x.1 = .nil → x.2.limits = y.2.limits

theorem SameOutcome.of_failed {x y : Ret × Response} (hx : x.1 ≠ .nil) (hy : y.1 ≠ .nil) :
    SameOutcome x y :=
  ⟨⟨fun h => absurd h hx, fun h => absurd h hy⟩, fun h => absurd h hx, fun h => absurd h hx⟩

/-! ### Decompression on top -/

theorem decompressBody_of_empty (gunzip : Bytes → Gunzip) {resp : Response} (h : resp.body = []) :
    decompressBody gunzip resp = (.nil, resp) := by
  rw [decompressBody, if_pos (by rw [h]; rfl)]

theorem readDecoded_eq (gunzip : Bytes → Gunzip) (r : Reader) (bufLen : ℕ) (resp : Response)
    (maxBody : ℤ) (method : Bytes) (headerReadSize bodyReadSize : ℕ) :
    (readDecoded gunzip r bufLen resp maxBody method headerReadSize bodyReadSize).1
      = thenDecompress gunzip
          (readResponse r bufLen resp maxBody method headerReadSize bodyReadSize).1 := by
  unfold readDecoded
  rcases readResponse r bufLen resp maxBody method headerReadSize bodyReadSize
    with ⟨⟨_ | e | _, resp'⟩, r'⟩
  · rfl
  · rfl
  · rfl

/-- Decompression keeps two equal outcomes equal. -/
theorem SameOutcome.thenDecompress {x y : Ret × Response} (h : SameOutcome x y)
    (gunzip : Bytes → Gunzip) :
    ((thenDecompress gunzip x).1 = .nil ↔ (thenDecompress gunzip y).1 = .nil) ∧
      ((thenDecompress gunzip x).1 = .nil →
        (thenDecompress gunzip x).2.visible = (thenDecompress gunzip y).2.visible) := by
  obtain ⟨retx, rx⟩ := x
  obtain ⟨rety, ry⟩ := y
  have hret : retx = .nil ↔ rety = .nil := h.ret
  by_cases hx : retx = .nil
  · obtain rfl := hx
    obtain rfl := hret.mp rfl
    obtain ⟨h1, h2⟩ := decompressBody_agree gunzip (h.visible rfl) (h.limits rfl)
    exact ⟨by rw [BurstHttp.thenDecompress, BurstHttp.thenDecompress, h1], fun _ => h2⟩
  · have hy : rety ≠ .nil := fun hy => hx (hret.mpr hy)
    have key : ∀ (z : Ret × Response), z.1 ≠ .nil → BurstHttp.thenDecompress gunzip z = z := by
      rintro ⟨_ | e | _, rz⟩ hz
      · exact absurd rfl hz
      · rfl
      · rfl
    rw [key _ hx, key _ hy]
    exact ⟨hret, fun hnil => absurd hnil hx⟩

/-! ### The bodies -/

/-- Chunked bodies: where the leftover bytes end and the connection begins does
not matter, nor does what the buffer held. -/
theorem readChunkedBody_same {r br : Reader} {leftover : Bytes} {a b : Response} (maxBody : ℤ)
    (hflat : leftover ++ r.flat = br.flat) (htail : r.tail = br.tail) (hended : r.ended = br.ended)
    (h : Response.Agree 0 a b) :
    SameOutcome (readChunkedBody r leftover a maxBody).1 (readChunkedBody br [] b maxBody).1 := by
  have hloc := chunkLoop_localAt maxBody a 0 ⟨leftover, r⟩
  obtain ⟨hval, -, -⟩ := hloc.extend [] ⟨[], br⟩
    ⟨by rw [List.append_nil]; exact hflat.symm, hended.symm⟩ (Or.inr ⟨rfl, htail.symm⟩)
  obtain ⟨h1, -, h2⟩ := chunkLoop_agree maxBody h (Nat.zero_le _) ⟨[], br⟩
  rw [hval] at h1 h2
  exact ⟨by rw [show (readChunkedBody r leftover a maxBody).1.1 = _ from h1]; rfl,
    fun hnil => (h2 hnil).1, fun hnil => (h2 hnil).2⟩

/-- What a sized body of `n` bytes looks like once it is stored. -/
theorem sized_same {a b : Response} (h : Response.Agree 0 a b)
    (hlen : a.contentLength = b.contentLength) {n : ℕ} {bs : Bytes} (hbs : bs.length = n)
    (hn : n ≤ a.bodyBuf.length) :
    SameOutcome
      (.nil, { a with bodyBuf := overwrite a.bodyBuf 0 bs, body := (overwrite a.bodyBuf 0 bs).take n })
      (.nil, { b with bodyBuf := overwrite b.bodyBuf 0 bs,
                      body := (overwrite b.bodyBuf 0 bs).take n }) := by
  have hag := h.overwrite bs (by omega)
  refine ⟨Iff.rfl, fun _ => ?_, fun _ => hag.limits⟩
  have hfront := hag.front
  rw [Nat.zero_add, hbs] at hfront
  simp only [Response.visible, h.statusCode, h.headers, hlen, hfront]

/-- The bytes a sized body takes from the leftover and from the connection. -/
theorem take_leftover (leftover more : Bytes) (n : ℕ) :
    leftover.take n ++ more.take (n - (leftover.take n).length) = (leftover ++ more).take n := by
  rw [List.take_append, List.length_take]
  congr 2
  omega

/-- Bodies with a `Content-Length`. -/
theorem readSized_same (gunzip : Bytes → Gunzip) {r br : Reader} {leftover : Bytes}
    {a b : Response} {length : ℤ} {bodyReadSize : ℕ}
    (hflat : leftover ++ r.flat = br.flat) (h : Response.Agree 0 a b)
    (hlen : a.contentLength = b.contentLength) :
    ∃ y, (readSizedBuffered gunzip b length br).1 = thenDecompress gunzip y ∧
      SameOutcome (readSized r leftover a length bodyReadSize).1 y := by
  unfold readSized readSizedBuffered
  by_cases hzero : length = 0
  · rw [if_pos hzero, if_pos hzero]
    refine ⟨(.nil, { b with body := [] }), (decompressBody_of_empty gunzip rfl).symm, Iff.rfl,
      fun _ => ?_, fun _ => h.limits⟩
    simp only [Response.visible, h.statusCode, h.headers, hlen]
  rw [if_neg hzero, if_neg hzero]
  obtain ⟨hok, hag⟩ := Response.ensureBufferSize_agree h length
  obtain ⟨bufA, hA⟩ := Response.ensureBufferSize_frame a length
  obtain ⟨bufB, hB⟩ := Response.ensureBufferSize_frame b length
  have hle := Response.ensureBufferSize_le a length
  rcases hea : a.ensureBufferSize length with ⟨okA, a'⟩
  rcases heb : b.ensureBufferSize length with ⟨okB, b'⟩
  rw [hea, heb] at hok hag
  rw [hea] at hle hA
  rw [heb] at hB
  dsimp only at hok hag hle hA hB
  obtain rfl := hok
  rcases okA with _ | _
  · exact ⟨(.error .responseTooLarge, b'), rfl, .of_failed (by simp) (by simp)⟩
  have hle := hle rfl
  dsimp only
  by_cases hneg : length < 0
  · rw [if_pos hneg, if_pos hneg]
    exact ⟨(.panic, b'), rfl, .of_failed (by simp) (by simp)⟩
  rw [if_neg hneg, if_neg hneg]
  have hcap : 0 < (if bodyReadSize = 0 then 65536 else bodyReadSize) := by
    split <;> omega
  obtain ⟨r', -, -, -, hfill⟩ :=
    Feed.fill_eq GoErr.eof hcap r (length.toNat - (leftover.take length.toNat).length)
  obtain ⟨br', -, -, -, hfull⟩ := Feed.fill_eq GoErr.eof (Nat.succ_pos length.toNat) br length.toNat
  rw [Feed.readFull, hfill, hfull]
  dsimp only
  rw [take_leftover, hflat]
  have hiff : r.flat.length < length.toNat - (leftover.take length.toNat).length ↔
      br.flat.length < length.toNat := by
    rw [← hflat, List.length_append, List.length_take]
    omega
  simp only [hiff]
  by_cases hshort : br.flat.length < length.toNat
  · rw [if_pos hshort, if_pos hshort]
    exact ⟨(.error _, _), rfl, .of_failed (by simp) (by simp)⟩
  · rw [if_neg hshort, if_neg hshort]
    refine ⟨(.nil, _), rfl, sized_same hag (by rw [hA, hB, hlen]) ?_ (by omega)⟩
    rw [List.length_take]
    omega

/-- Behind the same header block, the two body readers have the same outcome
(before the block-wise one decompresses). -/
theorem readBody_same (gunzip : Bytes → Gunzip) {r br : Reader} {head leftover : Bytes}
    {resp respB : Response} {maxBody : ℤ} (hmax : 0 < maxBody) (method : Bytes) {bodyReadSize : ℕ}
    (hhead : headEnd head = some head.length)
    (hflat : leftover ++ r.flat = br.flat) (htail : r.tail = br.tail) (hended : r.ended = br.ended)
    (hlim : resp.limits = respB.limits) (hframe : ∀ status, framing method head ≠ .untilEOF status) :
    ∃ y, (readBodyBuffered gunzip head respB maxBody method br).1 = thenDecompress gunzip y ∧
      SameOutcome (readBody r head leftover resp maxBody method bodyReadSize).1 y := by
  have hparse := parseHeaders_of_head hhead
  unfold readBody readBodyBuffered
  rcases hf : framing method head with _ | status | status | status | ⟨status, length⟩
  · exact ⟨(.error badStatus, respB), rfl, .of_failed (by simp) (by simp)⟩
  · simp only [hparse]
    exact ⟨(.nil, _), (decompressBody_of_empty gunzip rfl).symm, Iff.rfl, fun _ => rfl,
      fun _ => hlim⟩
  · simp only [hparse]
    exact ⟨_, rfl, readChunkedBody_same maxBody hflat htail hended ⟨rfl, rfl, hlim, rfl⟩⟩
  · exact absurd hf (hframe status)
  · simp only [hparse]
    by_cases hbig : maxBody < length
    · rw [if_pos hbig, if_pos ⟨hmax, hbig⟩]
      exact ⟨(.error .responseTooLarge, respB), rfl, .of_failed (by simp) (by simp)⟩
    · rw [if_neg hbig, if_neg fun h => hbig h.2]
      exact readSized_same gunzip hflat ⟨rfl, rfl, hlim, rfl⟩ rfl

/-! ### The parsers -/

/-- The two parsers, on any two segmentations of one stream, both succeed or
both fail, and on success they report the same response. -/
theorem readDecoded_iff_readResponseBuffered (gunzip : Bytes → Gunzip) {stream : Bytes}
    {closing : GoErr} {r br : Reader} (hr : r.Delivers stream closing)
    (hbr : br.Delivers stream closing) (bufLen : ℕ) {maxBody : ℤ} (hmax : 0 < maxBody)
    (method : Bytes) {headerReadSize : ℕ} (hhead : 0 < headerReadSize) (bodyReadSize : ℕ)
    {resp respB : Response} (hlim : resp.limits = respB.limits)
    (hframe : framedByEOF method stream = false) :
    ((readDecoded gunzip r bufLen resp maxBody method headerReadSize bodyReadSize).1.1 = .nil ↔
      (readResponseBuffered gunzip bufLen respB maxBody method br).1.1 = .nil) ∧
    ((readDecoded gunzip r bufLen resp maxBody method headerReadSize bodyReadSize).1.1 = .nil →
      (readDecoded gunzip r bufLen resp maxBody method headerReadSize bodyReadSize).1.2.visible
        = (readResponseBuffered gunzip bufLen respB maxBody method br).1.2.visible) := by
  rw [readDecoded_eq]
  suffices hsame : ∃ y, (readResponseBuffered gunzip bufLen respB maxBody method br).1
      = thenDecompress gunzip y ∧
      SameOutcome (readResponse r bufLen resp maxBody method headerReadSize bodyReadSize).1 y by
    obtain ⟨y, hy, h⟩ := hsame
    rw [hy]
    exact h.thenDecompress gunzip
  rcases hat : headAt bufLen stream with _ | ⟨head, rest⟩
  · -- no header block: both header loops fail
    obtain ⟨e, r', hread⟩ := readResponse_noHead (by rw [hr.flat, hat]) resp maxBody method
      headerReadSize bodyReadSize
    obtain ⟨e', br', hread'⟩ := readResponseBuffered_noHead (by rw [hbr.flat, hat]) gunzip respB
      maxBody method
    rw [hread, hread']
    exact ⟨(.error e', respB), rfl, .of_failed (by simp) (by simp)⟩
  · obtain ⟨leftover, r', hread, hflat, htail, hended⟩ := readResponse_head (by rw [hr.flat, hat])
      resp maxBody method hhead bodyReadSize
    obtain ⟨br', hread', hflat', htail', hended'⟩ :=
      readResponseBuffered_head (by rw [hbr.flat, hat]) gunzip respB maxBody method
    rw [hread, hread']
    exact readBody_same gunzip hmax method (headEnd_of_headAt hat) (by rw [hflat, hflat'])
      (by rw [htail, htail', hr.tail, hbr.tail]) (by rw [hended, hended', hr.fresh, hbr.fresh])
      hlim (framing_of_framedByEOF hframe hat)

/-- A response with a `Content-Length`. -/
def okHi : Bytes := ascii "HTTP/1.1 200 OK\r\nContent-Length: 2\r\n\r\nhi"

/-- The parsers agree on `okHi` in one block and cut inside the header and the
body. -/
theorem readDecoded_iff_readResponseBuffered_okHi :
    (readDecoded (fun _ => .data []) (.ofSegs [okHi] .eof) 64 ⟨0, 0, [], [], [1, 1, 1], 0, []⟩ 10
        (ascii "GET") 16 16).1.1 = .nil ↔
      (readResponseBuffered (fun _ => .data []) 64 ⟨7, 7, [], [], [2, 2, 2], 0, []⟩ 10 (ascii "GET")
        (.ofSegs [okHi.take 20, (okHi.drop 20).take 19, okHi.drop 39] .eof)).1.1 = .nil := by
  have hr : (Feed.ofSegs [okHi] GoErr.eof).Delivers okHi .eof := ⟨by decide +kernel, rfl, rfl⟩
  have hbr : (Feed.ofSegs [okHi.take 20, (okHi.drop 20).take 19, okHi.drop 39] GoErr.eof).Delivers
      okHi .eof := ⟨by decide +kernel, rfl, rfl⟩
  exact And.left (readDecoded_iff_readResponseBuffered (fun _ => .data []) hr hbr 64 (by decide)
    (ascii "GET") (by decide) 16 (by rfl) (by decide +kernel))

end BurstHttp
