/-
Successive responses on one stream.

`readResponseBuffered` is local: when it succeeds without having seen the end
of the stream, neither the segments nor what follows the response matter
(`readResponseBuffered_localAt`).  So responses that parse alone parse one
after the other on a common stream, and the reader ends up exactly behind the
last of them (`readResponses_of_answers`).
-/
import BurstHttp.ReadHead

namespace BurstHttp

/-! ### Bodies delimited by the end of the stream -/

/-- The slice the loop reads into is never empty. -/
theorem untilEOFStep_cases (maxBody : ℤ) {bodyReadSize : ℕ} (hsize : 0 < bodyReadSize)
    (resp : Response) (offset : ℕ) :
    (∃ resp', untilEOFStep maxBody bodyReadSize resp offset = .fail resp') ∨
      ∃ resp' toRead, untilEOFStep maxBody bodyReadSize resp offset = .read resp' toRead ∧
        0 < toRead := by
  unfold untilEOFStep
  by_cases hmax : 0 < maxBody ∧ maxBody ≤ offset
  · exact Or.inl ⟨resp, if_pos hmax⟩
  rw [if_neg hmax]
  dsimp only
  generalize hreq : (if 0 < maxBody ∧ maxBody < offset + bodyReadSize then maxBody
    else (offset + bodyReadSize : ℤ)) = required
  have hreq' : (offset : ℤ) < required := by
    rw [← hreq]
    split <;> omega
  have hle := Response.ensureBufferSize_le resp required
  generalize resp.ensureBufferSize required = x at hle ⊢
  by_cases hfull : x.1 = false ∧ x.2.bodyBuf.length ≤ offset
  · exact Or.inl ⟨x.2, if_pos hfull⟩
  rw [if_neg hfull]
  have hroom : offset < x.2.bodyBuf.length := by
    rcases hx : x.1 with _ | _
    · exact not_le.mp fun h => hfull ⟨hx, h⟩
    · have := hle hx
      omega
  rw [if_neg (by split <;> omega)]
  exact Or.inr ⟨x.2, _, rfl, by split <;> omega⟩

/-- A body that is read to the end of the stream ends there. -/
theorem untilEOFLoop_ended {maxBody : ℤ} {bodyReadSize : ℕ} (hsize : 0 < bodyReadSize)
    (resp : Response) (offset : ℕ) (r : Reader)
    (h : (untilEOFLoop maxBody bodyReadSize resp offset r).1.1 = .nil) :
    (untilEOFLoop maxBody bodyReadSize resp offset r).2.ended = true := by
  induction hn : r.flat.length using Nat.strong_induction_on generalizing resp offset r with
  | _ n ih =>
    rw [untilEOFLoop] at h ⊢
    rcases untilEOFStep_cases maxBody hsize resp offset with
      ⟨resp', hstep⟩ | ⟨resp', toRead, hstep, hpos⟩
    · simp only [hstep] at h
      exact absurd h (by simp)
    simp only [hstep] at h ⊢
    by_cases hr : r.flat = []
    · rw [Feed.read_nil hpos hr] at h ⊢
      dsimp only at h ⊢
      by_cases he : r.tail = .eof
      · rw [if_pos he]
      · rw [if_neg he] at h
        exact absurd h (by simp)
    · obtain ⟨b, bs, r', hread, -, -, -, -⟩ := Feed.read_block hpos hr
      have hlt := Feed.read_flat_lt hread
      rw [hread] at h ⊢
      exact ih _ (hn ▸ hlt) _ _ _ h rfl

theorem readResponseUntilEOF_ended {r : Reader} {head leftover : Bytes} {resp : Response}
    {maxBody : ℤ} {bodyReadSize : ℕ}
    (h : (readResponseUntilEOF r head leftover resp maxBody bodyReadSize).1.1 = .nil) :
    (readResponseUntilEOF r head leftover resp maxBody bodyReadSize).2.ended = true := by
  have hsize : 0 < (if bodyReadSize = 0 then 65536 else bodyReadSize) := by
    split <;> omega
  unfold readResponseUntilEOF at h ⊢
  dsimp only at h ⊢
  by_cases hl : 0 < leftover.length
  · rw [if_pos hl] at h ⊢
    exact untilEOFLoop_ended hsize _ _ _ h
  · rw [if_neg hl] at h ⊢
    exact untilEOFLoop_ended hsize _ _ _ h

/-! ### Locality of the byte-wise parser -/

/-- What `readSizedBuffered` returns when `io.ReadFull` stored `x.1` and returned
`x.2`. -/
def sizedResult (gunzip : Bytes → Gunzip) (resp : Response) (n : ℕ) (x : Bytes × Option GoErr) :
    Ret × Response :=
  let bodyBuf := overwrite resp.bodyBuf 0 x.1
  let resp := { resp with bodyBuf := bodyBuf, body := bodyBuf.take n }
  match x.2 with
  | some e => (.error (if e = .eof ∧ 0 < x.1.length then .unexpectedEOF else e), resp)
  | none => decompressBody gunzip resp

theorem readSizedBuffered_localAt (gunzip : Bytes → Gunzip) (resp : Response) (length : ℤ)
    (br : Reader) : Feed.cursor.LocalAt (readSizedBuffered gunzip resp length) br := by
  unfold readSizedBuffered
  by_cases hzero : length = 0
  · simp only [if_pos hzero]
    exact Cursor.LocalAt.pure _ _
  simp only [if_neg hzero]
  rcases resp.ensureBufferSize length with ⟨_ | _, resp'⟩
  · exact Cursor.LocalAt.pure _ _
  dsimp only
  by_cases hneg : length < 0
  · simp only [if_pos hneg]
    exact Cursor.LocalAt.pure _ _
  simp only [if_neg hneg]
  have hmap := (Feed.fill_localAt GoErr.eof (show 0 < length.toNat + 1 by omega) length.toNat br).map
    (sizedResult gunzip resp' length.toNat)
  convert hmap using 1
  funext br
  rw [Feed.readFull]
  rcases Feed.fill GoErr.eof (length.toNat + 1) br length.toNat with ⟨bs, _ | e, br'⟩
  · rfl
  · rfl

theorem readBodyBuffered_localAt (gunzip : Bytes → Gunzip) {head : Bytes} (resp : Response)
    (maxBody : ℤ) {method : Bytes} (br : Reader)
    (hframe : ∀ status, framing method head ≠ .untilEOF status) :
    Feed.cursor.LocalAt (readBodyBuffered gunzip head resp maxBody method) br := by
  unfold readBodyBuffered
  rcases hf : framing method head with _ | status | status | status | ⟨status, length⟩
  · exact Cursor.LocalAt.pure _ _
  · exact Cursor.LocalAt.pure _ _
  · exact (readChunkedBody_localAt _ maxBody br).map (thenDecompress gunzip)
  · exact absurd hf (hframe status)
  · by_cases hbig : 0 < maxBody ∧ maxBody < length
    · simp only [if_pos hbig]
      exact Cursor.LocalAt.pure _ _
    · simp only [if_neg hbig]
      exact readSizedBuffered_localAt gunzip _ length br

/-- `readResponseBuffered` after its header loop. -/
def readResponseBufferedThen (gunzip : Bytes → Gunzip) (resp : Response) (maxBody : ℤ)
    (method : Bytes) (x : Except GoErr Bytes) (br : Reader) : (Ret × Response) × Reader :=
  match x with
  | .error e => ((.error e, resp), br)
  | .ok head => readBodyBuffered gunzip head resp maxBody method br

theorem readResponseBuffered_eq (gunzip : Bytes → Gunzip) (scratchLen : ℕ) (resp : Response)
    (maxBody : ℤ) (method : Bytes) :
    readResponseBuffered gunzip scratchLen resp maxBody method = fun br =>
      readResponseBufferedThen gunzip resp maxBody method (readHeaderBuffered scratchLen [] br).1
        (readHeaderBuffered scratchLen [] br).2 := by
  funext br
  rw [readResponseBuffered]
  split
  · rename_i h
    rw [h]
    rfl
  · rename_i h
    rw [h]
    rfl

/-- A call that succeeds without having seen the end of the stream is local. -/
theorem readResponseBuffered_localAt {gunzip : Bytes → Gunzip} {scratchLen : ℕ} {resp : Response}
    {maxBody : ℤ} {method : Bytes} {br : Reader}
    (hnil : (readResponseBuffered gunzip scratchLen resp maxBody method br).1.1 = .nil)
    (hend : (readResponseBuffered gunzip scratchLen resp maxBody method br).2.ended = false) :
    Feed.cursor.LocalAt (readResponseBuffered gunzip scratchLen resp maxBody method) br := by
  rw [readResponseBuffered_eq] at hnil hend ⊢
  refine (readHeaderBuffered_localAt scratchLen [] br).bind ?_
  rcases hread : readHeaderBuffered scratchLen [] br with ⟨_ | head, br'⟩
  · exact Cursor.LocalAt.pure _ _
  · refine readBodyBuffered_localAt gunzip resp maxBody br' fun status hf => ?_
    -- a body delimited by the end of the stream has seen that end
    simp only [hread, readResponseBufferedThen, readBodyBuffered, hf] at hnil hend
    have hnil' : (readResponseUntilEOF br' head [] resp maxBody 65536).1.1 = .nil := by
      rcases hx : (readResponseUntilEOF br' head [] resp maxBody 65536).1 with ⟨_ | e | _, resp'⟩
      · rfl
      · rw [hx] at hnil
        exact absurd hnil (by simp [thenDecompress])
      · rw [hx] at hnil
        exact absurd hnil (by simp [thenDecompress])
    rw [readResponseUntilEOF_ended hnil'] at hend
    exact absurd hend (by simp)

/-! ### Several responses -/

/-- The bytes of one response on the wire, with the method and the `Response` it
is read for. -/
structure Exchange where
  wire : Bytes
  method : Bytes
  resp : Response

/-- Read alone, in some segmentation, the response gives `out`, is consumed
completely, and the end of the stream is not seen. -/
def Answers (gunzip : Bytes → Gunzip) (scratchLen : ℕ) (maxBody : ℤ) (x : Exchange)
    (out : Response) : Prop :=
  ∃ (br : Reader) (closing : GoErr), br.Delivers x.wire closing ∧
    (readResponseBuffered gunzip scratchLen x.resp maxBody x.method br).1 = (.nil, out) ∧
    (readResponseBuffered gunzip scratchLen x.resp maxBody x.method br).2.flat = [] ∧
    (readResponseBuffered gunzip scratchLen x.resp maxBody x.method br).2.ended = false

/-- Successive calls of `readResponseBuffered` on one reader. -/
def readResponses (gunzip : Bytes → Gunzip) (scratchLen : ℕ) (maxBody : ℤ) :
    List Exchange → Reader → List (Ret × Response) × Reader
  | [], br => ([], br)
  | x :: xs, br =>
    let first := readResponseBuffered gunzip scratchLen x.resp maxBody x.method br
    let rest := readResponses gunzip scratchLen maxBody xs first.2
    (first.1 :: rest.1, rest.2)

/-- A response that parses alone parses the same way with anything behind it. -/
theorem Answers.extend {gunzip : Bytes → Gunzip} {scratchLen : ℕ} {maxBody : ℤ} {x : Exchange}
    {out : Response} (h : Answers gunzip scratchLen maxBody x out) {rest : Bytes}
    {closing : GoErr} {br : Reader} (hbr : br.Delivers (x.wire ++ rest) closing) :
    ∃ br', readResponseBuffered gunzip scratchLen x.resp maxBody x.method br = ((.nil, out), br') ∧
      br'.Delivers rest closing := by
  obtain ⟨br₀, closing₀, hbr₀, hout, hflat, hend⟩ := h
  have hloc := readResponseBuffered_localAt (by rw [hout]) hend
  obtain ⟨hval, hext, htail⟩ := hloc.extend rest br
    ⟨by rw [show Feed.cursor.flat br = br.flat from rfl, hbr.flat,
        show Feed.cursor.flat br₀ = br₀.flat from rfl, hbr₀.flat], hbr.fresh.trans hbr₀.fresh.symm⟩
    (Or.inl hend)
  refine ⟨_, Prod.ext (hval.trans hout) rfl, ?_, htail.trans hbr.tail, hext.ended.trans hend⟩
  rw [show (readResponseBuffered gunzip scratchLen x.resp maxBody x.method br).2.flat = _ from
    hext.flat, show Feed.cursor.flat _ = _ from hflat, List.nil_append]

/-- Responses that parse alone parse one after the other, in any segmentation of
the common stream, and leave the reader exactly behind the last of them. -/
theorem readResponses_of_answers {gunzip : Bytes → Gunzip} {scratchLen : ℕ} {maxBody : ℤ}
    {xs : List Exchange} {outs : List Response}
    (h : List.Forall₂ (Answers gunzip scratchLen maxBody) xs outs) {rest : Bytes}
    {closing : GoErr} {br : Reader}
    (hbr : br.Delivers ((xs.map Exchange.wire).flatten ++ rest) closing) :
    (readResponses gunzip scratchLen maxBody xs br).1 = outs.map (fun out => (Ret.nil, out)) ∧
      (readResponses gunzip scratchLen maxBody xs br).2.Delivers rest closing := by
  induction h generalizing br with
  | nil => exact ⟨rfl, hbr⟩
  | @cons x out xs outs hx _ ih =>
    rw [List.map_cons, List.flatten_cons, List.append_assoc] at hbr
    obtain ⟨br', hread, hbr'⟩ := hx.extend hbr
    obtain ⟨hvals, hrest⟩ := ih hbr'
    unfold readResponses
    rw [hread]
    dsimp only
    exact ⟨by rw [hvals, List.map_cons], hrest⟩

/-- A chunked answer to a `GET`, with an extension and a trailer. -/
def chunkedHi : Exchange where
  wire := ascii "HTTP/1.1 200 OK\r\nTransfer-Encoding: chunked\r\n\r\n2;x=y\r\nhi\r\n0\r\nt: u\r\n\r\n"
  method := ascii "GET"
  resp := ⟨0, 0, [], [], [0, 0, 0, 0], 0, []⟩

/-- The answer to a `HEAD`. -/
def headOK : Exchange where
  wire := ascii "HTTP/1.1 200 OK\r\nContent-Length: 5\r\n\r\n"
  method := ascii "HEAD"
  resp := ⟨0, 0, [], [], [], 0, []⟩

/-- Both answers behind each other, cut inside the chunk. -/
theorem readResponses_chunkedHi_headOK :
    (readResponses (fun _ => .data []) 64 10 [chunkedHi, headOK]
      (.ofSegs [chunkedHi.wire.take 55, chunkedHi.wire.drop 55 ++ headOK.wire] .netTimeout)).1
      = [(.nil, ⟨200, 2, ascii "hi", [⟨ascii "Transfer-Encoding", ascii "chunked"⟩],
            ascii "hi" ++ [0, 0], 0, chunkedHi.wire.take 47⟩),
         (.nil, ⟨200, 0, [], [⟨ascii "Content-Length", ascii "5"⟩], [], 0, headOK.wire⟩)] := by
  have h : List.Forall₂ (Answers (fun _ => .data []) 64 10) [chunkedHi, headOK]
      [⟨200, 2, ascii "hi", [⟨ascii "Transfer-Encoding", ascii "chunked"⟩],
          ascii "hi" ++ [0, 0], 0, chunkedHi.wire.take 47⟩,
       ⟨200, 0, [], [⟨ascii "Content-Length", ascii "5"⟩], [], 0, headOK.wire⟩] := by
    refine .cons ⟨.ofSegs [chunkedHi.wire] .eof, .eof, ?_, by decide +kernel⟩
      (.cons ⟨.ofSegs [headOK.wire] .eof, .eof, ?_, by decide +kernel⟩ .nil)
    · simpa using Feed.ofSegs_delivers [chunkedHi.wire] GoErr.eof
    · simpa using Feed.ofSegs_delivers [headOK.wire] GoErr.eof
  have hbr : Feed.Delivers
      (.ofSegs [chunkedHi.wire.take 55, chunkedHi.wire.drop 55 ++ headOK.wire] GoErr.netTimeout)
      (([chunkedHi, headOK].map Exchange.wire).flatten ++ []) .netTimeout :=
    ⟨by decide +kernel, rfl, rfl⟩
  exact (readResponses_of_answers h hbr).1

end BurstHttp
