/-
When a parse sets `StatusCode` and `Headers`.

Both parsers store the status and the headers before they read the body, and
store nothing before that.  `storedStatus` reads off the bytes whether a parse
gets that far; `readDecoded_shown` and `readResponseBuffered_shown` say that this
is what the response shows afterwards, whatever happens to the body.
-/
import BurstHttp.Agreement
import BurstHttp.Connection

namespace BurstHttp

/-- The status a parse of `stream` stores, if it stores one. -/
def storedStatus (bufLen : ℕ) (maxBody : ℤ) (method stream : Bytes) : Option ℕ :=
  match headAt bufLen stream with
  | none => none
  | some (head, _) =>
    match framing method head with
    | .invalid => none
    | .noBody status => some status
    | .chunked status => some status
    | .untilEOF status => some status
    | .sized status length => if maxBody < length then none else some status

/-- A parse of `stream` stores the status and the headers. -/
def headStored (bufLen : ℕ) (maxBody : ℤ) (method stream : Bytes) : Bool :=
  (storedStatus bufLen maxBody method stream).isSome

/-- Every framing but the invalid one comes with the parsed status. -/
theorem framing_status {method head : Bytes} (status : ℕ) :
    framing method head = .noBody status ∨ framing method head = .chunked status ∨
      framing method head = .untilEOF status ∨
      (∃ length, framing method head = .sized status length) →
    (parseStatusCode head).2 = true ∧ (parseStatusCode head).1 = status := by
  intro h
  unfold framing at h
  by_cases hok : (parseStatusCode head).2 = false
  · rw [if_pos hok] at h
    simp at h
  rw [if_neg hok] at h
  refine ⟨by simpa using hok, ?_⟩
  dsimp only at h
  split_ifs at h <;> simpa using h

/-- A status that is stored is the one of the complete head in front of the stream. -/
theorem storedStatus_spec {bufLen : ℕ} {maxBody : ℤ} {method stream : Bytes} {status : ℕ}
    (h : storedStatus bufLen maxBody method stream = some status) :
    ∃ head rest, headAt bufLen stream = some (head, rest) ∧ (parseStatusCode head).2 = true ∧
      (parseStatusCode head).1 = status := by
  unfold storedStatus at h
  rcases hat : headAt bufLen stream with _ | ⟨head, rest⟩
  · rw [hat] at h
    exact absurd h (by simp)
  rw [hat] at h
  dsimp only at h
  have hframing : framing method head = .noBody status ∨ framing method head = .chunked status ∨
      framing method head = .untilEOF status ∨
      ∃ length, framing method head = .sized status length := by
    rcases hf : framing method head with _ | s | s | s | ⟨s, length⟩
    · rw [hf] at h
      exact absurd h (by simp)
    · rw [hf, Option.some_inj] at h
      exact Or.inl (congrArg _ h)
    · rw [hf, Option.some_inj] at h
      exact Or.inr (Or.inl (congrArg _ h))
    · rw [hf, Option.some_inj] at h
      exact Or.inr (Or.inr (Or.inl (congrArg _ h)))
    · rw [hf] at h
      dsimp only at h
      split at h
      · exact absurd h (by simp)
      · rw [Option.some_inj] at h
        exact Or.inr (Or.inr (Or.inr ⟨length, congrArg (Framing.sized · length) h⟩))
  exact ⟨head, rest, rfl, framing_status status hframing⟩

theorem storedStatus_pos {bufLen : ℕ} {maxBody : ℤ} {method stream : Bytes} {status : ℕ}
    (h : storedStatus bufLen maxBody method stream = some status) : 0 < status := by
  obtain ⟨head, rest, -, hok, rfl⟩ := storedStatus_spec h
  exact parseStatusCode_pos hok

/-! ### The body readers keep what the head has left -/

/-- A decision on a chunk-size line changes nothing but the buffer. -/
theorem chunkLine_shown (maxBody : ℤ) (resp : Response) (bodyLen : ℕ) (line : Bytes) :
    (∀ ret resp', chunkLine maxBody resp bodyLen line = .fail ret resp' →
      resp'.shown = resp.shown) ∧
    ∀ resp' n, chunkLine maxBody resp bodyLen line = .data resp' n →
      resp'.shown = resp.shown := by
  unfold chunkLine
  rcases parseInt16 (line.takeWhile (· != 59)) with _ | chunkSize
  · simp
  dsimp only
  have hshown := Response.ensureBufferSize_shown resp (wrap64 (bodyLen + chunkSize))
  rcases hens : resp.ensureBufferSize (wrap64 (bodyLen + chunkSize)) with ⟨ok, resp'⟩
  rw [hens] at hshown
  dsimp only at hshown
  rcases ok with _ | _
  · split_ifs <;> simp [hshown]
  · split_ifs <;> simp [hshown]

theorem chunkLoop_shown (maxBody : ℤ) (resp : Response) (bodyLen : ℕ) (s : ChunkReader) :
    (chunkLoop maxBody resp bodyLen s).1.2.shown = resp.shown := by
  induction hn : s.flat.length using Nat.strong_induction_on generalizing resp bodyLen s with
  | _ n ih =>
    rw [chunkLoop_eq]
    dsimp only
    rcases hread : s.readLine [] with ⟨_ | line, s1⟩
    · rfl
    obtain ⟨hfail, hdata⟩ := chunkLine_shown maxBody resp bodyLen line
    unfold chunkLoopThen
    dsimp only
    rcases hline : chunkLine maxBody resp bodyLen line with ⟨ret, resp'⟩ | _ | ⟨resp', bodyLen'⟩
    · exact hfail ret resp' hline
    · rfl
    · have hlt := ChunkReader.round_flat_lt hread (bodyLen' - bodyLen)
      unfold chunkLoopData
      dsimp only
      split
      · exact hdata resp' bodyLen' hline
      · exact (ih _ (hn ▸ hlt) _ _ _ rfl).trans (hdata resp' bodyLen' hline)

/-- The response a step of the loop leaves. -/
def UntilEOFStep.resp : UntilEOFStep → Response
  | .fail resp => resp
  | .stop resp => resp
  | .read resp _ => resp

theorem untilEOFStep_shown (maxBody : ℤ) (bodyReadSize : ℕ) (resp : Response) (offset : ℕ) :
    (untilEOFStep maxBody bodyReadSize resp offset).resp.shown = resp.shown := by
  unfold untilEOFStep
  split
  · rfl
  dsimp only
  generalize (if 0 < maxBody ∧ maxBody < offset + bodyReadSize then maxBody
    else (offset + bodyReadSize : ℤ)) = required
  have hshown := Response.ensureBufferSize_shown resp required
  split_ifs <;> exact hshown

theorem untilEOFLoop_shown (maxBody : ℤ) (bodyReadSize : ℕ) (resp : Response) (offset : ℕ)
    (r : Reader) :
    (untilEOFLoop maxBody bodyReadSize resp offset r).1.2.shown = resp.shown := by
  induction hn : r.flat.length using Nat.strong_induction_on generalizing resp offset r with
  | _ n ih =>
    have hshown := untilEOFStep_shown maxBody bodyReadSize resp offset
    rw [untilEOFLoop]
    rcases hstep : untilEOFStep maxBody bodyReadSize resp offset with resp' | resp' | ⟨resp', toRead⟩
    · rw [hstep] at hshown
      exact hshown
    · rw [hstep] at hshown
      exact hshown
    · rw [hstep] at hshown
      dsimp only
      split
      · split
        · exact hshown
        · exact hshown
      · exact hshown
      · rename_i hread
        exact (ih _ (hn ▸ Feed.read_flat_lt hread) _ _ _ rfl).trans hshown

theorem readResponseUntilEOF_shown {head : Bytes}
    (hparse : ∀ resp : Response,
      parseHeaders head resp = { resp with rawHeaderBuf := head, headers := headerList head })
    (r : Reader) (leftover : Bytes) (resp : Response) (maxBody : ℤ) (bodyReadSize : ℕ) :
    (readResponseUntilEOF r head leftover resp maxBody bodyReadSize).1.2.shown
      = (((parseStatusCode head).1 : ℤ), headerList head) := by
  unfold readResponseUntilEOF
  simp only [hparse]
  split
  · rw [untilEOFLoop_shown]
    exact Response.ensureBufferSize_shown _ _
  · rw [untilEOFLoop_shown]
    rfl

theorem readSized_shown (r : Reader) (leftover : Bytes) (resp : Response) (length : ℤ)
    (bodyReadSize : ℕ) :
    (readSized r leftover resp length bodyReadSize).1.2.shown = resp.shown := by
  unfold readSized
  split
  · rfl
  have hshown := Response.ensureBufferSize_shown resp length
  rcases hens : resp.ensureBufferSize length with ⟨_ | _, resp'⟩
  · rw [hens] at hshown
    exact hshown
  · rw [hens] at hshown
    dsimp only at hshown ⊢
    split
    · exact hshown
    · split
      · exact hshown
      · exact hshown

theorem decompressBody_shown (gunzip : Bytes → Gunzip) (resp : Response) :
    (decompressBody gunzip resp).2.shown = resp.shown := by
  unfold decompressBody
  split
  · rfl
  split
  · rfl
  rcases gunzip resp.body with e | e | data
  · rfl
  · rfl
  · exact Response.ensureBufferSize_shown resp data.length

theorem thenDecompress_shown (gunzip : Bytes → Gunzip) (x : Ret × Response) :
    (thenDecompress gunzip x).2.shown = x.2.shown := by
  obtain ⟨_ | e | _, resp⟩ := x
  · exact decompressBody_shown gunzip resp
  · rfl
  · rfl

theorem readSizedBuffered_shown (gunzip : Bytes → Gunzip) (resp : Response) (length : ℤ)
    (br : Reader) :
    (readSizedBuffered gunzip resp length br).1.2.shown = resp.shown := by
  unfold readSizedBuffered
  split
  · rfl
  have hshown := Response.ensureBufferSize_shown resp length
  rcases hens : resp.ensureBufferSize length with ⟨_ | _, resp'⟩
  · rw [hens] at hshown
    exact hshown
  · rw [hens] at hshown
    dsimp only at hshown ⊢
    split
    · exact hshown
    · split
      · exact hshown
      · rw [decompressBody_shown]
        exact hshown

/-! ### The parsers -/

/-- The status the response shows behind a parse of `stream`. -/
def statusAfter (bufLen : ℕ) (maxBody : ℤ) (method stream : Bytes) (resp : Response) : ℤ :=
  match storedStatus bufLen maxBody method stream with
  | some status => status
  | none => resp.statusCode

/-- What the response shows behind a parse of `stream`. -/
def shownAfter (bufLen : ℕ) (maxBody : ℤ) (method stream : Bytes) (resp : Response) :
    ℤ × List Header :=
  match storedStatus bufLen maxBody method stream, headAt bufLen stream with
  | some status, some (head, _) => (status, headerList head)
  | _, _ => resp.shown

theorem shownAfter_fst (bufLen : ℕ) (maxBody : ℤ) (method stream : Bytes) (resp : Response) :
    (shownAfter bufLen maxBody method stream resp).1
      = statusAfter bufLen maxBody method stream resp := by
  unfold shownAfter statusAfter
  rcases hs : storedStatus bufLen maxBody method stream with _ | status
  · rfl
  · rcases hat : headAt bufLen stream with _ | ⟨head, rest⟩
    · rw [storedStatus, hat] at hs
      exact absurd hs (by simp)
    · rfl

theorem readDecoded_shown (gunzip : Bytes → Gunzip) (r : Reader) (bufLen : ℕ)
    (resp : Response) (maxBody : ℤ) (method : Bytes) {headerReadSize : ℕ}
    (hsize : 0 < headerReadSize) (bodyReadSize : ℕ) :
    (readDecoded gunzip r bufLen resp maxBody method headerReadSize bodyReadSize).1.2.shown
      = shownAfter bufLen maxBody method r.flat resp := by
  rw [readDecoded_eq, thenDecompress_shown]
  unfold shownAfter storedStatus
  rcases hat : headAt bufLen r.flat with _ | ⟨head, rest⟩
  · obtain ⟨e, r', hread⟩ := readResponse_noHead hat resp maxBody method headerReadSize bodyReadSize
    rw [hread]
  · obtain ⟨leftover, r', hread, -, -, -⟩ :=
      readResponse_head hat resp maxBody method hsize bodyReadSize
    have hparse := parseHeaders_of_head (headEnd_of_headAt hat)
    rw [hread]
    unfold readBody
    dsimp only
    rcases hf : framing method head with _ | status | status | status | ⟨status, length⟩
    · rfl
    · simp only [hparse]
      rfl
    · simp only [hparse]
      exact chunkLoop_shown _ _ _ _
    · simp only [readResponseUntilEOF_shown hparse,
        (framing_status status (Or.inr (Or.inr (Or.inl hf)))).2]
    · by_cases hbig : maxBody < length
      · simp only [if_pos hbig]
      · simp only [if_neg hbig, hparse]
        exact readSized_shown _ _ _ _ _

theorem readDecoded_statusCode (gunzip : Bytes → Gunzip) (r : Reader) (bufLen : ℕ)
    (resp : Response) (maxBody : ℤ) (method : Bytes) {headerReadSize : ℕ}
    (hsize : 0 < headerReadSize) (bodyReadSize : ℕ) :
    (readDecoded gunzip r bufLen resp maxBody method headerReadSize bodyReadSize).1.2.statusCode
      = statusAfter bufLen maxBody method r.flat resp := by
  rw [← shownAfter_fst, ← readDecoded_shown gunzip r bufLen resp maxBody method hsize bodyReadSize]
  rfl

theorem readResponseBuffered_shown (gunzip : Bytes → Gunzip) (scratchLen : ℕ)
    (resp : Response) {maxBody : ℤ} (hmax : 0 < maxBody) (method : Bytes) (br : Reader) :
    (readResponseBuffered gunzip scratchLen resp maxBody method br).1.2.shown
      = shownAfter scratchLen maxBody method br.flat resp := by
  unfold shownAfter storedStatus
  rcases hat : headAt scratchLen br.flat with _ | ⟨head, rest⟩
  · obtain ⟨e, br', hread⟩ := readResponseBuffered_noHead hat gunzip resp maxBody method
    rw [hread]
  · obtain ⟨br', hread, -, -, -⟩ := readResponseBuffered_head hat gunzip resp maxBody method
    have hparse := parseHeaders_of_head (headEnd_of_headAt hat)
    rw [hread]
    unfold readBodyBuffered
    dsimp only
    rcases hf : framing method head with _ | status | status | status | ⟨status, length⟩
    · rfl
    · simp only [hparse]
      rfl
    · simp only [hparse, thenDecompress_shown]
      exact chunkLoop_shown _ _ _ _
    · simp only [thenDecompress_shown, readResponseUntilEOF_shown hparse,
        (framing_status status (Or.inr (Or.inr (Or.inl hf)))).2]
    · by_cases hbig : maxBody < length
      · simp only [if_pos hbig, hmax, true_and]
      · simp only [hbig, and_false, if_false, hparse]
        exact readSizedBuffered_shown _ _ _ _

theorem readResponseBuffered_statusCode (gunzip : Bytes → Gunzip) (scratchLen : ℕ)
    (resp : Response) {maxBody : ℤ} (hmax : 0 < maxBody) (method : Bytes) (br : Reader) :
    (readResponseBuffered gunzip scratchLen resp maxBody method br).1.2.statusCode
      = statusAfter scratchLen maxBody method br.flat resp := by
  rw [← shownAfter_fst, ← readResponseBuffered_shown gunzip scratchLen resp hmax method br]
  rfl

/-- On a response that was reset, a status behind the parse means that the head
was stored. -/
theorem statusAfter_pos_iff {bufLen : ℕ} {maxBody : ℤ} {method stream : Bytes} {resp : Response}
    (hzero : resp.statusCode = 0) :
    0 < statusAfter bufLen maxBody method stream resp ↔
      headStored bufLen maxBody method stream = true := by
  unfold statusAfter headStored
  rcases hs : storedStatus bufLen maxBody method stream with _ | status
  · simp [hzero]
  · simpa using storedStatus_pos hs

/-- A parse that does not return an error has stored the head. -/
theorem headStored_of_readDecoded {gunzip : Bytes → Gunzip} {r : Reader} {bufLen : ℕ}
    {resp : Response} {maxBody : ℤ} {method : Bytes} {headerReadSize : ℕ}
    (hsize : 0 < headerReadSize) {bodyReadSize : ℕ}
    (h : ∀ e, (readDecoded gunzip r bufLen resp maxBody method headerReadSize bodyReadSize).1.1
      ≠ .error e) :
    headStored bufLen maxBody method r.flat = true := by
  rw [readDecoded_eq] at h
  unfold headStored storedStatus
  rcases hat : headAt bufLen r.flat with _ | ⟨head, rest⟩
  · obtain ⟨e, r', hread⟩ := readResponse_noHead hat resp maxBody method headerReadSize bodyReadSize
    rw [hread] at h
    exact absurd rfl (h e)
  · obtain ⟨leftover, r', hread, -, -, -⟩ :=
      readResponse_head hat resp maxBody method hsize bodyReadSize
    rw [hread] at h
    unfold readBody at h
    dsimp only
    rcases hf : framing method head with _ | status | status | status | ⟨status, length⟩
    · rw [hf] at h
      exact absurd rfl (h badStatus)
    · rfl
    · rfl
    · rfl
    · rw [hf] at h
      by_cases hbig : maxBody < length
      · simp only [if_pos hbig] at h
        exact absurd rfl (h .responseTooLarge)
      · simp only [if_neg hbig, Option.isSome_some]

theorem headStored_of_readResponseBuffered {gunzip : Bytes → Gunzip} {scratchLen : ℕ}
    {resp : Response} {maxBody : ℤ} (hmax : 0 < maxBody) {method : Bytes} {br : Reader}
    (h : ∀ e, (readResponseBuffered gunzip scratchLen resp maxBody method br).1.1 ≠ .error e) :
    headStored scratchLen maxBody method br.flat = true := by
  unfold headStored storedStatus
  rcases hat : headAt scratchLen br.flat with _ | ⟨head, rest⟩
  · obtain ⟨e, br', hread⟩ := readResponseBuffered_noHead hat gunzip resp maxBody method
    rw [hread] at h
    exact absurd rfl (h e)
  · obtain ⟨br', hread, -, -, -⟩ := readResponseBuffered_head hat gunzip resp maxBody method
    rw [hread] at h
    unfold readBodyBuffered at h
    dsimp only
    rcases hf : framing method head with _ | status | status | status | ⟨status, length⟩
    · rw [hf] at h
      exact absurd rfl (h badStatus)
    · rfl
    · rfl
    · rfl
    · rw [hf] at h
      by_cases hbig : maxBody < length
      · simp only [if_pos (show 0 < maxBody ∧ maxBody < length from ⟨hmax, hbig⟩)] at h
        exact absurd rfl (h .responseTooLarge)
      · simp only [if_neg hbig, Option.isSome_some]

end BurstHttp
