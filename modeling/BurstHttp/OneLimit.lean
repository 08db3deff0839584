/-
One size limit for three framings.

The limit on a body is tested in three loops: once against a declared length, against the
running length before each chunk, and before each read of a body that ends with the
connection.

* `chunkLoop_tooLarge` — a chunked body over the limit is refused, whatever its chunks;
* `parseInt16_long` — a chunk of `2 ^ 63` bytes or more is refused as malformed;
* `oneLimit_iff` — the three tests agree on a body exactly when its length is not the limit
  itself and is an `int`.
-/
import BurstHttp.CloseDelimited

namespace BurstHttp

/-! ### Chunks over the limit -/

/-- The loop on encoded chunks that go over the limit. -/
theorem chunkLoop_tooLarge {maxBody : ℤ} (hpos : 0 < maxBody) (chunks : List Chunk) (more : Bytes)
    {resp : Response} {lost : ℕ} {done : Bytes} (h : Stored resp lost done) {content : Bytes}
    (hcontent : content = done ++ (chunks.map Chunk.data).flatten)
    (hdone : (done.length : ℤ) ≤ maxBody) (hbig : maxBody < content.length)
    (hlen : content.length < 2 ^ 63) (s : ChunkReader)
    (hs : s.flat = (chunks.map Chunk.wire).flatten ++ more) :
    (chunkLoop maxBody resp done.length s).1.1 = .error .responseTooLarge := by
  induction chunks generalizing resp lost done s with
  | nil =>
    rw [List.map_nil, List.flatten_nil, List.append_nil] at hcontent
    rw [hcontent] at hbig
    omega
  | cons c chunks ih =>
    have hcontent' : content = (done ++ c.data) ++ (chunks.map Chunk.data).flatten := by
      rw [hcontent]
      simp
    have hle : done.length + c.data.length ≤ content.length := by
      rw [hcontent', List.length_append, List.length_append]
      omega
    have hs' : s.flat = c.wire ++ ((chunks.map Chunk.wire).flatten ++ more) := by
      rw [hs]
      simp
    by_cases hover : maxBody < (done.length + c.data.length : ℕ)
    · obtain ⟨line, s1, hread, hparse, -⟩ := readLine_chunk c (by omega) s hs'
      have hdata := List.length_pos_iff.mpr c.data_ne_nil
      have hwrap : wrap64 ((done.length : ℤ) + c.data.length) = (done.length + c.data.length : ℕ) := by
        rw [wrap64_eq (by omega) (by omega)]
        omega
      have hline : chunkLine maxBody resp done.length line = .fail (.error .responseTooLarge) resp := by
        rw [chunkLine, hparse]
        dsimp only
        rw [if_neg (by omega), if_neg (by omega), hwrap, if_pos ⟨hpos, hover⟩]
      rw [chunkLoop_eq]
      simp only [hread, chunkLoopThen, hline]
    · obtain ⟨buf, lost', s1, hround, hstored, hflat, -⟩ :=
        chunkLoop_chunk (by omega) c h (not_lt.mp hover) s hs'
      rw [hround]
      refine ih hstored hcontent' ?_ s1 hflat
      rw [List.length_append]
      omega

/-! ### Sizes that are no `int` -/

theorem hexValue_append (a b : Bytes) (acc : ℕ) :
    hexValue acc (a ++ b) = (hexValue acc a).bind fun v => hexValue v b := by
  induction a generalizing acc with
  | nil => rfl
  | cons c a ih =>
    rw [List.cons_append, hexValue, hexValue, Option.bind_assoc]
    simp only [ih]

/-- Every positive number has a hexadecimal representation. -/
theorem exists_minimalHex {n : ℕ} (hn : 0 < n) : ∃ digits, MinimalHex digits n := by
  have hdigit : ∀ d : Fin 16, ∃ b, hexDigit b = some d.val ∧ (d.val ≠ 0 → b ≠ 48) := by
    intro d
    refine ⟨(ascii "0123456789abcdef").getD d.val 48, ?_⟩
    revert d
    decide +kernel
  induction n using Nat.strong_induction_on with
  | _ n ih =>
    obtain ⟨b, hb, hne⟩ := hdigit ⟨n % 16, Nat.mod_lt _ (by omega)⟩
    dsimp only at hb hne
    by_cases hsmall : n < 16
    · refine ⟨[b], ?_, ?_⟩
      · rw [hexValue, hb, Option.bind_some, hexValue]
        congr 1
        omega
      · have := hne (by omega)
        simpa using this
    · obtain ⟨digits, hval, hhead⟩ := ih (n / 16) (by omega) (by omega)
      have hnil : digits ≠ [] := MinimalHex.ne_nil ⟨hval, hhead⟩ (by omega)
      refine ⟨digits ++ [b], ?_, ?_⟩
      · rw [hexValue_append, hval, Option.bind_some, hexValue, hb, Option.bind_some, hexValue]
        congr 1
        omega
      · rw [List.head?_append_of_ne_nil _ hnil]
        exact hhead

/-- The first digits of a number. -/
theorem MinimalHex.take {digits : Bytes} {n k : ℕ} (h : MinimalHex digits n) (hk : 0 < k) :
    ∃ v, MinimalHex (digits.take k) v ∧ (digits.length ≤ k → v = n) := by
  obtain ⟨hval, hhead⟩ := h
  rw [← List.take_append_drop k digits, hexValue_append] at hval
  obtain ⟨v, hv, hrest⟩ := Option.bind_eq_some_iff.mp hval
  refine ⟨v, ⟨hv, ?_⟩, ?_⟩
  · rw [List.head?_take, if_neg (by omega)]
    exact hhead
  · intro hlen
    rw [List.drop_of_length_le hlen, hexValue, Option.some_inj] at hrest
    exact hrest

/-- The size of a chunk of `2 ^ 63` bytes or more is refused, also when the line is cut. -/
theorem parseInt16_long {digits : Bytes} {n : ℕ} (h : MinimalHex digits n) (hn : 2 ^ 63 ≤ n) :
    parseInt16 (digits.take 64) = none := by
  obtain ⟨v, hv, hsame⟩ := h.take (show 0 < 64 by decide)
  have hbig : 2 ^ 63 ≤ v := by
    by_contra hlt
    have hlen := hv.length_le (not_le.mp hlt)
    rw [List.length_take] at hlen
    have := hsame (by omega)
    omega
  rw [parseInt16_hex hv.1 (hv.ne_nil (by omega)), if_pos hbig]

/-- A chunk that is too long for an `int` is refused as malformed. -/
theorem chunkLoop_long {size more : Bytes} {n : ℕ} (hsize : MinimalHex size n) (hlong : 2 ^ 63 ≤ n)
    (maxBody : ℤ) (resp : Response) (s : ChunkReader) (hs : s.flat = size ++ CRLF ++ more) :
    (chunkLoop maxBody resp 0 s).1.1
      = .error (wrapError .protocol "invalid chunk size" .invalidResponse) := by
  have hlf : LF ∉ size ++ [CR] := by
    have := hexValue_not_mem (c := LF) (by decide) hsize.1
    simp [this, show LF ≠ CR by decide]
  obtain ⟨s', hread, -, -, -⟩ := ChunkReader.readLine_line [] (size ++ [CR]) more hlf s
    (by rw [hs]; simp [CRLF])
  have hkept := takeWhile_sizeLine (hexValue_not_mem (c := 59) (by decide) hsize.1)
    (hexValue_not_mem (c := CR) (by decide) hsize.1) (Or.inl rfl)
  rw [List.append_nil] at hkept
  have hfail : chunkLine maxBody resp 0 (ChunkReader.lineEnd ((size ++ [CR]).take 64))
      = .fail (.error (wrapError .protocol "invalid chunk size" .invalidResponse)) resp := by
    rw [chunkLine, hkept, parseInt16_long hsize hlong]
  rw [chunkLoop_eq]
  simp only [hread, chunkLoopThen, List.nil_append, List.length_nil, Nat.sub_zero, hfail]

/-- A message of one chunk. -/
def ChunkedMessage.single (data size : Bytes) (hdata : data ≠ []) (hsize : MinimalHex size data.length) :
    ChunkedMessage where
  chunks := [⟨data, size, [], hdata, hsize, Or.inl rfl⟩]
  lastExt := []
  trailers := []
  lastExt_spec := Or.inl rfl
  trailers_spec := by simp

theorem ChunkedMessage.content_single {data size : Bytes} (hdata : data ≠ [])
    (hsize : MinimalHex size data.length) : (single data size hdata hsize).content = data := by
  simp [single, content]

theorem ChunkedMessage.wire_single {data size : Bytes} (hdata : data ≠ [])
    (hsize : MinimalHex size data.length) :
    ∃ more, (single data size hdata hsize).wire = size ++ CRLF ++ more := by
  refine ⟨data ++ CRLF ++ (single data size hdata hsize).ending, ?_⟩
  simp [single, wire, Chunk.wire]

/-! ### Responses that carry a body -/

/-- `r` delivers a complete response with the head `head` and the body `body`, under one of
the three framings. -/
inductive Carried (method head body : Bytes) (r : Reader) : Prop
  | sized (status : ℕ) (rest : Bytes) (hframe : framing method head = .sized status body.length)
      (hr : r.flat = head ++ (body ++ rest))
  | chunked (status : ℕ) (rest : Bytes) (m : ChunkedMessage)
      (hframe : framing method head = .chunked status) (hcontent : m.content = body)
      (hr : r.flat = head ++ (m.wire ++ rest))
  | closed (status : ℕ) (hframe : framing method head = .untilEOF status)
      (hr : r.flat = head ++ body) (htail : r.tail = .eof)

/-- Whether a response with that body is accepted is a matter of its length, not of its
framing: up to the limit it is, and beyond it is too large. -/
def OneLimit (maxBody : ℤ) (body : Bytes) : Prop :=
  ∀ (method head : Bytes) (resp : Response) (bufLen headerReadSize bodyReadSize : ℕ) (r : Reader),
    headEnd head = some head.length → head.length ≤ bufLen → 0 < headerReadSize →
    0 < bodyReadSize → Carried method head body r →
    (readResponse r bufLen resp.reset maxBody method headerReadSize bodyReadSize).1.1
      = if (body.length : ℤ) ≤ maxBody then .nil else .error .responseTooLarge

section

variable {maxBody : ℤ} (hpos : 0 < maxBody) (hint : maxBody < 2 ^ 63) {method head body : Bytes}
  (hhead : headEnd head = some head.length) {resp : Response} (hmax : resp.maxSize = 0)
  {bufLen headerReadSize bodyReadSize : ℕ} (hfits : head.length ≤ bufLen)
  (hread : 0 < headerReadSize) {r : Reader}

include hhead hmax hfits hread

theorem readResponse_sized_limit {status : ℕ} {rest : Bytes}
    (hframe : framing method head = .sized status body.length)
    (hr : r.flat = head ++ (body ++ rest)) :
    (readResponse r bufLen resp maxBody method headerReadSize bodyReadSize).1.1
      = if (body.length : ℤ) ≤ maxBody then .nil else .error .responseTooLarge := by
  have hat : headAt bufLen r.flat = some (head, body ++ rest) :=
    headAt_of_front hhead hfits hr
  obtain ⟨leftover, r', hbody, hflat, -⟩ :=
    readResponse_head hat resp maxBody method hread bodyReadSize
  rw [hbody, readBody, hframe]
  dsimp only
  by_cases hle : (body.length : ℤ) ≤ maxBody
  · rw [if_neg (not_lt.mpr hle), if_pos hle, parseHeaders_of_head hhead]
    exact (readSized_complete hflat { resp with
      statusCode := status, contentLength := body.length, rawHeaderBuf := head,
      headers := headerList head } hmax bodyReadSize).1
  · rw [if_pos (not_le.mp hle), if_neg hle]

include hpos hint

theorem readResponse_chunked_limit {status : ℕ} {rest : Bytes} {m : ChunkedMessage}
    (hframe : framing method head = .chunked status) (hr : r.flat = head ++ (m.wire ++ rest))
    (hlen : m.content.length < 2 ^ 63) :
    (readResponse r bufLen resp maxBody method headerReadSize bodyReadSize).1.1
      = if (m.content.length : ℤ) ≤ maxBody then .nil else .error .responseTooLarge := by
  by_cases hle : (m.content.length : ℤ) ≤ maxBody
  · rw [if_pos hle]
    exact (readResponse_chunked hint hle hmax hhead hframe hfits hread bodyReadSize hr).1
  · rw [if_neg hle]
    have hat : headAt bufLen r.flat = some (head, m.wire ++ rest) :=
      headAt_of_front hhead hfits hr
    obtain ⟨leftover, r', hbody, hflat, -⟩ :=
      readResponse_head hat resp maxBody method hread bodyReadSize
    rw [hbody, readBody, hframe]
    dsimp only
    rw [parseHeaders_of_head hhead]
    refine chunkLoop_tooLarge hpos m.chunks (m.ending ++ rest) (Stored.empty { resp with
      statusCode := status, rawHeaderBuf := head, headers := headerList head } hmax)
      (List.nil_append m.content).symm hpos.le (not_le.mp hle) hlen ⟨leftover, r'⟩ ?_
    rw [show ChunkReader.flat ⟨leftover, r'⟩ = leftover ++ r'.flat from rfl, hflat,
      ChunkedMessage.wire, List.append_assoc]

end

/-- A body whose length is the limit is accepted with a length or in chunks, and refused when
it ends with the connection. -/
theorem not_oneLimit_full {maxBody : ℤ} (hpos : 0 < maxBody) {body : Bytes}
    (hlen : (body.length : ℤ) = maxBody) : ¬ OneLimit maxBody body := by
  intro hone
  obtain ⟨hhead, hframe, hfits⟩ := plainHead_spec
  have hdel := Feed.ofSegs_delivers [plainHead ++ body] GoErr.eof
  rw [List.flatten_singleton] at hdel
  have hret := hone (ascii "GET") plainHead ⟨0, 0, [], [], [], 0, []⟩ 19 1 1 _ hhead hfits.le
    Nat.one_pos Nat.one_pos (.closed 200 hframe hdel.flat hdel.tail)
  rw [if_pos hlen.le, readResponse_closed_full hhead rfl hfits.le Nat.one_pos Nat.one_pos hdel.flat
    hframe hpos hlen.ge] at hret
  exact absurd hret (by simp)

/-- In one chunk, a body of `2 ^ 63` bytes or more is not too large but malformed. -/
theorem not_oneLimit_long {maxBody : ℤ} (hint : maxBody < 2 ^ 63) {body : Bytes}
    (hlen : 2 ^ 63 ≤ body.length) : ¬ OneLimit maxBody body := by
  intro hone
  obtain ⟨hhead, hframe, hfits⟩ := abHead_spec
  have hne : body ≠ [] := by
    rintro rfl
    exact absurd hlen (by simp)
  obtain ⟨size, hsize⟩ := exists_minimalHex (show 0 < body.length by omega)
  obtain ⟨more, hwire⟩ := ChunkedMessage.wire_single hne hsize
  have hdel := Feed.ofSegs_delivers
    [abHead ++ ((ChunkedMessage.single body size hne hsize).wire ++ [])] GoErr.eof
  rw [List.flatten_singleton] at hdel
  have hret := hone (ascii "GET") abHead ⟨0, 0, [], [], [], 0, []⟩ 64 1 1 _ hhead hfits
    Nat.one_pos Nat.one_pos
    (.chunked 200 [] _ hframe (ChunkedMessage.content_single hne hsize) hdel.flat)
  have hat := headAt_of_front hhead hfits hdel.flat
  obtain ⟨leftover, r', hbody, hrest, -⟩ := readResponse_head hat
    (Response.reset ⟨0, 0, [], [], [], 0, []⟩) maxBody (ascii "GET") Nat.one_pos 1
  rw [List.append_nil, hwire] at hrest
  rw [hbody, readBody, hframe, if_neg (by omega)] at hret
  have hlong := chunkLoop_long hsize hlen maxBody
    (parseHeaders abHead { Response.reset ⟨0, 0, [], [], [], 0, []⟩ with statusCode := (200 : ℕ) })
    ⟨leftover, r'⟩ hrest
  exact absurd (hlong.symm.trans hret) (by decide)

/-- The three tests agree on a body exactly when its length is not the limit and is an
`int`. -/
theorem oneLimit_iff {maxBody : ℤ} (hpos : 0 < maxBody) (hint : maxBody < 2 ^ 63) (body : Bytes) :
    OneLimit maxBody body ↔ (body.length : ℤ) ≠ maxBody ∧ body.length < 2 ^ 63 := by
  constructor
  · intro hone
    refine ⟨fun hlen => not_oneLimit_full hpos hlen hone, ?_⟩
    by_contra hlen
    exact not_oneLimit_long hint (not_lt.mp hlen) hone
  · rintro ⟨hne, hlen⟩ method head resp bufLen headerReadSize bodyReadSize r hhead hfits hread hsize
      hcarried
    have hmax : resp.reset.maxSize = 0 := rfl
    cases hcarried with
    | sized status rest hframe hr =>
      exact readResponse_sized_limit hhead hmax hfits hread hframe hr
    | chunked status rest m hframe hcontent hr =>
      subst hcontent
      exact readResponse_chunked_limit hpos hint hhead hmax hfits hread hframe hr hlen
    | closed status hframe hr htail =>
      by_cases hle : (body.length : ℤ) ≤ maxBody
      · obtain ⟨-, -, -, hnil, -⟩ := readResponse_closed hhead hmax hfits hread hsize hr hframe htail
          (lt_of_le_of_ne hle hne)
        rw [if_pos hle]
        exact hnil
      · rw [if_neg hle]
        exact readResponse_closed_full hhead hmax hfits hread hsize hr hframe hpos (not_le.mp hle).le

theorem oneLimit_hello : OneLimit 10 (ascii "hello") := by
  have hlen : (ascii "hello").length = 5 := by decide +kernel
  refine (oneLimit_iff (by decide) (by decide) _).mpr ⟨?_, ?_⟩
  · rw [hlen]
    decide
  · rw [hlen]
    decide

def twoHead : Bytes := ascii "HTTP/1.1 200 OK\r\nContent-Length: 2\r\n\r\n"

/-- Two bytes under a limit of two: accepted with their length, refused without. -/
theorem oneLimit_reached :
    (readResponse (.ofSegs [twoHead ++ (ascii "hi" ++ [])] .eof) 64 ⟨0, 0, [], [], [], 0, []⟩ 2
      (ascii "GET") 64 4).1.1 = .nil ∧
    (readResponse hiClosed 64 ⟨0, 0, [], [], [], 0, []⟩ 2 (ascii "GET") 64 4).1.1
      = .error .responseTooLarge ∧
    ¬ OneLimit 2 (ascii "hi") := by
  have hlen : ((ascii "hi").length : ℤ) = 2 := by decide +kernel
  have htwo : headEnd twoHead = some twoHead.length ∧
      framing (ascii "GET") twoHead = .sized 200 (ascii "hi").length ∧ twoHead.length ≤ 64 := by
    decide +kernel
  obtain ⟨hhead, hframe, hplain⟩ := plainHead_spec
  have hdel := Feed.ofSegs_delivers [twoHead ++ (ascii "hi" ++ [])] GoErr.eof
  rw [List.flatten_singleton] at hdel
  refine ⟨?_, ?_, not_oneLimit_full (by decide) hlen⟩
  · rw [readResponse_sized_limit htwo.1 rfl htwo.2.2 (by decide) htwo.2.1 hdel.flat, hlen]
    rfl
  · exact readResponse_closed_full hhead rfl (by omega) (by decide) (by decide)
      hiClosed_delivers.flat hframe (by decide) hlen.ge

end BurstHttp
