/-
The two response parsers (parser.go).

`readResponse` reads in blocks into a header buffer, searches the end of the
header block in what it has, and hands the bytes behind it to the body
readers.  `readResponseBuffered` reads byte by byte up to the end of the
header block.  Both decide the framing of the body on the header block alone
(`framing`).

Buffers of fixed size are given by their length (`bufLen`, `scratchLen`): the
source only ever reads back the part it has just written.  `gunzip` stands for
`gzip.NewReader` followed by `io.ReadAll`.
-/
import BurstHttp.Chunked

namespace BurstHttp

/-! ### Decompression -/

/-- `gzip.NewReader` and `io.ReadAll` on a body. -/
inductive Gunzip
  | initFailed (err : GoErr)
  | readFailed (err : GoErr)
  | data (decompressed : Bytes)

/-- The UTF-8 encodings of the characters `unicode.IsSpace` accepts. -/
def spaceRunes : List Bytes :=
  [[9], [10], [11], [12], [13], [32], [0xC2, 0x85], [0xC2, 0xA0], [0xE1, 0x9A, 0x80],
   [0xE2, 0x80, 0x80], [0xE2, 0x80, 0x81], [0xE2, 0x80, 0x82], [0xE2, 0x80, 0x83],
   [0xE2, 0x80, 0x84], [0xE2, 0x80, 0x85], [0xE2, 0x80, 0x86], [0xE2, 0x80, 0x87],
   [0xE2, 0x80, 0x88], [0xE2, 0x80, 0x89], [0xE2, 0x80, 0x8A], [0xE2, 0x80, 0xA8],
   [0xE2, 0x80, 0xA9], [0xE2, 0x80, 0xAF], [0xE2, 0x81, 0x9F], [0xE3, 0x80, 0x80]]

/-- Drop the longest front that is a sequence of the given strings. -/
def dropRunes (runes : List Bytes) (s : Bytes) : Bytes :=
  match runes.find? fun w => w.isPrefixOf s with
  | none => s
  | some w => if w = [] ∨ s = [] then s else dropRunes runes (s.drop w.length)
termination_by s.length
decreasing_by
  rename_i h
  have h1 : 0 < w.length := List.length_pos_iff.mpr fun hw => h (Or.inl hw)
  have h2 : 0 < s.length := List.length_pos_iff.mpr fun hs => h (Or.inr hs)
  rw [List.length_drop]
  omega

/-- `strings.TrimSpace`. -/
def trimSpace (s : Bytes) : Bytes :=
  (dropRunes (spaceRunes.map List.reverse) (dropRunes spaceRunes s).reverse).reverse

/-- The header test of `decompressBody`.  The two constants contain no letter
with a fold outside ASCII, so `strings.EqualFold` is `strEqualFoldASCII` here. -/
def isGzip (headers : List Header) : Bool :=
  headers.any fun h =>
    strEqualFoldASCII h.key (ascii "Content-Encoding") &&
      strEqualFoldASCII (trimSpace h.value) (ascii "gzip")

/-- `decompressBody`. -/
def decompressBody (gunzip : Bytes → Gunzip) (resp : Response) : Ret × Response :=
  if resp.body.length = 0 then (.nil, resp)
  else if !isGzip resp.headers then (.nil, resp)
  else
    match gunzip resp.body with
    | .initFailed e => (.error (wrapError .protocol "gzip reader init failed" e), resp)
    | .readFailed e => (.error (wrapError .protocol "gzip decompression failed" e), resp)
    | .data decompressed =>
      let x := resp.ensureBufferSize decompressed.length
      let data := if x.1 then decompressed else decompressed.take x.2.bodyBuf.length
      (.nil, { x.2 with bodyBuf := overwrite x.2.bodyBuf 0 data, body := data,
                        contentLength := data.length })

/-! ### Framing -/

/-- How the body of a response is delimited. -/
inductive Framing
  | invalid
  | noBody (status : ℕ)
  | chunked (status : ℕ)
  | untilEOF (status : ℕ)
  | sized (status : ℕ) (length : ℤ)
  deriving DecidableEq

/-- The tests both parsers make on a complete header block, in their order. -/
def framing (method head : Bytes) : Framing :=
  if (parseStatusCode head).2 = false then .invalid
  else
    let status := (parseStatusCode head).1
    if method = ascii "HEAD" ∨ status = 204 ∨ status = 304 ∨ status = 101 then .noBody status
    else if parseTransferEncoding head then .chunked status
    else if (parseContentLength head).2 = false then .untilEOF status
    else .sized status (parseContentLength head).1

/-- The error of an unusable status line. -/
def badStatus : GoErr := wrapError .protocol "failed to parse status code" .invalidResponse

/-! ### Bodies delimited by the end of the stream -/

/-- What the loop of `readResponseUntilEOF` does before it reads: return an
error, leave the loop, or read into a slice of `toRead` bytes. -/
inductive UntilEOFStep
  | fail (resp : Response)
  | stop (resp : Response)
  | read (resp : Response) (toRead : ℕ)

/-- The buffer management of that loop with `offset` bytes in the buffer. -/
def untilEOFStep (maxBody : ℤ) (bodyReadSize : ℕ) (resp : Response) (offset : ℕ) : UntilEOFStep :=
  if 0 < maxBody ∧ maxBody ≤ offset then .fail resp
  else
    let requiredSize : ℤ :=
      if 0 < maxBody ∧ maxBody < offset + bodyReadSize then maxBody else offset + bodyReadSize
    let x := resp.ensureBufferSize requiredSize
    if x.1 = false ∧ x.2.bodyBuf.length ≤ offset then .fail x.2
    else
      let toRead : ℤ := min (x.2.bodyBuf.length - offset) bodyReadSize
      let toRead := if 0 < maxBody ∧ maxBody - offset < toRead then maxBody - offset else toRead
      if toRead ≤ 0 then .stop x.2 else .read x.2 toRead.toNat

/-- The response with a body of `offset` bytes. -/
def untilEOFDone (resp : Response) (offset : ℕ) : Response :=
  { resp with contentLength := offset, body := resp.bodyBuf.take offset }

/-- The loop of `readResponseUntilEOF` with `offset` bytes in the buffer. -/
def untilEOFLoop (maxBody : ℤ) (bodyReadSize : ℕ) (resp : Response) (offset : ℕ) (r : Reader) :
    (Ret × Response) × Reader :=
  match untilEOFStep maxBody bodyReadSize resp offset with
  | .fail resp => ((.error .responseTooLarge, resp), r)
  | .stop resp => ((.nil, untilEOFDone resp offset), r)
  | .read resp toRead =>
    match _h : r.read toRead with
    | (.error e, r') =>
      if e = .eof then ((.nil, untilEOFDone resp offset), r') else ((.error e, resp), r')
    | (.ok [], r') => ((.nil, untilEOFDone resp offset), r')
    | (.ok (b :: bs), r') =>
      untilEOFLoop maxBody bodyReadSize
        { resp with bodyBuf := overwrite resp.bodyBuf offset (b :: bs) }
        (offset + (bs.length + 1)) r'
termination_by r.flat.length
decreasing_by exact Feed.read_flat_lt _h

/-- `readResponseUntilEOF` on the header block `head` and the bytes `leftover`
behind it. -/
def readResponseUntilEOF (r : Reader) (head leftover : Bytes) (resp : Response) (maxBody : ℤ)
    (bodyReadSize : ℕ) : (Ret × Response) × Reader :=
  let resp := parseHeaders head { resp with statusCode := (parseStatusCode head).1 }
  let bodyReadSize := if bodyReadSize = 0 then 65536 else bodyReadSize
  if 0 < leftover.length then
    let x := resp.ensureBufferSize leftover.length
    let inBuf := if x.1 then leftover else leftover.take x.2.bodyBuf.length
    untilEOFLoop maxBody bodyReadSize { x.2 with bodyBuf := overwrite x.2.bodyBuf 0 inBuf }
      inBuf.length r
  else untilEOFLoop maxBody bodyReadSize resp 0 r

/-! ### Block-wise reading -/

/-- The header loop of `readResponse`; `buf` is `buf[:total]`.  On success the
result is `headerEnd` and `buf[:total]`. -/
def readHeader (bufLen readSize : ℕ) (buf : Bytes) (r : Reader) :
    Except GoErr (ℕ × Bytes) × Reader :=
  if bufLen ≤ buf.length then (.error .headerTooLarge, r)
  else
    match r.read (min (bufLen - buf.length) readSize) with
    | (.error e, r') => (.error e, r')
    | (.ok [], r') => (.error .eof, r')
    | (.ok (b :: bs), r') =>
      match findHeaderEnd (buf ++ b :: bs) with
      | some headerEnd => (.ok (headerEnd, buf ++ b :: bs), r')
      | none => readHeader bufLen readSize (buf ++ b :: bs) r'
termination_by bufLen - buf.length
decreasing_by
  rw [List.length_append, List.length_cons]
  omega

/-- The end of `readResponse`: a body of `length` bytes, the first of which are in
`leftover`.  The last check of the source, `offset != length`, cannot fire: the
loop ends with `remaining = 0`. -/
def readSized (r : Reader) (leftover : Bytes) (resp : Response) (length : ℤ) (bodyReadSize : ℕ) :
    (Ret × Response) × Reader :=
  if length = 0 then ((.nil, { resp with body := [] }), r)
  else
    match resp.ensureBufferSize length with
    | (false, resp) => ((.error .responseTooLarge, resp), r)
    | (true, resp) =>
      if length < 0 then ((.panic, resp), r)
      else
        let inBuf := leftover.take length.toNat
        let x := r.fill .eof (if bodyReadSize = 0 then 65536 else bodyReadSize)
          (length.toNat - inBuf.length)
        let bodyBuf := overwrite resp.bodyBuf 0 (inBuf ++ x.1)
        let resp := { resp with bodyBuf := bodyBuf, body := bodyBuf.take length.toNat }
        match x.2.1 with
        | some e => ((.error e, resp), x.2.2)
        | none => ((.nil, resp), x.2.2)

/-- The part of `readResponse` behind the header loop: `head` is the header
block, `leftover` what was read behind it. -/
def readBody (r : Reader) (head leftover : Bytes) (resp : Response) (maxBody : ℤ) (method : Bytes)
    (bodyReadSize : ℕ) : (Ret × Response) × Reader :=
  match framing method head with
  | .invalid => ((.error badStatus, resp), r)
  | .noBody status =>
    ((.nil, { parseHeaders head { resp with statusCode := status, contentLength := 0 }
              with body := [] }), r)
  | .chunked status =>
    readChunkedBody r leftover (parseHeaders head { resp with statusCode := status }) maxBody
  | .untilEOF _ => readResponseUntilEOF r head leftover resp maxBody bodyReadSize
  | .sized status length =>
    if maxBody < length then ((.error .responseTooLarge, resp), r)
    else
      readSized r leftover
        (parseHeaders head { resp with statusCode := status, contentLength := length }) length
        bodyReadSize

/-- `readResponse` with a header buffer of `bufLen` bytes. -/
def readResponse (r : Reader) (bufLen : ℕ) (resp : Response) (maxBody : ℤ) (method : Bytes)
    (headerReadSize bodyReadSize : ℕ) : (Ret × Response) × Reader :=
  match readHeader bufLen (min headerReadSize bufLen) [] r with
  | (.error e, r) => ((.error e, resp), r)
  | (.ok (headerEnd, buf), r) =>
    readBody r (buf.take headerEnd) (buf.drop headerEnd) resp maxBody method bodyReadSize

/-- The parsing part of `Connection.readResponse`: `readResponse`, then
`decompressBody`. -/
def readDecoded (gunzip : Bytes → Gunzip) (r : Reader) (bufLen : ℕ) (resp : Response)
    (maxBody : ℤ) (method : Bytes) (headerReadSize bodyReadSize : ℕ) :
    (Ret × Response) × Reader :=
  match readResponse r bufLen resp maxBody method headerReadSize bodyReadSize with
  | ((.nil, resp), r) => (decompressBody gunzip resp, r)
  | x => x

/-! ### Byte-wise reading -/

/-- The header loop of `readResponseBuffered`; `scratch` is `scratch[:total]`. -/
def readHeaderBuffered (scratchLen : ℕ) (scratch : Bytes) (br : Reader) :
    Except GoErr Bytes × Reader :=
  if scratchLen ≤ scratch.length then (.error .headerTooLarge, br)
  else
    match br.next with
    | (.error e, br') => (.error e, br')
    | (.ok b, br') =>
      if endsHead (scratch ++ [b]) then (.ok (scratch ++ [b]), br')
      else readHeaderBuffered scratchLen (scratch ++ [b]) br'
termination_by scratchLen - scratch.length
decreasing_by
  rw [List.length_append, List.length_singleton]
  omega

/-- `decompressBody` after a body reader that returned nil. -/
def thenDecompress (gunzip : Bytes → Gunzip) (x : Ret × Response) : Ret × Response :=
  match x with
  | (.nil, resp) => decompressBody gunzip resp
  | x => x

/-- The end of `readResponseBuffered`: a body of `length` bytes.  `io.ReadFull`
turns an `io.EOF` behind at least one byte into `io.ErrUnexpectedEOF`. -/
def readSizedBuffered (gunzip : Bytes → Gunzip) (resp : Response) (length : ℤ) (br : Reader) :
    (Ret × Response) × Reader :=
  if length = 0 then ((.nil, { resp with body := [] }), br)
  else
    match resp.ensureBufferSize length with
    | (false, resp) => ((.error .responseTooLarge, resp), br)
    | (true, resp) =>
      if length < 0 then ((.panic, resp), br)
      else
        let x := br.readFull .eof length.toNat
        let bodyBuf := overwrite resp.bodyBuf 0 x.1
        let resp := { resp with bodyBuf := bodyBuf, body := bodyBuf.take length.toNat }
        match x.2.1 with
        | some e => ((.error (if e = .eof ∧ 0 < x.1.length then .unexpectedEOF else e), resp),
            x.2.2)
        | none => (decompressBody gunzip resp, x.2.2)

/-- The part of `readResponseBuffered` behind the header loop. -/
def readBodyBuffered (gunzip : Bytes → Gunzip) (head : Bytes) (resp : Response) (maxBody : ℤ)
    (method : Bytes) (br : Reader) : (Ret × Response) × Reader :=
  match framing method head with
  | .invalid => ((.error badStatus, resp), br)
  | .noBody status =>
    ((.nil, { parseHeaders head { resp with statusCode := status, contentLength := 0 }
              with body := [] }), br)
  | .chunked status =>
    let x := readChunkedBody br [] (parseHeaders head { resp with statusCode := status }) maxBody
    (thenDecompress gunzip x.1, x.2)
  | .untilEOF _ =>
    let x := readResponseUntilEOF br head [] resp maxBody 65536
    (thenDecompress gunzip x.1, x.2)
  | .sized status length =>
    if 0 < maxBody ∧ maxBody < length then ((.error .responseTooLarge, resp), br)
    else
      readSizedBuffered gunzip
        (parseHeaders head { resp with statusCode := status, contentLength := length }) length br

/-- `readResponseBuffered` with a scratch buffer of `scratchLen` bytes. -/
def readResponseBuffered (gunzip : Bytes → Gunzip) (scratchLen : ℕ) (resp : Response)
    (maxBody : ℤ) (method : Bytes) (br : Reader) : (Ret × Response) × Reader :=
  match readHeaderBuffered scratchLen [] br with
  | (.error e, br) => ((.error e, resp), br)
  | (.ok head, br) => readBodyBuffered gunzip head resp maxBody method br

end BurstHttp
