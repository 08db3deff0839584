/-
Request objects and what is put into them (request.go, `Reset`, `SetHeader`; client.go,
`NewClient`, `acquireRequest`, `releaseRequest`, `Get` and the other shorthands, `DoReader`;
batch.go, `Batch.Get` and the others).

A client keeps request objects in a pool.  An object that comes from the pool has been used
before: it is reset, and has the buffers of its earlier uses.  Shorthands and batches fill such
an object in one way, of which a `Shape` has the values.

* `Depot.newRequest`, `Depot.acquireRequest`, `Depot.releaseRequest` — the objects;
* `Shape.fill`, and `Shape.get`, … — what the shorthands write;
* `Depot.Roomy` — the sizes a header buffer can have, which every use keeps;
* `ClientRequest.Alike` — two requests say the same, `fill_alike` — they still do when they are
  filled in the same way, `send_alike` — and are sent as the same bytes;
* `recycled_alike` — so nothing of earlier uses shows in a request.
-/
import BurstHttp.Dispatch
import BurstHttp.RequestHead

namespace BurstHttp

/-! ### The objects -/

def initialHeaderBufferSize : ℕ := 16 * 1024

def initialRequestBodyBufferSize : ℕ := 32 * 1024

/-- `Request.Reset`.  The buffers stay, and so does `maxBodySize`. -/
def ClientRequest.reset (r : ClientRequest) : ClientRequest :=
  { r with
    method := []
    url := []
    path := []
    body := []
    compressed := false
    expectContinue := false
    readTimeout := 0
    writeTimeout := 0
    resp := none
    header := Page.blank r.header.buf
    urlParsed := false
    parsedHost := []
    parsedPort := 0
    parsedTLS := false
    parsedPath := []
    preEncodedHeaderPrefix := [] }

/-- `HeaderBufferSize` and `MaxRequestBodySize` of the configuration of a client. -/
structure Depot where
  headerBufferSize : ℤ
  maxRequestBodySize : ℤ

namespace Depot

/-- `headerBufSize`. -/
def headerBufSize (d : Depot) : ℕ :=
  if d.headerBufferSize ≤ 0 then initialHeaderBufferSize else d.headerBufferSize.toNat

/-- `bodyBufSize`. -/
def bodyBufSize (d : Depot) : ℕ :=
  if 0 < d.maxRequestBodySize ∧ d.maxRequestBodySize < initialRequestBodyBufferSize then
    d.maxRequestBodySize.toNat
  else initialRequestBodyBufferSize

/-- `New` of the request pool. -/
def newRequest (d : Depot) : ClientRequest where
  method := []
  body := []
  compressed := false
  expectContinue := false
  readTimeout := 0
  writeTimeout := 0
  bodyBufLen := d.bodyBufSize
  maxBodySize := d.maxRequestBodySize
  resp := none
  path := []
  parsedPath := []
  header := Page.blank (List.replicate d.headerBufSize 0)
  preEncodedHeaderPrefix := []
  url := []
  urlParsed := false
  parsedHost := []
  parsedPort := 0
  parsedTLS := false

/-- `Client.acquireRequest`, when the pool has the object `r`. -/
def acquireRequest (d : Depot) (r : ClientRequest) : ClientRequest :=
  { r.reset with maxBodySize := d.maxRequestBodySize }

/-- `Client.releaseRequest`: what lies in the pool.  Behind a new header buffer the source keeps
the old `headerLen`, which nobody reads before `Reset`. -/
def releaseRequest (d : Depot) (r : ClientRequest) : ClientRequest :=
  { r with
    bodyBufLen :=
      if initialRequestBodyBufferSize * 2 < r.bodyBufLen then initialRequestBodyBufferSize
      else r.bodyBufLen
    header :=
      if d.headerBufSize * 2 < r.header.buf.length then
        Page.blank (List.replicate d.headerBufSize 0)
      else r.header
    preEncodedHeaderPrefix := [] }

end Depot

/-! ### The shorthands -/

/-- `Path` or `URL`, whichever is set. -/
inductive Destination
  | path (p : Bytes)
  | url (u : Bytes)
  deriving DecidableEq

/-- What a shorthand puts into a request; `body` is none if it does not touch `Body`. -/
structure Shape where
  method : Bytes
  destination : Destination
  body : Option Bytes
  headers : List (Bytes × Bytes)
  deriving DecidableEq

namespace Shape

/-- The assignments. -/
def assign (shape : Shape) (r : ClientRequest) : ClientRequest :=
  let r := { r with method := shape.method }
  let r := match shape.destination with
    | .path p => { r with path := p }
    | .url u => { r with url := u }
  match shape.body with
  | none => r
  | some body => { r with body := body }

/-- The assignments, and the calls of `SetHeader`, whose results are dropped. -/
def fill (shape : Shape) (r : ClientRequest) : ClientRequest :=
  let r := shape.assign r
  { r with toOutgoing := r.toOutgoing.setHeaders shape.headers }

/-- `Client.Get` and `Batch.Get`; so for the others. -/
def get (path : Bytes) (headers : List (Bytes × Bytes)) : Shape :=
  ⟨ascii "GET", .path path, none, headers⟩

def getURL (rawURL : Bytes) (headers : List (Bytes × Bytes)) : Shape :=
  ⟨ascii "GET", .url rawURL, none, headers⟩

def post (path body : Bytes) (headers : List (Bytes × Bytes)) : Shape :=
  ⟨ascii "POST", .path path, some body, headers⟩

def postURL (rawURL body : Bytes) (headers : List (Bytes × Bytes)) : Shape :=
  ⟨ascii "POST", .url rawURL, some body, headers⟩

def put (path body : Bytes) (headers : List (Bytes × Bytes)) : Shape :=
  ⟨ascii "PUT", .path path, some body, headers⟩

def patch (path body : Bytes) (headers : List (Bytes × Bytes)) : Shape :=
  ⟨ascii "PATCH", .path path, some body, headers⟩

def delete (path : Bytes) (headers : List (Bytes × Bytes)) : Shape :=
  ⟨ascii "DELETE", .path path, none, headers⟩

/-- `Client.Head`, which a batch does not have. -/
def head (path : Bytes) (headers : List (Bytes × Bytes)) : Shape :=
  ⟨ascii "HEAD", .path path, none, headers⟩

/-- `Client.Options`. -/
def options (path : Bytes) (headers : List (Bytes × Bytes)) : Shape :=
  ⟨ascii "OPTIONS", .path path, none, headers⟩

/-- `Client.DoReader`, when the reader has brought `body`. -/
def doReader (method urlOrPath body : Bytes) (headers : List (Bytes × Bytes)) : Shape where
  method := method
  destination :=
    if (ascii "http://").isPrefixOf urlOrPath || (ascii "https://").isPrefixOf urlOrPath then
      .url urlOrPath
    else .path urlOrPath
  body := some body
  headers := headers

end Shape

/-! ### The header buffer -/

namespace Depot

/-- No request of the client takes more bytes of headers. -/
def headerLimit (d : Depot) : ℕ := max d.headerBufSize (1024 * 1024)

/-- The sizes that the header buffer of a request object can have. -/
def Roomy (d : Depot) (header : Page UInt8) : Prop :=
  d.headerBufSize ≤ header.buf.length ∧ header.buf.length ≤ d.headerLimit

variable {d : Depot}

theorem roomy_blank : d.Roomy (Page.blank (List.replicate d.headerBufSize 0)) := by
  constructor
  · exact (List.length_replicate).ge
  · exact (List.length_replicate).le.trans (Nat.le_max_left _ _)

theorem Roomy.releaseRequest {r : ClientRequest} (h : d.Roomy r.header) :
    d.Roomy (d.releaseRequest r).header := by
  show d.Roomy (if _ then _ else _)
  split
  · exact roomy_blank
  · exact h

/-- The buffer grows, up to the limit. -/
theorem Roomy.ensureHeaderBufferSize {header : Page UInt8} (h : d.Roomy header) {required : ℕ}
    (hpos : header.pos ≤ required) :
    if required ≤ d.headerLimit then
      ∃ page, ensureHeaderBufferSize header required = some page ∧ d.Roomy page ∧
        required ≤ page.buf.length
    else BurstHttp.ensureHeaderBufferSize header required = none := by
  obtain ⟨hlow, hhigh⟩ := h
  unfold BurstHttp.ensureHeaderBufferSize
  by_cases hroom : required ≤ header.buf.length
  · rw [if_pos hroom, if_pos (hroom.trans hhigh)]
    exact ⟨header, rfl, ⟨hlow, hhigh⟩, hroom⟩
  rw [if_neg hroom]
  dsimp only
  -- the size before it is cut at the limit has room
  have hgrown : ∃ size, required ≤ size ∧ header.buf.length ≤ size ∧
      (if max (header.buf.length * 2) required % 4096 ≠ 0 then
        (max (header.buf.length * 2) required / 4096 + 1) * 4096
      else max (header.buf.length * 2) required) = size := by
    refine ⟨_, ?_, ?_, rfl⟩ <;> split <;> omega
  obtain ⟨size, hsize, hlonger, heq⟩ := hgrown
  rw [heq]
  have hlimit : d.headerLimit = max d.headerBufSize (1024 * 1024) := rfl
  by_cases hfits : required ≤ d.headerLimit
  · rw [if_pos hfits]
    have hmega : required ≤ 1024 * 1024 := by omega
    rw [if_neg (by omega)]
    have hput : (Page.blank (List.replicate (min size (1024 * 1024)) (0 : UInt8))).pos
        + header.written.length
        ≤ (Page.blank (List.replicate (min size (1024 * 1024)) (0 : UInt8))).buf.length := by
      simp only [Page.blank, Page.length_written, List.length_replicate]
      omega
    obtain ⟨page, hpage⟩ := Page.put_of_le hput
    obtain ⟨-, -, hlen⟩ := Page.of_put hpage
    simp only [Page.blank, List.length_replicate] at hlen
    exact ⟨page, hpage, ⟨by omega, by omega⟩, by omega⟩
  · rw [if_neg hfits, if_pos (by omega)]

/-- A call of `SetHeader` succeeds if the field is clean and within the limit. -/
theorem Roomy.setHeader {req : Outgoing} (h : d.Roomy req.header) (field : Bytes × Bytes) :
    d.Roomy (req.setHeader field.1 field.2).2.header ∧
      (req.setHeader field.1 field.2).1 = (!(containsCRLF field.1 || containsCRLF field.2) &&
        decide (req.header.pos + (fieldLine field ++ [CR, LF]).length ≤ d.headerLimit)) := by
  have hensure := h.ensureHeaderBufferSize
    (Nat.le_add_right req.header.pos (fieldLine field ++ [CR, LF]).length)
  unfold Outgoing.setHeader
  by_cases hbad : (containsCRLF field.1 || containsCRLF field.2) = true
  · rw [if_pos hbad, hbad]
    exact ⟨h, rfl⟩
  rw [if_neg hbad, Bool.eq_false_iff.mpr hbad,
    show field.1 ++ ascii ": " ++ field.2 = fieldLine field from rfl]
  dsimp only
  by_cases hfits : req.header.pos + (fieldLine field ++ [CR, LF]).length ≤ d.headerLimit
  · rw [if_pos hfits] at hensure
    obtain ⟨page, hpage, hroomy, hlen⟩ := hensure
    have hpos : page.pos = req.header.pos := by
      rw [← Page.length_written, ensureHeaderBufferSize_written hpage, Page.length_written]
    obtain ⟨header, hput⟩ := Page.put_of_le (l := fieldLine field ++ [CR, LF]) (hpos ▸ hlen)
    rw [hpage, Option.bind_some, hput, decide_eq_true hfits]
    refine ⟨?_, rfl⟩
    show d.headerBufSize ≤ header.buf.length ∧ header.buf.length ≤ d.headerLimit
    rw [(Page.of_put hput).2.2]
    exact hroomy
  · rw [if_neg hfits] at hensure
    rw [hensure, Option.bind_none, decide_eq_false hfits]
    exact ⟨h, rfl⟩

/-- The same calls are accepted whatever the buffer was before, if the same is in it. -/
theorem Roomy.accepted {req req' : Outgoing} (h : d.Roomy req.header) (h' : d.Roomy req'.header)
    (hsame : req'.header.written = req.header.written) (calls : List (Bytes × Bytes)) :
    req'.accepted calls = req.accepted calls := by
  induction calls generalizing req req' with
  | nil => rfl
  | cons field rest ih =>
    obtain ⟨hroomy, htrue⟩ := h.setHeader field
    obtain ⟨hroomy', htrue'⟩ := h'.setHeader field
    have hpos : req'.header.pos = req.header.pos := by
      rw [← Page.length_written, hsame, Page.length_written]
    have hsame₁ : (req'.setHeader field.1 field.2).1 = (req.setHeader field.1 field.2).1 := by
      rw [htrue, htrue', hpos]
    have hwritten : (req'.setHeader field.1 field.2).2.header.written
        = (req.setHeader field.1 field.2).2.header.written := by
      rcases setHeader_cases req field with hone | ⟨header, hone, hwritten, -⟩ <;>
        rcases setHeader_cases req' field with hone' | ⟨header', hone', hwritten', -⟩ <;>
        rw [hone, hone'] at hsame₁ ⊢
      · exact hsame
      · cases hsame₁
      · cases hsame₁
      · exact hwritten'.trans (hsame ▸ hwritten.symm)
    rw [Outgoing.accepted, Outgoing.accepted, ih hroomy hroomy' hwritten, hsame₁]

end Depot

/-! ### Used objects and new ones -/

namespace ClientRequest

/-- The buffers, and nothing else, are replaced. -/
def setBuffers (r : ClientRequest) (header : Page UInt8) (bodyBufLen : ℕ) : ClientRequest :=
  { r with header := header, bodyBufLen := bodyBufLen }

/-- The requests have the same in all fields, and the same bytes of headers; the sizes of their
buffers may differ. -/
def Alike (r r' : ClientRequest) : Prop :=
  ∃ header bodyBufLen, r' = r.setBuffers header bodyBufLen ∧ header.written = r.header.written

/-- What `DoWithContext` puts into a request before it is sent. -/
def routed (r : ClientRequest) (path : Bytes) (resp : Option Response) : ClientRequest :=
  { r with parsedPath := path, resp := resp }

theorem Alike.routed {r r' : ClientRequest} (h : Alike r r') (path : Bytes) (resp : Option Response) :
    Alike (r.routed path resp) (r'.routed path resp) := by
  obtain ⟨header, n, rfl, hsame⟩ := h
  exact ⟨header, n, rfl, hsame⟩

end ClientRequest

open ClientRequest (Alike)

namespace Shape

theorem assign_setBuffers (shape : Shape) (r : ClientRequest) (header : Page UInt8) (n : ℕ) :
    shape.assign (r.setBuffers header n) = (shape.assign r).setBuffers header n := by
  obtain ⟨method, destination, body, headers⟩ := shape
  cases destination <;> cases body <;> rfl

theorem assign_header (shape : Shape) (r : ClientRequest) :
    (shape.assign r).header = r.header := by
  obtain ⟨method, destination, body, headers⟩ := shape
  cases destination <;> cases body <;> rfl

theorem fill_compressed (shape : Shape) (r : ClientRequest) :
    (shape.fill r).compressed = r.compressed := by
  obtain ⟨header, hframe⟩ := setHeaders_frame (shape.assign r).toOutgoing shape.headers
  rw [fill, hframe]
  obtain ⟨method, destination, body, headers⟩ := shape
  cases destination <;> cases body <;> rfl

variable {d : Depot}

/-- Requests that say the same still do when they are filled in the same way. -/
theorem fill_alike (shape : Shape) {r r' : ClientRequest} (h : d.Roomy r.header)
    (h' : d.Roomy r'.header) (halike : Alike r r') : Alike (shape.fill r) (shape.fill r') := by
  obtain ⟨header, n, rfl, hsame⟩ := halike
  have hroomy : d.Roomy (shape.assign r).header := shape.assign_header r ▸ h
  have hroomy' : d.Roomy ((shape.assign r).setBuffers header n).header := h'
  have hwritten : ((shape.assign r).setBuffers header n).header.written
      = (shape.assign r).header.written :=
    hsame.trans (congrArg Page.written (shape.assign_header r).symm)
  have haccepted := hroomy.accepted hroomy' hwritten shape.headers
  obtain ⟨page, hpage⟩ := setHeaders_frame (shape.assign r).toOutgoing shape.headers
  obtain ⟨page', hpage'⟩ :=
    setHeaders_frame ((shape.assign r).setBuffers header n).toOutgoing shape.headers
  refine ⟨page', n, ?_, ?_⟩
  · rw [fill, assign_setBuffers, hpage', fill, hpage]
    rfl
  · calc page'.written
        = (((shape.assign r).setBuffers header n).toOutgoing.setHeaders
            shape.headers).header.written := by rw [hpage']
      _ = ((shape.assign r).toOutgoing.setHeaders shape.headers).header.written := by
          rw [setHeaders_written, setHeaders_written, haccepted, hwritten]

end Shape

/-- Requests that say the same are sent as the same bytes.  The size of `bodyBuf` counts only
when the body is compressed. -/
theorem send_alike (c : Sender) (buf : WriteBuf) (pipelining continued : Bool)
    {r r' : ClientRequest} (h : Alike r r') (hplain : r.compressed = false) :
    c.send buf pipelining continued r'.toOutgoing = c.send buf pipelining continued r.toOutgoing := by
  obtain ⟨header, n, rfl, hsame⟩ := h
  have hbody : prepareBody c.client.maxReqSize c.client.compressor (r.setBuffers header n).toRequest
      = prepareBody c.client.maxReqSize c.client.compressor r.toRequest := by
    simp [prepareBody, ClientRequest.setBuffers, hplain]
  have hwrite : ∀ body compressed, c.writeRequest buf (r.setBuffers header n).toOutgoing body compressed
      = c.writeRequest buf r.toOutgoing body compressed := by
    intro body compressed
    unfold Sender.writeRequest
    rw [show (r.setBuffers header n).header.written = r.header.written from hsame]
    rfl
  unfold Sender.send
  simp only [hbody, hwrite]
  rfl

/-! ### Uses of an object -/

/-- What can happen to a request object: any field but the headers is written, a header is set,
the object is reset, or it goes through the pool. -/
inductive Act
  | write (fields : ClientRequest)
  | setHeader (field : Bytes × Bytes)
  | reset
  | recycle

namespace Depot

variable (d : Depot)

def act (r : ClientRequest) : Act → ClientRequest
  | .write fields => { fields with header := r.header }
  | .setHeader field => { r with toOutgoing := (r.toOutgoing.setHeader field.1 field.2).2 }
  | .reset => r.reset
  | .recycle => d.acquireRequest (d.releaseRequest r)

theorem act_roomy {d : Depot} {r : ClientRequest} (h : d.Roomy r.header) (a : Act) :
    d.Roomy (d.act r a).header := by
  cases a with
  | write fields => exact h
  | setHeader field => exact (h.setHeader field).1
  | reset => exact h
  | recycle => exact h.releaseRequest

theorem foldl_act_roomy {d : Depot} {r : ClientRequest} (h : d.Roomy r.header) (acts : List Act) :
    d.Roomy (acts.foldl d.act r).header := by
  induction acts generalizing r with
  | nil => exact h
  | cons a acts ih => exact ih (act_roomy h a)

/-- The request that a shorthand makes of a new object. -/
def fresh (shape : Shape) : ClientRequest := shape.fill (d.acquireRequest d.newRequest)

/-- **Nothing of earlier uses shows.**  Whatever has been done with a request object, when it
comes from the pool and a shorthand fills it, it has the fields and the headers that a new object
would have; whatever `DoWithContext` then puts into it, the same bytes are sent. -/
theorem recycled_alike (acts : List Act) (shape : Shape) :
    let r := shape.fill (d.acquireRequest (d.releaseRequest (acts.foldl d.act d.newRequest)))
    Alike r (d.fresh shape) ∧
    ∀ (c : Sender) (buf : WriteBuf) (pipelining continued : Bool) (path : Bytes)
      (resp : Option Response),
      c.send buf pipelining continued (r.routed path resp).toOutgoing
        = c.send buf pipelining continued ((d.fresh shape).routed path resp).toOutgoing := by
  have hroomy : d.Roomy (acts.foldl d.act d.newRequest).header :=
    foldl_act_roomy roomy_blank acts
  have halike : Alike (shape.fill (d.acquireRequest (d.releaseRequest
      (acts.foldl d.act d.newRequest)))) (d.fresh shape) :=
    -- an object that is reset has its buffer
    shape.fill_alike (act_roomy hroomy .recycle) roomy_blank
      ⟨(d.acquireRequest d.newRequest).header, d.bodyBufSize, rfl, rfl⟩
  refine ⟨halike, fun c buf pipelining continued path resp => Eq.symm ?_⟩
  exact send_alike c buf pipelining continued (halike.routed path resp) (shape.fill_compressed _)

end Depot

end BurstHttp
