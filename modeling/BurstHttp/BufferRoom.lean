/-
Room for a request (connection.go, `getWriteBuf`, `writeRequest`; config.go, `Validate`).

`WriteBufferSize` is how much `getWriteBuf` may grow a buffer to, but `writeRequest` asks
for 512 bytes, which every buffer of the pool has already.

* `getWriteBuf_pooled` — so the buffer is the one of the pool, whatever the size;
* `Sender.firstLength`, `Sender.lastLength` — how long the parts around the headers are;
* `encodes_iff` — the requests that can be encoded.
-/
import BurstHttp.Writer

namespace BurstHttp

/-- The field of `Config` that says how large a head may be. -/
structure BufferConfig where
  writeBufferSize : ℤ

/-- `Config.Validate`, which has no other say in this. -/
def BufferConfig.validate (cfg : BufferConfig) : BufferConfig :=
  if cfg.writeBufferSize ≤ 0 then ⟨64 * 1024⟩ else cfg

/-- `Connection.getWriteBuf`, where the pool hands out `buf`. -/
def getWriteBuf (writeBufSize : ℤ) (buf : Bytes) (requiredSize : ℕ) : Bytes :=
  if requiredSize ≤ buf.length then buf
  else
    let newSize := max (buf.length * 2) requiredSize
    if writeBufSize < newSize then
      if writeBufSize < requiredSize then List.replicate requiredSize 0
      else
        let newSize := writeBufSize.toNat
        List.replicate (if newSize % 4096 ≠ 0 then (newSize / 4096 + 1) * 4096 else newSize) 0
    else
      List.replicate (if newSize % 4096 ≠ 0 then (newSize / 4096 + 1) * 4096 else newSize) 0

theorem getWriteBuf_pooled (writeBufSize : ℤ) (buf : WriteBuf) :
    getWriteBuf writeBufSize buf 512 = buf := by
  have hlen := buf.2
  exact if_pos (by omega)

namespace Sender

/-- `writeRequest` with the buffer that `getWriteBuf` gets for it. -/
def encode (c : Sender) (cfg : BufferConfig) (pooled : WriteBuf) (req : Outgoing) (body : Bytes)
    (compressed : Bool) : Except EncodeErr (Bytes × Bytes) :=
  c.writeRequest
    ⟨getWriteBuf cfg.writeBufferSize pooled 512, by rw [getWriteBuf_pooled]; exact pooled.2⟩
    req body compressed

/-- The head of a request, from the request line through the empty line. -/
def head (c : Sender) (req : Outgoing) (body : Bytes) (compressed : Bool) : Bytes :=
  if req.preEncodedHeaderPrefix = [] then
    c.firstBytes req compressed ++ req.header.written ++ c.lastBytes req body.length
  else req.preEncodedHeaderPrefix ++ joinLines [lengthLine body.length] ++ [CR, LF]

/-- The length of what precedes the headers of the request. -/
def firstLength (c : Sender) (req : Outgoing) (compressed : Bool) : ℕ :=
  req.effectiveMethod.length
    + (if c.client.isForwardProxy c.tls then 7 + c.host.length + (portSuffix 80 c.port).length else 0)
    + req.effectivePath.length + 12
    + (8 + c.host.length + (portSuffix (if c.client.cfg.useTLS then 443 else 80) c.port).length)
    + (if c.client.cfg.keepAlive && !c.client.cfg.disableKeepAlive then 24 else 19)
    + if compressed then 24 else 0

/-- The length of what follows them. -/
def lastLength (c : Sender) (req : Outgoing) (bodyLen : ℕ) : ℕ :=
  (c.client.proxyAuthHeader c.tls).length
    + (if req.expectContinue && decide (0 < bodyLen) then 22 else 0)
    + (Decimal.digits bodyLen).length + 20

theorem length_firstBytes (c : Sender) (req : Outgoing) (compressed : Bool) :
    (c.firstBytes req compressed).length = c.firstLength req compressed := by
  have hline : (ascii " HTTP/1.1").length = 9 := by decide
  have hhost : (ascii "Host: ").length = 6 := by decide
  have hhttp : (ascii "http://").length = 7 := by decide
  have halive : (ascii "Connection: keep-alive").length = 22 := by decide
  have hclose : (ascii "Connection: close").length = 17 := by decide
  have hgzip : (ascii "Content-Encoding: gzip").length = 22 := by decide
  simp only [firstBytes, firstLines, joinLines_append, joinLines_cons, joinLines_nil,
    List.length_append, List.length_cons, List.length_nil, requestLine, hostLine, connectionLine,
    encodingLines, hline, hhost, firstLength]
  split_ifs <;> simp [hhttp, halive, hclose, hgzip] <;> omega

theorem length_lastBytes (c : Sender) (req : Outgoing) (bodyLen : ℕ) :
    (c.lastBytes req bodyLen).length = c.lastLength req bodyLen := by
  have hlength : (ascii "Content-Length: ").length = 16 := by decide
  have hexpect : (ascii "Expect: 100-continue").length = 20 := by decide
  simp only [lastBytes, List.length_append, joinLines_cons, joinLines_nil, List.length_cons,
    List.length_nil, lengthLine, hlength, expectLines, lastLength]
  split_ifs <;> simp [hexpect] <;> omega

/-- When `writeRequest` does not fail. -/
theorem encode_ok_iff (c : Sender) (cfg : BufferConfig) (pooled : WriteBuf) (req : Outgoing)
    (body : Bytes) (compressed : Bool) :
    (∀ e, c.encode cfg pooled req body compressed ≠ .error e) ↔
      req.preEncodedHeaderPrefix ≠ []
        ∨ c.firstLength req compressed ≤ 16 * 1024 ∧ c.lastLength req body.length ≤ 128 := by
  by_cases hplain : req.preEncodedHeaderPrefix = []
  · rw [encode, writeRequest_plain _ _ _ hplain, length_firstBytes, length_lastBytes]
    split_ifs with hfirst hlast
    · simp [hplain, hfirst]
    · simp [hplain, hlast]
    · simp only [ne_eq, reduceCtorEq, not_false_eq_true, implies_true, true_iff]
      exact Or.inr ⟨not_lt.mp hfirst, not_lt.mp hlast⟩
  · refine iff_of_true ?_ (Or.inl hplain)
    intro e he
    rw [encode, writeRequest, if_pos (List.length_pos_of_ne_nil hplain)] at he
    cases he

end Sender

/-- **Room for a head.**  A head of at most `WriteBufferSize` bytes is encoded exactly if it was
encoded before, or what precedes the headers has room in a buffer of the pool and what follows
them in 128 bytes. -/
theorem encodes_iff (c : Sender) (cfg : BufferConfig) (pooled : WriteBuf) (req : Outgoing)
    (body : Bytes) (compressed : Bool) :
    (((c.head req body compressed).length : ℤ) ≤ cfg.validate.writeBufferSize →
        ∀ e, c.encode cfg.validate pooled req body compressed ≠ .error e) ↔
      req.preEncodedHeaderPrefix ≠ []
        ∨ c.firstLength req compressed ≤ 16 * 1024 ∧ c.lastLength req body.length ≤ 128
        ∨ cfg.validate.writeBufferSize
            < c.firstLength req compressed + req.header.pos + c.lastLength req body.length := by
  rw [Sender.encode_ok_iff]
  by_cases hplain : req.preEncodedHeaderPrefix = []
  · have hlen : (c.head req body compressed).length
        = c.firstLength req compressed + req.header.pos + c.lastLength req body.length := by
      rw [Sender.head, if_pos hplain, List.length_append, List.length_append,
        Sender.length_firstBytes, Sender.length_lastBytes, Page.length_written]
    rw [hlen]
    push_cast
    simp only [hplain, ne_eq, not_true_eq_false, false_or]
    rw [← not_lt]
    tauto
  · simp [hplain]

/-- A forward proxy whose user name and password have forty bytes each. -/
def longCredentials : Sender where
  client :=
    { cfg := ⟨true, false, false⟩
      proxyDialer := some ⟨List.replicate 40 117, List.replicate 40 112⟩
      maxReqSize := 1024
      compressor := none }
  host := ascii "example.com"
  port := 80
  tls := false

theorem longCredentials_writeRequest (buf : WriteBuf) :
    longCredentials.writeRequest buf getIndex [] false = .error .part3 := by
  have hfirst : ¬ 16 * 1024 < (longCredentials.firstBytes getIndex false).length := by
    decide +kernel
  have hlast : 128 < (longCredentials.lastBytes getIndex 0).length := by decide +kernel
  rw [Sender.writeRequest_plain _ _ _ rfl, if_neg hfirst]
  exact if_pos hlast

/-- With the default size of 64 KiB, `GET /` has no room for the credentials. -/
theorem encode_longCredentials :
    ((longCredentials.head getIndex [] false).length : ℤ)
        ≤ (BufferConfig.validate ⟨0⟩).writeBufferSize
      ∧ ∀ pooled, longCredentials.encode (BufferConfig.validate ⟨0⟩) pooled getIndex [] false
        = .error .part3 :=
  ⟨by decide +kernel, fun _ => longCredentials_writeRequest _⟩

end BurstHttp
