/-
The encoding of a request (writer.go; request.go, `SetHeader`, `effectivePath`;
connection.go, `writeRequest`; client.go, `BuildPreEncodedHeaderPrefix`).

A head is written piece by piece into a buffer of fixed size (`Page`), or in three
parts into three buffers.  The source repeats the first lines of a head in three
functions; the pieces that occur in several of them are definitions here
(`writeRequestLine`, `writeHost`, …), and each function has its own sequence of them.

* `writeRequest`, `writeRequestPart1`, `writeRequestPart3`, `writeRequestHeaderPrefix` —
  the encoders, and `Sender.writeRequest` — what a connection puts on the wire;
* `headLines` and `joinLines` — a head as lines, and `writeRequestPart1_eq`,
  `writeRequestPart3_eq`, `writeRequest_eq`, `writeRequestHeaderPrefix_eq` — each
  encoder writes such lines, if they fit;
* `vectored_eq_single` — the three parts are what `writeRequest` writes.
-/
import BurstHttp.Connection
import BurstHttp.Lib.Decimal
import BurstHttp.Lib.Page

namespace BurstHttp

/-! ### The request -/

/-- The fields of `Request` that are written.  `header` is `headerBuf` with `headerLen`. -/
structure Outgoing extends Request where
  path : Bytes
  parsedPath : Bytes
  header : Page UInt8
  preEncodedHeaderPrefix : Bytes

/-- `Request.effectivePath`. -/
def Outgoing.effectivePath (req : Outgoing) : Bytes :=
  if req.parsedPath ≠ [] then req.parsedPath
  else if req.path ≠ [] then req.path
  else ascii "/"

/-- The method the encoders write. -/
def Outgoing.effectiveMethod (req : Outgoing) : Bytes :=
  if req.method = [] then ascii "GET" else req.method

def containsCRLF (s : Bytes) : Bool := s.any fun b => b == CR || b == LF

/-- `Request.ensureHeaderBufferSize`; nothing, if it returns false. -/
def ensureHeaderBufferSize (header : Page UInt8) (required : ℕ) : Option (Page UInt8) :=
  if required ≤ header.buf.length then some header
  else
    let newSize := max (header.buf.length * 2) required
    let newSize := if newSize % 4096 ≠ 0 then (newSize / 4096 + 1) * 4096 else newSize
    let newSize := min newSize (1024 * 1024)
    if newSize < required then none else (Page.blank (List.replicate newSize 0)).put header.written

/-- `Request.SetHeader`. -/
def Outgoing.setHeader (req : Outgoing) (key value : Bytes) : Bool × Outgoing :=
  if containsCRLF key || containsCRLF value then (false, req)
  else
    let field := key ++ ascii ": " ++ value ++ [CR, LF]
    -- the copies behind `ensureHeaderBufferSize` have room
    match (ensureHeaderBufferSize req.header (req.header.pos + field.length)).bind (Page.put field) with
    | none => (false, req)
    | some header => (true, { req with header := header })

/-! ### Writing into a buffer -/

/-- `writeString` and `writeBytes`. -/
def writeBytes (s : Bytes) (p : Page UInt8) : Option (Page UInt8) := p.put s

def writeByte (b : UInt8) (p : Page UInt8) : Option (Page UInt8) := p.put [b]

/-- The loop of `writeInt`: the digits of `n` before those in `tmp`. -/
def writeIntLoop : ℕ → ℕ → Bytes → Bytes
  | 0, _, tmp => tmp
  | fuel + 1, n, tmp =>
    if n = 0 then tmp else writeIntLoop fuel (n / 10) (Decimal.digit (n % 10) :: tmp)

def writeInt (n : ℤ) (p : Page UInt8) : Option (Page UInt8) :=
  if n < 0 then none
  else
    let n := n.toNat
    let digit := Decimal.digit
    if n = 0 then writeByte (digit 0) p
    else if n < 10 then writeByte (digit n) p
    else if n < 100 then p.put [digit (n / 10), digit (n % 10)]
    else if n < 1000 then p.put [digit (n / 100), digit (n / 10 % 10), digit (n % 10)]
    else if n < 10000 then
      p.put [digit (n / 1000), digit (n / 100 % 10), digit (n / 10 % 10), digit (n % 10)]
    else writeBytes (writeIntLoop n n []) p

/-! ### The encoders -/

/-- The fields of `Config` that are written, and `UseTLS`. -/
structure HeadConfig where
  keepAlive : Bool
  disableKeepAlive : Bool
  useTLS : Bool

/-- `:port`, unless it is the default port. -/
def writePort (defaultPort port : ℤ) (p : Page UInt8) : Option (Page UInt8) :=
  if 0 < port ∧ port ≠ defaultPort then do
    let p ← writeByte 58 p
    writeInt port p
  else some p

/-- What makes a target absolute, for a forward proxy. -/
def writeOrigin (host : Bytes) (port : ℤ) (forwardProxy : Bool) (p : Page UInt8) :
    Option (Page UInt8) :=
  if forwardProxy then do
    let p ← writeBytes (ascii "http://") p
    let p ← writeBytes host p
    writePort 80 port p
  else some p

def writeRequestLine (req : Outgoing) (host : Bytes) (port : ℤ) (forwardProxy : Bool)
    (p : Page UInt8) : Option (Page UInt8) := do
  let p ← writeBytes req.effectiveMethod p
  let p ← writeByte SP p
  let p ← writeOrigin host port forwardProxy p
  let p ← writeBytes req.effectivePath p
  writeBytes (ascii " HTTP/1.1\r\n") p

def writeHost (host : Bytes) (port : ℤ) (useTLS : Bool) (p : Page UInt8) :
    Option (Page UInt8) := do
  let p ← writeBytes (ascii "Host: ") p
  let p ← writeBytes host p
  let p ← writePort (if useTLS then 443 else 80) port p
  writeBytes (ascii "\r\n") p

def writeConnection (cfg : HeadConfig) (p : Page UInt8) : Option (Page UInt8) :=
  if cfg.keepAlive && !cfg.disableKeepAlive then writeBytes (ascii "Connection: keep-alive\r\n") p
  else writeBytes (ascii "Connection: close\r\n") p

def writeEncoding (compressed : Bool) (p : Page UInt8) : Option (Page UInt8) :=
  if compressed then writeBytes (ascii "Content-Encoding: gzip\r\n") p else some p

def writeHeaders (req : Outgoing) (p : Page UInt8) : Option (Page UInt8) :=
  if 0 < req.header.pos then writeBytes req.header.written p else some p

def writeAuth (forwardProxy : Bool) (proxyAuthHeader : Bytes) (p : Page UInt8) :
    Option (Page UInt8) :=
  if forwardProxy && decide (0 < proxyAuthHeader.length) then writeBytes proxyAuthHeader p
  else some p

def writeExpect (expects : Bool) (p : Page UInt8) : Option (Page UInt8) :=
  if expects then writeBytes (ascii "Expect: 100-continue\r\n") p else some p

def writeLength (n : ℕ) (p : Page UInt8) : Option (Page UInt8) := do
  let p ← writeBytes (ascii "Content-Length: ") p
  let p ← writeInt n p
  writeBytes (ascii "\r\n\r\n") p

/-- `writeRequestPart1`; nothing is `ErrHeaderBufferSmall`, in all encoders. -/
def writeRequestPart1 (buf : Bytes) (req : Outgoing) (cfg : HeadConfig) (host : Bytes) (port : ℤ)
    (useTLS compressed forwardProxy : Bool) : Option (Page UInt8) := do
  let p ← writeRequestLine req host port forwardProxy (.blank buf)
  let p ← writeHost host port useTLS p
  let p ← writeConnection cfg p
  writeEncoding compressed p

def writeRequestPart3 (buf : Bytes) (req : Outgoing) (bodyLen : ℕ) (proxyAuthHeader : Bytes) :
    Option (Page UInt8) := do
  -- whatever the connection: it has this header for a forward proxy only
  let p ← writeAuth true proxyAuthHeader (.blank buf)
  let p ← writeExpect (req.expectContinue && decide (0 < bodyLen)) p
  writeLength bodyLen p

def writeRequest (buf : Bytes) (req : Outgoing) (cfg : HeadConfig) (host : Bytes) (port : ℤ)
    (useTLS : Bool) (body : Bytes) (compressed forwardProxy : Bool) (proxyAuthHeader : Bytes) :
    Option (Page UInt8) := do
  let p ← writeRequestLine req host port forwardProxy (.blank buf)
  let p ← writeHost host port useTLS p
  let p ← writeConnection cfg p
  let p ← writeEncoding compressed p
  let p ← writeHeaders req p
  let p ← writeAuth forwardProxy proxyAuthHeader p
  let p ← writeExpect (req.expectContinue && decide (0 < body.length)) p
  writeLength body.length p

/-- `writeRequestHeaderPrefix`: it does not know the body. -/
def writeRequestHeaderPrefix (buf : Bytes) (req : Outgoing) (cfg : HeadConfig) (host : Bytes)
    (port : ℤ) (useTLS compressed forwardProxy : Bool) (proxyAuthHeader : Bytes) :
    Option (Page UInt8) := do
  let p ← writeRequestLine req host port forwardProxy (.blank buf)
  let p ← writeHost host port useTLS p
  let p ← writeConnection cfg p
  let p ← writeEncoding compressed p
  let p ← writeHeaders req p
  let p ← writeAuth forwardProxy proxyAuthHeader p
  writeExpect req.expectContinue p

/-! ### Sending -/

/-- The alphabet of `base64.StdEncoding`. -/
def base64Alphabet : Bytes :=
  ascii "ABCDEFGHIJKLMNOPQRSTUVWXYZabcdefghijklmnopqrstuvwxyz0123456789+/"

/-- The character for six bits; `=` is the padding. -/
def base64Char (n : ℕ) : UInt8 := base64Alphabet.getD n 61

/-- `base64.StdEncoding.EncodeToString`. -/
def base64 : Bytes → Bytes
  | a :: b :: c :: rest =>
    base64Char (a.toNat / 4) :: base64Char (a.toNat % 4 * 16 + b.toNat / 16)
      :: base64Char (b.toNat % 16 * 4 + c.toNat / 64) :: base64Char (c.toNat % 64) :: base64 rest
  | [a, b] =>
    [base64Char (a.toNat / 4), base64Char (a.toNat % 4 * 16 + b.toNat / 16),
      base64Char (b.toNat % 16 * 4), 61]
  | [a] => [base64Char (a.toNat / 4), base64Char (a.toNat % 4 * 16), 61, 61]
  | [] => []

/-- `ProxyDialer`: the credentials of `Config`. -/
structure ProxyDialer where
  username : Bytes
  password : Bytes

/-- `authHeader` of a `ProxyDialer`. -/
def ProxyDialer.authHeader (d : ProxyDialer) : Bytes :=
  if d.username ≠ [] ∨ d.password ≠ [] then
    ascii "Proxy-Authorization: Basic " ++ base64 (d.username ++ [58] ++ d.password)
      ++ ascii "\r\n"
  else []

/-- The fields of `Client` that its connections share: `config`, the proxy of its `dialer`,
and `compressor`. -/
structure Client where
  cfg : HeadConfig
  proxyDialer : Option ProxyDialer
  maxReqSize : ℤ
  compressor : Option (Bytes → Except GoErr Bytes)

/-- `Dialer.IsForwardProxy`. -/
def Client.isForwardProxy (c : Client) (useTLS : Bool) : Bool := c.proxyDialer.isSome && !useTLS

/-- `Dialer.ProxyAuthHeader`, for a forward proxy. -/
def Client.proxyAuthHeader (c : Client) (useTLS : Bool) : Bytes :=
  if c.isForwardProxy useTLS then (c.proxyDialer.map ProxyDialer.authHeader).getD [] else []

/-- `Client.BuildPreEncodedHeaderPrefix`. -/
def Client.buildPreEncodedHeaderPrefix (c : Client) (req : Outgoing) (host : Bytes) (port : ℤ)
    (useTLS : Bool) : Option Bytes :=
  (writeRequestHeaderPrefix (List.replicate 8192 0) req c.cfg host port useTLS req.compressed
    (c.isForwardProxy useTLS) (c.proxyAuthHeader useTLS)).map Page.written

/-- A `Connection` of a client: where it goes, and whether it has a `tlsConfig`. -/
structure Sender where
  client : Client
  host : Bytes
  port : ℤ
  tls : Bool

/-- A buffer of `connectionWriteBufPool`: they keep the size they are made with. -/
abbrev WriteBuf := { buf : Bytes // buf.length = 16 * 1024 }

/-- What keeps `writeRequest` from writing. -/
inductive EncodeErr
  | part1    -- "encode request part1 failed"
  | part3    -- "encode request part3 failed"
  deriving DecidableEq, Repr

namespace Sender

/-- `Connection.writeRequest`: the head and the body, when every write goes through. -/
def writeRequest (c : Sender) (buf : WriteBuf) (req : Outgoing) (body : Bytes)
    (compressed : Bool) : Except EncodeErr (Bytes × Bytes) :=
  if 0 < req.preEncodedHeaderPrefix.length then
    .ok (req.preEncodedHeaderPrefix ++ ascii "Content-Length: " ++ Decimal.digits body.length
      ++ ascii "\r\n\r\n", body)
  else
    match writeRequestPart1 buf req c.client.cfg c.host c.port c.client.cfg.useTLS compressed
      (c.client.isForwardProxy c.tls) with
    | none => .error .part1
    | some p1 =>
      match writeRequestPart3 (List.replicate 128 0) req body.length
        (c.client.proxyAuthHeader c.tls) with
      | none => .error .part3
      | some p3 => .ok (p1.written ++ req.header.written ++ p3.written, body)

/-- What a call of `Do` writes when every write goes through: with `Expect: 100-continue` and
without pipelining the body follows once the server has answered 100 (`continued`). -/
def send (c : Sender) (buf : WriteBuf) (pipelining continued : Bool) (req : Outgoing) : Bytes :=
  match prepareBody c.client.maxReqSize c.client.compressor req.toRequest with
  | .error _ => []
  | .ok (body, compressed) =>
    if !pipelining && req.resp.isNone then []
    else if !pipelining && req.expectContinue && decide (0 < body.length) then
      match c.writeRequest buf req [] compressed with
      | .error _ => []
      | .ok (head, _) => head ++ if continued then body else []
    else
      match c.writeRequest buf req body compressed with
      | .error _ => []
      | .ok (head, body) => head ++ body

end Sender

/-! ### Heads as lines -/

/-- Lines, each with its CRLF. -/
def joinLines (lines : List Bytes) : Bytes := lines.flatMap (· ++ [CR, LF])

def portSuffix (defaultPort port : ℤ) : Bytes :=
  if 0 < port ∧ port ≠ defaultPort then 58 :: Decimal.digits port.toNat else []

def requestLine (req : Outgoing) (host : Bytes) (port : ℤ) (forwardProxy : Bool) : Bytes :=
  req.effectiveMethod ++ [SP]
    ++ (if forwardProxy then ascii "http://" ++ host ++ portSuffix 80 port else [])
    ++ req.effectivePath ++ ascii " HTTP/1.1"

def hostLine (host : Bytes) (port : ℤ) (useTLS : Bool) : Bytes :=
  ascii "Host: " ++ host ++ portSuffix (if useTLS then 443 else 80) port

def connectionLine (cfg : HeadConfig) : Bytes :=
  if cfg.keepAlive && !cfg.disableKeepAlive then ascii "Connection: keep-alive"
  else ascii "Connection: close"

def encodingLines (compressed : Bool) : List Bytes :=
  if compressed then [ascii "Content-Encoding: gzip"] else []

def expectLines (expects : Bool) : List Bytes :=
  if expects then [ascii "Expect: 100-continue"] else []

def lengthLine (n : ℕ) : Bytes := ascii "Content-Length: " ++ Decimal.digits n

/-- The lines of `writeRequestPart1`. -/
def firstLines (req : Outgoing) (cfg : HeadConfig) (host : Bytes) (port : ℤ)
    (useTLS compressed forwardProxy : Bool) : List Bytes :=
  [requestLine req host port forwardProxy, hostLine host port useTLS, connectionLine cfg]
    ++ encodingLines compressed

@[simp] theorem joinLines_nil : joinLines [] = [] := rfl

@[simp] theorem joinLines_append (l l' : List Bytes) :
    joinLines (l ++ l') = joinLines l ++ joinLines l' := List.flatMap_append

@[simp] theorem joinLines_cons (line : Bytes) (l : List Bytes) :
    joinLines (line :: l) = line ++ [CR, LF] ++ joinLines l := rfl

/-! ### What the encoders write -/

theorem writeIntLoop_eq {fuel n : ℕ} (h0 : 0 < n) (hn : n ≤ fuel) (tmp : Bytes) :
    writeIntLoop fuel n tmp = Decimal.digits n ++ tmp := by
  induction n using Nat.strong_induction_on generalizing fuel tmp with
  | _ n ih =>
    obtain ⟨fuel, rfl⟩ : ∃ k, fuel = k + 1 := ⟨fuel - 1, by omega⟩
    rw [writeIntLoop, if_neg (by omega), Decimal.digits_eq]
    split
    · -- the last round: no digits are left
      have htenth : n / 10 = 0 := by omega
      have hlast : n % 10 = n := by omega
      rw [htenth, hlast]
      cases fuel <;> simp [writeIntLoop]
    · rw [ih (n / 10) (by omega) (by omega) (by omega)]
      simp

/-- `writeInt` writes the decimal digits, whichever of its branches it takes. -/
theorem writeInt_eq {n : ℤ} (h : 0 ≤ n) (p : Page UInt8) :
    writeInt n p = p.put (Decimal.digits n.toNat) := by
  rw [writeInt, if_neg (by omega)]
  dsimp only [writeByte, writeBytes]
  generalize n.toNat = n
  split_ifs with h0 h1 h2 h3 h4
  · rw [h0, Decimal.digits_one (by omega)]
  · rw [Decimal.digits_one h1]
  · rw [Decimal.digits_two (by omega) h2]
  · rw [Decimal.digits_three (by omega) h3]
  · rw [Decimal.digits_four (by omega) h4]
  · rw [writeIntLoop_eq (by omega) le_rfl, List.append_nil]

theorem writePort_eq (defaultPort port : ℤ) (p : Page UInt8) :
    writePort defaultPort port p = p.put (portSuffix defaultPort port) := by
  unfold writePort portSuffix
  split
  · rename_i hport
    have hint : writeInt port = Page.put (Decimal.digits port.toNat) :=
      funext fun _ => writeInt_eq (by omega) _
    simp only [Option.bind_eq_bind, writeByte, hint, Page.put_bind_put, List.singleton_append]
  · rw [Page.put_nil]

theorem writeOrigin_eq (host : Bytes) (port : ℤ) (forwardProxy : Bool) (p : Page UInt8) :
    writeOrigin host port forwardProxy p
      = p.put (if forwardProxy then ascii "http://" ++ host ++ portSuffix 80 port else []) := by
  unfold writeOrigin
  cases forwardProxy
  · simp
  · simp only [if_true, Option.bind_eq_bind, writeBytes, writePort_eq, Page.put_bind_put,
      List.append_assoc]

theorem writeRequestLine_eq (req : Outgoing) (host : Bytes) (port : ℤ) (forwardProxy : Bool)
    (p : Page UInt8) :
    writeRequestLine req host port forwardProxy p
      = p.put (joinLines [requestLine req host port forwardProxy]) := by
  have hline : ascii " HTTP/1.1\r\n" = ascii " HTTP/1.1" ++ [CR, LF] := by decide
  simp only [writeRequestLine, Option.bind_eq_bind, writeBytes, writeByte, writeOrigin_eq,
    Page.put_bind_put, hline]
  simp [requestLine]

theorem writeHost_eq (host : Bytes) (port : ℤ) (useTLS : Bool) (p : Page UInt8) :
    writeHost host port useTLS p = p.put (joinLines [hostLine host port useTLS]) := by
  have hline : ascii "\r\n" = [CR, LF] := by decide
  simp only [writeHost, Option.bind_eq_bind, writeBytes, writePort_eq, Page.put_bind_put, hline]
  simp [hostLine]

theorem writeConnection_eq (cfg : HeadConfig) (p : Page UInt8) :
    writeConnection cfg p = p.put (joinLines [connectionLine cfg]) := by
  have halive : ascii "Connection: keep-alive\r\n" = ascii "Connection: keep-alive" ++ [CR, LF] := by
    decide
  have hclose : ascii "Connection: close\r\n" = ascii "Connection: close" ++ [CR, LF] := by decide
  unfold writeConnection connectionLine
  split <;> simp [writeBytes, halive, hclose]

theorem writeEncoding_eq (compressed : Bool) (p : Page UInt8) :
    writeEncoding compressed p = p.put (joinLines (encodingLines compressed)) := by
  have hline : ascii "Content-Encoding: gzip\r\n" = ascii "Content-Encoding: gzip" ++ [CR, LF] := by
    decide
  cases compressed <;> simp [writeEncoding, encodingLines, writeBytes, hline]

theorem writeExpect_eq (expects : Bool) (p : Page UInt8) :
    writeExpect expects p = p.put (joinLines (expectLines expects)) := by
  have hline : ascii "Expect: 100-continue\r\n" = ascii "Expect: 100-continue" ++ [CR, LF] := by
    decide
  cases expects <;> simp [writeExpect, expectLines, writeBytes, hline]

theorem writeHeaders_eq (req : Outgoing) (p : Page UInt8) :
    writeHeaders req p = p.put req.header.written := by
  unfold writeHeaders
  split
  · rfl
  · rename_i hpos
    have hnil : req.header.written = [] := by
      rw [← List.length_eq_zero_iff, Page.length_written]
      omega
    rw [hnil, Page.put_nil]

theorem writeLength_eq (n : ℕ) (p : Page UInt8) :
    writeLength n p = p.put (joinLines [lengthLine n] ++ [CR, LF]) := by
  have hline : ascii "\r\n\r\n" = [CR, LF] ++ [CR, LF] := by decide
  have hint : writeInt (n : ℤ) = Page.put (Decimal.digits n) :=
    funext fun p => by rw [writeInt_eq (by omega), Int.toNat_natCast]
  simp only [writeLength, Option.bind_eq_bind, writeBytes, hint, Page.put_bind_put, hline]
  simp [lengthLine]

theorem writeAuth_eq (forwardProxy : Bool) (proxyAuthHeader : Bytes) (p : Page UInt8) :
    writeAuth forwardProxy proxyAuthHeader p
      = p.put (if forwardProxy then proxyAuthHeader else []) := by
  cases forwardProxy <;> cases proxyAuthHeader <;> simp [writeAuth, writeBytes]

theorem writeRequestPart1_eq (buf : Bytes) (req : Outgoing) (cfg : HeadConfig) (host : Bytes)
    (port : ℤ) (useTLS compressed forwardProxy : Bool) :
    writeRequestPart1 buf req cfg host port useTLS compressed forwardProxy
      = (Page.blank buf).put
          (joinLines (firstLines req cfg host port useTLS compressed forwardProxy)) := by
  simp only [writeRequestPart1, Option.bind_eq_bind, writeRequestLine_eq, writeHost_eq,
    writeConnection_eq, writeEncoding_eq, Page.put_bind_put]
  simp [firstLines]

theorem writeRequestPart3_eq (buf : Bytes) (req : Outgoing) (bodyLen : ℕ)
    (proxyAuthHeader : Bytes) :
    writeRequestPart3 buf req bodyLen proxyAuthHeader
      = (Page.blank buf).put (proxyAuthHeader
          ++ joinLines (expectLines (req.expectContinue && decide (0 < bodyLen)))
          ++ joinLines [lengthLine bodyLen] ++ [CR, LF]) := by
  simp only [writeRequestPart3, Option.bind_eq_bind, writeAuth_eq, if_true, writeExpect_eq,
    writeLength_eq, Page.put_bind_put, List.append_assoc]

/-- The lines in front of the length, for all encoders that write a head in one piece. -/
def frontBytes (req : Outgoing) (cfg : HeadConfig) (host : Bytes) (port : ℤ)
    (useTLS compressed forwardProxy expects : Bool) (proxyAuthHeader : Bytes) : Bytes :=
  joinLines (firstLines req cfg host port useTLS compressed forwardProxy)
    ++ req.header.written ++ (if forwardProxy then proxyAuthHeader else [])
    ++ joinLines (expectLines expects)

theorem writeRequest_eq (buf : Bytes) (req : Outgoing) (cfg : HeadConfig) (host : Bytes) (port : ℤ)
    (useTLS : Bool) (body : Bytes) (compressed forwardProxy : Bool) (proxyAuthHeader : Bytes) :
    writeRequest buf req cfg host port useTLS body compressed forwardProxy proxyAuthHeader
      = (Page.blank buf).put (frontBytes req cfg host port useTLS compressed forwardProxy
            (req.expectContinue && decide (0 < body.length)) proxyAuthHeader
          ++ joinLines [lengthLine body.length] ++ [CR, LF]) := by
  simp only [writeRequest, Option.bind_eq_bind, writeRequestLine_eq, writeHost_eq,
    writeConnection_eq, writeEncoding_eq, writeHeaders_eq, writeAuth_eq, writeExpect_eq,
    writeLength_eq, Page.put_bind_put]
  simp [frontBytes, firstLines]

theorem writeRequestHeaderPrefix_eq (buf : Bytes) (req : Outgoing) (cfg : HeadConfig) (host : Bytes)
    (port : ℤ) (useTLS compressed forwardProxy : Bool) (proxyAuthHeader : Bytes) :
    writeRequestHeaderPrefix buf req cfg host port useTLS compressed forwardProxy proxyAuthHeader
      = (Page.blank buf).put (frontBytes req cfg host port useTLS compressed forwardProxy
          req.expectContinue proxyAuthHeader) := by
  simp only [writeRequestHeaderPrefix, Option.bind_eq_bind, writeRequestLine_eq, writeHost_eq,
    writeConnection_eq, writeEncoding_eq, writeHeaders_eq, writeAuth_eq, writeExpect_eq,
    Page.put_bind_put]
  simp [frontBytes, firstLines]

namespace Sender

/-- What `writeRequestPart1` writes for a connection. -/
def firstBytes (c : Sender) (req : Outgoing) (compressed : Bool) : Bytes :=
  joinLines (firstLines req c.client.cfg c.host c.port c.client.cfg.useTLS compressed
    (c.client.isForwardProxy c.tls))

/-- What `writeRequestPart3` writes for a connection. -/
def lastBytes (c : Sender) (req : Outgoing) (bodyLen : ℕ) : Bytes :=
  c.client.proxyAuthHeader c.tls
    ++ joinLines (expectLines (req.expectContinue && decide (0 < bodyLen)))
    ++ joinLines [lengthLine bodyLen] ++ [CR, LF]

/-- What `writeRequest` does when there is no prefix. -/
theorem writeRequest_plain (c : Sender) (buf : WriteBuf) (req : Outgoing)
    (hplain : req.preEncodedHeaderPrefix = []) (body : Bytes) (compressed : Bool) :
    c.writeRequest buf req body compressed =
      if 16 * 1024 < (c.firstBytes req compressed).length then .error .part1
      else if 128 < (c.lastBytes req body.length).length then .error .part3
      else .ok (c.firstBytes req compressed ++ req.header.written ++ c.lastBytes req body.length,
        body) := by
  have hroom : ∀ (buf l : Bytes), (Page.blank buf).put l = none ↔ buf.length < l.length := by
    intro buf l
    rw [Page.put_eq_none_iff]
    exact iff_of_eq (congrArg _ (Nat.zero_add _))
  have hbuf := hroom buf.1 (c.firstBytes req compressed)
  have hlast := hroom (List.replicate 128 0) (c.lastBytes req body.length)
  rw [buf.2] at hbuf
  rw [List.length_replicate] at hlast
  unfold writeRequest
  rw [if_neg (by simp [hplain]), writeRequestPart1_eq, writeRequestPart3_eq, ← firstBytes,
    ← lastBytes]
  rcases h₁ : (Page.blank buf.1).put (c.firstBytes req compressed) with _ | p₁
  · rw [if_pos (hbuf.mp h₁)]
  rw [if_neg (hbuf.not.mp (by rw [h₁]; exact Option.some_ne_none p₁))]
  rcases h₃ : (Page.blank (List.replicate 128 0)).put (c.lastBytes req body.length) with _ | p₃
  · rw [if_pos (hlast.mp h₃)]
  rw [if_neg (hlast.not.mp (by rw [h₃]; exact Option.some_ne_none p₃))]
  dsimp only
  rw [Page.written_of_put h₁, Page.written_of_put h₃, Page.written_blank, Page.written_blank,
    List.nil_append, List.nil_append]

end Sender

/-- **The parts are the whole.**  When all three encoders have room, the first part, the
headers of the request and the third part are the bytes that `writeRequest` writes. -/
theorem vectored_eq_single (req : Outgoing) (cfg : HeadConfig) (host : Bytes) (port : ℤ)
    (useTLS compressed forwardProxy : Bool) (body proxyAuthHeader : Bytes)
    (hauth : forwardProxy = false → proxyAuthHeader = []) (buf buf₁ buf₃ : Bytes)
    {p p₁ p₃ : Page UInt8}
    (h₁ : writeRequestPart1 buf₁ req cfg host port useTLS compressed forwardProxy = some p₁)
    (h₃ : writeRequestPart3 buf₃ req body.length proxyAuthHeader = some p₃)
    (h : writeRequest buf req cfg host port useTLS body compressed forwardProxy proxyAuthHeader
      = some p) :
    p₁.written ++ req.header.written ++ p₃.written = p.written := by
  rw [writeRequestPart1_eq] at h₁
  rw [writeRequestPart3_eq] at h₃
  rw [writeRequest_eq] at h
  rw [Page.written_of_put h₁, Page.written_of_put h₃, Page.written_of_put h]
  have hauth' : (if forwardProxy then proxyAuthHeader else []) = proxyAuthHeader := by
    cases forwardProxy
    · exact (hauth rfl).symm
    · rfl
  simp [frontBytes, hauth', List.append_assoc]

/-- `GET /`, with one header. -/
def getIndex : Outgoing where
  method := ascii "GET"
  body := []
  compressed := false
  expectContinue := false
  readTimeout := 0
  writeTimeout := 0
  bodyBufLen := 0
  maxBodySize := 0
  resp := none
  path := ascii "/"
  parsedPath := []
  header := ⟨ascii "A: b\r\n" ++ [0, 0], 6, by decide⟩
  preEncodedHeaderPrefix := []

theorem vectored_eq_single_getIndex :
    ∃ p p₁ p₃, writeRequestPart1 (List.replicate 100 0) getIndex ⟨true, false, false⟩ (ascii "h")
        8080 false false false = some p₁
      ∧ writeRequestPart3 (List.replicate 100 0) getIndex 0 [] = some p₃
      ∧ writeRequest (List.replicate 100 0) getIndex ⟨true, false, false⟩ (ascii "h") 8080 false []
        false false [] = some p
      ∧ p₁.written ++ getIndex.header.written ++ p₃.written = p.written := by
  obtain ⟨p₁, h₁⟩ := Option.isSome_iff_exists.mp (show (writeRequestPart1 (List.replicate 100 0)
    getIndex ⟨true, false, false⟩ (ascii "h") 8080 false false false).isSome = true by
      decide +kernel)
  obtain ⟨p₃, h₃⟩ := Option.isSome_iff_exists.mp (show (writeRequestPart3 (List.replicate 100 0)
    getIndex 0 []).isSome = true by decide +kernel)
  obtain ⟨p, h⟩ := Option.isSome_iff_exists.mp (show (writeRequest (List.replicate 100 0)
    getIndex ⟨true, false, false⟩ (ascii "h") 8080 false [] false false []).isSome = true by
      decide +kernel)
  exact ⟨p, p₁, p₃, h₁, h₃, h, vectored_eq_single getIndex ⟨true, false, false⟩ (ascii "h") 8080
    false false false [] [] (fun _ => rfl) _ _ _ h₁ h₃ h⟩

end BurstHttp
