/-
Dialing through a SOCKS 5 proxy (socks5.go).

What the proxy sends comes in segments that the dialer does not control, and every write
goes through.  `net.ParseIP` may be any function.

* `handshake`, `authenticate`, `connectRequest`, `dial` — the functions of the source;
* `Names` — the address that stands for a host, `connectBytes_encode` — what is sent for it;
* `connectRequest_iff` — the hosts that are sent as they are;
* `handshake_ok`, `readReply_ok` — the two replies are consumed, and nothing behind them;
* `dial_consumes` — so both are, and a stream that ends inside them is an error.
-/
import BurstHttp.Basic
import BurstHttp.Lib.Exchange
import BurstHttp.Lib.Socks

namespace BurstHttp

/-- The errors of socks5.go, and those of the connection. -/
inductive SocksErr
  | authFailed                 -- "SOCKS5 authentication failed"
  | refused (code : UInt8)     -- "SOCKS5 connection failed with code "
  | unsupported                -- "SOCKS5 unsupported address type"
  | io (err : GoErr)
  deriving DecidableEq

/-- A conversation with the proxy. -/
abbrev Socks5 := Exchange UInt8 GoErr SocksErr

/-- What `net.ParseIP` returns: sixteen bytes, for addresses of both kinds. -/
abbrev IP := { bytes : Bytes // bytes.length = 16 }

/-- `IP.To4`. -/
def IP.to4 (ip : IP) : Option Bytes :=
  if ip.1.take 12 = List.replicate 10 0 ++ [255, 255] then some (ip.1.drop 12) else none

/-- `SOCKS5Dialer`. -/
structure SOCKS5Dialer where
  username : Bytes
  password : Bytes

namespace SOCKS5Dialer

open Exchange (fail write)

/-- `readFull`, for a buffer of `n` bytes. -/
def readFull (n : ℕ) : Socks5 Bytes := Exchange.readFull .io .eof n

/-- `SOCKS5Dialer.authenticate`. -/
def authenticate (d : SOCKS5Dialer) : Socks5 Unit :=
  if 255 < d.username.length ∨ 255 < d.password.length then fail .authFailed
  else do
    write ([1, UInt8.ofNat d.username.length] ++ d.username
      ++ [UInt8.ofNat d.password.length] ++ d.password)
    let resp ← readFull 2
    if resp.getD 1 0 ≠ 0 then fail .authFailed else pure ()

/-- `SOCKS5Dialer.handshake`. -/
def handshake (d : SOCKS5Dialer) : Socks5 Unit := do
  write (if d.username ≠ [] then [5, 2, 0, 2] else [5, 1, 0])
  let resp ← readFull 2
  if resp.getD 0 0 ≠ 5 then fail .unsupported
  else if resp.getD 1 0 = 0 then pure ()
  else if resp.getD 1 0 = 2 then d.authenticate
  else if resp.getD 1 0 = 255 then fail .authFailed
  else fail .unsupported

/-- `req` in `connectRequest`; the port is cut to a `uint16`. -/
def connectBytes (parseIP : Bytes → Option IP) (host : Bytes) (port : ℤ) : Bytes :=
  let portBytes := Socks.be16 (port % 65536).toNat
  match parseIP host with
  | some ip =>
    match ip.to4 with
    | some ip4 => [5, 1, 0, 1] ++ ip4 ++ portBytes
    | none => [5, 1, 0, 4] ++ ip.1 ++ portBytes
  | none =>
    let host := if 255 < host.length then host.take 255 else host
    [5, 1, 0, 3, UInt8.ofNat host.length] ++ host ++ portBytes

/-- The part of `connectRequest` that reads the reply. -/
def readReply : Socks5 Unit := do
  let hdr ← readFull 4
  if hdr.getD 0 0 ≠ 5 then fail .unsupported
  else if hdr.getD 1 0 ≠ 0 then fail (.refused (hdr.getD 1 0))
  else if hdr.getD 3 0 = 1 then do
    let _ ← readFull 6
    pure ()
  else if hdr.getD 3 0 = 4 then do
    let _ ← readFull 18
    pure ()
  else if hdr.getD 3 0 = 3 then do
    let dLen ← readFull 1
    let _ ← readFull ((dLen.getD 0 0).toNat + 2)
    pure ()
  else fail .unsupported

/-- `SOCKS5Dialer.connectRequest`. -/
def connectRequest (parseIP : Bytes → Option IP) (host : Bytes) (port : ℤ) : Socks5 Unit := do
  write (connectBytes parseIP host port)
  readReply

/-- `SOCKS5Dialer.Dial`, once the proxy is connected. -/
def dial (d : SOCKS5Dialer) (parseIP : Bytes → Option IP) (host : Bytes) (port : ℤ) :
    Socks5 Unit := do
  d.handshake
  connectRequest parseIP host port

/-! ### The request -/

/-- The address stands for the host: it is what `ParseIP` makes of it, or its name. -/
def Names (parseIP : Bytes → Option IP) (host : Bytes) : Socks.Address → Prop
  | .ipv4 bytes _ => ∃ ip, parseIP host = some ip ∧ ip.to4 = some bytes
  | .ipv6 bytes _ => ∃ ip, parseIP host = some ip ∧ ip.to4 = none ∧ ip.1 = bytes
  | .domain name _ => parseIP host = none ∧ name = host

theorem length_to4 {ip : IP} {bytes : Bytes} (h : ip.to4 = some bytes) : bytes.length = 4 := by
  unfold IP.to4 at h
  split_ifs at h
  cases h
  rw [List.length_drop, ip.2]

/-- What is sent is an address, of the host or of its first 255 bytes. -/
theorem connectBytes_encode (parseIP : Bytes → Option IP) (host : Bytes) (port : ℤ) :
    ∃ a : Socks.Address,
      connectBytes parseIP host port
        = [5, 1, 0] ++ a.encode ++ Socks.be16 (port % 65536).toNat
      ∧ (Names parseIP host a ↔ (parseIP host).isSome = true ∨ host.length ≤ 255) := by
  cases hip : parseIP host with
  | some ip =>
    cases hfour : ip.to4 with
    | some ip4 =>
      refine ⟨.ipv4 ip4 (length_to4 hfour), ?_, iff_of_true ⟨ip, hip, hfour⟩ (.inl rfl)⟩
      simp only [connectBytes, hip, hfour, Socks.Address.encode]
      rfl
    | none =>
      refine ⟨.ipv6 ip.1 ip.2, ?_, iff_of_true ⟨ip, hip, hfour, rfl⟩ (.inl rfl)⟩
      simp only [connectBytes, hip, hfour, Socks.Address.encode]
      rfl
  | none =>
    refine ⟨.domain (host.take 255) (List.length_take_le _ _), ?_, ?_⟩
    · have hcut : (if 255 < host.length then host.take 255 else host) = host.take 255 := by
        split
        · rfl
        · exact (List.take_of_length_le (by omega)).symm
      simp only [connectBytes, hip, hcut, Socks.Address.encode]
      rfl
    · simp only [Names, hip, true_and, Option.isSome_none, Bool.false_eq_true, false_or]
      constructor
      · intro hcut
        rw [← hcut]
        exact List.length_take_le _ _
      · exact List.take_of_length_le

theorem readReply_silent : Exchange.Silent readReply := by
  refine (Exchange.Silent.readFull _ _ 4).bind fun hdr => ?_
  refine .ite (.fail _) (.ite (.fail _) (.ite ?_ (.ite ?_ (.ite ?_ (.fail _)))))
  · exact (Exchange.Silent.readFull _ _ _).bind fun _ => .pure _
  · exact (Exchange.Silent.readFull _ _ _).bind fun _ => .pure _
  · exact (Exchange.Silent.readFull _ _ _).bind fun _ =>
      (Exchange.Silent.readFull _ _ _).bind fun _ => .pure _

/-- The request is all that `connectRequest` sends. -/
theorem connectRequest_sent (parseIP : Bytes → Option IP) (host : Bytes) (port : ℤ)
    (w : Wire UInt8 GoErr) :
    ((connectRequest parseIP host port).run w).2.sent = w.sent ++ connectBytes parseIP host port :=
  readReply_silent _

/-- **Faithful requests.**  `connectRequest` sends a request that is read as the host and the port,
or fails before it has sent anything, exactly if the host is an address or a name of at most 255
bytes. -/
theorem connectRequest_iff (parseIP : Bytes → Option IP) (host : Bytes) {port : ℤ}
    (hport : 1 ≤ port ∧ port ≤ 65535) (w : Wire UInt8 GoErr) :
    ((∃ req a, ((connectRequest parseIP host port).run w).2.sent = w.sent ++ req
          ∧ Socks.decodeRequest req = some (a, port.toNat) ∧ Names parseIP host a)
        ∨ ((∃ e, ((connectRequest parseIP host port).run w).1 = .error e)
          ∧ ((connectRequest parseIP host port).run w).2.sent = w.sent)) ↔
      (parseIP host).isSome = true ∨ host.length ≤ 255 := by
  obtain ⟨a, hencode, hnames⟩ := connectBytes_encode parseIP host port
  have hmod : (port % 65536).toNat % 65536 = port.toNat := by omega
  have hdecode := Socks.decodeRequest_encode a (port % 65536).toNat
  rw [hmod, ← hencode] at hdecode
  rw [connectRequest_sent, ← hnames]
  constructor
  · rintro (⟨req, a', hsent, hdecode', hnames'⟩ | ⟨-, hnothing⟩)
    · obtain rfl := List.append_cancel_left hsent
      rw [hdecode, Option.some_inj, Prod.mk.injEq] at hdecode'
      rw [hdecode'.1]
      exact hnames'
    · -- it has sent something
      have hempty := List.append_right_eq_self.mp hnothing
      rw [hempty] at hdecode
      cases hdecode
  · exact fun hnames' => .inl ⟨_, a, rfl, hdecode, hnames'⟩

/-- A classifier that knows one address. -/
def loopbackOnly (host : Bytes) : Option IP :=
  if host = ascii "127.0.0.1" then
    some ⟨List.replicate 10 0 ++ [255, 255, 127, 0, 0, 1], by decide⟩
  else none

/-- A connection on which nothing comes. -/
def deadWire : Wire UInt8 GoErr := ⟨.ofSegs [] .eof, []⟩

theorem connectRequest_iff_name :
    (∃ req a, ((connectRequest loopbackOnly (ascii "example.com") 443).run deadWire).2.sent
          = [] ++ req
        ∧ Socks.decodeRequest req = some (a, 443) ∧ Names loopbackOnly (ascii "example.com") a)
      ∨ ((∃ e, ((connectRequest loopbackOnly (ascii "example.com") 443).run deadWire).1 = .error e)
        ∧ ((connectRequest loopbackOnly (ascii "example.com") 443).run deadWire).2.sent = []) :=
  (connectRequest_iff loopbackOnly (ascii "example.com") (by decide) deadWire).mpr (by decide)

/-- A name of 256 bytes is cut, and the request is one for another name. -/
theorem connectRequest_cut :
    connectBytes loopbackOnly (List.replicate 256 97) 443
        = connectBytes loopbackOnly (List.replicate 255 97) 443
      ∧ (∀ w, ((connectRequest loopbackOnly (List.replicate 256 97) 443).run w).2.sent
          = w.sent ++ connectBytes loopbackOnly (List.replicate 255 97) 443)
      ∧ Socks.decodeRequest (connectBytes loopbackOnly (List.replicate 255 97) 443)
        = some (.domain (List.replicate 255 97) (Nat.le_of_eq List.length_replicate), 443)
      ∧ ¬ Names loopbackOnly (List.replicate 256 97)
          (.domain (List.replicate 255 97) (Nat.le_of_eq List.length_replicate)) := by
  have hsame : connectBytes loopbackOnly (List.replicate 256 97) 443
      = connectBytes loopbackOnly (List.replicate 255 97) 443 := by decide +kernel
  have hencode : connectBytes loopbackOnly (List.replicate 255 97) 443
      = [5, 1, 0] ++ Socks.Address.encode (.domain (List.replicate 255 97)
          (Nat.le_of_eq List.length_replicate)) ++ Socks.be16 443 := by decide +kernel
  refine ⟨hsame, ?_, ?_, ?_⟩
  · intro w
    rw [connectRequest_sent, hsame]
  · rw [hencode]
    exact Socks.decodeRequest_encode _ 443
  · rintro ⟨-, hname⟩
    exact absurd (congrArg List.length hname) (by decide +kernel)

/-! ### The replies -/

theorem authenticate_exact (d : SOCKS5Dialer) : Exchange.Exact d.authenticate := by
  refine .ite (.fail _) ?_
  refine (Exchange.Exact.write _).bind fun _ => (Exchange.Exact.readFull _ _ 2).bind fun resp => ?_
  exact .ite (.fail _) (.pure _)

theorem handshake_exact (d : SOCKS5Dialer) : Exchange.Exact d.handshake := by
  refine (Exchange.Exact.write _).bind fun _ => (Exchange.Exact.readFull _ _ 2).bind fun resp => ?_
  exact .ite (.fail _) (.ite (.pure _) (.ite d.authenticate_exact (.ite (.fail _) (.fail _))))

theorem readReply_exact : Exchange.Exact readReply := by
  refine (Exchange.Exact.readFull _ _ 4).bind fun hdr => ?_
  refine .ite (.fail _) (.ite (.fail _) (.ite ?_ (.ite ?_ (.ite ?_ (.fail _)))))
  · exact (Exchange.Exact.readFull _ _ _).bind fun _ => .pure _
  · exact (Exchange.Exact.readFull _ _ _).bind fun _ => .pure _
  · exact (Exchange.Exact.readFull _ _ _).bind fun _ =>
      (Exchange.Exact.readFull _ _ _).bind fun _ => .pure _

theorem dial_exact (d : SOCKS5Dialer) (parseIP : Bytes → Option IP) (host : Bytes) (port : ℤ) :
    Exchange.Exact (d.dial parseIP host port) :=
  d.handshake_exact.bind fun _ => (Exchange.Exact.write _).bind fun _ => readReply_exact

/-- Filling a buffer of `n` bytes from bytes that are there. -/
theorem readFull_ok {n : ℕ} {w : Wire UInt8 GoErr} (bytes : Bytes) {rest : Bytes}
    (hflat : w.reader.flat = bytes ++ rest) (hlen : bytes.length = n) :
    ∃ w' : Wire UInt8 GoErr, (∀ {β : Type} (f : Bytes → Socks5 β),
        (readFull n >>= f).run w = (f bytes).run w') ∧ w'.reader.flat = rest :=
  Exchange.readFull_bind _ _ hflat hlen

/-- The reply to the password is consumed. -/
theorem authenticate_ok (d : SOCKS5Dialer) (hlen : d.username.length ≤ 255 ∧ d.password.length ≤ 255)
    {w : Wire UInt8 GoErr} {version : UInt8} {rest : Bytes}
    (hflat : w.reader.flat = [version, 0] ++ rest) :
    ∃ w', d.authenticate.run w = (.ok (), w') ∧ w'.reader.flat = rest := by
  rw [authenticate, if_neg (by omega), Exchange.write_bind]
  obtain ⟨w₁, hread, hrest⟩ := readFull_ok (n := 2)
    (w := { w with sent := w.sent ++ ([1, UInt8.ofNat d.username.length] ++ d.username
      ++ [UInt8.ofNat d.password.length] ++ d.password) }) [version, 0] hflat rfl
  rw [hread]
  exact ⟨w₁, rfl, hrest⟩

/-- The replies to the handshake are consumed. -/
theorem handshake_ok (d : SOCKS5Dialer) (hlen : d.username.length ≤ 255 ∧ d.password.length ≤ 255)
    (m : Socks.Method) {w : Wire UInt8 GoErr} {rest : Bytes}
    (hflat : w.reader.flat = m.bytes ++ rest) :
    ∃ w', d.handshake.run w = (.ok (), w') ∧ w'.reader.flat = rest := by
  rw [handshake, Exchange.write_bind]
  generalize hw₀ : ({ w with sent := _ } : Wire UInt8 GoErr) = w₀
  have hflat₀ : w₀.reader.flat = m.bytes ++ rest := by
    rw [← hw₀]
    exact hflat
  cases m with
  | noAuth =>
    obtain ⟨w₁, hread, hrest⟩ := readFull_ok (n := 2) [5, 0] hflat₀ rfl
    rw [hread]
    exact ⟨w₁, rfl, hrest⟩
  | password version =>
    obtain ⟨w₁, hread, hrest⟩ := readFull_ok (n := 2) [5, 2] hflat₀ rfl
    rw [hread]
    exact d.authenticate_ok hlen hrest

/-- The reply to the request is consumed, whatever address it holds. -/
theorem readReply_ok (reserved : UInt8) (bound : Socks.Address) (port : UInt8 × UInt8)
    {w : Wire UInt8 GoErr} {rest : Bytes}
    (hflat : w.reader.flat = Socks.connectReply reserved bound port ++ rest) :
    ∃ w', readReply.run w = (.ok (), w') ∧ w'.reader.flat = rest := by
  rw [readReply]
  cases bound with
  | ipv4 bytes h =>
    obtain ⟨w₁, hread, hrest⟩ := readFull_ok (n := 4) [5, 0, reserved, 1] hflat rfl
    obtain ⟨w₂, hread', hrest'⟩ := readFull_ok (n := 6) _ hrest (by simp [h])
    rw [hread]
    exact ⟨w₂, hread' _, hrest'⟩
  | ipv6 bytes h =>
    obtain ⟨w₁, hread, hrest⟩ := readFull_ok (n := 4) [5, 0, reserved, 4] hflat rfl
    obtain ⟨w₂, hread', hrest'⟩ := readFull_ok (n := 18) _ hrest (by simp [h])
    rw [hread]
    exact ⟨w₂, hread' _, hrest'⟩
  | domain name h =>
    have hnat : (UInt8.ofNat name.length).toNat = name.length := by
      rw [UInt8.toNat_ofNat']
      omega
    obtain ⟨w₁, hread, hrest⟩ := readFull_ok (n := 4) [5, 0, reserved, 3] hflat rfl
    obtain ⟨w₂, hread', hrest'⟩ := readFull_ok (n := 1) [UInt8.ofNat name.length] hrest rfl
    obtain ⟨w₃, hread'', hrest''⟩ :=
      readFull_ok (n := (UInt8.ofNat name.length).toNat + 2) _ hrest' (by simp [hnat])
    rw [hread]
    exact ⟨w₃, (hread' _).trans (hread'' _), hrest''⟩

/-- The whole conversation. -/
theorem dial_ok (d : SOCKS5Dialer) (hlen : d.username.length ≤ 255 ∧ d.password.length ≤ 255)
    (parseIP : Bytes → Option IP) (host : Bytes) (port : ℤ) (m : Socks.Method) (reserved : UInt8)
    (bound : Socks.Address) (boundPort : UInt8 × UInt8) {w : Wire UInt8 GoErr} {rest : Bytes}
    (hflat : w.reader.flat = Socks.replies m reserved bound boundPort ++ rest) :
    ∃ w', (d.dial parseIP host port).run w = (.ok (), w') ∧ w'.reader.flat = rest := by
  rw [Socks.replies, List.append_assoc] at hflat
  obtain ⟨w₁, hhandshake, hrest⟩ := d.handshake_ok hlen m hflat
  rw [dial, Exchange.bind_ok _ hhandshake, connectRequest, Exchange.write_bind]
  exact readReply_ok reserved bound boundPort hrest

/-- **Replies are consumed exactly.**  With a user name and a password of at most 255 bytes, whatever
the segments: on the replies of a server that lets the client through, with tunnel bytes behind
them, the dialer succeeds and leaves the tunnel bytes; and on a stream that ends inside the
replies it fails. -/
theorem dial_consumes (d : SOCKS5Dialer)
    (hlen : d.username.length ≤ 255 ∧ d.password.length ≤ 255) (parseIP : Bytes → Option IP)
    (host : Bytes) (port : ℤ) (m : Socks.Method) (reserved : UInt8) (bound : Socks.Address)
    (boundPort : UInt8 × UInt8) (closing : GoErr) (w : Wire UInt8 GoErr) :
    (∀ tunnel, w.reader.Delivers (Socks.replies m reserved bound boundPort ++ tunnel) closing →
        ((d.dial parseIP host port).run w).1 = .ok ()
          ∧ ((d.dial parseIP host port).run w).2.reader.flat = tunnel)
      ∧ ∀ short, short <+: Socks.replies m reserved bound boundPort →
        short ≠ Socks.replies m reserved bound boundPort → w.reader.Delivers short closing →
          ∃ e, ((d.dial parseIP host port).run w).1 = .error e := by
  constructor
  · intro tunnel hw
    obtain ⟨w', hdial, hrest⟩ := d.dial_ok hlen parseIP host port m reserved bound boundPort hw.flat
    rw [hdial]
    exact ⟨rfl, hrest⟩
  · intro short hshort hne hw
    refine (d.dial_exact parseIP host port).fails_short hw hshort hne ?_
    intro w' hw'
    obtain ⟨w'', hdial, hrest⟩ := d.dial_ok hlen parseIP host port m reserved bound boundPort
      (hw'.flat.trans (List.append_nil _).symm)
    rw [hdial]
    exact hrest

/-- A server that asks for the password, and sends its replies in pieces. -/
theorem dial_consumes_password :
    ((dial ⟨ascii "u", ascii "p"⟩ loopbackOnly (ascii "example.com") 443).run
        ⟨.ofSegs [[5], [2], [1], [0], [5, 0], [0, 3, 1], [97, 0], [80, 7]] .eof, []⟩).1 = .ok ()
      ∧ ((dial ⟨ascii "u", ascii "p"⟩ loopbackOnly (ascii "example.com") 443).run
        ⟨.ofSegs [[5], [2], [1], [0], [5, 0], [0, 3, 1], [97, 0], [80, 7]] .eof, []⟩).2.reader.flat
          = [7] := by
  refine (dial_consumes ⟨ascii "u", ascii "p"⟩ (by decide) loopbackOnly (ascii "example.com") 443
    (.password 1) 0 (.domain [97] (by decide)) (0, 80) .eof _).1 [7] ?_
  exact Feed.ofSegs_delivers _ _

end SOCKS5Dialer

end BurstHttp
