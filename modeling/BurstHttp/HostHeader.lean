/-
The Host header (writer.go, `writeRequestPart1`; connection.go, `writeRequest`).

The header names the host of the connection as it is dialed, and the port unless it is the
default one.  `writeRequest` passes `UseTLS` of the configuration for that, and not whether
the connection itself has TLS.

* `hostValue`, `decodeHost` — the value of the header, and how the server reads it;
* `decode_hostValue_iff` — when the server reads the address of the connection;
* `hostHeader_iff` — the same of what `writeRequestPart1` has written.
-/
import BurstHttp.Lib.Authority
import BurstHttp.Writer

namespace BurstHttp

def defaultPort (tls : Bool) : ℤ := if tls then 443 else 80

/-- What stands behind `Host: `. -/
def hostValue (host : Bytes) (port : ℤ) (useTLS : Bool) : Bytes :=
  host ++ portSuffix (defaultPort useTLS) port

/-- A Host header as a server reads it that was reached with or without TLS. -/
def decodeHost (tls : Bool) (value : Bytes) : Option (Bytes × ℤ) :=
  (Authority.decode value).map fun x => (x.1, (x.2.map fun (n : ℕ) => (n : ℤ)).getD (defaultPort tls))

theorem defaultPort_injective : Function.Injective defaultPort := by
  intro tls tls' h
  cases tls <;> cases tls' <;> first | rfl | exact absurd h (by decide)

/-- What stands behind the host is a port, or nothing. -/
theorem port_portSuffix {d port : ℤ} (hpos : 0 < port) :
    Authority.port (portSuffix d port) = some (if port = d then none else some port.toNat) := by
  unfold portSuffix
  by_cases hd : port = d
  · rw [if_neg (by omega), if_pos hd]
    rfl
  · rw [if_pos ⟨hpos, hd⟩, if_neg hd]
    exact Authority.port_digits _

theorem decode_hostValue_iff (host : Bytes) {port : ℤ} (hpos : 0 < port) (useTLS tls : Bool) :
    decodeHost tls (hostValue host port useTLS) = some (host, port) ↔
      Authority.isRegName host = true ∧ (port = defaultPort useTLS → useTLS = tls) := by
  have hsuffix : portSuffix (defaultPort useTLS) port = []
      ∨ ∃ s, portSuffix (defaultPort useTLS) port = 58 :: s := by
    unfold portSuffix
    split
    · exact .inr ⟨_, rfl⟩
    · exact .inl rfl
  by_cases hname : Authority.isRegName host = true
  · have hcolon : 58 ∉ host := Authority.notMem_of_isRegName (by decide) (by decide) (by decide) hname
    have hbracket : host.head? ≠ some 91 := fun h => Authority.notMem_of_isRegName (by decide)
      (by decide) (by decide) hname (List.mem_of_mem_head? h)
    have hread : decodeHost tls (hostValue host port useTLS)
        = some (host, if port = defaultPort useTLS then defaultPort tls else port) := by
      rw [decodeHost, Authority.decode, hostValue, Authority.split_name hcolon hbracket hsuffix,
        port_portSuffix hpos, Option.map_some, Option.filter_some, if_pos (by simp [hname])]
      split
      · rfl
      · simp only [Option.map_some, Option.getD_some, Int.toNat_of_nonneg (show 0 ≤ port by omega)]
    rw [hread]
    simp only [Option.some_inj, Prod.mk.injEq, true_and, hname]
    split
    · -- no port is written, and the server takes its own default
      rename_i hdefault
      rw [hdefault, defaultPort_injective.eq_iff]
      exact ⟨fun h _ => h.symm, fun h => (h rfl).symm⟩
    · rename_i hdefault
      exact iff_of_true rfl fun h => absurd h hdefault
  · refine iff_of_false ?_ fun h => hname h.1
    intro hread
    obtain ⟨⟨host', p⟩, hdecode, heq⟩ := Option.map_eq_some_iff.mp hread
    obtain rfl : host' = host := (Prod.mk.inj heq).1
    obtain ⟨hsplit, hform⟩ := Option.filter_eq_some_iff.mp hdecode
    -- a value in brackets would be read as a host without them
    rcases Bool.or_eq_true_iff.mp hform with hhead | hreg
    · cases host' with
      | nil => exact hname rfl
      | cons b host' => exact Authority.head_of_split hsplit (of_decide_eq_true hhead)
    · exact hname hreg

/-- **The Host header names the dialed authority.**  The value that `writeRequestPart1` has
written behind the request line is read as the host and the port of the connection exactly if
the host is a registered name (so no address of IPv6: it has neither a colon nor a bracket), and
the port is not the default one of the configuration, unless the configuration and the connection
agree on TLS. -/
theorem hostHeader_iff (c : Sender) (hport : 1 ≤ c.port ∧ c.port ≤ 65535) (buf : Bytes)
    (req : Outgoing) (compressed : Bool) {p : Page UInt8}
    (hwritten : writeRequestPart1 buf req c.client.cfg c.host c.port c.client.cfg.useTLS compressed
      (c.client.isForwardProxy c.tls) = some p) :
    ∃ value,
      p.written = joinLines [requestLine req c.host c.port (c.client.isForwardProxy c.tls),
          ascii "Host: " ++ value]
        ++ joinLines (connectionLine c.client.cfg :: encodingLines compressed)
      ∧ (decodeHost c.tls value = some (c.host, c.port) ↔
          Authority.isRegName c.host = true
            ∧ (c.port = defaultPort c.client.cfg.useTLS → c.client.cfg.useTLS = c.tls)) := by
  refine ⟨hostValue c.host c.port c.client.cfg.useTLS, ?_, decode_hostValue_iff c.host (by omega) _ _⟩
  rw [writeRequestPart1_eq] at hwritten
  rw [Page.written_of_put hwritten, Page.written_blank, List.nil_append, firstLines]
  simp only [hostLine, hostValue, defaultPort, joinLines_append, joinLines_cons, joinLines_nil,
    List.append_assoc, List.append_nil]

/-- A connection that is dialed directly. -/
def sampleSender (host : Bytes) (port : ℤ) (useTLS tls : Bool) : Sender where
  client :=
    { cfg := ⟨true, false, useTLS⟩, proxyDialer := none, maxReqSize := 1024, compressor := none }
  host := host
  port := port
  tls := tls

theorem hostHeader_iff_name :
    ∃ p, writeRequestPart1 (List.replicate 100 0) getIndex ⟨true, false, false⟩ (ascii "example.com")
        8080 false false false = some p
      ∧ ∃ value, p.written = joinLines [requestLine getIndex (ascii "example.com") 8080 false,
          ascii "Host: " ++ value] ++ joinLines [connectionLine ⟨true, false, false⟩]
        ∧ decodeHost false value = some (ascii "example.com", 8080) := by
  obtain ⟨p, hp⟩ := Option.isSome_iff_exists.mp (show (writeRequestPart1 (List.replicate 100 0)
    getIndex ⟨true, false, false⟩ (ascii "example.com") 8080 false false false).isSome = true by
      decide +kernel)
  obtain ⟨value, hvalue, hread⟩ := hostHeader_iff
    (sampleSender (ascii "example.com") 8080 false false) (by decide) (List.replicate 100 0) getIndex false hp
  exact ⟨p, hp, value, hvalue, hread.mpr ⟨by decide, by decide⟩⟩

/-- An address of IPv6 without brackets cannot be read, nor a name with a blank; and a connection
with TLS to port 80, of a client without TLS, is read as one to port 443. -/
theorem hostHeader_misread :
    (writeRequestPart1 (List.replicate 100 0) getIndex ⟨true, false, false⟩ (ascii "::1") 8080 false
        false false).map Page.written
        = some (ascii "GET / HTTP/1.1\r\nHost: ::1:8080\r\nConnection: keep-alive\r\n")
      ∧ decodeHost false (ascii "::1:8080") = none
      ∧ decodeHost false (hostValue (ascii "a b") 8080 false) = none
      ∧ (writeRequestPart1 (List.replicate 100 0) getIndex ⟨true, false, false⟩
          (ascii "example.com") 80 false false false).map Page.written
        = some (ascii "GET / HTTP/1.1\r\nHost: example.com\r\nConnection: keep-alive\r\n")
      ∧ decodeHost true (ascii "example.com") = some (ascii "example.com", 443) := by
  decide +kernel

end BurstHttp
