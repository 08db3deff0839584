/-
Addresses to dial (dialer.go, `buildAddr`; proxy.go, `ProxyDialer.buildTarget`).

A connection is dialed directly by the address of `buildAddr`, and through a proxy by
naming the target of `buildTarget` in a CONNECT request.  Both write the digits of the
port into a buffer of fixed size, from its end; a port with more digits is a panic.

* `digitLoop_eq` — the loop writes the decimal digits, if they fit;
* `buildAddr_eq`, `buildTarget_eq` — what the two functions return;
* `split_buildAddr` — a direct address is read back;
* `sameAddress_iff` — the hosts for which both are the same.
-/
import BurstHttp.Basic
import BurstHttp.Lib.Authority

namespace BurstHttp

/-- The loops of `buildAddr` and `buildTarget`: with `room` bytes left before `digits`, the
digits of `p` are written before them.  Nothing is an index out of range. -/
def digitLoop : ℕ → ℕ → Bytes → Option Bytes
  | 0, p, digits => if p = 0 then some digits else none
  | room + 1, p, digits =>
    if p = 0 then some digits else digitLoop room (p / 10) (Decimal.digit (p % 10) :: digits)

/-- `portStr` in `buildAddr`. -/
def portStr (port : ℤ) : Option Bytes :=
  if port = 80 then some (ascii "80")
  else if port = 443 then some (ascii "443")
  else if port = 8080 then some (ascii "8080")
  else if port = 8443 then some (ascii "8443")
  else if port = 0 then some (ascii "0")
  else digitLoop 8 port.toNat []

/-- `buildAddr`. -/
def buildAddr (host : Bytes) (port : ℤ) : Option Bytes :=
  (portStr port).map fun digits =>
    if 58 ∈ host then 91 :: host ++ 93 :: 58 :: digits else host ++ 58 :: digits

/-- `ProxyDialer.buildTarget`. -/
def buildTarget (host : Bytes) (port : ℤ) : Option Bytes :=
  if port = 443 then some (host ++ ascii ":443")
  else if port = 80 then some (host ++ ascii ":80")
  else if port = 0 then some (host ++ ascii ":0")
  else (digitLoop 12 port.toNat []).map fun digits => host ++ 58 :: digits

theorem digitLoop_eq {room p : ℕ} (hp : 0 < p) (digits : Bytes) :
    digitLoop room p digits
      = if (Decimal.digits p).length ≤ room then some (Decimal.digits p ++ digits) else none := by
  induction room generalizing p digits with
  | zero =>
    have hlen := List.length_pos_iff.mpr (Decimal.digits_ne_nil p)
    rw [digitLoop, if_neg (by omega), if_neg (by omega)]
  | succ room ih =>
    rw [digitLoop, if_neg (by omega), Decimal.digits_eq]
    split
    · -- the last digit: nothing is left of `p`
      rename_i hlt
      have htenth : p / 10 = 0 := by omega
      have hlast : p % 10 = p := by omega
      rw [htenth, hlast, if_pos (by simp)]
      cases room <;> rfl
    · rw [ih (by omega), List.length_append, List.length_singleton]
      simp only [Nat.add_le_add_iff_right, List.append_assoc, List.singleton_append]

/-- The digits of a port that has no more than `room` of them. -/
theorem digitLoop_port {room : ℕ} {port : ℤ} (hpos : 0 < port) (hroom : 0 < room)
    (hlt : port < 10 ^ room) : digitLoop room port.toNat [] = some (Decimal.digits port.toNat) := by
  have hlt' : port.toNat < 10 ^ room := (Int.toNat_lt (by omega)).mpr (by exact_mod_cast hlt)
  rw [digitLoop_eq (by omega), if_pos ((Decimal.length_digits_le_iff hroom).mpr hlt'),
    List.append_nil]

/-- The ports that are written out are written in decimal too. -/
theorem portStr_eq {port : ℤ} (hpos : 0 < port) (hlt : port < 10 ^ 8) :
    portStr port = some (Decimal.digits port.toNat) := by
  unfold portStr
  split_ifs with h80 h443 h8080 h8443 h0
  · rw [h80]
    decide
  · rw [h443]
    decide
  · rw [h8080]
    decide
  · rw [h8443]
    decide
  · omega
  · exact digitLoop_port hpos (by decide) hlt

theorem buildAddr_eq (host : Bytes) {port : ℤ} (hpos : 0 < port) (hlt : port < 10 ^ 8) :
    buildAddr host port
      = some (if 58 ∈ host then 91 :: host ++ 93 :: 58 :: Decimal.digits port.toNat
          else host ++ 58 :: Decimal.digits port.toNat) := by
  rw [buildAddr, portStr_eq hpos hlt]
  rfl

theorem buildTarget_eq (host : Bytes) {port : ℤ} (hpos : 0 < port) (hlt : port < 10 ^ 12) :
    buildTarget host port = some (host ++ 58 :: Decimal.digits port.toNat) := by
  unfold buildTarget
  split_ifs with h443 h80 h0
  · rw [h443]
    rfl
  · rw [h80]
    rfl
  · omega
  · rw [digitLoop_port hpos (by decide) hlt]
    rfl

/-- A direct address is read back, for names and for addresses of both kinds. -/
theorem split_buildAddr {host : Bytes} {port : ℤ} (hpos : 0 < port) (hlt : port < 10 ^ 8)
    (hopen : 91 ∉ host) (hclose : 93 ∉ host) :
    (buildAddr host port).bind Authority.split = some (host, some port.toNat) := by
  rw [buildAddr_eq host hpos hlt, Option.bind_some]
  split
  · rw [Authority.split_literal hopen hclose, Authority.port_digits]
    rfl
  · rename_i hcolon
    have hbracket : host.head? ≠ some 91 := fun h => hopen (List.mem_of_mem_head? h)
    rw [Authority.split_name hcolon hbracket (.inr ⟨_, rfl⟩), Authority.port_digits]
    rfl

/-- **One address on both ways.**  `buildAddr` and `buildTarget` agree, and their text gives the
host and the port back, exactly if the host is a name or an address of IPv4: it has no colon,
and does not begin with a bracket. -/
theorem sameAddress_iff (host : Bytes) {port : ℤ} (hport : 1 ≤ port ∧ port ≤ 65535) :
    (buildAddr host port = buildTarget host port
        ∧ (buildAddr host port).bind Authority.split = some (host, some port.toNat)) ↔
      58 ∉ host ∧ host.head? ≠ some 91 := by
  rw [buildAddr_eq host (by omega) (by omega), buildTarget_eq host (by omega) (by omega),
    Option.bind_some, Option.some_inj]
  constructor
  · rintro ⟨hsame, hsplit⟩
    refine ⟨?_, Authority.head_of_split hsplit⟩
    intro hcolon
    -- the brackets make the address longer
    have hlen := congrArg List.length hsame
    rw [if_pos hcolon] at hlen
    simp only [List.cons_append, List.length_cons, List.length_append] at hlen
    omega
  · rintro ⟨hcolon, hbracket⟩
    rw [if_neg hcolon]
    refine ⟨rfl, ?_⟩
    rw [Authority.split_name hcolon hbracket (.inr ⟨_, rfl⟩), Authority.port_digits]
    rfl

theorem sameAddress_iff_name :
    buildAddr (ascii "example.com") 9999 = buildTarget (ascii "example.com") 9999
      ∧ (buildAddr (ascii "example.com") 9999).bind Authority.split
        = some (ascii "example.com", some 9999) :=
  (sameAddress_iff (ascii "example.com") (by decide)).mpr (by decide)

/-- An address of IPv6: a CONNECT request names it without brackets. -/
theorem buildTarget_ipv6 :
    buildAddr (ascii "::1") 8080 = some (ascii "[::1]:8080")
      ∧ buildTarget (ascii "::1") 8080 = some (ascii "::1:8080")
      ∧ Authority.split (ascii "::1:8080") = none := by
  decide +kernel

end BurstHttp
