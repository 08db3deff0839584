/-
The messages of SOCKS 5 (RFC 1928, with the password method of RFC 1929).

An address has its kind in its first byte: four bytes of IPv4, sixteen of IPv6, or a name
with its length in front.  A port has two bytes, the high one first.

* `Address`, `Address.encode` — addresses that can be sent;
* `decodeRequest` — a CONNECT request, and `decodeRequest_encode` — it is read back;
* `Method`, `replies` — what a server sends that lets a client through.
-/
import Mathlib.Data.List.Basic

namespace Socks

/-- An address that a message can hold. -/
inductive Address
  | ipv4 (bytes : List UInt8) (length_eq : bytes.length = 4)
  | ipv6 (bytes : List UInt8) (length_eq : bytes.length = 16)
  | domain (name : List UInt8) (length_le : name.length ≤ 255)

/-- The kind and the address. -/
def Address.encode : Address → List UInt8
  | .ipv4 bytes _ => 1 :: bytes
  | .ipv6 bytes _ => 4 :: bytes
  | .domain name _ => 3 :: UInt8.ofNat name.length :: name

/-- The high byte and the low byte. -/
def be16 (n : ℕ) : List UInt8 := [UInt8.ofNat (n / 256), UInt8.ofNat n]

def readBe16 : List UInt8 → Option ℕ
  | [hi, lo] => some (hi.toNat * 256 + lo.toNat)
  | _ => none

theorem readBe16_be16 (n : ℕ) : readBe16 (be16 n) = some (n % 65536) := by
  simp only [be16, readBe16, UInt8.toNat_ofNat']
  congr 1
  omega

/-- What follows the kind of an address: the address, and the port. -/
def decodeAddress (kind : UInt8) (rest : List UInt8) : Option (Address × ℕ) :=
  if kind = 1 then
    if h : rest.length = 6 then
      (readBe16 (rest.drop 4)).map fun port => (.ipv4 (rest.take 4) (by simp [h]), port)
    else none
  else if kind = 4 then
    if h : rest.length = 18 then
      (readBe16 (rest.drop 16)).map fun port => (.ipv6 (rest.take 16) (by simp [h]), port)
    else none
  else if kind = 3 then
    match rest with
    | [] => none
    | len :: rest =>
      if rest.length = len.toNat + 2 then
        (readBe16 (rest.drop len.toNat)).map fun port =>
          (.domain (rest.take len.toNat)
            (Nat.le_trans (List.length_take_le _ _) (Nat.le_of_lt_succ len.toNat_lt)), port)
      else none
  else none

/-- A CONNECT request. -/
def decodeRequest : List UInt8 → Option (Address × ℕ)
  | version :: command :: reserved :: kind :: rest =>
    if version = 5 ∧ command = 1 ∧ reserved = 0 then decodeAddress kind rest else none
  | _ => none

theorem decodeAddress_ipv4 (bytes : List UInt8) (h : bytes.length = 4) (n : ℕ) :
    decodeAddress 1 (bytes ++ be16 n) = some (.ipv4 bytes h, n % 65536) := by
  have hlen : (bytes ++ be16 n).length = 6 := by simp [be16, h]
  have hdrop : (bytes ++ be16 n).drop 4 = be16 n := List.drop_left' h
  have htake : (bytes ++ be16 n).take 4 = bytes := List.take_left' h
  unfold decodeAddress
  rw [if_pos rfl, dif_pos hlen]
  simp only [hdrop, htake, readBe16_be16, Option.map_some]

theorem decodeAddress_ipv6 (bytes : List UInt8) (h : bytes.length = 16) (n : ℕ) :
    decodeAddress 4 (bytes ++ be16 n) = some (.ipv6 bytes h, n % 65536) := by
  have hlen : (bytes ++ be16 n).length = 18 := by simp [be16, h]
  have hdrop : (bytes ++ be16 n).drop 16 = be16 n := List.drop_left' h
  have htake : (bytes ++ be16 n).take 16 = bytes := List.take_left' h
  unfold decodeAddress
  rw [if_neg (by decide), if_pos rfl, dif_pos hlen]
  simp only [hdrop, htake, readBe16_be16, Option.map_some]

theorem decodeAddress_domain (name : List UInt8) (h : name.length ≤ 255) (n : ℕ) :
    decodeAddress 3 (UInt8.ofNat name.length :: name ++ be16 n)
      = some (.domain name h, n % 65536) := by
  have hnat : (UInt8.ofNat name.length).toNat = name.length := by
    rw [UInt8.toNat_ofNat']
    omega
  have hlen : (name ++ be16 n).length = name.length + 2 := by simp [be16]
  unfold decodeAddress
  rw [if_neg (by decide), if_neg (by decide), if_pos rfl]
  simp only [List.cons_append, hnat, if_pos hlen, List.drop_left, List.take_left, readBe16_be16,
    Option.map_some]

/-- A request is read back, but for the higher digits of its port. -/
theorem decodeRequest_encode (a : Address) (n : ℕ) :
    decodeRequest ([5, 1, 0] ++ a.encode ++ be16 n) = some (a, n % 65536) := by
  cases a with
  | ipv4 bytes h => exact decodeAddress_ipv4 bytes h n
  | ipv6 bytes h => exact decodeAddress_ipv6 bytes h n
  | domain name h => exact decodeAddress_domain name h n

/-! ### What a server sends -/

/-- How a server lets a client in: without a password, or with the one it has asked for; the
answer to that has a version of its own. -/
inductive Method
  | noAuth
  | password (version : UInt8)

def Method.bytes : Method → List UInt8
  | .noAuth => [5, 0]
  | .password version => [5, 2, version, 0]

/-- The reply to a CONNECT request that has succeeded, with the address that was bound. -/
def connectReply (reserved : UInt8) (bound : Address) (port : UInt8 × UInt8) : List UInt8 :=
  [5, 0, reserved] ++ bound.encode ++ [port.1, port.2]

/-- All that a server sends before the tunnel begins. -/
def replies (m : Method) (reserved : UInt8) (bound : Address) (port : UInt8 × UInt8) :
    List UInt8 :=
  m.bytes ++ connectReply reserved bound port

end Socks
