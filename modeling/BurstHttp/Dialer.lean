/-
The port that is dialed (dialer.go, `Dialer.DialAddr`, up to the network).

`DialAddr` hands a host and a port to one of three ways: directly, by the address of
`buildAddr`; through a proxy, by the target of a CONNECT request; or through a SOCKS 5
proxy.  The host and the port come from the URL of a request.

* `Dialer.dialAddr` — the text that names the port, `Way.portOf` — the port it names;
* `dialAddr_port` — a port that can be dialed is named on every way, for a name;
  `dialAddr_socks5` — by a SOCKS 5 proxy, any other is cut; `dialAddr_proxy` — by a CONNECT
  request, none is named for an address of IPv6;
* `resolve_eq_none`, `resolve_port` — the port of a URL;
* `dialedPort_iff` — the URLs whose port is dialed.
-/
import BurstHttp.Address
import BurstHttp.Routing
import BurstHttp.Socks5

namespace BurstHttp

/-- How a connection is made.  `lookupHost` is the answer of the DNS cache, if it has one. -/
inductive Way
  | direct (lookupHost : Bytes → Option (List Bytes))
  | proxy
  | socks5 (parseIP : Bytes → Option IP)

/-- The fields of `Dialer` that matter here; `target` are `Host`, `Port` and `UseTLS` of the
configuration. -/
structure Dialer where
  target : Pool.Target
  way : Way

/-- `Dialer.DialAddr`: the address, the target of the CONNECT request or the SOCKS 5 request.
Nothing is an index out of range. -/
def Dialer.dialAddr (d : Dialer) (host : Bytes) (port : ℤ) : Option Bytes :=
  let host := if host = [] then d.target.host else host
  let port := if port = 0 then d.target.port else port
  let port := if port ≤ 0 then (if d.target.tls then 443 else 80) else port
  match d.way with
  | .socks5 parseIP => some (SOCKS5Dialer.connectBytes parseIP host port)
  | .proxy => buildTarget host port
  | .direct lookupHost =>
    match lookupHost host with
    | some (dialHost :: _) => buildAddr dialHost port
    | _ => buildAddr host port

/-- The port that is named on a way. -/
def Way.portOf : Way → Bytes → Option ℕ
  | .socks5 _, req => (Socks.decodeRequest req).map Prod.snd
  | .proxy, target => (Authority.split target).bind Prod.snd
  | .direct _, address => (Authority.split address).bind Prod.snd

/-- The addresses of the DNS cache are texts of `net.IP`, without brackets. -/
def Way.Plain : Way → Prop
  | .direct lookupHost =>
    ∀ host addrs, lookupHost host = some addrs → ∀ addr ∈ addrs, 91 ∉ addr ∧ 93 ∉ addr
  | _ => True

/-- A SOCKS 5 request has a port of sixteen bits. -/
theorem portOf_connectBytes (parseIP : Bytes → Option IP) (host : Bytes) (port : ℤ) :
    (Socks.decodeRequest (SOCKS5Dialer.connectBytes parseIP host port)).map Prod.snd
      = some (port % 65536).toNat := by
  obtain ⟨a, hencode, -⟩ := SOCKS5Dialer.connectBytes_encode parseIP host port
  have hmod : (port % 65536).toNat % 65536 = (port % 65536).toNat := by omega
  rw [hencode, Socks.decodeRequest_encode, hmod]
  rfl

namespace Dialer

/-- On every way, for a name. -/
theorem dialAddr_port (d : Dialer) (hplain : d.way.Plain) {host : Bytes} (hne : host ≠ [])
    (hcolon : 58 ∉ host) (hbracket : host.head? ≠ some 91) {port : ℤ}
    (hport : 1 ≤ port ∧ port ≤ 65535) :
    ∃ bytes, d.dialAddr host port = some bytes ∧ d.way.portOf bytes = some port.toNat := by
  have hzero : ¬ port = 0 := by omega
  have hneg : ¬ port ≤ 0 := by omega
  have hsplit : Authority.split (host ++ 58 :: Decimal.digits port.toNat)
      = some (host, some port.toNat) := by
    rw [Authority.split_name hcolon hbracket (.inr ⟨_, rfl⟩), Authority.port_digits]
    rfl
  unfold dialAddr
  simp only [if_neg hzero, if_neg hneg, if_neg hne]
  cases hway : d.way with
  | socks5 parseIP =>
    have hmod : port % 65536 = port := by omega
    refine ⟨_, rfl, ?_⟩
    rw [Way.portOf, portOf_connectBytes, hmod]
  | proxy =>
    refine ⟨_, buildTarget_eq host (by omega) (by omega), ?_⟩
    rw [Way.portOf, hsplit]
    rfl
  | direct lookupHost =>
    dsimp only
    split
    · case _ dialHost rest hlookup =>
      rw [hway] at hplain
      obtain ⟨hopen, hclose⟩ := hplain host _ hlookup dialHost List.mem_cons_self
      have hpos : 0 < port := by omega
      obtain ⟨address, haddress, hread⟩ := Option.bind_eq_some_iff.mp
        (split_buildAddr hpos (by omega) hopen hclose)
      exact ⟨address, haddress, by rw [Way.portOf, hread]; rfl⟩
    · refine ⟨_, buildAddr_eq host (by omega) (by omega), ?_⟩
      rw [if_neg hcolon, Way.portOf, hsplit]
      rfl

/-- A CONNECT request for a host with a colon names no port. -/
theorem dialAddr_proxy (target : Pool.Target) {host : Bytes} (hcolon : 58 ∈ host)
    (hbracket : host.head? ≠ some 91) {port : ℤ} (hport : 1 ≤ port ∧ port ≤ 65535) :
    ∃ bytes, dialAddr ⟨target, .proxy⟩ host port = some bytes ∧ Way.portOf .proxy bytes = none := by
  have hzero : ¬ port = 0 := by omega
  have hneg : ¬ port ≤ 0 := by omega
  unfold dialAddr
  simp only [if_neg hzero, if_neg hneg, if_neg (List.ne_nil_of_mem hcolon)]
  refine ⟨_, buildTarget_eq host (by omega) (by omega), ?_⟩
  rw [Way.portOf, Authority.split_colons hcolon hbracket]
  rfl

/-- Through a SOCKS 5 proxy. -/
theorem dialAddr_socks5 (target : Pool.Target) (parseIP : Bytes → Option IP) (host : Bytes)
    {port : ℤ} (hport : 0 < port) :
    ∃ req, dialAddr ⟨target, .socks5 parseIP⟩ host port = some req
      ∧ Way.portOf (.socks5 parseIP) req = some (port % 65536).toNat := by
  have hzero : ¬ port = 0 := by omega
  have hneg : ¬ port ≤ 0 := by omega
  refine ⟨_, rfl, ?_⟩
  simp only [if_neg hzero, if_neg hneg]
  exact portOf_connectBytes _ _ _

end Dialer

/-! ### The port of a URL -/

/-- What is parsed: a URL without a scheme is one of http. -/
def withScheme (url : Bytes) : Bytes :=
  if (Pool.index (ascii "://") url).isSome then url else ascii "http://" ++ url

/-- The URLs that are refused: their scheme is another one, or they have no host. -/
def URL.Refused (u : URL) : Prop :=
  (u.scheme.map lower ≠ ascii "https" ∧ u.scheme.map lower ≠ ascii "http") ∨ u.hostname = []

section Resolving

variable {parse : Bytes → Option URL} {url : Bytes} {u : URL}

theorem resolve_eq_none (hurl : url ≠ []) (hparse : parse (withScheme url) = some u) :
    resolve parse url = none ↔ u.Refused := by
  unfold withScheme at hparse
  unfold resolve URL.Refused
  rw [if_neg hurl, hparse]
  dsimp only
  by_cases hhttps : u.scheme.map lower = ascii "https"
  · simp [hhttps]
  · rw [if_neg hhttps]
    by_cases hhttp : u.scheme.map lower = ascii "http"
    · simp [hhttp]
    · simp [hhttps, hhttp]

/-- The port is the one that is written if it is positive and fits an `int`. -/
theorem resolve_port (hparse : parse (withScheme url) = some u) (hne : u.port ≠ [])
    (hdigits : u.port.all Decimal.isDigit = true) {route : Route}
    (h : resolve parse url = some route) :
    route.target.port
      = if 0 < Decimal.value u.port ∧ Decimal.value u.port < 2 ^ 63 then (Decimal.value u.port : ℤ)
        else if route.target.tls then 443 else 80 := by
  unfold withScheme at hparse
  unfold resolve at h
  rw [hparse] at h
  split at h
  · cases h
  dsimp only at h
  split at h
  · cases h
  split at h
  · cases h
  obtain rfl := Option.some.inj h
  dsimp only
  rw [Pool.atoi_of_digits hne hdigits]
  by_cases hfits : Decimal.value u.port < 2 ^ 63
  · rw [if_pos hfits, Option.filter_some]
    by_cases hpos : 0 < Decimal.value u.port
    · rw [if_pos (by simpa using hpos), Option.getD_some, if_pos ⟨hpos, hfits⟩]
    · rw [if_neg (by simpa using hpos), Option.getD_none]
      exact (if_neg fun h => hpos h.1).symm
  · rw [if_neg hfits, Option.filter_none, Option.getD_none]
    exact (if_neg fun h => hfits h.2).symm

/-- The host is the one that is written. -/
theorem resolve_host (hparse : parse (withScheme url) = some u) {route : Route}
    (h : resolve parse url = some route) : route.target.host = u.hostname ∧ u.hostname ≠ [] := by
  unfold withScheme at hparse
  unfold resolve at h
  rw [hparse] at h
  split at h
  · cases h
  dsimp only at h
  split at h
  · cases h
  split at h
  · cases h
  · case _ hname =>
    obtain rfl := Option.some.inj h
    exact ⟨rfl, hname⟩

/-- `resolveURL`, on a URL that has just been set. -/
theorem resolveURL_withURL (parse : Bytes → Option URL) (r : ClientRequest) (url : Bytes) :
    ((r.withURL url).resolveURL parse).1 = resolve parse url := by
  have hurl : (r.withURL url).url = url := rfl
  have hparsed : ¬ (r.withURL url).urlParsed = true := Bool.false_ne_true
  rw [ClientRequest.resolveURL, if_neg hparsed, hurl]
  cases resolve parse url <;> rfl

end Resolving

namespace Dispatcher

/-- A URL that cannot be resolved ends a call before it has called anything. -/
theorem doWithContext_refused (c : Dispatcher) (env : CallEnv) (r : ClientRequest) {url : Bytes}
    (hurl : url ≠ []) (h : resolve c.parse url = none) :
    ∃ err req, c.doWithContext env (r.withURL url) = ((none, some err), [], req) := by
  have hprepare : ∃ err req, c.prepare env (r.withURL url) = (.error err, req) := by
    unfold prepare
    split
    · exact ⟨_, _, rfl⟩
    split
    · exact ⟨_, _, rfl⟩
    have hne : (r.withURL url).url ≠ [] := hurl
    rw [if_neg hne]
    have hroute := resolveURL_withURL c.parse r url
    rcases hresolve : (r.withURL url).resolveURL c.parse with ⟨route, req⟩
    rw [hresolve, h] at hroute
    obtain rfl : route = none := hroute
    exact ⟨_, _, rfl⟩
  obtain ⟨err, req, hprepare⟩ := hprepare
  exact ⟨err, req, by rw [doWithContext, hprepare]⟩

end Dispatcher

/-- **The port in the URL is dialed.**  A URL has digits for a port and a host name without a
bracket in front, and a request is called with it.  If `resolveURL` accepts it, the port is named
on every way, whatever the dialer, and if not the call fails without a connection: this is so
exactly if the URL is refused for its scheme or its host, or the host name has no colon and the
number is one of 1 to 65535. -/
theorem dialedPort_iff (c : Dispatcher) (r : ClientRequest) (url : Bytes) (hurl : url ≠ []) {u : URL}
    (hparse : c.parse (withScheme url) = some u) (hbracket : u.hostname.head? ≠ some 91)
    (hne : u.port ≠ []) (hdigits : u.port.all Decimal.isDigit = true) :
    ((∀ route, ((r.withURL url).resolveURL c.parse).1 = some route → ∀ d : Dialer, d.way.Plain →
          ∃ bytes, d.dialAddr route.target.host route.target.port = some bytes
            ∧ d.way.portOf bytes = some (Decimal.value u.port))
        ∧ (((r.withURL url).resolveURL c.parse).1 = none → ∀ env, ∃ err req,
          c.doWithContext env (r.withURL url) = ((none, some err), [], req))) ↔
      u.Refused ∨ 58 ∉ u.hostname ∧ 1 ≤ Decimal.value u.port ∧ Decimal.value u.port ≤ 65535 := by
  rw [resolveURL_withURL]
  constructor
  · rintro ⟨hdialed, -⟩
    cases hroute : resolve c.parse url with
    | none => exact .inl ((resolve_eq_none hurl hparse).mp hroute)
    | some route =>
      right
      have hport := resolve_port hparse hne hdigits hroute
      obtain ⟨hhost, hname⟩ := resolve_host hparse hroute
      -- through a SOCKS 5 proxy the number has to be one of sixteen bits
      have hpos : 0 < route.target.port := by
        rw [hport]
        split_ifs <;> omega
      obtain ⟨req, hreq, hfield⟩ := Dialer.dialAddr_socks5 c.target (fun _ => none)
        route.target.host hpos
      obtain ⟨req', hreq', hfield'⟩ := hdialed route hroute ⟨c.target, .socks5 fun _ => none⟩ trivial
      rw [hreq, Option.some_inj] at hreq'
      subst hreq'
      rw [hfield, Option.some_inj] at hfield'
      have hrange : 1 ≤ Decimal.value u.port ∧ Decimal.value u.port ≤ 65535 := by
        rw [hport] at hfield'
        split_ifs at hfield' <;> omega
      refine ⟨?_, hrange⟩
      -- and a CONNECT request needs a host without a colon
      intro hcolon
      have hvalue : 1 ≤ route.target.port ∧ route.target.port ≤ 65535 := by
        rw [hport, if_pos (by omega)]
        omega
      obtain ⟨target, htarget, hnone⟩ := Dialer.dialAddr_proxy c.target (hhost.symm ▸ hcolon)
        (hhost.symm ▸ hbracket) hvalue
      obtain ⟨target', htarget', hsome⟩ := hdialed route hroute ⟨c.target, .proxy⟩ trivial
      rw [htarget, Option.some_inj] at htarget'
      rw [← htarget', hnone] at hsome
      cases hsome
  · rintro (hrefused | ⟨hcolon, hport⟩)
    · have hnone := (resolve_eq_none hurl hparse).mpr hrefused
      rw [hnone]
      exact ⟨nofun, fun _ env => c.doWithContext_refused env r hurl hnone⟩
    · refine ⟨?_, fun hnone env => c.doWithContext_refused env r hurl hnone⟩
      intro route hroute d hplain
      obtain ⟨hhost, hname⟩ := resolve_host hparse hroute
      have hvalue : route.target.port = Decimal.value u.port := by
        rw [resolve_port hparse hne hdigits hroute, if_pos (by omega)]
      have hrange : 1 ≤ route.target.port ∧ route.target.port ≤ 65535 := by omega
      obtain ⟨bytes, hdial, hfield⟩ := d.dialAddr_port hplain (hhost.symm ▸ hname)
        (hhost.symm ▸ hcolon) (hhost.symm ▸ hbracket) hrange
      rw [hvalue, Int.toNat_natCast] at hfield
      exact ⟨bytes, hdial, hfield⟩

/-- A client whose URLs all name `example.com`, with a port. -/
def onPort (port : Bytes) : Dispatcher :=
  ClientRequest.probe fun _ => some ⟨ascii "http", ascii "example.com", port, ascii "/"⟩

/-- The target of its configuration. -/
def exampleTarget : Pool.Target := ⟨false, ascii "example.com", 80⟩

theorem dialedPort_iff_8080 :
    ((plainRequest.withURL (ascii "http://example.com:8080/")).resolveURL
        (onPort (ascii "8080")).parse).1 = some ⟨⟨false, ascii "example.com", 8080⟩, ascii "/"⟩
      ∧ ∃ bytes, Dialer.dialAddr ⟨exampleTarget, .proxy⟩ (ascii "example.com") 8080 = some bytes
        ∧ Way.portOf .proxy bytes = some 8080 := by
  have hroute : ((plainRequest.withURL (ascii "http://example.com:8080/")).resolveURL
      (onPort (ascii "8080")).parse).1 = some ⟨⟨false, ascii "example.com", 8080⟩, ascii "/"⟩ := by
    decide +kernel
  refine ⟨hroute, ?_⟩
  exact ((dialedPort_iff (onPort (ascii "8080")) plainRequest (ascii "http://example.com:8080/")
    (by decide) rfl (by decide) (by decide) (by decide)).mpr (.inr (by decide))).1 _ hroute
      ⟨exampleTarget, .proxy⟩ trivial

/-- Four ports that are accepted.  Port 0 becomes port 80; port 65536 is port 0 for a SOCKS 5 proxy;
and larger ones are an index out of range in `buildAddr`, and then in `buildTarget`.  And a CONNECT
request for an address of IPv6 does not say where the port begins. -/
theorem dialedPort_fails :
    (((plainRequest.withURL (ascii "http://example.com:0/")).resolveURL (onPort (ascii "0")).parse).1
        = some ⟨⟨false, ascii "example.com", 80⟩, ascii "/"⟩
      ∧ Dialer.dialAddr ⟨exampleTarget, .proxy⟩ (ascii "example.com") 80
        = some (ascii "example.com:80"))
    ∧ (((plainRequest.withURL (ascii "http://example.com:65536/")).resolveURL
          (onPort (ascii "65536")).parse).1
        = some ⟨⟨false, ascii "example.com", 65536⟩, ascii "/"⟩
      ∧ Dialer.dialAddr ⟨exampleTarget, .socks5 fun _ => none⟩ (ascii "example.com") 65536
        = some ([5, 1, 0, 3, 11] ++ ascii "example.com" ++ [0, 0]))
    ∧ (((plainRequest.withURL (ascii "http://example.com:100000000/")).resolveURL
          (onPort (ascii "100000000")).parse).1
        = some ⟨⟨false, ascii "example.com", 100000000⟩, ascii "/"⟩
      ∧ Dialer.dialAddr ⟨exampleTarget, .direct fun _ => none⟩ (ascii "example.com") 100000000 = none)
    ∧ (((plainRequest.withURL (ascii "http://example.com:1000000000000/")).resolveURL
          (onPort (ascii "1000000000000")).parse).1
        = some ⟨⟨false, ascii "example.com", 1000000000000⟩, ascii "/"⟩
      ∧ Dialer.dialAddr ⟨exampleTarget, .proxy⟩ (ascii "example.com") 1000000000000 = none)
    ∧ (Dialer.dialAddr ⟨exampleTarget, .proxy⟩ (ascii "2001:db8::1") 8080
        = some (ascii "2001:db8::1:8080")
      ∧ Way.portOf .proxy (ascii "2001:db8::1:8080") = none) := by
  decide +kernel

end BurstHttp
