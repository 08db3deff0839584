/-
Where a request goes (client.go, `DoWithContext`; pool.go, `getHostPool`,
`parseHostPort`; tls.go, `NewTLSConfig`; config.go, `BuildTLSConfig`).

`DoWithContext` makes a string of the scheme, the host and the port, and `getHostPool`
takes it apart again.

* `Target.key_injective` — different targets have different keys;
* `parseHostPort_key` — the host and the port are read back;
* `Registry` — the map of host pools, under any number of calls of `getHostPool`;
* `Registry.Keyed`, `keyed_of_step` — an entry of the map was made for its key;
* `reached_iff` — every call reaches the pool of its target.
-/
import BurstHttp.Lib.Decimal
import BurstHttp.Lib.Guarded
import BurstHttp.Pool.System

namespace BurstHttp.Pool

open Function (update)

/-! ### Strings -/

/-- `strings.Index`. -/
def index (sep : Bytes) : Bytes → Option ℕ
  | [] => if sep.isEmpty then some 0 else none
  | b :: s => if sep.isPrefixOf (b :: s) then some 0 else (index sep s).map (· + 1)

/-- `strings.LastIndex` of one byte. -/
def lastIndex (sep : UInt8) : Bytes → Option ℕ
  | [] => none
  | b :: s =>
    match lastIndex sep s with
    | some i => some (i + 1)
    | none => if b = sep then some 0 else none

/-- `strconv.Atoi`: an optional sign, then digits, in the range of an `int`. -/
def atoi (s : Bytes) : Option ℤ :=
  let neg := s.head? = some 45
  let digits := if s.head? = some 43 ∨ s.head? = some 45 then s.tail else s
  if digits.isEmpty || !digits.all Decimal.isDigit then none
  else
    let n : ℤ := if neg then -Decimal.value digits else Decimal.value digits
    if -2 ^ 63 ≤ n ∧ n < 2 ^ 63 then some n else none

/-- `%d`. -/
def formatInt (n : ℤ) : Bytes :=
  if n < 0 then 45 :: Decimal.digits n.natAbs else Decimal.digits n.natAbs

theorem formatInt_injective : Function.Injective formatInt := by
  intro m n h
  -- a sign is no digit
  have hsign : ∀ k l, (45 : UInt8) :: Decimal.digits k ≠ Decimal.digits l := by
    intro k l heq
    refine Decimal.notMem_digits (b := 45) (by decide) l ?_
    rw [← heq]
    exact List.mem_cons_self
  unfold formatInt at h
  split_ifs at h with hm hn hn
  · have habs := Decimal.digits_injective (List.cons.inj h).2
    omega
  · exact absurd h (hsign _ _)
  · exact absurd h.symm (hsign _ _)
  · have habs := Decimal.digits_injective h
    omega

theorem colon_notMem_formatInt (n : ℤ) : (58 : UInt8) ∉ formatInt n := by
  have hdigits : (58 : UInt8) ∉ Decimal.digits n.natAbs := Decimal.notMem_digits (by decide) _
  unfold formatInt
  split
  · rw [List.mem_cons, not_or]
    exact ⟨by decide, hdigits⟩
  · exact hdigits

/-- A text of digits: its number, if it fits. -/
theorem atoi_of_digits {s : Bytes} (hne : s ≠ []) (hall : s.all Decimal.isDigit = true) :
    atoi s = if Decimal.value s < 2 ^ 63 then some (Decimal.value s : ℤ) else none := by
  have hsign : ∀ b : UInt8, Decimal.isDigit b = false → s.head? ≠ some b := by
    intro b hb heq
    rw [List.all_eq_true.mp hall b (List.mem_of_mem_head? heq)] at hb
    cases hb
  have hplus := hsign 43 (by decide)
  have hminus := hsign 45 (by decide)
  rw [atoi]
  simp only [hplus, hminus, or_self, if_false, hall, Bool.not_true, Bool.or_false,
    List.isEmpty_iff, hne]
  have hrange : (-2 ^ 63 ≤ (Decimal.value s : ℤ) ∧ (Decimal.value s : ℤ) < 2 ^ 63)
      ↔ Decimal.value s < 2 ^ 63 := by omega
  simp only [hrange]

theorem atoi_digits {n : ℕ} (h : n < 2 ^ 63) : atoi (Decimal.digits n) = some (n : ℤ) := by
  rw [atoi_of_digits (Decimal.digits_ne_nil n) (Decimal.all_digits n), Decimal.value_digits, if_pos h]

theorem atoi_formatInt {n : ℤ} (h : 0 < n) (hn : n < 2 ^ 63) : atoi (formatInt n) = some n := by
  rw [formatInt, if_neg (by omega), atoi_digits (by omega)]
  congr 1
  omega

theorem lastIndex_eq_none {sep : UInt8} {s : Bytes} (h : sep ∉ s) : lastIndex sep s = none := by
  induction s with
  | nil => rfl
  | cons b s ih =>
    rw [List.mem_cons, not_or] at h
    rw [lastIndex, ih h.2]
    exact if_neg (Ne.symm h.1)

theorem lastIndex_append {sep : UInt8} (s : Bytes) {rest : Bytes} (h : sep ∉ rest) :
    lastIndex sep (s ++ sep :: rest) = some s.length := by
  induction s with
  | nil => simp [lastIndex, lastIndex_eq_none h]
  | cons b s ih => simp [lastIndex, ih]

/-! ### Targets -/

/-- Where a request is to go: from its URL, or from the configuration. -/
structure Target where
  tls : Bool
  host : Bytes
  port : ℤ
  deriving DecidableEq

namespace Target

/-- `poolKey`. -/
def key (t : Target) : Bytes :=
  (if t.tls then ascii "https" else ascii "http") ++ ascii "://" ++ t.host ++ [58]
    ++ formatInt t.port

/-- The targets that can be dialed; the port is an `int`. -/
structure Valid (t : Target) : Prop where
  host_ne : t.host ≠ []
  bracket : t.host.head? ≠ some 91
  port_pos : 0 < t.port
  port_lt : t.port < 2 ^ 63

/-- What follows the scheme. -/
theorem key_eq (t : Target) :
    t.key = (if t.tls then ascii "https://" else ascii "http://")
      ++ (t.host ++ 58 :: formatInt t.port) := by
  have hhttp : ascii "http" ++ ascii "://" = ascii "http://" := by decide
  have hhttps : ascii "https" ++ ascii "://" = ascii "https://" := by decide
  rw [key, List.append_assoc, List.append_assoc, List.singleton_append]
  cases t.tls
  · rw [← hhttp]
    rfl
  · rw [← hhttps]
    rfl

theorem key_injective : Function.Injective key := by
  intro t t' h
  rw [key_eq, key_eq] at h
  -- the fifth byte tells the schemes apart
  have htls : t.tls = t'.tls := by
    have hbyte := congrArg (fun s : Bytes => s[4]?) h
    revert hbyte
    cases t.tls <;> cases t'.tls
    · exact fun _ => rfl
    · intro hbyte
      exact absurd (Option.some_inj.mp hbyte) (by decide)
    · intro hbyte
      exact absurd (Option.some_inj.mp hbyte) (by decide)
    · exact fun _ => rfl
  rw [htls] at h
  have hrest := List.append_cancel_left h
  -- and the last colon stands behind the host
  have hlen : t.host.length = t'.host.length := by
    have hlast := congrArg (lastIndex 58) hrest
    rw [lastIndex_append _ (colon_notMem_formatInt _), lastIndex_append _ (colon_notMem_formatInt _)]
      at hlast
    exact Option.some_inj.mp hlast
  obtain ⟨hhost, hport⟩ := List.append_inj hrest hlen
  have hport := formatInt_injective (List.cons.inj hport).2
  cases t
  cases t'
  simp_all

end Target

/-! ### Host pools -/

/-- `parseHostPort`. -/
def parseHostPort (key defaultHost : Bytes) (defaultPort : ℤ) : Bytes × ℤ :=
  if key.isEmpty then (defaultHost, defaultPort)
  else if (ascii "[").isPrefixOf key then
    match lastIndex 93 key with
    | none => (key, defaultPort)
    | some last =>
      let host := (key.take last).drop 1
      let rest := key.drop (last + 1)
      if (ascii ":").isPrefixOf rest then
        match atoi (rest.drop 1) with
        | some port => if 0 < port then (host, port) else (host, defaultPort)
        | none => (host, defaultPort)
      else (host, defaultPort)
  else
    match lastIndex 58 key with
    | none => (key, defaultPort)
    | some idx =>
      match atoi (key.drop (idx + 1)) with
      | none => (key.take idx, defaultPort)
      | some port => if port ≤ 0 then (key.take idx, defaultPort) else (key.take idx, port)

theorem parseHostPort_key {t : Target} (h : t.Valid) (defaultHost : Bytes) (defaultPort : ℤ) :
    parseHostPort (t.host ++ 58 :: formatInt t.port) defaultHost defaultPort = (t.host, t.port) := by
  have hbracket : (ascii "[").isPrefixOf (t.host ++ 58 :: formatInt t.port) = false := by
    have hne := h.host_ne
    have hhead := h.bracket
    cases hhost : t.host with
    | nil => exact absurd hhost hne
    | cons b s =>
      rw [hhost, List.head?_cons, ne_eq, Option.some_inj] at hhead
      have hb : (91 == b) = false := beq_eq_false_iff_ne.mpr (Ne.symm hhead)
      change ((91 == b) && true) = false
      rw [hb]
      rfl
  have hdrop : (t.host ++ 58 :: formatInt t.port).drop (t.host.length + 1) = formatInt t.port := by
    rw [List.drop_append, List.drop_eq_nil_of_le (by omega)]
    simp
  unfold parseHostPort
  rw [if_neg (by simp), if_neg (by simp [hbracket]), lastIndex_append _ (colon_notMem_formatInt _)]
  dsimp only
  rw [hdrop, atoi_formatInt h.port_pos h.port_lt]
  dsimp only
  have hpos := h.port_pos
  rw [if_neg (by omega), List.take_left]

/-- A `tls.Config`; `sessionCache` is the capacity of its cache. -/
structure TlsOptions where
  serverName : Bytes := []
  minVersion : ℕ := 0
  maxVersion : ℕ := 0
  insecureSkipVerify : Bool := false
  nextProtos : List Bytes := []
  sessionCache : Option ℤ := none
  sessionTicketsDisabled : Bool := false

/-- `TLSConfig`. -/
structure TLSConfig where
  config : TlsOptions
  handshakeTimeout : ℤ
  enableLogging : Bool

/-- The fields of `Config` that `getHostPool` and `NewTLSConfig` read. -/
structure TargetConfig extends Config where
  host : Bytes
  port : ℤ
  useTLS : Bool
  tlsConfig : Option TlsOptions := none
  tlsMinVersion : ℕ := 0
  tlsMaxVersion : ℕ := 0
  insecureSkipVerify : Bool := false
  tlsClientSessionCacheSize : ℤ := 0
  tlsHandshakeTimeout : ℤ := 0
  enableLogging : Bool := false

/-- What `getHostPool` puts into a `HostPool`. -/
structure Endpoint where
  maxIdle : ℤ
  maxActive : ℤ
  host : Bytes
  dialHost : Bytes
  dialPort : ℤ
  tlsConfig : Option TLSConfig

namespace TargetConfig

/-- `Config.BuildTLSConfig`. -/
def buildTLSConfig (cfg : TargetConfig) : TlsOptions :=
  match cfg.tlsConfig with
  | some config => config
  | none =>
    { minVersion := cfg.tlsMinVersion
      maxVersion := cfg.tlsMaxVersion
      insecureSkipVerify := cfg.insecureSkipVerify
      nextProtos := [ascii "http/1.1"]
      serverName := if cfg.host ≠ [] then cfg.host else [] }

/-- Ten seconds unless the configuration says otherwise. -/
def handshakeTimeout (cfg : TargetConfig) : ℤ :=
  if cfg.tlsHandshakeTimeout ≤ 0 then 10 * 1000000000 else cfg.tlsHandshakeTimeout

/-- `NewTLSConfig`. -/
def newTLSConfig (cfg : TargetConfig) : TLSConfig where
  config :=
    { cfg.buildTLSConfig with
      sessionCache := some
        (if cfg.tlsClientSessionCacheSize ≤ 0 then 4096 else cfg.tlsClientSessionCacheSize)
      sessionTicketsDisabled := false }
  handshakeTimeout := cfg.handshakeTimeout
  enableLogging := cfg.enableLogging

/-- `tlsConfig` of the pool that `NewClient` makes. -/
def poolTLSConfig (cfg : TargetConfig) : Option TLSConfig :=
  if cfg.useTLS then some cfg.newTLSConfig else none

/-- `hostConfig` in `getHostPool`, for a host that is not the configured one. -/
def hostTLSConfig (cfg : TargetConfig) (dialHost : Bytes) : TLSConfig where
  config :=
    let hostConfig := cfg.buildTLSConfig
    { hostConfig with
      serverName :=
        if hostConfig.serverName = [] ∨ hostConfig.serverName ≠ dialHost then dialHost
        else hostConfig.serverName
      sessionCache := some 256
      sessionTicketsDisabled := false }
  handshakeTimeout := cfg.handshakeTimeout
  enableLogging := cfg.enableLogging

/-- The `HostPool` that `getHostPool` makes for a key it has none for. -/
def newHostPool (cfg : TargetConfig) (key : Bytes) (useTLS : Bool) : Endpoint :=
  let hostPort :=
    match index (ascii "://") key with
    | some idx => key.drop (idx + 3)
    | none => key
  let dial := parseHostPort hostPort cfg.host cfg.port
  { maxIdle := cfg.maxIdle
    maxActive := if cfg.poolSize ≤ 0 then 512 else cfg.poolSize
    host := key
    dialHost := dial.1
    dialPort := dial.2
    tlsConfig :=
      if useTLS then
        match cfg.poolTLSConfig with
        | some config =>
          if cfg.host = dial.1 then some config else some (cfg.hostTLSConfig dial.1)
        | none => some (cfg.hostTLSConfig dial.1)
      else none }

end TargetConfig

/-- What a pool should be for its target. -/
structure Endpoint.Serves (p : Endpoint) (cfg : TargetConfig) (t : Target) : Prop where
  dialHost : p.dialHost = t.host
  dialPort : p.dialPort = t.port
  tls : p.tlsConfig.isSome = true ↔ t.tls = true
  serverName : cfg.tlsConfig = none →
    ∀ config, p.tlsConfig = some config → config.config.serverName = t.host

theorem index_key (t : Target) :
    index (ascii "://") t.key = some (if t.tls then 5 else 4) := by
  rw [Target.key_eq]
  cases t.tls <;> rfl

theorem drop_key (t : Target) :
    t.key.drop ((if t.tls then 5 else 4) + 3) = t.host ++ 58 :: formatInt t.port := by
  rw [Target.key_eq]
  cases t.tls <;> rfl

theorem hostTLSConfig_serverName (cfg : TargetConfig) (dialHost : Bytes) :
    (cfg.hostTLSConfig dialHost).config.serverName = dialHost := by
  simp only [TargetConfig.hostTLSConfig]
  split
  · rfl
  · rename_i h
    rw [not_or, not_not] at h
    exact h.2

theorem newHostPool_serves (cfg : TargetConfig) {t : Target} (h : t.Valid) :
    (cfg.newHostPool t.key t.tls).Serves cfg t := by
  have hdial : parseHostPort (match index (ascii "://") t.key with
      | some idx => t.key.drop (idx + 3)
      | none => t.key) cfg.host cfg.port = (t.host, t.port) := by
    rw [index_key]
    dsimp only
    rw [drop_key, parseHostPort_key h]
  constructor
  · exact congrArg Prod.fst hdial
  · exact congrArg Prod.snd hdial
  · simp only [TargetConfig.newHostPool, hdial]
    cases t.tls
    · simp
    · simp only [if_true, iff_true]
      split
      · split <;> rfl
      · rfl
  · intro hnone config hconfig
    simp only [TargetConfig.newHostPool, hdial] at hconfig
    -- the configuration of the pool names the configured host, which is this one
    have hpool : ∀ config, cfg.poolTLSConfig = some config → cfg.host = t.host →
        config.config.serverName = t.host := by
      intro config hconfig hhost
      unfold TargetConfig.poolTLSConfig at hconfig
      split at hconfig
      · cases hconfig
        simp [TargetConfig.newTLSConfig, TargetConfig.buildTLSConfig, hnone, hhost]
      · cases hconfig
    split at hconfig
    · split at hconfig
      · rename_i config' hconfig'
        split at hconfig
        · rename_i hhost
          cases hconfig
          exact hpool config hconfig' hhost
        · cases hconfig
          exact hostTLSConfig_serverName cfg t.host
      · cases hconfig
        exact hostTLSConfig_serverName cfg t.host
    · cases hconfig

/-! ### The map of host pools -/

/-- The host pools of a `Pool`. -/
structure Registry where
  heap : List Endpoint
  hostPools : Bytes → Option ℕ       -- the `sync.Map`
  callers : ℕ → Option Target        -- calls of `getHostPool` behind a `Load` without a result
  reached : List (Target × ℕ)        -- what calls have returned, but for pools that were deleted

namespace Registry

def empty : Registry := ⟨[], fun _ => none, fun _ => none, []⟩

inductive Label
  | load (n : ℕ) (t : Target)   -- call `n` begins: hostPools.Load(key)
  | store (n : ℕ)               -- hostPools.LoadOrStore(key, hp)
  | delete (key : Bytes)        -- Stop, GracefulStop: hostPools.Delete(key)

def step (cfg : TargetConfig) (s : Registry) : Label → Option Registry
  | .load n t =>
    if (s.callers n).isSome then none
    else
      match s.hostPools t.key with
      | some h => some { s with reached := (t, h) :: s.reached }
      | none => some { s with callers := update s.callers n (some t) }
  | .store n =>
    match s.callers n with
    | none => none
    | some t =>
      match s.hostPools t.key with
      | some h =>
        some { s with callers := update s.callers n none, reached := (t, h) :: s.reached }
      | none =>
        some
          { heap := s.heap ++ [cfg.newHostPool t.key t.tls]
            hostPools := update s.hostPools t.key (some s.heap.length)
            callers := update s.callers n none
            reached := (t, s.heap.length) :: s.reached }
  | .delete key =>
    some
      { s with
        hostPools := update s.hostPools key none
        reached := s.reached.filter fun r => r.1.key ≠ key }

/-- The states that any calls, in any order, lead to. -/
def Reachable (cfg : TargetConfig) (s : Registry) : Prop :=
  Guarded.Reaches (step cfg) (fun _ _ => True) empty s

/-- Every entry was made for its key, and the calls have returned the entries of their keys. -/
structure Keyed (cfg : TargetConfig) (s : Registry) : Prop where
  made : ∀ key h, s.hostPools key = some h →
    ∃ t : Target, t.key = key ∧ s.heap[h]? = some (cfg.newHostPool key t.tls)
  current : ∀ t h, (t, h) ∈ s.reached → s.hostPools t.key = some h

theorem keyed_of_step {cfg : TargetConfig} {s s' : Registry} {l : Label} (hinv : s.Keyed cfg)
    (hs : step cfg s l = some s') : s'.Keyed cfg := by
  have hreached : ∀ {t h}, s.hostPools t.key = some h →
      ∀ t' h', (t', h') ∈ (t, h) :: s.reached → s.hostPools t'.key = some h' := by
    intro t h hentry t' h' hmem
    rcases List.mem_cons.mp hmem with heq | hmem
    · cases heq
      exact hentry
    · exact hinv.current t' h' hmem
  cases l with
  | load n t =>
    rw [step] at hs
    split_ifs at hs
    split at hs
    · rename_i h hentry
      cases hs
      exact ⟨hinv.made, hreached hentry⟩
    · cases hs
      exact ⟨hinv.made, hinv.current⟩
  | store n =>
    rw [step] at hs
    split at hs
    · cases hs
    rename_i t _
    split at hs
    · rename_i h hentry
      cases hs
      exact ⟨hinv.made, hreached hentry⟩
    · -- the new entry has the next free place
      rename_i hentry
      cases hs
      constructor
      · intro key h hkey
        dsimp only at hkey
        by_cases hsame : key = t.key
        · rw [hsame, Function.update_self] at hkey
          cases hkey
          exact ⟨t, hsame.symm, by rw [hsame]; simp⟩
        · rw [Function.update_of_ne hsame] at hkey
          obtain ⟨t', ht', hheap⟩ := hinv.made key h hkey
          exact ⟨t', ht', by
            rw [List.getElem?_append_left (List.getElem?_eq_some_iff.mp hheap).1, hheap]⟩
      · intro t' h' hmem
        dsimp only
        rcases List.mem_cons.mp hmem with heq | hmem
        · cases heq
          exact Function.update_self _ _ _
        · have hold := hinv.current t' h' hmem
          have hne : t'.key ≠ t.key := by
            intro heq
            rw [heq, hentry] at hold
            cases hold
          rw [Function.update_of_ne hne]
          exact hold
  | delete key =>
    cases hs
    constructor
    · intro key' h hkey
      by_cases hsame : key' = key
      · rw [hsame] at hkey
        simp at hkey
      · dsimp only at hkey
        rw [Function.update_of_ne hsame] at hkey
        exact hinv.made key' h hkey
    · intro t h hmem
      obtain ⟨hmem, hne⟩ := List.mem_filter.mp hmem
      dsimp only
      rw [Function.update_of_ne (of_decide_eq_true hne)]
      exact hinv.current t h hmem

theorem keyed_of_reachable {cfg : TargetConfig} {s : Registry} (h : Reachable cfg s) : s.Keyed cfg :=
  Guarded.Reaches.invariant h (Keyed cfg) ⟨fun _ _ h => (nomatch h), fun _ _ h => (nomatch h)⟩
    fun _ _ _ hinv _ hs => keyed_of_step hinv hs

/-- **Requests go where they say.**  Whatever calls of `getHostPool` have been made, in any
interleaving (calls whose pool `Stop` has since deleted are left out, see `Registry.step`): the
pool that a call for a target has reached dials the host and the port of the
target, with TLS exactly if the target has it and then, unless a TLS configuration was given,
for the name of the host; and two calls have reached the same pool exactly if their targets are
the same. -/
theorem reached_iff (cfg : TargetConfig) {s : Registry} (hs : Reachable cfg s) {t : Target} {h : ℕ}
    (hmem : (t, h) ∈ s.reached) (ht : t.Valid) :
    (∃ p, s.heap[h]? = some p ∧ p.Serves cfg t)
      ∧ ∀ t' h', (t', h') ∈ s.reached → (h = h' ↔ t = t') := by
  have hinv := keyed_of_reachable hs
  have hentry := hinv.current t h hmem
  obtain ⟨t₀, hkey, hheap⟩ := hinv.made t.key h hentry
  rw [Target.key_injective hkey] at hheap
  refine ⟨⟨_, hheap, newHostPool_serves cfg ht⟩, ?_⟩
  intro t' h' hmem'
  have hentry' := hinv.current t' h' hmem'
  constructor
  · rintro rfl
    obtain ⟨t₁, hkey', hheap'⟩ := hinv.made t'.key h hentry'
    rw [hheap, Option.some_inj] at hheap'
    -- the pool knows its key
    exact Target.key_injective (congrArg Endpoint.host hheap')
  · rintro rfl
    rw [hentry] at hentry'
    exact Option.some_inj.mp hentry'

/-- An address of IPv6, which is full of colons. -/
def loopback : Target := ⟨true, ascii "::1", 8443⟩

def sampleConfig : TargetConfig where
  host := ascii "localhost"
  port := 443
  useTLS := true

theorem reached_iff_loopback :
    ∃ s h, Reachable sampleConfig s ∧ (loopback, h) ∈ s.reached ∧ loopback.Valid
      ∧ (∃ p, s.heap[h]? = some p ∧ p.Serves sampleConfig loopback)
      ∧ ∀ t' h', (t', h') ∈ s.reached → (h = h' ↔ loopback = t') := by
  obtain ⟨s, hs, hreached⟩ := Guarded.exists_of_exec (step sampleConfig) (fun _ _ => True) empty
    [.load 0 loopback, .load 1 loopback, .load 2 ⟨true, ascii "localhost", 443⟩, .store 1, .store 2,
      .store 0]
    (fun s => s.reached = [(loopback, 0), (⟨true, ascii "localhost", 443⟩, 1), (loopback, 0)])
    (by decide +kernel)
  have hmem : (loopback, 0) ∈ s.reached := by
    rw [hreached]
    exact List.mem_cons_self
  have hvalid : loopback.Valid := ⟨by decide, by decide, by decide, by decide⟩
  obtain ⟨hserves, hiff⟩ := reached_iff sampleConfig hs hmem hvalid
  exact ⟨s, 0, hs, hmem, hvalid, hserves, hiff⟩

end Registry

end BurstHttp.Pool
