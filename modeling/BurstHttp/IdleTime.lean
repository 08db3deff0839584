/-
What a connection knows of the time it was last used (connection.go, `updateTimeCache`,
`ensureConnection`; pool.go, `evictIdleConnections`).

A completed request stores `cachedNow` as the time of the last use, and `cachedNow` is the
clock only behind a dial and behind every 128th request.  The evictor compares that time with
the clock, and `ensureConnection` compares it with `cachedNow` itself.

* `Conn.clockEvents` — the dials and the completed requests of a call, with the clock;
  `call_time` — they are all that changes the time cache;
* `Clocked` — a connection with its history; `Clocked.run` — a sequential one;
* `evicted_idle_iff` — when only idle connections are evicted;
* `expired_redialed_iff` — when an expired connection is dialed again.

The clock of a history can be any numbers, so also those of a clock that never goes back.
-/
import BurstHttp.FailedReads

namespace BurstHttp

/-! ### The history of a connection -/

/-- The dial between two states of a connection, if there was one. -/
def Conn.dialEvent (now : ℤ) (before after : Conn) : List (ℤ × ClockEvent) :=
  if after.dials = before.dials then [] else [(now, .dial)]

/-- The completed request, if a call has returned a response. -/
def DoRet.completeEvent (now : ℤ) : DoRet → List (ℤ × ClockEvent)
  | .ok _ => [(now, .complete)]
  | _ => []

theorem TimeCache.run_append (c : TimeCache) (l l' : List (ℤ × ClockEvent)) :
    c.run (l ++ l') = (c.run l).run l' := List.foldl_append

namespace Conn

variable (cfg : Config) (gunzip : Bytes → Gunzip)

/-- What a call does that has to do with the clock. -/
def clockEvents (c : Conn) : Call → List (ℤ × ClockEvent)
  | .stop => []
  | .request env req =>
    -- `Do` dials first, then `doSequential` once more if the connection is due for rotation
    let ensured := (c.ensureConnection cfg env.dial env.dialNow).2
    let x := c.doRequest cfg gunzip env req
    dialEvent env.dialNow c ensured ++ dialEvent env.redialNow ensured x.2 ++
      x.1.completeEvent env.completeNow

theorem ensureConnection_time (c : Conn) (dial : Option GoErr) (now : ℤ) :
    (c.ensureConnection cfg dial now).2.time
      = c.time.run (dialEvent now c (c.ensureConnection cfg dial now).2) := by
  unfold ensureConnection
  split
  · rw [dialEvent, if_pos rfl]
    rfl
  · cases dial with
    | some e =>
      rw [dialEvent, if_pos rfl]
      rfl
    | none =>
      rw [dialEvent, if_neg (Nat.succ_ne_self _)]
      rfl

/-- What the clock sees of an exchange: a completed request, if there is a response. -/
def TimeSpec (env : Env) (c : Conn) (x : DoRet × Conn) : Prop :=
  x.2.dials = c.dials ∧ x.2.time = c.time.run (x.1.completeEvent env.completeNow)

theorem finish_time (env : Env) (body : Bytes) (x : Ret × Response) (c : Conn) :
    TimeSpec env c (c.finish cfg env body x) := by
  obtain ⟨_ | e | _, resp⟩ := x
  · unfold finish
    dsimp only
    split <;> exact ⟨rfl, rfl⟩
  · unfold finish
    dsimp only
    split_ifs <;> exact ⟨rfl, rfl⟩
  · exact ⟨rfl, rfl⟩

theorem readFinal_time (env : Env) (req : Request) (timeout : ℤ) (body : Bytes) (resp : Response)
    (st : TcpStream) (c : Conn) :
    TimeSpec env c (c.readFinal cfg gunzip env req timeout body resp st) := by
  obtain ⟨ret, resp', st', stream', ev, hread, -⟩ :=
    readResponse_spec cfg gunzip env.read true timeout req.method resp st c
  unfold readFinal
  rw [hread]
  exact finish_time cfg env body (ret, resp') _

theorem exchange_time (env : Env) (req : Request) (timeout : ℤ) (body : Bytes) (resp : Response)
    (st : TcpStream) (c : Conn) :
    TimeSpec env c (c.exchange cfg gunzip env req timeout body resp st) := by
  unfold exchange
  dsimp only
  split
  · exact ⟨rfl, rfl⟩
  split
  · obtain ⟨ret, answer, st', stream', ev, hread, -⟩ :=
      readResponse_spec cfg gunzip env.continueRead false timeout req.method
        ⟨0, 0, [], [], List.replicate 512 0, 0, []⟩ st c
    rw [hread]
    rcases ret with _ | e | _
    · dsimp only
      split
      · exact ⟨rfl, rfl⟩
      split
      · exact ⟨rfl, rfl⟩
      · exact readFinal_time cfg gunzip env req timeout body resp st' _
    · exact ⟨rfl, rfl⟩
    · exact ⟨rfl, rfl⟩
  · exact readFinal_time cfg gunzip env req timeout body resp st c

theorem closeConn_time (c : Conn) : c.closeConn.dials = c.dials ∧ c.closeConn.time = c.time := by
  unfold closeConn
  split <;> exact ⟨rfl, rfl⟩

/-- A claimed request dials again, if the connection has had its number of requests, and then
makes an exchange. -/
theorem doClaimed_time (env : Env) (req : Request) (c : Conn) :
    (c.doClaimed cfg gunzip env req).2.time
      = c.time.run (dialEvent env.redialNow c (c.doClaimed cfg gunzip env req).2 ++
          (c.doClaimed cfg gunzip env req).1.completeEvent env.completeNow) := by
  have hnone : ∀ e, c.time = c.time.run (dialEvent env.redialNow c c ++
      DoRet.completeEvent env.completeNow (.err e)) := by
    intro e
    rw [dialEvent, if_pos rfl]
    rfl
  unfold doClaimed
  rcases env.ctx with _ | e
  swap
  · exact hnone _
  dsimp only
  -- `x` is the connection behind the rotation
  generalize hx : (if 0 < cfg.maxRequestsPerConn ∧ cfg.maxRequestsPerConn ≤ c.reqsOnConn then
    c.closeConn.ensureConnection cfg env.redial env.redialNow else (true, c)) = x
  have htime : x.2.time = c.time.run (dialEvent env.redialNow c x.2) := by
    subst hx
    split
    · obtain ⟨hdials, hsame⟩ := c.closeConn_time
      rw [ensureConnection_time, dialEvent, dialEvent, hdials, hsame]
    · rw [dialEvent, if_pos rfl]
      rfl
  have herr : ∀ e, x.2.time = c.time.run (dialEvent env.redialNow c x.2 ++
      DoRet.completeEvent env.completeNow (.err e)) := by
    intro e
    have hnil : DoRet.completeEvent env.completeNow (.err e) = [] := rfl
    rw [hnil, List.append_nil]
    exact htime
  split
  · exact herr _
  split
  · exact herr _
  split
  · exact herr _
  split
  · exact herr _
  · -- the exchange dials nothing
    obtain ⟨hdials, hexchange⟩ := exchange_time cfg gunzip env req _ _ _ _ x.2
    rw [hexchange, htime, ← TimeCache.run_append]
    rw [dialEvent, dialEvent, hdials]

/-- The time cache behind a call is the one before it, moved on by what the call did. -/
theorem call_time (c : Conn) (a : Call) :
    (c.call cfg gunzip a).time = c.time.run (c.clockEvents cfg gunzip a) := by
  cases a with
  | stop =>
    change c.stop.time = c.time
    unfold stop
    split
    · rfl
    · rw [(closeConn_time _).2]
  | request env req =>
    change (c.doRequest cfg gunzip env req).2.time = _
    rw [clockEvents]
    have hensure := ensureConnection_time cfg c env.dial env.dialNow
    rw [List.append_assoc, TimeCache.run_append, ← hensure]
    unfold doRequest
    dsimp only
    split
    · rw [dialEvent, if_pos rfl]
      rfl
    · have hclaim : ∀ c' : Conn, c'.dials = (c.ensureConnection cfg env.dial env.dialNow).2.dials →
          c'.time = (c.ensureConnection cfg env.dial env.dialNow).2.time →
          (c'.doClaimed cfg gunzip env req).2.time
            = (c.ensureConnection cfg env.dial env.dialNow).2.time.run
                (dialEvent env.redialNow (c.ensureConnection cfg env.dial env.dialNow).2
                    (c'.doClaimed cfg gunzip env req).2 ++
                  (c'.doClaimed cfg gunzip env req).1.completeEvent env.completeNow) := by
        intro c' hdials htime
        rw [doClaimed_time, dialEvent, dialEvent, hdials, htime]
      unfold doSequential
      dsimp only
      split
      · exact hclaim _ rfl rfl
      · exact hclaim _ rfl rfl

end Conn

/-- A connection and its history: when it was made, and its dials and completed requests. -/
structure Clocked where
  conn : Conn
  created : ℤ
  history : List (ℤ × ClockEvent)
  time_eq : conn.time = (TimeCache.dialed created).run history

namespace Clocked

/-- A new connection. -/
def new (now depth : ℤ) : Clocked := ⟨Conn.new now depth, now, [], rfl⟩

/-- A call of a connection that is used by one request at a time. -/
def call (cfg : Config) (gunzip : Bytes → Gunzip) (x : Clocked) (a : Conn.Call) : Clocked where
  conn := x.conn.call cfg gunzip a
  created := x.created
  history := x.history ++ x.conn.clockEvents cfg gunzip a
  time_eq := by rw [Conn.call_time, x.time_eq, TimeCache.run_append]

/-- The calls of a run. -/
def run (cfg : Config) (gunzip : Bytes → Gunzip) (x : Clocked) (calls : List Conn.Call) : Clocked :=
  calls.foldl (call cfg gunzip) x

/-- When the last request completed, or the connection was dialed if none has since. -/
def lastFinish (x : Clocked) : ℤ := (x.history.getLast?.map Prod.fst).getD x.created

/-- When the clock was last looked at. -/
def lastRefresh (x : Clocked) : ℤ := BurstHttp.lastRefresh x.created 0 x.history

theorem cachedNow_eq (x : Clocked) : x.conn.time.cachedNow = x.lastRefresh := by
  rw [x.time_eq]
  exact run_cachedNow (.dialed x.created) 0 rfl x.history

theorem lastUsed_eq (x : Clocked) : x.conn.time.lastUsed = x.lastRefresh := by
  rw [← cachedNow_eq, x.time_eq]
  exact run_lastUsed rfl x.history

end Clocked

/-! ### Eviction -/

/-- The test of `evictIdleConnections`. -/
def Conn.isIdle (cfg : Config) (now : ℤ) (c : Conn) : Bool :=
  c.activeReqs = 0 && c.isHealthy && cfg.idleTimeout < now - c.time.lastUsed

namespace Clocked

/-- The connections of a host that `evictIdleConnections` selects. -/
def evictIdleConnections (cfg : Config) (now : ℤ) (conns : List Clocked) : List Clocked :=
  conns.filter fun x => x.conn.isIdle cfg now

/-- The evictor selects only connections that have not been used for `IdleTimeout`, exactly if
those it may select have been used, at the last look at the clock, as they have been used in
truth: within `IdleTimeout`, or not. -/
theorem evicted_idle_iff (cfg : Config) (now : ℤ) (conns : List Clocked) :
    (∀ x ∈ evictIdleConnections cfg now conns, cfg.idleTimeout < now - x.lastFinish) ↔
      ∀ x ∈ conns, x.conn.activeReqs = 0 → x.conn.isHealthy = true →
        now - x.lastRefresh ≤ cfg.idleTimeout ∨ cfg.idleTimeout < now - x.lastFinish := by
  have hmem : ∀ x, x ∈ evictIdleConnections cfg now conns ↔
      x ∈ conns ∧ x.conn.activeReqs = 0 ∧ x.conn.isHealthy = true ∧
        cfg.idleTimeout < now - x.lastRefresh := by
    intro x
    rw [evictIdleConnections, List.mem_filter, Conn.isIdle, x.lastUsed_eq]
    simp [and_assoc]
  constructor
  · intro h x hx hactive hhealthy
    by_cases hold : cfg.idleTimeout < now - x.lastRefresh
    · exact .inr (h x ((hmem x).mpr ⟨hx, hactive, hhealthy, hold⟩))
    · exact .inl (by omega)
  · intro h x hx
    obtain ⟨hx, hactive, hhealthy, hold⟩ := (hmem x).mp hx
    exact (h x hx hactive hhealthy).resolve_left (by omega)

/-- The default `IdleTimeout` of 90 s. -/
def idle90 : Config := { unpipelined with idleTimeout := 90000 * millisecond }

/-- A request that is answered, the end of which is at `now`. -/
def answeredAt (now : ℤ) : Conn.Call :=
  .request { arriving (ascii "HTTP/1.1 200 OK\r\nContent-Length: 0\r\n\r\n") .eof with
    completeNow := now } getRequest

/-- A connection that is used at 1 s and at 95 s. -/
def usedTwice : Clocked :=
  (new 0 10).run idle90 .data [answeredAt (1000 * millisecond), answeredAt (95000 * millisecond)]

/-- One second after its last request the evictor selects it. -/
theorem evicted_in_use :
    usedTwice.conn.isIdle idle90 (96000 * millisecond) = true ∧
      usedTwice.history = [(0, .dial), (1000 * millisecond, .complete),
        (95000 * millisecond, .complete)] ∧
      ¬ ∀ x ∈ evictIdleConnections idle90 (96000 * millisecond) [usedTwice],
        idle90.idleTimeout < 96000 * millisecond - x.lastFinish := by
  have hidle : usedTwice.conn.isIdle idle90 (96000 * millisecond) = true := by decide +kernel
  have hhistory : usedTwice.history = [(0, .dial), (1000 * millisecond, .complete),
      (95000 * millisecond, .complete)] := by decide +kernel
  refine ⟨hidle, hhistory, fun h => ?_⟩
  have hlast := h usedTwice (List.mem_filter.mpr ⟨List.mem_singleton.mpr rfl, hidle⟩)
  rw [lastFinish, hhistory] at hlast
  revert hlast
  decide

/-! ### Expiry -/

/-- The idle test of `ensureConnection` compares a time with itself. -/
theorem isFresh_eq {cfg : Config} (hidle : 0 < cfg.idleTimeout) (x : Clocked) :
    x.conn.isFresh cfg = x.conn.healthy := by
  rw [Conn.isFresh, x.cachedNow_eq, x.lastUsed_eq]
  have hzero : x.lastRefresh - x.lastRefresh ≤ cfg.idleTimeout := by omega
  rw [decide_eq_true hzero, Bool.or_true, Bool.and_true]

/-- `ensureConnection` takes a healthy connection as it is, however long it has been idle: that
a connection which is not dialed again has been used within `IdleTimeout` before the time
`t` holds only of those that are not healthy and of those that are not expired. -/
theorem expired_redialed_iff {cfg : Config} (hidle : 0 < cfg.idleTimeout) (x : Clocked)
    (dial : Option GoErr) (now t : ℤ) :
    ((x.conn.ensureConnection cfg dial now).1 = true →
        (x.conn.ensureConnection cfg dial now).2.dials = x.conn.dials →
        t - x.lastFinish ≤ cfg.idleTimeout) ↔
      x.conn.healthy = false ∨ t - x.lastFinish ≤ cfg.idleTimeout := by
  unfold Conn.ensureConnection
  rw [isFresh_eq hidle]
  cases x.conn.healthy with
  | true => simp
  | false =>
    cases dial with
    | some e => simp
    | none => simp

/-- A minute after its last request the connection is used as it is. -/
theorem expired_redialed_iff_minute :
    (usedTwice.conn.ensureConnection idle90 none 0).1 = true ∧
      (usedTwice.conn.ensureConnection idle90 none 0).2.dials = usedTwice.conn.dials ∧
      155000 * millisecond - usedTwice.lastFinish ≤ idle90.idleTimeout := by
  have hready : (usedTwice.conn.ensureConnection idle90 none 0).1 = true := by decide +kernel
  have hdials : (usedTwice.conn.ensureConnection idle90 none 0).2.dials = usedTwice.conn.dials := by
    decide +kernel
  have hidle : 0 < idle90.idleTimeout := by decide
  have hrecent := (expired_redialed_iff hidle usedTwice none 0 (155000 * millisecond)).mpr
    (.inr (by decide +kernel))
  exact ⟨hready, hdials, hrecent hready hdials⟩

/-- And so it is a day after it. -/
theorem expired_not_redialed :
    (usedTwice.conn.ensureConnection idle90 none 0).1 = true ∧
      (usedTwice.conn.ensureConnection idle90 none 0).2.dials = usedTwice.conn.dials ∧
      ¬ 86495000 * millisecond - usedTwice.lastFinish ≤ idle90.idleTimeout := by
  decide +kernel

end Clocked

end BurstHttp
