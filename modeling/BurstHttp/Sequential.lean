/-
Runs of sequential requests on one connection.

* `readResponse_spec`, `readResponse_event` — what one response read logs, and when
  the response shows a status behind it;
* `doSequential_exchange` — a request is an error without a read, or an exchange;
* `doSequential_errorSpec` — a request whose response read failed returns an error
  exactly unless the head of the response was stored;
* `run_freshStreams` — if no parse of a run breaks off behind a stored head, no
  stream is parsed again once a parse on it has broken off.
-/
import BurstHttp.StoredHead

namespace BurstHttp

namespace ParseEvent

/-- A parse of these bytes stores the head of the response. -/
def stored (cfg : Config) (e : ParseEvent) : Bool :=
  headStored e.bufLen cfg.maxRespSize e.method e.input

/-- The parse broke off, if at all, before the head of the final response was
stored; the answer to `Expect: 100-continue` broke off with an error. -/
def Early (cfg : Config) (e : ParseEvent) : Prop :=
  e.broke = true → if e.isFinal then e.stored cfg = false else ∃ err, e.ret = .error err

end ParseEvent

namespace Conn

variable (cfg : Config) (gunzip : Bytes → Gunzip)

/-- One response read: it logs one event on the stream, for the bytes it has parsed, or for
none if the deadline could not be set. -/
theorem readResponse_spec (env : ReadEnv) (isFinal : Bool) (timeout : ℤ) (method : Bytes)
    (resp : Response) (st : TcpStream) (c : Conn) :
    ∃ ret resp' st' stream' ev, c.readResponse cfg gunzip env isFinal timeout method resp st
        = ((ret, resp'), st', { c with stream := stream', log := ev :: c.log }) ∧
      (ev.stream = st.id ∧ ev.isFinal = isFinal ∧ ev.method = method ∧ ev.ret = ret) ∧
      (st'.id = st.id ∧ (c.stream = some st → stream' = some st')) ∧
      ((∃ r d, r.Delivers ev.input (env.closing d) ∧
          (readDecoded gunzip r ev.bufLen resp cfg.maxRespSize ev.method cfg.headerReadSize
            cfg.bodyReadSize).1 = (ret, resp')) ∨
        (∃ e, ret = .error e) ∧ resp' = resp ∧ ev.input = []) := by
  unfold readResponse
  dsimp only
  rcases (c.time.readDeadline env.now timeout).bind env.setDeadline with _ | e
  · exact ⟨_, _, _, _, _, rfl, ⟨rfl, rfl, rfl, rfl⟩, ⟨rfl, fun _ => rfl⟩,
      .inl ⟨_, c.time.readDeadline env.now timeout, ⟨rfl, rfl, rfl⟩, rfl⟩⟩
  · exact ⟨_, _, _, c.stream, _, rfl, ⟨rfl, rfl, rfl, rfl⟩, ⟨rfl, id⟩, .inr ⟨⟨_, rfl⟩, rfl, rfl⟩⟩

/-- The response shows a status behind a read exactly if the head was stored. -/
theorem readResponse_event (env : ReadEnv) (isFinal : Bool) (timeout : ℤ) (method : Bytes)
    (resp : Response) (hzero : resp.statusCode = 0) (st : TcpStream) (c : Conn) :
    ∃ ret resp' st' stream' ev, c.readResponse cfg gunzip env isFinal timeout method resp st
        = ((ret, resp'), st', { c with stream := stream', log := ev :: c.log }) ∧
      ev.stream = st.id ∧ ev.isFinal = isFinal ∧ ev.ret = ret ∧ st'.id = st.id ∧
      (c.stream = some st → stream' = some st') ∧
      (0 < resp'.statusCode ↔ ev.stored cfg = true) ∧
      ((∀ e, ret ≠ .error e) → ev.stored cfg = true) := by
  obtain ⟨ret, resp', st', stream', ev, hread, ⟨hstream, hfinal, hmethod, hret⟩, ⟨hid, hst⟩, hparse⟩ :=
    readResponse_spec cfg gunzip env isFinal timeout method resp st c
  refine ⟨ret, resp', st', stream', ev, hread, hstream, hfinal, hret, hid, hst, ?_⟩
  rcases hparse with ⟨r, d, hr, hx⟩ | ⟨⟨e, rfl⟩, rfl, hinput⟩
  · have hstatus := readDecoded_statusCode gunzip r ev.bufLen resp cfg.maxRespSize ev.method
      cfg.headerReadSize_pos cfg.bodyReadSize
    rw [hx, hr.flat] at hstatus
    constructor
    · rw [hstatus]
      exact statusAfter_pos_iff hzero
    · intro hok
      have hnot : ∀ e, (readDecoded gunzip r ev.bufLen resp cfg.maxRespSize ev.method
          cfg.headerReadSize cfg.bodyReadSize).1.1 ≠ .error e := by
        rw [hx]
        exact hok
      have hstored := headStored_of_readDecoded cfg.headerReadSize_pos hnot
      rwa [hr.flat] at hstored
  · have hempty : headAt ev.bufLen [] = none := headAt_of_headEnd_none headEnd_nil
    constructor
    · simp [hzero, ParseEvent.stored, headStored, storedStatus, hinput, hempty]
    · intro h
      exact absurd rfl (h e)

/-! ### Errors -/

/-- Behind the last read, an error is returned exactly if the read failed with no
status stored. -/
theorem finish_isErr (env : Env) (body : Bytes) (x : Ret × Response) (c : Conn) :
    (c.finish cfg env body x).1.isErr = true ↔
      (∃ e, x.1 = .error e) ∧ ¬ 0 < x.2.statusCode := by
  obtain ⟨_ | e | _, resp⟩ := x
  · simp [finish, DoRet.isErr]
  · by_cases hpos : 0 < resp.statusCode
    · simp [finish, hpos, DoRet.isErr]
    · unfold finish
      dsimp only
      rw [if_neg hpos]
      split_ifs <;> simp [DoRet.isErr, hpos]
  · simp [finish, DoRet.isErr]

theorem finish_log (env : Env) (body : Bytes) (x : Ret × Response) (c : Conn) :
    (c.finish cfg env body x).2.log = c.log := by
  obtain ⟨_ | e | _, resp⟩ := x
  · unfold finish
    dsimp only
    split <;> rfl
  · unfold finish
    dsimp only
    split_ifs <;> rfl
  · rfl

/-- What a failed response read of a request means for its result. -/
def ErrorSpec (cfg : Config) (c : Conn) (x : DoRet × Conn) : Prop :=
  ∃ new, x.2.log = new ++ c.log ∧ ∀ ev ∈ new, ∀ err, ev.ret = .error err →
    (x.1.isErr = true ↔ ¬ (ev.isFinal = true ∧ ev.stored cfg = true))

theorem readFinal_errorSpec (env : Env) (req : Request) (timeout : ℤ) (body : Bytes)
    (resp : Response) (hzero : resp.statusCode = 0) (st : TcpStream) (c : Conn) :
    ErrorSpec cfg c (c.readFinal cfg gunzip env req timeout body resp st) := by
  obtain ⟨ret, resp', st', stream', ev, hread, -, hfinal, hret, -, -, hstatus, -⟩ :=
    readResponse_event cfg gunzip env.read true timeout req.method resp hzero st c
  unfold readFinal
  rw [hread]
  refine ⟨[ev], finish_log _ _ _ _ _, fun ev' hev err herr => ?_⟩
  obtain rfl := List.mem_singleton.mp hev
  rw [finish_isErr, hfinal, ← hstatus]
  rw [hret] at herr
  simp [herr]

theorem exchange_errorSpec (env : Env) (req : Request) (timeout : ℤ) (body : Bytes)
    (resp : Response) (hzero : resp.statusCode = 0) (st : TcpStream) (c : Conn) :
    ErrorSpec cfg c (c.exchange cfg gunzip env req timeout body resp st) := by
  unfold exchange
  dsimp only
  rcases env.write _ with _ | e
  swap
  · exact ⟨[], rfl, by simp⟩
  dsimp only
  split
  swap
  · exact readFinal_errorSpec cfg gunzip env req timeout body resp hzero st c
  -- the answer to `Expect: 100-continue`
  obtain ⟨ret, resp', st', stream', ev, hread, -, hfinal, hret, -, -, -, -⟩ :=
    readResponse_event cfg gunzip env.continueRead false timeout req.method
      ⟨0, 0, [], [], List.replicate 512 0, 0, []⟩ rfl st c
  rw [hread]
  rcases ret with _ | e | _
  · have hnil : ∀ err, ev.ret ≠ .error err := by simp [hret]
    dsimp only
    split
    · exact ⟨[ev], rfl, by simp [hnil]⟩
    · rcases env.writeBody with _ | e
      · obtain ⟨new, hlog, hspec⟩ := readFinal_errorSpec cfg gunzip env req
          timeout body resp hzero st' { c with stream := stream', log := ev :: c.log }
        refine ⟨new ++ [ev], by rw [hlog]; simp, fun ev' hev err herr => ?_⟩
        rcases List.mem_append.mp hev with hev | hev
        · exact hspec ev' hev err herr
        · obtain rfl := List.mem_singleton.mp hev
          exact absurd herr (hnil err)
      · exact ⟨[ev], rfl, by simp [hnil]⟩
  · refine ⟨[ev], rfl, fun ev' hev err herr => ?_⟩
    obtain rfl := List.mem_singleton.mp hev
    simp [DoRet.isErr, hfinal]
  · have hnot : ∀ err, ev.ret ≠ .error err := by simp [hret]
    exact ⟨[ev], rfl, by simp [hnot]⟩

theorem ensureConnection_log (dial : Option GoErr) (now : ℤ) (c : Conn) :
    (c.ensureConnection cfg dial now).2.log = c.log := by
  unfold ensureConnection
  split
  · rfl
  · rcases dial with _ | e
    · rfl
    · rfl

theorem closeConn_log (c : Conn) : c.closeConn.log = c.log := by
  unfold closeConn
  split <;> rfl

/-- Enough requests have been made on the connection to dial another one. -/
def Due (c : Conn) : Prop := 0 < cfg.maxRequestsPerConn ∧ cfg.maxRequestsPerConn ≤ c.reqsOnConn

/-- A connection that is there is healthy. -/
theorem ensureConnection_healthy {dial : Option GoErr} {now : ℤ} {c : Conn}
    (h : (c.ensureConnection cfg dial now).1 = true) :
    (c.ensureConnection cfg dial now).2.healthy = true := by
  unfold ensureConnection at h ⊢
  by_cases hfresh : c.isFresh cfg = true
  · rw [if_pos hfresh]
    exact (Bool.and_eq_true_iff.mp hfresh).1
  rw [if_neg hfresh] at h ⊢
  cases dial with
  | none => rfl
  | some e => cases h

/-- A request is an error without a parse, or an exchange on a connection with the same log,
which is healthy unless it has not been and was not dialed again. -/
theorem doSequential_exchange (env : Env) (req : Request) (c : Conn) :
    ∃ x : DoRet × Conn, c.doSequential cfg gunzip env req
        = (x.1, { x.2 with activeReqs := wrap32 (x.2.activeReqs - 1) }) ∧
      ((∃ e, x.1 = .err e) ∧ x.2.log = c.log ∨
        ∃ (body : Bytes) (resp : Response) (st : TcpStream) (c' : Conn),
          x = c'.exchange cfg gunzip env req (effectiveReadTimeout cfg req env.remaining) body
            resp.reset st ∧
          c'.log = c.log ∧ (c'.healthy = false ↔ c.healthy = false ∧ ¬ c.Due cfg)) := by
  have hclaimed : ∀ c : Conn,
      (∃ e, (c.doClaimed cfg gunzip env req).1 = .err e) ∧
          (c.doClaimed cfg gunzip env req).2.log = c.log ∨
        ∃ (body : Bytes) (resp : Response) (st : TcpStream) (c' : Conn),
          c.doClaimed cfg gunzip env req = c'.exchange cfg gunzip env req
            (effectiveReadTimeout cfg req env.remaining) body resp.reset st ∧
          c'.log = c.log ∧ (c'.healthy = false ↔ c.healthy = false ∧ ¬ c.Due cfg) := by
    intro c
    unfold doClaimed
    rcases env.ctx with _ | e
    swap
    · exact .inl ⟨⟨_, rfl⟩, rfl⟩
    dsimp only
    generalize hx : (if 0 < cfg.maxRequestsPerConn ∧ cfg.maxRequestsPerConn ≤ c.reqsOnConn then
      c.closeConn.ensureConnection cfg env.redial env.redialNow else (true, c)) = x
    have hlog : x.2.log = c.log := by
      rw [← hx]
      split
      · rw [ensureConnection_log, closeConn_log]
      · rfl
    by_cases hthere : x.1 = true
    swap
    · rw [if_pos (by simpa using hthere)]
      exact .inl ⟨⟨_, rfl⟩, hlog⟩
    have hhealthy : x.2.healthy = false ↔ c.healthy = false ∧ ¬ c.Due cfg := by
      unfold Due
      split at hx
      · rename_i hdue
        subst hx
        simp [ensureConnection_healthy cfg hthere, hdue]
      · rename_i hdue
        subst hx
        simp [hdue]
    rw [if_neg (by simp [hthere])]
    rcases x.2.stream with _ | st
    · exact .inl ⟨⟨_, rfl⟩, hlog⟩
    dsimp only
    rcases prepareBody cfg.maxReqSize env.compressor req with e | ⟨body, compressed⟩
    · exact .inl ⟨⟨_, rfl⟩, hlog⟩
    dsimp only
    rcases req.resp with _ | resp
    · exact .inl ⟨⟨_, rfl⟩, hlog⟩
    · exact .inr ⟨body, resp, st, x.2, rfl, hlog, hhealthy⟩
  unfold doSequential
  dsimp only
  split
  · exact ⟨_, rfl, hclaimed { c with poolClaimed := false }⟩
  · exact ⟨_, rfl, hclaimed { c with activeReqs := wrap32 (c.activeReqs + 1) }⟩

/-- A request whose response read failed returns an error exactly unless that
was its final read and the head of the response had been stored. -/
theorem doSequential_errorSpec (env : Env) (req : Request) (c : Conn) :
    ErrorSpec cfg c (c.doSequential cfg gunzip env req) := by
  obtain ⟨x, hx, ⟨-, hlog⟩ | ⟨body, resp, st, c', rfl, hlog, -⟩⟩ :=
    doSequential_exchange cfg gunzip env req c
  · rw [hx]
    exact ⟨[], hlog, by simp⟩
  · have hspec := exchange_errorSpec cfg gunzip env req
      (effectiveReadTimeout cfg req env.remaining) body resp.reset rfl st c'
    unfold ErrorSpec at hspec ⊢
    rw [hlog] at hspec
    rw [hx]
    exact hspec

/-! ### Reuse -/

/-- No parse follows one that broke off on the same stream, and a healthy
connection is on a stream no parse has broken off on. -/
structure FreshStreams (c : Conn) : Prop where
  ordered : c.log.Pairwise fun later earlier => later.stream = earlier.stream → earlier.broke = false
  numbered : ∀ e ∈ c.log, e.stream < c.dials
  current : ∀ st, c.stream = some st → st.id < c.dials
  clean : c.healthy = true →
    ∃ st, c.stream = some st ∧ ∀ e ∈ c.log, e.stream = st.id → e.broke = false

/-- Steps that do not touch the stream keep the invariant. -/
theorem FreshStreams.frame {c : Conn} (h : FreshStreams c) (c' : Conn) (hlog : c'.log = c.log)
    (hdials : c'.dials = c.dials) (hstream : c'.stream = c.stream)
    (hhealthy : c'.healthy = true → c.healthy = true) : FreshStreams c' := by
  refine ⟨hlog ▸ h.ordered, ?_, ?_, fun hh => ?_⟩
  · rw [hlog, hdials]
    exact h.numbered
  · rw [hstream, hdials]
    exact h.current
  · rw [hstream, hlog]
    exact h.clean (hhealthy hh)

/-- Giving up the stream keeps the invariant. -/
theorem FreshStreams.unhealthy {c : Conn} (h : FreshStreams c) (c' : Conn) (hlog : c'.log = c.log)
    (hdials : c'.dials = c.dials) (hstream : c'.stream = c.stream ∨ c'.stream = none)
    (hhealthy : c'.healthy = false) : FreshStreams c' := by
  refine ⟨hlog ▸ h.ordered, ?_, ?_, ?_⟩
  · rw [hlog, hdials]
    exact h.numbered
  · intro st hst
    rw [hdials]
    rcases hstream with hs | hs
    · exact h.current st (hs ▸ hst)
    · rw [hs] at hst
      exact absurd hst (by simp)
  · intro hh
    rw [hhealthy] at hh
    exact absurd hh (by simp)

theorem closeConn_freshStreams {c : Conn} (h : FreshStreams c) : FreshStreams c.closeConn := by
  unfold closeConn
  split
  · exact h
  · exact h.unhealthy _ rfl rfl (Or.inr rfl) rfl

/-- A connection that `ensureConnection` vouches for is healthy. -/
theorem ensureConnection_freshStreams {c : Conn} (h : FreshStreams c) (dial : Option GoErr) (now : ℤ) :
    FreshStreams (c.ensureConnection cfg dial now).2 ∧
      ((c.ensureConnection cfg dial now).1 = true →
        (c.ensureConnection cfg dial now).2.healthy = true) := by
  unfold ensureConnection
  split
  · rename_i hfresh
    refine ⟨h, fun _ => ?_⟩
    unfold isFresh at hfresh
    exact (Bool.and_eq_true_iff.mp hfresh).1
  · rcases dial with _ | e
    · refine ⟨⟨h.ordered, ?_, ?_, ?_⟩, fun _ => rfl⟩
      · intro e he
        exact Nat.lt_succ_of_lt (h.numbered e he)
      · rintro st hst
        rw [← Option.some.inj hst]
        exact Nat.lt_succ_self _
      · -- the new stream has a number no parse has seen
        refine fun _ => ⟨_, rfl, fun e he heq => ?_⟩
        exact absurd (heq ▸ h.numbered e he) (Nat.lt_irrefl _)
    · exact ⟨h.unhealthy _ rfl rfl (Or.inr rfl) rfl, fun hf => absurd hf (by simp)⟩

/-- Between `ensureConnection` and the end of the exchange: the connection is on
`st`, and no parse has broken off there. -/
structure OnClean (st : TcpStream) (c : Conn) : Prop where
  inv : FreshStreams c
  stream : c.stream = some st
  clean : ∀ e ∈ c.log, e.stream = st.id → e.broke = false

/-- A response read on a clean stream keeps the order; if it does not break off
the stream stays clean. -/
theorem OnClean.read {st : TcpStream} {c : Conn} (h : OnClean st c) {st' : TcpStream}
    {ev : ParseEvent} (hev : ev.stream = st.id) (hid : st'.id = st.id) :
    (∀ c' : Conn, c'.log = ev :: c.log → c'.dials = c.dials → c'.stream = some st' →
      c'.healthy = false → FreshStreams c') ∧
    (ev.broke = false → ∀ c' : Conn, c'.log = ev :: c.log → c'.dials = c.dials →
      c'.stream = some st' → OnClean st' c') := by
  have hordered : (ev :: c.log).Pairwise
      fun later earlier => later.stream = earlier.stream → earlier.broke = false :=
    List.pairwise_cons.mpr
      ⟨fun e he heq => h.clean e he (heq.symm.trans hev), h.inv.ordered⟩
  have hnumbered : ∀ e ∈ ev :: c.log, e.stream < c.dials := by
    intro e he
    rcases List.mem_cons.mp he with rfl | he
    · rw [hev]
      exact h.inv.current st h.stream
    · exact h.inv.numbered e he
  have hcurrent : ∀ st₁, some st' = some st₁ → st₁.id < c.dials := by
    intro st₁ heq
    rw [← Option.some.inj heq, hid]
    exact h.inv.current st h.stream
  refine ⟨fun c' hlog hdials hstream hh => ?_, fun hbroke c' hlog hdials hstream => ?_⟩
  · refine ⟨hlog ▸ hordered, ?_, ?_, fun hh' => ?_⟩
    · rw [hlog, hdials]
      exact hnumbered
    · rw [hstream, hdials]
      exact hcurrent
    · rw [hh] at hh'
      exact absurd hh' (by simp)
  · have hclean : ∀ e ∈ ev :: c.log, e.stream = st'.id → e.broke = false := by
      intro e he heq
      rcases List.mem_cons.mp he with rfl | he
      · exact hbroke
      · exact h.clean e he (heq.trans hid)
    refine ⟨⟨hlog ▸ hordered, ?_, ?_, fun _ => ⟨st', hstream, hlog ▸ hclean⟩⟩, hstream, hlog ▸ hclean⟩
    · rw [hlog, hdials]
      exact hnumbered
    · rw [hstream, hdials]
      exact hcurrent

/-- What the code behind the last read changes. -/
theorem finish_frame (env : Env) (body : Bytes) (x : Ret × Response) (c : Conn) :
    (c.finish cfg env body x).2.dials = c.dials ∧ (c.finish cfg env body x).2.stream = c.stream ∧
      ((c.finish cfg env body x).2.healthy = true → c.healthy = true) ∧
      ((∃ e, x.1 = .error e) → ¬ 0 < x.2.statusCode →
        (c.finish cfg env body x).2.healthy = false) := by
  obtain ⟨_ | e | _, resp⟩ := x
  · unfold finish
    dsimp only
    split <;> simp [complete]
  · unfold finish
    dsimp only
    split_ifs <;> simp_all [complete, fail]
  · exact ⟨rfl, rfl, id, by simp⟩

theorem readFinal_freshStreams {env : Env} {req : Request} {timeout : ℤ} {body : Bytes} {resp : Response}
    (hzero : resp.statusCode = 0) {st : TcpStream} {c : Conn} (h : OnClean st c)
    (hearly : ∀ e ∈ (c.readFinal cfg gunzip env req timeout body resp st).2.log, e.Early cfg) :
    FreshStreams (c.readFinal cfg gunzip env req timeout body resp st).2 := by
  obtain ⟨ret, resp', st', stream', ev, hread, hevst, hfinal, hret, hid, hstream, hstatus, hok⟩ :=
    readResponse_event cfg gunzip env.read true timeout req.method resp hzero st c
  unfold readFinal at hearly ⊢
  rw [hread] at hearly ⊢
  dsimp only at hearly ⊢
  rw [finish_log] at hearly
  obtain ⟨hdials, hstr, hhealthy, hfail⟩ := finish_frame cfg env body (ret, resp')
    { c with stream := stream', log := ev :: c.log }
  obtain ⟨hbroken, hkept⟩ := h.read hevst hid
  rcases hb : ev.broke with _ | _
  · have hclean := hkept hb { c with stream := stream', log := ev :: c.log } rfl rfl
      (hstream h.stream)
    exact hclean.inv.frame _ (finish_log _ _ _ _ _) hdials hstr hhealthy
  · -- a parse that breaks off early is an error without a status
    have hnot : ev.stored cfg = false := by
      have := hearly ev List.mem_cons_self hb
      rwa [if_pos hfinal] at this
    have herr : ∃ e, ret = .error e := by
      by_contra hne
      rw [hok fun e he => hne ⟨e, he⟩] at hnot
      exact absurd hnot (by simp)
    refine hbroken _ (finish_log _ _ _ _ _) hdials (hstr.trans (hstream h.stream)) (hfail herr ?_)
    rw [hstatus, hnot]
    simp

theorem exchange_freshStreams {env : Env} {req : Request} {timeout : ℤ} {body : Bytes} {resp : Response}
    (hzero : resp.statusCode = 0) {st : TcpStream} {c : Conn} (h : OnClean st c)
    (hearly : ∀ e ∈ (c.exchange cfg gunzip env req timeout body resp st).2.log, e.Early cfg) :
    FreshStreams (c.exchange cfg gunzip env req timeout body resp st).2 := by
  unfold exchange at hearly ⊢
  dsimp only at hearly ⊢
  generalize env.write (c.time.writeDeadline env.writeNow
    (if req.writeTimeout = 0 then cfg.writeTimeout else req.writeTimeout)) = write at hearly ⊢
  rcases write with _ | e
  swap
  · exact h.inv.unhealthy _ rfl rfl (Or.inl rfl) rfl
  dsimp only at hearly ⊢
  by_cases hexp : (req.expectContinue && !body.isEmpty) = true
  swap
  · rw [if_neg hexp] at hearly ⊢
    exact readFinal_freshStreams cfg gunzip hzero h hearly
  rw [if_pos hexp] at hearly ⊢
  obtain ⟨ret, resp', st', stream', ev, hread, hevst, hfinal, hret, hid, hstream, -, -⟩ :=
    readResponse_event cfg gunzip env.continueRead false timeout req.method
      ⟨0, 0, [], [], List.replicate 512 0, 0, []⟩ rfl st c
  obtain ⟨hbroken, hkept⟩ := h.read hevst hid
  rw [hread] at hearly ⊢
  rcases ret with _ | e | _
  · dsimp only at hearly ⊢
    have hmem : ev.Early cfg → OnClean st' { c with stream := stream', log := ev :: c.log } := by
      intro hev
      refine hkept ?_ _ rfl rfl (hstream h.stream)
      by_contra hb
      obtain ⟨err, herr⟩ : ∃ err, ev.ret = .error err := by
        have := hev (by simpa using hb)
        rwa [hfinal] at this
      rw [hret] at herr
      exact absurd herr (by simp)
    by_cases h100 : resp'.statusCode ≠ 100
    · rw [if_pos h100] at hearly ⊢
      exact (hmem (hearly ev List.mem_cons_self)).inv.frame _ rfl rfl rfl id
    · rw [if_neg h100] at hearly ⊢
      rcases hw : env.writeBody with _ | e
      · rw [hw] at hearly
        obtain ⟨new, hlog, -⟩ := readFinal_errorSpec cfg gunzip env req timeout body resp hzero st'
          { c with stream := stream', log := ev :: c.log }
        have hev : ev.Early cfg := hearly ev (by
          rw [hlog]
          exact List.mem_append_right _ List.mem_cons_self)
        exact readFinal_freshStreams cfg gunzip hzero (hmem hev) hearly
      · rw [hw] at hearly
        exact (hmem (hearly ev List.mem_cons_self)).inv.unhealthy _ rfl rfl (Or.inl rfl) rfl
  · exact hbroken _ rfl rfl (hstream h.stream) rfl
  · -- a panic is not an error
    have hb : ev.broke = true := by rw [ParseEvent.broke, hret]; rfl
    have := hearly ev List.mem_cons_self hb
    rw [hfinal, hret] at this
    simp at this

theorem doClaimed_freshStreams {env : Env} {req : Request} {c : Conn} (h : FreshStreams c) (hhealthy : c.healthy = true)
    (hearly : ∀ e ∈ (c.doClaimed cfg gunzip env req).2.log, e.Early cfg) :
    FreshStreams (c.doClaimed cfg gunzip env req).2 := by
  unfold doClaimed at hearly ⊢
  rcases hctx : env.ctx with _ | e
  swap
  · exact h
  rw [hctx] at hearly
  dsimp only at hearly ⊢
  generalize hx : (if 0 < cfg.maxRequestsPerConn ∧ cfg.maxRequestsPerConn ≤ c.reqsOnConn then
    c.closeConn.ensureConnection cfg env.redial env.redialNow else (true, c)) = x at hearly ⊢
  obtain ⟨hinv, hup⟩ : FreshStreams x.2 ∧ (x.1 = true → x.2.healthy = true) := by
    rw [← hx]
    split
    · exact ensureConnection_freshStreams cfg (closeConn_freshStreams h) _ _
    · exact ⟨h, fun _ => hhealthy⟩
  rcases hx1 : x.1 with _ | _
  · exact hinv
  rw [hx1] at hearly
  obtain ⟨st, hst, hclean⟩ := hinv.clean (hup hx1)
  simp only [Bool.not_true, Bool.false_eq_true, if_false, hst] at hearly ⊢
  rcases hbody : prepareBody cfg.maxReqSize env.compressor req with e | ⟨body, compressed⟩
  · exact hinv
  rw [hbody] at hearly
  dsimp only at hearly ⊢
  rcases hresp : req.resp with _ | resp
  · exact hinv
  · rw [hresp] at hearly
    exact exchange_freshStreams cfg gunzip rfl ⟨hinv, hst, hclean⟩ hearly

/-- A request keeps the invariant if none of its parses breaks off late. -/
theorem doRequest_freshStreams {env : Env} {req : Request} {c : Conn} (h : FreshStreams c)
    (hearly : ∀ e ∈ (c.doRequest cfg gunzip env req).2.log, e.Early cfg) :
    FreshStreams (c.doRequest cfg gunzip env req).2 := by
  unfold doRequest at hearly ⊢
  dsimp only at hearly ⊢
  obtain ⟨hinv, hup⟩ := ensureConnection_freshStreams cfg h env.dial env.dialNow
  generalize c.ensureConnection cfg env.dial env.dialNow = x at hearly hinv hup ⊢
  rcases hx1 : x.1 with _ | _
  · exact hinv
  rw [hx1] at hearly
  simp only [Bool.not_true, Bool.false_eq_true, if_false] at hearly ⊢
  unfold doSequential at hearly ⊢
  dsimp only at hearly ⊢
  have hclaimed : ∀ c' : Conn, c'.log = x.2.log → c'.dials = x.2.dials → c'.stream = x.2.stream →
      c'.healthy = x.2.healthy →
      (∀ e ∈ (c'.doClaimed cfg gunzip env req).2.log, e.Early cfg) →
      FreshStreams (c'.doClaimed cfg gunzip env req).2 := fun c' hlog hdials hstream hhealthy he =>
    doClaimed_freshStreams cfg gunzip (hinv.frame c' hlog hdials hstream (fun hh => hhealthy ▸ hh))
      (hhealthy.trans (hup hx1)) he
  refine FreshStreams.frame (c := (Conn.doClaimed cfg gunzip env req _).2) ?_ _ rfl rfl rfl id
  split at hearly
  · rename_i hclaim
    rw [if_pos hclaim]
    exact hclaimed _ rfl rfl rfl rfl hearly
  · rename_i hclaim
    rw [if_neg hclaim]
    exact hclaimed _ rfl rfl rfl rfl hearly

/-- What can happen to a connection between requests. -/
inductive Call
  | request (env : Env) (req : Request)
  | stop

/-- One call. -/
def call (c : Conn) : Call → Conn
  | .request env req => (c.doRequest cfg gunzip env req).2
  | .stop => c.stop

/-- The calls of a run, in order. -/
def run (calls : List Call) (c : Conn) : Conn := calls.foldl (call cfg gunzip) c

/-- What `NewConnection` returns. -/
def new (now depth : ℤ) : Conn :=
  ⟨none, false, false, false, 0, false, 0, .dialed now, ⟨0, 0, 0, 0, depth, 0, 0⟩, 0, []⟩

theorem call_log (c : Conn) (x : Call) : ∃ l, (c.call cfg gunzip x).log = l ++ c.log := by
  rcases x with ⟨env, req⟩ | _
  · show ∃ l, (c.doRequest cfg gunzip env req).2.log = l ++ c.log
    unfold doRequest
    dsimp only
    have hlog := ensureConnection_log cfg env.dial env.dialNow c
    split
    · exact ⟨[], hlog⟩
    · obtain ⟨l, hl, -⟩ := doSequential_errorSpec cfg gunzip env req
        (c.ensureConnection cfg env.dial env.dialNow).2
      exact ⟨l, hl.trans (by rw [hlog])⟩
  · refine ⟨[], ?_⟩
    show c.stop.log = c.log
    unfold stop
    split
    · rfl
    · rw [closeConn_log]

theorem run_log (calls : List Call) (c : Conn) : ∃ l, (c.run cfg gunzip calls).log = l ++ c.log := by
  induction calls generalizing c with
  | nil => exact ⟨[], rfl⟩
  | cons x calls ih =>
    obtain ⟨l, hl⟩ := ih (c.call cfg gunzip x)
    obtain ⟨l', hl'⟩ := call_log cfg gunzip c x
    exact ⟨l ++ l', by rw [List.append_assoc, ← hl']; exact hl⟩

theorem call_freshStreams {c : Conn} (h : FreshStreams c) (x : Call)
    (hearly : ∀ e ∈ (c.call cfg gunzip x).log, e.Early cfg) : FreshStreams (c.call cfg gunzip x) := by
  rcases x with ⟨env, req⟩ | _
  · exact doRequest_freshStreams cfg gunzip h hearly
  · show FreshStreams c.stop
    unfold stop
    split
    · exact h
    · exact closeConn_freshStreams (h.frame _ rfl rfl rfl id)

/-- If every parse of a run breaks off early if at all, the invariant holds at
its end. -/
theorem run_freshStreams (calls : List Call) {c : Conn} (h : FreshStreams c)
    (hearly : ∀ e ∈ (c.run cfg gunzip calls).log, e.Early cfg) : FreshStreams (c.run cfg gunzip calls) := by
  induction calls generalizing c with
  | nil => exact h
  | cons x calls ih =>
    obtain ⟨l, hl⟩ := run_log cfg gunzip calls (c.call cfg gunzip x)
    refine ih (call_freshStreams cfg gunzip h x fun e he => hearly e ?_) hearly
    show e ∈ ((c.call cfg gunzip x).run cfg gunzip calls).log
    rw [hl]
    exact List.mem_append_right _ he

theorem new_freshStreams (now depth : ℤ) : FreshStreams (new now depth) :=
  ⟨List.Pairwise.nil, by simp [new], by simp [new], by simp [new]⟩

end Conn

end BurstHttp
