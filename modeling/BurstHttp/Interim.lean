/-
Interim responses in front of the final one.

A 1xx response other than 101 has a head only, and another response follows it.  Neither
parser has it among the statuses without a body, and neither mode goes on to the next
response behind it: the first response on the stream is the one that is delivered.  Only a
request that waits for a 100 reads on.

* `doSequential_parses` — the parses of a request, and what it returns behind a single one;
* `storedStatus_front` — the status that a parse stores is the one of the head in front;
* `interims_transparent_iff` — interim responses are transparent only if there are none.
-/
import BurstHttp.ConnectionClose

namespace BurstHttp

/-! ### The parses of a request -/

namespace Conn

variable (cfg : Config) (gunzip : Bytes → Gunzip)

/-- What a request returns behind its only parse `ev`: the response that was read, unless that
is a 100 or was not read well.  `e` is the error in which the stream ends. -/
def Returns (e : GoErr) (ev : ParseEvent) (x : DoRet) : Prop :=
  ev.input ≠ [] → ∃ (r : Reader) (resp₀ : Response), r.Delivers ev.input e ∧
    ∀ resp', (readDecoded gunzip r ev.bufLen resp₀.reset cfg.maxRespSize ev.method
        cfg.headerReadSize cfg.bodyReadSize).1 = (.nil, resp') → resp'.statusCode ≠ 100 →
      ∃ resp, x = .ok resp ∧ resp.visible = resp'.visible

/-- The parses of a request on a connection with this log: none, one, or one that has stored a
100 and another one. -/
def Parses (e : GoErr) (log : List ParseEvent) (x : DoRet × Conn) : Prop :=
  x.2.log = log ∨
  (∃ ev, x.2.log = ev :: log ∧ Returns cfg gunzip e ev x.1) ∨
  ∃ ev ev₀, x.2.log = ev :: ev₀ :: log ∧
    storedStatus ev₀.bufLen cfg.maxRespSize ev₀.method ev₀.input = some 100

/-- A response read whose result is returned as it is. -/
theorem Returns.of_parse {e : GoErr} {env : ReadEnv} (hclosing : ∀ d, env.closing d = e)
    {ev : ParseEvent} {resp₀ resp' : Response} {ret : Ret}
    (hparse : (∃ r d, r.Delivers ev.input (env.closing d) ∧
        (readDecoded gunzip r ev.bufLen resp₀.reset cfg.maxRespSize ev.method cfg.headerReadSize
          cfg.bodyReadSize).1 = (ret, resp')) ∨
      (∃ e, ret = .error e) ∧ resp' = resp₀.reset ∧ ev.input = []) {x : DoRet}
    (hx : ret = .nil → resp'.statusCode ≠ 100 → ∃ resp, x = .ok resp ∧ resp.visible = resp'.visible) :
    Returns cfg gunzip e ev x := by
  intro hinput
  rcases hparse with ⟨r, d, hr, hread⟩ | ⟨-, -, hnone⟩
  · rw [hclosing d] at hr
    refine ⟨r, resp₀, hr, ?_⟩
    intro resp'' hnil
    obtain ⟨rfl, rfl⟩ := Prod.mk.inj (hread.symm.trans hnil)
    exact hx rfl
  · exact absurd hnone hinput

theorem readFinal_returns {e : GoErr} {env : Env} (hclosing : ∀ d, env.read.closing d = e)
    (req : Request) (timeout : ℤ) (body : Bytes) (resp₀ : Response) (st : TcpStream) (c : Conn) :
    ∃ ev, (c.readFinal cfg gunzip env req timeout body resp₀.reset st).2.log = ev :: c.log ∧
      Returns cfg gunzip e ev (c.readFinal cfg gunzip env req timeout body resp₀.reset st).1 := by
  obtain ⟨ret, resp', st', stream', ev, hread, -, -, hparse⟩ :=
    readResponse_spec cfg gunzip env.read true timeout req.method resp₀.reset st c
  unfold readFinal
  rw [hread]
  refine ⟨ev, finish_log _ _ _ _ _, .of_parse cfg gunzip hclosing hparse ?_⟩
  rintro rfl -
  exact ⟨resp', rfl, rfl⟩

theorem exchange_parses {e : GoErr} {env : Env} (hclosing : ∀ d, env.read.closing d = e)
    (hcontinue : ∀ d, env.continueRead.closing d = e) (req : Request) (timeout : ℤ) (body : Bytes)
    (resp₀ : Response) (st : TcpStream) (c : Conn) :
    Parses cfg gunzip e c.log (c.exchange cfg gunzip env req timeout body resp₀.reset st) := by
  unfold exchange
  dsimp only
  rcases env.write _ with _ | err
  swap
  · exact .inl rfl
  dsimp only
  split
  swap
  · exact .inr (.inl (readFinal_returns cfg gunzip hclosing req timeout body resp₀ st c))
  -- the answer to `Expect: 100-continue`; its object is a new one, as if it were reset
  obtain ⟨ret, answer, st', stream', ev, hread, -, -, hparse⟩ :=
    readResponse_spec cfg gunzip env.continueRead false timeout req.method
      (Response.reset ⟨0, 0, [], [], List.replicate 512 0, 0, []⟩) st c
  rw [show (⟨0, 0, [], [], List.replicate 512 0, 0, []⟩ : Response)
    = Response.reset ⟨0, 0, [], [], List.replicate 512 0, 0, []⟩ from rfl, hread]
  rcases ret with _ | err | _
  · dsimp only
    by_cases hstatus : answer.statusCode ≠ 100
    · rw [if_pos hstatus]
      refine .inr (.inl ⟨ev, rfl, .of_parse cfg gunzip hcontinue hparse fun _ _ => ?_⟩)
      exact ⟨_, rfl, rfl⟩
    rw [if_neg hstatus]
    rcases env.writeBody with _ | err
    · obtain ⟨ev', hlog, -⟩ := readFinal_returns cfg gunzip hclosing req timeout body resp₀ st'
        { c with stream := stream', log := ev :: c.log }
      refine .inr (.inr ⟨ev', ev, hlog, ?_⟩)
      rcases hparse with ⟨r, d, hr, hx⟩ | ⟨⟨err, herr⟩, -, -⟩
      · obtain ⟨status, hstored, hshown⟩ := shows_of_parse cfg gunzip hr rfl hx (.inr rfl)
        have hcode : answer.statusCode = (status : ℤ) := congrArg Prod.fst hshown
        rw [hstored, Option.some_inj]
        omega
      · cases herr
    · refine .inr (.inl ⟨ev, rfl, .of_parse cfg gunzip hcontinue hparse fun _ hne => ?_⟩)
      exact absurd hne hstatus
  · refine .inr (.inl ⟨ev, rfl, .of_parse cfg gunzip hcontinue hparse fun hnil => ?_⟩)
    cases hnil
  · refine .inr (.inl ⟨ev, rfl, .of_parse cfg gunzip hcontinue hparse fun hnil => ?_⟩)
    cases hnil

theorem doSequential_parses {e : GoErr} {env : Env} (hclosing : ∀ d, env.read.closing d = e)
    (hcontinue : ∀ d, env.continueRead.closing d = e) (req : Request) (c : Conn) :
    Parses cfg gunzip e c.log (c.doSequential cfg gunzip env req) := by
  obtain ⟨x, hx, ⟨-, hlog⟩ | ⟨body, resp, st, c', rfl, hlog, -⟩⟩ :=
    doSequential_exchange cfg gunzip env req c
  · rw [hx]
    exact .inl hlog
  · rw [hx, ← hlog]
    exact exchange_parses cfg gunzip hclosing hcontinue req _ body resp st c'

end Conn

/-! ### Interim and final responses -/

/-- The status of an interim response. -/
def IsInterim (status : ℕ) : Prop := 100 ≤ status ∧ status < 200 ∧ status ≠ 101

/-- An interim response: it is a head and nothing else. -/
structure Interim (head : Bytes) : Prop where
  complete : headEnd head = some head.length
  status : IsInterim (parseStatusCode head).1

/-- A final response to `method`, on a stream that ends in `e`: either parser reads it well
when it stands by itself, wherever it is cut. -/
structure FinalResponse (cfg : Config) (gunzip : Bytes → Gunzip) (method : Bytes) (e : GoErr)
    (head body : Bytes) : Prop where
  complete : headEnd head = some head.length
  status : ¬ IsInterim (parseStatusCode head).1
  accepted : ∀ (bufLen : ℕ) (resp : Response) (r : Reader), head.length ≤ bufLen →
    r.Delivers (head ++ body) e → (readDecoded gunzip r bufLen resp.reset cfg.maxRespSize method
      cfg.headerReadSize cfg.bodyReadSize).1.1 = .nil
  acceptedBuffered : ∀ (scratchLen : ℕ) (resp : Response) (br : Reader),
    head.length ≤ scratchLen → br.Delivers (head ++ body) e →
    (readResponseBuffered gunzip scratchLen resp.reset cfg.maxRespSize method br).1.1 = .nil

/-- There is only one complete head in front of a stream. -/
theorem head_unique {head head' rest rest' : Bytes} (h : headEnd head = some head.length)
    (h' : headEnd head' = some head'.length) (heq : head ++ rest = head' ++ rest') :
    head = head' := by
  have hend := headEnd_append h rest
  rw [heq, headEnd_append h' rest', Option.some_inj] at hend
  exact (List.append_inj heq hend.symm).1

/-- A parse stores the status of the head in front of the stream, if it gets that far. -/
theorem storedStatus_front {head rest : Bytes} (hhead : headEnd head = some head.length)
    {bufLen : ℕ} {maxBody : ℤ} {method stream more : Bytes} (hstream : stream ++ more = head ++ rest)
    {status : ℕ} (h : storedStatus bufLen maxBody method stream = some status) :
    status = (parseStatusCode head).1 := by
  obtain ⟨head', rest', hat, -, hstatus⟩ := storedStatus_spec h
  obtain ⟨-, -, rfl⟩ := headAt_eq_some.mp hat
  rw [List.append_assoc] at hstream
  rw [← hstatus, head_unique (headEnd_of_headAt hat) hhead hstream]

section

variable {cfg : Config} {gunzip : Bytes → Gunzip} {method head body : Bytes} {e : GoErr}

theorem FinalResponse.statusCode (h : FinalResponse cfg gunzip method e head body) {bufLen : ℕ}
    (hfits : head.length ≤ bufLen) (resp : Response) {r : Reader}
    (hr : r.Delivers (head ++ body) e) :
    (readDecoded gunzip r bufLen resp.reset cfg.maxRespSize method cfg.headerReadSize
      cfg.bodyReadSize).1.2.statusCode = (parseStatusCode head).1 := by
  have hstored := headStored_of_readDecoded cfg.headerReadSize_pos
    (fun err => by rw [h.accepted bufLen resp r hfits hr]; simp)
  obtain ⟨status, hstatus⟩ := Option.isSome_iff_exists.mp hstored
  rw [readDecoded_statusCode gunzip r bufLen resp.reset cfg.maxRespSize method
    cfg.headerReadSize_pos, statusAfter, hstatus]
  rw [hr.flat] at hstatus
  exact congrArg _ (storedStatus_front h.complete (List.append_nil _) hstatus)

theorem FinalResponse.statusCode_buffered (h : FinalResponse cfg gunzip method e head body)
    {scratchLen : ℕ} (hfits : head.length ≤ scratchLen) (resp : Response) {br : Reader}
    (hbr : br.Delivers (head ++ body) e) :
    (readResponseBuffered gunzip scratchLen resp.reset cfg.maxRespSize method br).1.2.statusCode
      = (parseStatusCode head).1 := by
  have hstored := headStored_of_readResponseBuffered cfg.maxRespSize_pos
    (fun err => by rw [h.acceptedBuffered scratchLen resp br hfits hbr]; simp)
  obtain ⟨status, hstatus⟩ := Option.isSome_iff_exists.mp hstored
  rw [readResponseBuffered_statusCode gunzip scratchLen resp.reset cfg.maxRespSize_pos method br,
    statusAfter, hstatus]
  rw [hbr.flat] at hstatus
  exact congrArg _ (storedStatus_front h.complete (List.append_nil _) hstatus)

end

/-! ### Transparency -/

section

variable (cfg : Config) (gunzip : Bytes → Gunzip) (method : Bytes) (e : GoErr)

/-- A request returns the response `head ++ body`, as it is read when it stands by itself. -/
def ReturnsFinal (bufLen : ℕ) (head body : Bytes) (x : DoRet) : Prop :=
  ∃ (resp resp₀ : Response) (r : Reader), x = .ok resp ∧ r.Delivers (head ++ body) e ∧
    resp.visible = (readDecoded gunzip r bufLen resp₀.reset cfg.maxRespSize method
      cfg.headerReadSize cfg.bodyReadSize).1.2.visible

/-- The parse of a pipelined reader results in the response `head ++ body`, as it is read when
it stands by itself. -/
def ReadsFinal (scratchLen : ℕ) (head body : Bytes) (x : Ret × Response) : Prop :=
  ∃ (resp₀ : Response) (br : Reader), x.1 = .nil ∧ br.Delivers (head ++ body) e ∧
    x.2.visible
      = (readResponseBuffered gunzip scratchLen resp₀.reset cfg.maxRespSize method br).1.2.visible

/-- The call makes one parse, of `stream`. -/
structure ReadsOnce (env : Env) (req : Request) (c : Conn) (ev : ParseEvent) (stream : Bytes) :
    Prop where
  closing : ∀ d, env.read.closing d = e
  continueClosing : ∀ d, env.continueRead.closing d = e
  log : (c.doSequential cfg gunzip env req).2.log = ev :: c.log
  method : ev.method = method
  input : ev.input = stream

/-- The call makes two parses, of what arrives at first and of what is left and arrives then;
together that is `stream`. -/
structure ReadsTwice (env : Env) (req : Request) (c : Conn) (ev ev₀ : ParseEvent)
    (stream : Bytes) : Prop where
  closing : ∀ d, env.read.closing d = e
  continueClosing : ∀ d, env.continueRead.closing d = e
  log : (c.doSequential cfg gunzip env req).2.log = ev :: ev₀ :: c.log
  method : ev.method = method
  input : ∀ d, ev₀.input ++ (env.read.arrives d).flatten = stream

/-- The interim responses in front of `head ++ body` are transparent: either mode results in
`head ++ body`, and the parse of an interim response stops behind it. -/
structure Transparent (interims : List Bytes) (head body : Bytes) : Prop where
  sequential : ∀ env req c ev,
    ReadsOnce cfg gunzip method e env req c ev (interims.flatten ++ (head ++ body)) →
    head.length ≤ ev.bufLen →
    ReturnsFinal cfg gunzip method e ev.bufLen head body (c.doSequential cfg gunzip env req).1
  waiting : ∀ env req c ev ev₀,
    ReadsTwice cfg gunzip method e env req c ev ev₀ (interims.flatten ++ (head ++ body)) →
    head.length ≤ ev.bufLen →
    ReturnsFinal cfg gunzip method e ev.bufLen head body (c.doSequential cfg gunzip env req).1
  pipelined : ∀ (scratchLen : ℕ) (resp : Response) (br : Reader), head.length ≤ scratchLen →
    br.Delivers (interims.flatten ++ (head ++ body)) e →
    ReadsFinal cfg gunzip method e scratchLen head body
      (readResponseBuffered gunzip scratchLen resp.reset cfg.maxRespSize method br).1
  exact : ∀ before interim after, interims = before ++ interim :: after →
    ∀ (bufLen : ℕ) (resp : Response) (r : Reader), interim.length ≤ bufLen →
      r.Delivers (interim ++ (after.flatten ++ (head ++ body))) e →
      (readDecoded gunzip r bufLen resp.reset cfg.maxRespSize method cfg.headerReadSize
          cfg.bodyReadSize).2.flat = after.flatten ++ (head ++ body) ∧
        (readResponseBuffered gunzip bufLen resp.reset cfg.maxRespSize method r).2.flat
          = after.flatten ++ (head ++ body)

end

section

variable {cfg : Config} {gunzip : Bytes → Gunzip} {method head body : Bytes} {e : GoErr}
  {interims : List Bytes}

/-- The status that is stored with interim responses in front is an interim one. -/
theorem storedStatus_interim (hinterims : ∀ h ∈ interims, Interim h) (hne : interims ≠ [])
    {bufLen : ℕ} {maxBody : ℤ} {rest : Bytes} {status : ℕ}
    (h : storedStatus bufLen maxBody method (interims.flatten ++ rest) = some status) :
    IsInterim status := by
  obtain ⟨first, others, rfl⟩ := List.exists_cons_of_ne_nil hne
  have hfirst := hinterims first List.mem_cons_self
  rw [List.flatten_cons, List.append_assoc] at h
  rw [storedStatus_front hfirst.complete (List.append_nil _) h]
  exact hfirst.status

/-- With interim responses in front, a single parse does not return the final one. -/
theorem not_returnsFinal (hfinal : FinalResponse cfg gunzip method e head body)
    (hinterims : ∀ h ∈ interims, Interim h) (hne : interims ≠ []) {env : Env} {req : Request}
    {c : Conn} {ev : ParseEvent}
    (honce : ReadsOnce cfg gunzip method e env req c ev (interims.flatten ++ (head ++ body)))
    (hfits : head.length ≤ ev.bufLen) :
    ¬ ReturnsFinal cfg gunzip method e ev.bufLen head body
      (c.doSequential cfg gunzip env req).1 := by
  rintro ⟨resp, resp₀, r, hok, hr, hvisible⟩
  obtain ⟨ev', hev, ⟨status, hstored, hshown⟩, -⟩ :=
    Conn.doSequential_delivered cfg gunzip env req c hok
  rw [honce.log, List.head?_cons, Option.some_inj] at hev
  subst hev
  rw [honce.input, honce.method] at hstored
  have hinterim := storedStatus_interim hinterims hne hstored
  -- the status that is shown is that of the first response, and should be that of the last
  have hcode : resp.statusCode = (status : ℤ) := congrArg Prod.fst hshown
  have hlast : resp.statusCode = (parseStatusCode head).1 :=
    (congrArg Prod.fst hvisible).trans (hfinal.statusCode hfits resp₀ hr)
  rw [hcode, Nat.cast_inj] at hlast
  exact hfinal.status (hlast ▸ hinterim)

theorem not_readsFinal (hfinal : FinalResponse cfg gunzip method e head body)
    (hinterims : ∀ h ∈ interims, Interim h) (hne : interims ≠ []) {scratchLen : ℕ}
    (hfits : head.length ≤ scratchLen) (resp : Response) {br : Reader}
    (hbr : br.Delivers (interims.flatten ++ (head ++ body)) e) :
    ¬ ReadsFinal cfg gunzip method e scratchLen head body
      (readResponseBuffered gunzip scratchLen resp.reset cfg.maxRespSize method br).1 := by
  rintro ⟨resp₀, br', hnil, hbr', hvisible⟩
  have hstored := headStored_of_readResponseBuffered cfg.maxRespSize_pos
    (fun err => by rw [hnil]; simp)
  obtain ⟨status, hstatus⟩ := Option.isSome_iff_exists.mp hstored
  have hcode := readResponseBuffered_statusCode gunzip scratchLen resp.reset cfg.maxRespSize_pos
    method br
  rw [statusAfter, hstatus] at hcode
  rw [hbr.flat] at hstatus
  have hinterim := storedStatus_interim hinterims hne hstatus
  have hlast := (congrArg Prod.fst hvisible).trans (hfinal.statusCode_buffered hfits resp₀ hbr')
  have heq : (status : ℤ) = (parseStatusCode head).1 := hcode.symm.trans hlast
  rw [Nat.cast_inj] at heq
  exact hfinal.status (heq ▸ hinterim)

/-- With nothing in front of it, the final response is returned. -/
theorem returnsFinal_alone (hfinal : FinalResponse cfg gunzip method e head body) {env : Env}
    {req : Request} {c : Conn} {ev : ParseEvent}
    (honce : ReadsOnce cfg gunzip method e env req c ev (head ++ body))
    (hfits : head.length ≤ ev.bufLen) :
    ReturnsFinal cfg gunzip method e ev.bufLen head body
      (c.doSequential cfg gunzip env req).1 := by
  have hbound := (headEnd_bounds hfinal.complete).1
  have hinput : ev.input ≠ [] := by
    rw [honce.input]
    exact List.append_ne_nil_of_left_ne_nil (List.ne_nil_of_length_pos (by omega)) body
  rcases Conn.doSequential_parses cfg gunzip honce.closing honce.continueClosing req c with
    hnone | ⟨ev', hlog, hreturns⟩ | ⟨ev', ev₀, htwo, -⟩
  · exact absurd (honce.log.symm.trans hnone) (List.cons_ne_self ev c.log)
  · rw [honce.log] at hlog
    obtain rfl := (List.cons.inj hlog).1
    obtain ⟨r, resp₀, hr, hok⟩ := hreturns hinput
    rw [honce.input] at hr
    rw [honce.method] at hok
    obtain ⟨resp, hresp, hvisible⟩ := hok _ (Prod.ext (hfinal.accepted _ resp₀ r hfits hr) rfl) (by
      rw [hfinal.statusCode hfits resp₀ hr]
      intro h100
      have hcode : (parseStatusCode head).1 = 100 := by exact_mod_cast h100
      exact hfinal.status (by rw [hcode]; exact ⟨by omega, by omega, by omega⟩))
    exact ⟨resp, resp₀, r, hresp, hr, hvisible⟩
  · have hlen := congrArg List.length (honce.log.symm.trans htwo)
    simp only [List.length_cons] at hlen
    omega

/-- With nothing in front of it, there is no second parse. -/
theorem not_readsTwice_alone (hfinal : FinalResponse cfg gunzip method e head body) {env : Env}
    {req : Request} {c : Conn} {ev ev₀ : ParseEvent} :
    ¬ ReadsTwice cfg gunzip method e env req c ev ev₀ (head ++ body) := by
  intro htwice
  rcases Conn.doSequential_parses cfg gunzip htwice.closing htwice.continueClosing req c with
    hnone | ⟨ev', hone, -⟩ | ⟨ev', ev₁, htwo, hstored⟩
  · have hlen := congrArg List.length (htwice.log.symm.trans hnone)
    simp only [List.length_cons] at hlen
    omega
  · have hlen := congrArg List.length (htwice.log.symm.trans hone)
    simp only [List.length_cons] at hlen
    omega
  · rw [htwice.log] at htwo
    obtain ⟨rfl, -⟩ := List.cons.inj (List.cons.inj htwo).2
    have hcode := storedStatus_front hfinal.complete (htwice.input none) hstored
    exact hfinal.status (by rw [← hcode]; exact ⟨by omega, by omega, by omega⟩)

/-- **Interim responses are transparent only if there are none.**  With one or more in front
of the final response, no request that makes a single parse returns the final response, and
no parse of a pipelined reader results in it, wherever the stream is cut. -/
theorem interims_transparent_iff (hinterims : ∀ h ∈ interims, Interim h)
    (hfinal : FinalResponse cfg gunzip method e head body) :
    (Transparent cfg gunzip method e interims head body ↔ interims = []) ∧
    (interims ≠ [] →
      (∀ env req c ev,
        ReadsOnce cfg gunzip method e env req c ev (interims.flatten ++ (head ++ body)) →
        head.length ≤ ev.bufLen →
        ¬ ReturnsFinal cfg gunzip method e ev.bufLen head body
          (c.doSequential cfg gunzip env req).1) ∧
      ∀ (scratchLen : ℕ) (resp : Response) (br : Reader), head.length ≤ scratchLen →
        br.Delivers (interims.flatten ++ (head ++ body)) e →
        ¬ ReadsFinal cfg gunzip method e scratchLen head body
          (readResponseBuffered gunzip scratchLen resp.reset cfg.maxRespSize method br).1) := by
  refine ⟨⟨?_, ?_⟩, ?_⟩
  · intro h
    by_contra hne
    have hbr := Feed.ofSegs_delivers [interims.flatten ++ (head ++ body)] e
    rw [List.flatten_singleton] at hbr
    exact not_readsFinal hfinal hinterims hne le_rfl ⟨0, 0, [], [], [], 0, []⟩ hbr
      (h.pipelined head.length ⟨0, 0, [], [], [], 0, []⟩ _ le_rfl hbr)
  · rintro rfl
    refine ⟨?_, ?_, ?_, ?_⟩
    · intro env req c ev honce hfits
      exact returnsFinal_alone hfinal honce hfits
    · intro env req c ev ev₀ htwice
      exact absurd htwice (not_readsTwice_alone hfinal)
    · intro scratchLen resp br hfits hbr
      exact ⟨resp, br, hfinal.acceptedBuffered scratchLen resp br hfits hbr, hbr, rfl⟩
    · intro before interim after hsplit
      exact absurd hsplit.symm (by simp)
  · intro hne
    refine ⟨?_, ?_⟩
    · intro env req c ev honce hfits
      exact not_returnsFinal hfinal hinterims hne honce hfits
    · intro scratchLen resp br hfits hbr
      exact not_readsFinal hfinal hinterims hne hfits resp hbr

/-- A response with a status that has no body is a final one. -/
theorem FinalResponse.of_noBody (hcomplete : headEnd head = some head.length) {status : ℕ}
    (hframing : framing method head = .noBody status)
    (hstatus : ¬ IsInterim (parseStatusCode head).1) :
    FinalResponse cfg gunzip method e head body where
  complete := hcomplete
  status := hstatus
  accepted := by
    intro bufLen resp r hfits hr
    have hat : headAt bufLen r.flat = some (head, body) :=
      headAt_of_front hcomplete hfits hr.flat
    obtain ⟨leftover, r', hread, -, -, -⟩ := readResponse_head hat resp.reset cfg.maxRespSize method
      cfg.headerReadSize_pos cfg.bodyReadSize
    rw [readDecoded_eq, hread, readBody, hframing]
    dsimp only [thenDecompress]
    rw [decompressBody_of_empty gunzip rfl]
  acceptedBuffered := by
    intro scratchLen resp br hfits hbr
    have hat : headAt scratchLen br.flat = some (head, body) :=
      headAt_of_front hcomplete hfits hbr.flat
    obtain ⟨br', hread, -, -, -⟩ := readResponseBuffered_head hat gunzip resp.reset cfg.maxRespSize
      method
    rw [hread, readBodyBuffered, hframing]

end

def continueHead : Bytes := ascii "HTTP/1.1 100 Continue\r\n\r\n"

def noContent : Bytes := ascii "HTTP/1.1 204 No Content\r\n\r\n"

theorem interims_transparent_noContent :
    Transparent unpipelined .data (ascii "GET") .eof [] noContent [] ∧
      ¬ Transparent unpipelined .data (ascii "GET") .eof [continueHead] noContent [] := by
  have hfinal : FinalResponse unpipelined .data (ascii "GET") .eof noContent [] :=
    .of_noBody (by decide +kernel) (show framing (ascii "GET") noContent = .noBody 204 by
      decide +kernel) (by unfold IsInterim; decide +kernel)
  have hinterim : ∀ h ∈ [continueHead], Interim h := by
    intro h hh
    obtain rfl := List.mem_singleton.mp hh
    exact ⟨by decide +kernel, by unfold IsInterim; decide +kernel⟩
  constructor
  · exact (interims_transparent_iff (fun h hh => absurd hh List.not_mem_nil) hfinal).1.mpr rfl
  · intro h
    exact absurd ((interims_transparent_iff hinterim hfinal).1.mp h) (List.cons_ne_nil _ _)

/-- An interim response with a field that says it has no body. -/
def earlyHints : Bytes := ascii "HTTP/1.1 103 Early Hints\r\nContent-Length: 0\r\n\r\n"

/-- A 100 is delivered, in either mode, and its parse has consumed the 200 behind it.  So is a
103 that says it has no body; its parse consumes the 200 if that arrives with it and the reads
are blocks. -/
theorem interim_delivered :
    ((answered (continueHead ++ okHi)).1.resp?.map Response.statusCode = some 100 ∧
      (answered (earlyHints ++ okHi)).1.resp?.map Response.statusCode = some 103) ∧
    (∃ x, readResponseBuffered .data 4096 ⟨0, 0, [], [], [], 0, []⟩ 100 (ascii "GET")
        (.ofSegs [continueHead ++ okHi] .eof) = x ∧
      x.1.1 = .nil ∧ x.1.2.statusCode = 100 ∧ x.2.flat = []) ∧
    ∃ x, readDecoded .data (.ofSegs [earlyHints ++ okHi] .eof) 4096 ⟨0, 0, [], [], [], 0, []⟩
        100 (ascii "GET") 4096 4096 = x ∧
      x.1.1 = .nil ∧ x.1.2.statusCode = 103 ∧ x.2.flat = [] := by
  refine ⟨by decide +kernel, ⟨_, rfl, ?_⟩, ⟨_, rfl, ?_⟩⟩
  · decide +kernel
  · decide +kernel

end BurstHttp
