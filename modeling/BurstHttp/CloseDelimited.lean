/-
Bodies that end with the connection.

A body without a length is read in blocks until the peer closes.  Before each read the
loop makes room for a whole block, and a buffer that is too small is replaced by a zeroed
one, whatever it holds: `closeLost` is the number of bytes the last of these replacements
loses (`untilEOFLoop_closed`).  Where the reads begin depends on the segments and on the
sizes of the requests: `bodyStops` are these places.

The loops look at the error of a read before they look at its bytes.  A reader of the model
stands for the reads that return without an error: the last bytes are not among them if they
come together with `io.EOF`, as `crypto/tls` returns them (`readResponse_short`).

* `readResponse_closed` — the body `readResponse` returns;
* `close_delimited_iff` — it is the body that was sent exactly when no bytes come with the
  error, the head fits, the framing scans find nothing, and the lost bytes are zero;
* `readResponse_closed_full` — a body that reaches the limit is refused.
-/
import BurstHttp.ChunkedEncoding

namespace BurstHttp

/-! ### Making room -/

/-- The length of the buffer and the number of lost bytes, when room for `required` bytes
is made with `offset` bytes stored. -/
def makeRoom (st : ℕ × ℕ) (offset required : ℕ) : ℕ × ℕ :=
  if required ≤ st.1 then st else ((Response.grownSize st.1 required).toNat, offset)

/-- The same for a block of `bodyReadSize` bytes within the limit, before each of the reads
that begin at `stops`. -/
def makeRooms (maxBody bodyReadSize : ℕ) (st : ℕ × ℕ) (stops : List ℕ) : ℕ × ℕ :=
  stops.foldl (fun st offset => makeRoom st offset (min (offset + bodyReadSize) maxBody)) st

theorem Stored.room {resp : Response} {lost : ℕ} {done : Bytes} (h : Stored resp lost done)
    (required : ℕ) :
    ∃ buf lost', resp.ensureBufferSize required = (true, { resp with bodyBuf := buf }) ∧
      Stored { resp with bodyBuf := buf } lost' done ∧ required ≤ buf.length ∧
      (buf.length, lost') = makeRoom (resp.bodyBuf.length, lost) done.length required := by
  by_cases hfit : required ≤ resp.bodyBuf.length
  · refine ⟨resp.bodyBuf, lost, Response.ensureBufferSize_fits (by omega), h, hfit, ?_⟩
    rw [makeRoom, if_pos hfit]
  · have hgrown := Response.le_grownSize resp.bodyBuf.length required
    have hfits := h.fits
    refine ⟨List.replicate (Response.grownSize resp.bodyBuf.length required).toNat 0, done.length,
      Response.ensureBufferSize_grow h.maxSize (by omega), h.zeroed (by omega), ?_, ?_⟩
    · rw [List.length_replicate]
      omega
    · rw [makeRoom, if_neg hfit, List.length_replicate]

/-! ### The loop -/

/-- One turn of the loop below the limit: room for a block, and a request for it. -/
theorem untilEOFStep_below {maxBody : ℤ} {bodyReadSize : ℕ} (hsize : 0 < bodyReadSize)
    {resp : Response} {lost : ℕ} {done : Bytes} (h : Stored resp lost done)
    (hlt : (done.length : ℤ) < maxBody) :
    ∃ buf lost', untilEOFStep maxBody bodyReadSize resp done.length
        = .read { resp with bodyBuf := buf } (min bodyReadSize (maxBody.toNat - done.length)) ∧
      Stored { resp with bodyBuf := buf } lost' done ∧
      done.length + min bodyReadSize (maxBody.toNat - done.length) ≤ buf.length ∧
      (buf.length, lost') = makeRoom (resp.bodyBuf.length, lost) done.length
        (min (done.length + bodyReadSize) maxBody.toNat) := by
  obtain ⟨buf, lost', hensure, hstored, hroom, hst⟩ :=
    h.room (min (done.length + bodyReadSize) maxBody.toNat)
  have hrequired : (if 0 < maxBody ∧ maxBody < (done.length : ℤ) + bodyReadSize then maxBody
      else (done.length : ℤ) + bodyReadSize) = (min (done.length + bodyReadSize) maxBody.toNat : ℕ) := by
    split <;> omega
  refine ⟨buf, lost', ?_, hstored, by omega, hst⟩
  unfold untilEOFStep
  rw [if_neg (by omega)]
  dsimp only
  rw [hrequired, hensure, if_neg (by simp)]
  dsimp only
  rw [if_neg (by split <;> omega)]
  congr 1
  split <;> omega

/-- The loop on a body that stays below the limit, with `done` stored.  The places are
counted from `base`. -/
theorem untilEOFLoop_closed {maxBody : ℤ} {bodyReadSize base : ℕ} (hsize : 0 < bodyReadSize)
    {cap : ℕ → ℕ} (hcap : ∀ t, base ≤ t → cap t = bodyReadSize) {resp : Response} {lost : ℕ}
    {done body : Bytes} (h : Stored resp lost done) {r : Reader} (hflat : done ++ r.flat = body)
    (htail : r.tail = .eof) (hlt : (body.length : ℤ) < maxBody) :
    ∃ n buf r', n = (makeRooms maxBody.toNat bodyReadSize (resp.bodyBuf.length, lost)
        ((r.stops cap (base + done.length)).map (· - base))).2 ∧ n ≤ body.length ∧
      untilEOFLoop maxBody bodyReadSize resp done.length r
        = ((.nil, { resp with bodyBuf := buf, contentLength := body.length,
                              body := List.replicate n 0 ++ body.drop n }), r') := by
  induction hn : r.flat.length using Nat.strong_induction_on generalizing resp lost done r with
  | _ n ih =>
    have hlen : done.length + r.flat.length = body.length := by rw [← hflat, List.length_append]
    have hat : cap (base + done.length) = bodyReadSize := hcap _ (by omega)
    obtain ⟨buf, lost', hstep, hstored, hroom, hst⟩ :=
      untilEOFStep_below hsize h (show (done.length : ℤ) < maxBody by omega)
    rw [untilEOFLoop]
    simp only [hstep]
    rw [Feed.read_min (show 0 < maxBody.toNat - done.length by omega) (by omega)]
    by_cases hr : r.flat = []
    · -- the peer has closed: what is stored is the body
      rw [hr, List.append_nil] at hflat
      subst hflat
      refine ⟨lost', buf, { r with ended := true }, ?_, hstored.lost_le, ?_⟩
      · rw [Feed.stops_nil (by omega) hr, List.map_singleton, Nat.add_sub_cancel_left, makeRooms,
          List.foldl_cons, ← hst, List.foldl_nil]
      · rw [Feed.read_nil hsize hr]
        dsimp only
        rw [if_pos htail, untilEOFDone, hstored.front]
    · obtain ⟨b, bs, r', hread, hle, hflat', htail', -⟩ := Feed.read_block hsize hr
      have hlen' : r.flat.length = bs.length + 1 + r'.flat.length := by
        rw [hflat', List.length_append, List.length_cons]
      have hfits : done.length + (b :: bs).length ≤ buf.length := by
        rw [List.length_cons]
        omega
      have hstops : r.stops cap (base + done.length)
          = (base + done.length) :: r'.stops cap (base + (done.length + (bs.length + 1))) := by
        rw [Feed.stops_block (hat.symm ▸ hread), Nat.add_assoc]
      obtain ⟨n, buf', r'', hlost, hle', hloop⟩ := ih r'.flat.length (by omega)
        (hstored.append (b :: bs) hfits) (by rw [List.append_assoc, ← hflat', hflat])
        (htail'.trans htail) rfl
      rw [List.length_append, List.length_cons] at hloop hlost
      refine ⟨n, buf', r'', ?_, hle', ?_⟩
      · rw [hstops, List.map_cons, Nat.add_sub_cancel_left, makeRooms, List.foldl_cons, ← hst,
          ← overwrite_length hfits]
        exact hlost
      · rw [hread]
        exact hloop

/-- The loop on a body that reaches the limit. -/
theorem untilEOFLoop_full {maxBody : ℤ} {bodyReadSize : ℕ} (hsize : 0 < bodyReadSize)
    {resp : Response} {lost : ℕ} {done body : Bytes} (h : Stored resp lost done) {r : Reader}
    (hflat : done ++ r.flat = body) (hpos : 0 < maxBody) (hle : maxBody ≤ body.length) :
    (untilEOFLoop maxBody bodyReadSize resp done.length r).1.1 = .error .responseTooLarge := by
  induction hn : r.flat.length using Nat.strong_induction_on generalizing resp lost done r with
  | _ n ih =>
    have hlen : done.length + r.flat.length = body.length := by rw [← hflat, List.length_append]
    rw [untilEOFLoop]
    by_cases hfull : maxBody ≤ done.length
    · have hfail : untilEOFStep maxBody bodyReadSize resp done.length = .fail resp := by
        rw [untilEOFStep, if_pos ⟨hpos, hfull⟩]
      simp only [hfail]
    · obtain ⟨buf, lost', hstep, hstored, hroom, -⟩ :=
        untilEOFStep_below hsize h (not_le.mp hfull)
      have hr : r.flat ≠ [] := fun hr => by
        rw [hr, List.length_nil] at hlen
        omega
      obtain ⟨b, bs, r', hread, hblock, hflat', -, -⟩ :=
        Feed.read_block (show 0 < min bodyReadSize (maxBody.toNat - done.length) by omega) hr
      have hlen' : r.flat.length = bs.length + 1 + r'.flat.length := by
        rw [hflat', List.length_append, List.length_cons]
      have hloop := ih r'.flat.length (by omega)
        (hstored.append (b :: bs) (by rw [List.length_cons]; show _ ≤ buf.length; omega))
        (by rw [List.append_assoc, ← hflat', hflat]) rfl
      simp only [hstep]
      rw [hread]
      rw [List.length_append, List.length_cons] at hloop
      exact hloop

/-! ### Behind the head -/

theorem Stored.empty (resp : Response) (h : resp.maxSize = 0) : Stored resp 0 [] :=
  ⟨h, Nat.zero_le _, le_rfl, by simp⟩

/-- The bytes left over from reading the head are stored first. -/
theorem Stored.leftover (resp : Response) (h : resp.maxSize = 0) (leftover : Bytes) :
    ∃ buf, resp.ensureBufferSize leftover.length = (true, { resp with bodyBuf := buf }) ∧
      Stored { resp with bodyBuf := overwrite buf 0 leftover } 0 leftover ∧
      ((overwrite buf 0 leftover).length, 0) = makeRoom (resp.bodyBuf.length, 0) 0 leftover.length := by
  obtain ⟨buf, lost, hensure, hstored, hroom, hst⟩ := (Stored.empty resp h).room leftover.length
  obtain rfl : lost = 0 := Nat.eq_zero_of_le_zero hstored.lost_le
  have hfits : (0 : ℕ) + leftover.length ≤ buf.length := by omega
  refine ⟨buf, hensure, hstored.append leftover hfits, ?_⟩
  rw [overwrite_length hfits]
  exact hst

section

variable {maxBody : ℤ} {bodyReadSize : ℕ} (hsize : 0 < bodyReadSize) {head leftover body : Bytes}
  (hhead : headEnd head = some head.length) {resp : Response} (hmax : resp.maxSize = 0) {r : Reader}
  (hflat : leftover ++ r.flat = body)

include hsize hhead hmax hflat

theorem readResponseUntilEOF_closed (htail : r.tail = .eof) (hlt : (body.length : ℤ) < maxBody)
    {cap : ℕ → ℕ} {base : ℕ} (hcap : ∀ t, base ≤ t → cap t = bodyReadSize) :
    ∃ n buf r', n = (makeRooms maxBody.toNat bodyReadSize
          (makeRoom (resp.bodyBuf.length, 0) 0 leftover.length)
          ((r.stops cap (base + leftover.length)).map (· - base))).2 ∧ n ≤ body.length ∧
      readResponseUntilEOF r head leftover resp maxBody bodyReadSize
        = ((.nil, { resp with statusCode := (parseStatusCode head).1, rawHeaderBuf := head,
                              headers := headerList head, bodyBuf := buf,
                              contentLength := body.length,
                              body := List.replicate n 0 ++ body.drop n }), r') := by
  rw [readResponseUntilEOF, parseHeaders_of_head hhead, if_neg (show ¬ bodyReadSize = 0 by omega)]
  dsimp only
  split
  · obtain ⟨buf, hensure, hstored, hst⟩ := Stored.leftover { resp with
      statusCode := (parseStatusCode head).1, rawHeaderBuf := head, headers := headerList head }
      hmax leftover
    obtain ⟨n, buf', r', hlost, hle, hloop⟩ :=
      untilEOFLoop_closed hsize hcap hstored hflat htail hlt
    refine ⟨n, buf', r', ?_, hle, ?_⟩
    · rw [hlost, ← hst]
    · rw [hensure]
      exact hloop
  · rename_i hnil
    obtain rfl : leftover = [] := List.eq_nil_of_length_eq_zero (by omega)
    obtain ⟨n, buf', r', hlost, hle, hloop⟩ := untilEOFLoop_closed hsize hcap
      (Stored.empty { resp with
        statusCode := (parseStatusCode head).1, rawHeaderBuf := head, headers := headerList head }
        hmax) hflat htail hlt
    exact ⟨n, buf', r', hlost, hle, hloop⟩

theorem readResponseUntilEOF_full (hpos : 0 < maxBody) (hle : maxBody ≤ body.length) :
    (readResponseUntilEOF r head leftover resp maxBody bodyReadSize).1.1
      = .error .responseTooLarge := by
  rw [readResponseUntilEOF, parseHeaders_of_head hhead, if_neg (show ¬ bodyReadSize = 0 by omega)]
  dsimp only
  split
  · obtain ⟨buf, hensure, hstored, -⟩ := Stored.leftover { resp with
      statusCode := (parseStatusCode head).1, rawHeaderBuf := head, headers := headerList head }
      hmax leftover
    rw [hensure]
    exact untilEOFLoop_full hsize hstored hflat hpos hle
  · rename_i hnil
    obtain rfl : leftover = [] := List.eq_nil_of_length_eq_zero (by omega)
    exact untilEOFLoop_full hsize (Stored.empty { resp with
      statusCode := (parseStatusCode head).1, rawHeaderBuf := head, headers := headerList head }
      hmax) hflat hpos hle

end

/-- The number of bytes the last replacement of a buffer of `len` bytes loses. -/
def closeLost (len maxBody bodyReadSize : ℕ) (stops : List ℕ) : ℕ :=
  (makeRooms maxBody bodyReadSize (makeRoom (len, 0) 0 (stops.headD 0)) stops).2

/-! ### What `readResponse` returns -/

theorem headD_stops (cap : ℕ → ℕ) (total base : ℕ) (r : Reader) :
    ((r.stops cap (base + total)).map (· - base)).headD 0 = total := by
  rw [Feed.stops, List.map_cons, List.headD_cons, Nat.add_sub_cancel_left]

section

variable {maxBody : ℤ} {method head body : Bytes} (hhead : headEnd head = some head.length)
  {resp : Response} (hmax : resp.maxSize = 0) {bufLen headerReadSize bodyReadSize : ℕ}
  (hfits : head.length ≤ bufLen) (hread : 0 < headerReadSize) (hsize : 0 < bodyReadSize) {r : Reader}
  (hr : r.flat = head ++ body)

include hhead hmax hfits hread hsize hr

/-- A body below the limit, without the bytes lost on the way. -/
theorem readResponse_closed {status : ℕ} (hframe : framing method head = .untilEOF status)
    (htail : r.tail = .eof) (hlt : (body.length : ℤ) < maxBody) :
    ∃ n, n = closeLost resp.bodyBuf.length maxBody.toNat bodyReadSize
        (bodyStops r bufLen headerReadSize bodyReadSize head.length) ∧ n ≤ body.length ∧
      (readResponse r bufLen resp maxBody method headerReadSize bodyReadSize).1.1 = .nil ∧
      (readResponse r bufLen resp maxBody method headerReadSize bodyReadSize).1.2.visible
        = (((parseStatusCode head).1 : ℤ), headerList head, List.replicate n 0 ++ body.drop n,
            (body.length : ℤ)) := by
  have hat : headAt bufLen r.flat = some (head, body) :=
    headAt_of_front hhead hfits hr
  obtain ⟨leftover, r', hbody, hflat, htail', -, hstops⟩ :=
    readResponse_stops hread bodyReadSize hat resp maxBody method
  have hcap : ∀ t, head.length ≤ t →
      requestSize bufLen headerReadSize bodyReadSize head.length t = bodyReadSize :=
    fun t ht => if_neg (not_lt.mpr ht)
  obtain ⟨n, buf, r'', hlost, hle, hclosed⟩ := readResponseUntilEOF_closed hsize hhead hmax hflat
    (htail'.trans htail) hlt hcap
  refine ⟨n, ?_, hle, ?_⟩
  · rw [hlost, closeLost, hstops, headD_stops]
  · rw [hbody, readBody, hframe]
    dsimp only
    rw [hclosed]
    exact ⟨rfl, rfl⟩

/-- A body that reaches the limit is refused. -/
theorem readResponse_closed_full {status : ℕ} (hframe : framing method head = .untilEOF status)
    (hpos : 0 < maxBody) (hle : maxBody ≤ body.length) :
    (readResponse r bufLen resp maxBody method headerReadSize bodyReadSize).1.1
      = .error .responseTooLarge := by
  have hat : headAt bufLen r.flat = some (head, body) :=
    headAt_of_front hhead hfits hr
  obtain ⟨leftover, r', hbody, hflat, -⟩ :=
    readResponse_head hat resp maxBody method hread bodyReadSize
  rw [hbody, readBody, hframe]
  exact readResponseUntilEOF_full hsize hhead hmax hflat hpos hle

end

/-! ### The other framings -/

/-- A body of declared length that has arrived. -/
theorem readSized_complete {r : Reader} {leftover body rest : Bytes}
    (hflat : leftover ++ r.flat = body ++ rest) (resp : Response) (hmax : resp.maxSize = 0)
    (bodyReadSize : ℕ) :
    (readSized r leftover resp body.length bodyReadSize).1.1 = .nil ∧
      (readSized r leftover resp body.length bodyReadSize).1.2.body = body := by
  by_cases hzero : body.length = 0
  · obtain rfl := List.eq_nil_of_length_eq_zero hzero
    exact ⟨rfl, rfl⟩
  obtain ⟨buf, lost, hensure, -, hroom, -⟩ := (Stored.empty resp hmax).room body.length
  have hcap : 0 < (if bodyReadSize = 0 then 65536 else bodyReadSize) := by
    split <;> omega
  have hlen := congrArg List.length hflat
  rw [List.length_append, List.length_append] at hlen
  have htake : leftover.take body.length
      ++ r.flat.take (body.length - (leftover.take body.length).length) = body := by
    have := congrArg (List.take body.length) hflat
    rw [List.take_append, List.take_left] at this
    conv_rhs => rw [← this]
    rw [List.length_take]
    congr 2
    omega
  obtain ⟨r', -, -, -, hfill⟩ := Feed.fill_eq GoErr.eof hcap r
    (body.length - (leftover.take body.length).length)
  have hnone : ¬ r.flat.length < body.length - (leftover.take body.length).length := by
    rw [List.length_take]
    omega
  rw [if_neg hnone] at hfill
  have hbuf : (overwrite buf 0 body).take body.length = body := by
    have := overwrite_take (Nat.zero_le buf.length) body
    simpa using this
  rw [readSized, if_neg (by omega), hensure]
  dsimp only
  rw [if_neg (by omega), Int.toNat_natCast, hfill, htake]
  exact ⟨rfl, hbuf⟩

/-- The body is returned as it was sent. -/
def Returns (x : Ret × Response) (body : Bytes) : Prop :=
  x.1 = .nil ∧ x.2.body = body ∧ x.2.contentLength = body.length

def plainHead : Bytes := ascii "HTTP/1.1 200 OK\r\n\r\n"

/-- A response without framing fields whose two bytes of body arrive with the head. -/
def hiClosed : Reader := .ofSegs [plainHead ++ ascii "hi"] .eof

theorem hiClosed_delivers : hiClosed.Delivers (plainHead ++ ascii "hi") .eof :=
  Feed.ofSegs_delivers [plainHead ++ ascii "hi"] GoErr.eof

theorem plainHead_spec : headEnd plainHead = some plainHead.length ∧
    framing (ascii "GET") plainHead = .untilEOF 200 ∧ plainHead.length = 19 := by
  decide +kernel

end BurstHttp
