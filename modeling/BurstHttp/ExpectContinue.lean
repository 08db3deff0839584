/-
`Expect: 100-continue` (connection.go, `doSequential`).

The head and the body are written in two steps, and the first step is `writeRequest` with
no body.  It derives both header fields of the exchange from the body it is given.

* `writeRequest_nil` — the head of the first step announces a body of no bytes, with or
  without a prefix;
* `send_held` — the two steps themselves;
* `expect_continue_never` — the exchange is never as it should be.
-/
import BurstHttp.PreEncoded

namespace BurstHttp

namespace Sender

/-- The exchange as it should be: `head` is what is encoded, `early` what is written before
the server has answered 100, and `whole` what is written in the end. -/
structure ContinueExchange (head early whole body : Bytes) : Prop where
  expects : joinLines [ascii "Expect: 100-continue"] <:+: head
  announces : joinLines [lengthLine body.length] <:+: head
  announced : ∀ n, joinLines [lengthLine n] <:+: head → n = body.length
  held : early = head
  complete : whole = head ++ body

/-- What the head looks like when `writeRequest` is given no body: a length of zero stands at
its end, and there is no `Expect` in front of it that was not in the prefix or among the
headers of the request. -/
theorem writeRequest_nil {c : Sender} {buf : WriteBuf} {req : Outgoing} {compressed : Bool}
    {head rest : Bytes} (h : c.writeRequest buf req [] compressed = .ok (head, rest)) :
    head = (if req.preEncodedHeaderPrefix = [] then
        c.firstBytes req compressed ++ req.header.written ++ c.client.proxyAuthHeader c.tls
      else req.preEncodedHeaderPrefix) ++ tailBytes 0 := by
  by_cases hplain : req.preEncodedHeaderPrefix = []
  · rw [writeRequest_plain c buf req hplain] at h
    split_ifs at h with h₁ h₃
    obtain ⟨rfl, -⟩ := Prod.mk.inj (Except.ok.inj h)
    have hno : (req.expectContinue && decide (0 < ([] : Bytes).length)) = false :=
      Bool.and_false _
    rw [if_pos hplain, lastBytes, hno]
    simp [tailBytes, expectLines]
  · have hline : ascii "\r\n\r\n" = [CR, LF] ++ [CR, LF] := by decide
    rw [writeRequest, if_pos (List.length_pos_iff.mpr hplain)] at h
    obtain ⟨rfl, -⟩ := Prod.mk.inj (Except.ok.inj h)
    rw [if_neg hplain, hline]
    simp [tailBytes, lengthLine]

/-- The two steps of a request that waits: the head alone, and the body behind it. -/
theorem send_held {c : Sender} {buf : WriteBuf} {req : Outgoing} {body head rest : Bytes}
    {compressed : Bool}
    (hbody : prepareBody c.client.maxReqSize c.client.compressor req.toRequest
      = .ok (body, compressed))
    (hexpect : req.expectContinue = true) (hsome : body ≠ []) (hresp : req.resp ≠ none)
    (hhead : c.writeRequest buf req [] compressed = .ok (head, rest)) (continued : Bool) :
    c.send buf false continued req = head ++ if continued then body else [] := by
  have hpos := List.length_pos_iff.mpr hsome
  have hgiven : req.resp.isNone = false :=
    Bool.eq_false_iff.mpr (mt Option.isNone_iff_eq_none.mp hresp)
  simp [send, hbody, hgiven, hexpect, hpos, hhead]

/-- **The exchange never takes place.**  Whenever a request with `ExpectContinue` and a body is
written, the two steps are as they should be, but the head announces a body of no bytes: its
last field is `Content-Length: 0`. -/
theorem expect_continue_never (c : Sender) (buf : WriteBuf) (req : Outgoing)
    {body head rest : Bytes} {compressed : Bool}
    (hbody : prepareBody c.client.maxReqSize c.client.compressor req.toRequest
      = .ok (body, compressed))
    (hexpect : req.expectContinue = true) (hsome : body ≠ []) (hresp : req.resp ≠ none)
    (hhead : c.writeRequest buf req [] compressed = .ok (head, rest)) :
    c.send buf false false req = head
      ∧ c.send buf false true req = head ++ body
      ∧ tailBytes 0 <:+ head
      ∧ ¬ ContinueExchange head (c.send buf false false req) (c.send buf false true req) body := by
  have hsend := send_held hbody hexpect hsome hresp hhead
  have htail : tailBytes 0 <:+ head := by
    rw [writeRequest_nil hhead]
    exact List.suffix_append _ _
  refine ⟨(hsend false).trans (List.append_nil head), hsend true, htail, ?_⟩
  intro h
  -- the number at the end of the head is one that is announced
  have hzero : joinLines [lengthLine 0] <:+: head :=
    (List.prefix_append _ _).isInfix.trans htail.isInfix
  have hlen := h.announced 0 hzero
  exact hsome (List.length_eq_zero_iff.mp hlen.symm)

/-- A request that waits for the server before it sends its body. -/
def waitingPost : Outgoing :=
  { getPath (ascii "/") with
    method := ascii "POST", body := ascii "hi", expectContinue := true,
    resp := some ⟨0, 0, [], [], [], 0, []⟩ }

/-- The head `waitingPost` is sent with. -/
def waitingHead : Bytes :=
  ascii "POST / HTTP/1.1\r\nHost: example.com:8080\r\nConnection: keep-alive\r\n"
    ++ ascii "Content-Length: 0\r\n\r\n"

theorem writeRequest_waitingPost :
    plainSender.writeRequest freshBuf waitingPost [] false = .ok (waitingHead, []) := by
  rw [writeRequest_plain plainSender freshBuf waitingPost rfl, if_neg (by decide +kernel),
    if_neg (by decide +kernel)]
  have hhead : plainSender.firstBytes waitingPost false ++ waitingPost.header.written
      ++ plainSender.lastBytes waitingPost 0 = waitingHead := by decide +kernel
  exact congrArg (fun head => Except.ok (head, [])) hhead

theorem expect_continue_never_waitingPost :
    plainSender.send freshBuf false false waitingPost = waitingHead
      ∧ plainSender.send freshBuf false true waitingPost = waitingHead ++ ascii "hi"
      ∧ tailBytes 0 <:+ waitingHead
      ∧ ¬ ContinueExchange waitingHead (plainSender.send freshBuf false false waitingPost)
          (plainSender.send freshBuf false true waitingPost) (ascii "hi") :=
  expect_continue_never plainSender freshBuf waitingPost rfl rfl (by decide)
    (Option.some_ne_none _) writeRequest_waitingPost

/-- Two bytes are sent behind a head that announces none and expects nothing. -/
theorem expect_continue_unannounced :
    plainSender.send freshBuf false true waitingPost = waitingHead ++ ascii "hi"
      ∧ ¬ joinLines [ascii "Expect: 100-continue"] <:+: waitingHead
      ∧ ¬ joinLines [lengthLine 2] <:+: waitingHead
      ∧ joinLines [lengthLine 0] <:+: waitingHead
      ∧ ¬ ContinueExchange waitingHead (plainSender.send freshBuf false false waitingPost)
          (plainSender.send freshBuf false true waitingPost) (ascii "hi") := by
  have hexpect : ¬ joinLines [ascii "Expect: 100-continue"] <:+: waitingHead := by decide +kernel
  refine ⟨send_held rfl rfl (by decide) (Option.some_ne_none _) writeRequest_waitingPost true,
    hexpect, by decide +kernel, by decide +kernel, ?_⟩
  intro h
  exact hexpect h.expects

end Sender

end BurstHttp
