/-
Requests with a header prefix that was encoded ahead.

`BuildPreEncodedHeaderPrefix` decides from the flags of the request; the way without a
prefix decides from the body that was prepared, from the configuration, and from how
the request is sent.

* `send_plain`, `send_prefixed` — the bytes of either way;
* `prefixed_eq_plain_iff` — when they are the same;
* `prefixed_announces_gzip` — a body that is not compressed, announced as compressed.
-/
import BurstHttp.RequestHead

namespace BurstHttp

/-- `prepareBody` compresses nothing that was not to be compressed. -/
theorem prepareBody_compressed {maxReqSize : ℤ} {compressor : Option (Bytes → Except GoErr Bytes)}
    {req : Request} {body : Bytes} {compressed : Bool}
    (h : prepareBody maxReqSize compressor req = .ok (body, compressed)) :
    compressed = true → req.compressed = true := by
  rintro rfl
  unfold prepareBody at h
  cases hflag : req.compressed with
  | true => rfl
  | false =>
    rw [hflag] at h
    -- without the flag neither branch comes to the compressor
    have hplain : (!false || req.body.isEmpty) = true := rfl
    simp only [hplain, if_true] at h
    cases compressor <;> split_ifs at h <;> cases h

namespace Sender

/-- Whether the body is held back until the server has answered 100. -/
def holdsBack (pipelining : Bool) (req : Outgoing) (body : Bytes) : Bool :=
  !pipelining && req.expectContinue && decide (0 < body.length)

/-- The body that is given to `writeRequest`. -/
def givenBody (pipelining : Bool) (req : Outgoing) (body : Bytes) : Bytes :=
  if holdsBack pipelining req body then [] else body

/-- What follows the head on the wire. -/
def bodyBytes (pipelining continued : Bool) (req : Outgoing) (body : Bytes) : Bytes :=
  if holdsBack pipelining req body then (if continued then body else []) else body

/-- What `Content-Length` and the end of the head look like. -/
def tailBytes (n : ℕ) : Bytes := joinLines [lengthLine n] ++ [CR, LF]

section

variable {c : Sender} {buf : WriteBuf} {pipelining continued : Bool} {body : Bytes}
  {compressed : Bool}

theorem send_prefixed (req : Outgoing)
    (hbody : prepareBody c.client.maxReqSize c.client.compressor req.toRequest
      = .ok (body, compressed))
    (hresp : (!pipelining && req.resp.isNone) = false)
    (hsome : req.preEncodedHeaderPrefix ≠ []) :
    c.send buf pipelining continued req
      = req.preEncodedHeaderPrefix ++ tailBytes (givenBody pipelining req body).length
        ++ bodyBytes pipelining continued req body := by
  have hline : ascii "\r\n\r\n" = [CR, LF] ++ [CR, LF] := by decide
  unfold send
  simp only [hbody, hresp, Bool.false_eq_true, if_false]
  have hpos := List.length_pos_iff.mpr hsome
  by_cases hhold : holdsBack pipelining req body = true
  · rw [givenBody, bodyBytes, if_pos hhold, if_pos hhold, ← holdsBack, if_pos hhold, writeRequest,
      if_pos hpos]
    simp [tailBytes, lengthLine, hline]
  · rw [givenBody, bodyBytes, if_neg hhold, if_neg hhold, ← holdsBack, if_neg hhold, writeRequest,
      if_pos hpos]
    simp [tailBytes, lengthLine, hline]

theorem send_plain (req : Outgoing)
    (hbody : prepareBody c.client.maxReqSize c.client.compressor req.toRequest
      = .ok (body, compressed))
    (hresp : (!pipelining && req.resp.isNone) = false)
    (hnone : req.preEncodedHeaderPrefix = []) :
    c.send buf pipelining continued req
      = if 16 * 1024 < (c.firstBytes req compressed).length then []
        else if 128 < (c.lastBytes req (givenBody pipelining req body).length).length then []
        else c.firstBytes req compressed ++ req.header.written
          ++ c.lastBytes req (givenBody pipelining req body).length
          ++ bodyBytes pipelining continued req body := by
  unfold send
  simp only [hbody, hresp, Bool.false_eq_true, if_false]
  by_cases hhold : holdsBack pipelining req body = true
  · rw [givenBody, bodyBytes, if_pos hhold, if_pos hhold, ← holdsBack, if_pos hhold,
      writeRequest_plain c buf req hnone]
    split_ifs <;> rfl
  · rw [givenBody, bodyBytes, if_neg hhold, if_neg hhold, ← holdsBack, if_neg hhold,
      writeRequest_plain c buf req hnone]
    split_ifs <;> rfl

end

end Sender

/-! ### The prefix -/

/-- What the prefix of a request is, and that it is not too long. -/
theorem buildPreEncodedHeaderPrefix_spec {c : Client} {req : Outgoing} {host : Bytes} {port : ℤ}
    {useTLS : Bool} {pre : Bytes}
    (h : c.buildPreEncodedHeaderPrefix req host port useTLS = some pre) :
    pre = joinLines (firstLines req c.cfg host port useTLS req.compressed (c.isForwardProxy useTLS))
        ++ req.header.written ++ c.proxyAuthHeader useTLS ++ joinLines (expectLines req.expectContinue)
      ∧ pre.length ≤ 8192 := by
  obtain ⟨p, hp, rfl⟩ := Option.map_eq_some_iff.mp h
  have hauth : (if c.isForwardProxy useTLS then c.proxyAuthHeader useTLS else [])
      = c.proxyAuthHeader useTLS := by
    unfold Client.proxyAuthHeader
    split <;> rfl
  rw [writeRequestHeaderPrefix_eq] at hp
  obtain ⟨hwritten, -, hlen⟩ := Page.of_put hp
  constructor
  · rw [hwritten, Page.written_blank, List.nil_append, frontBytes, hauth]
  · rw [Page.length_written]
    have hpos := p.pos_le
    rwa [hlen, Page.blank, List.length_replicate] at hpos

theorem buildPreEncodedHeaderPrefix_of_le {c : Client} {req : Outgoing} {host : Bytes} {port : ℤ}
    {useTLS : Bool} (h : (frontBytes req c.cfg host port useTLS req.compressed
      (c.isForwardProxy useTLS) req.expectContinue (c.proxyAuthHeader useTLS)).length ≤ 8192) :
    ∃ pre, c.buildPreEncodedHeaderPrefix req host port useTLS = some pre := by
  obtain ⟨p, hp⟩ : ∃ p, (Page.blank (List.replicate 8192 (0 : UInt8))).put (frontBytes req c.cfg
      host port useTLS req.compressed (c.isForwardProxy useTLS) req.expectContinue
      (c.proxyAuthHeader useTLS)) = some p := by
    apply Page.put_of_le
    rwa [Page.blank, List.length_replicate, Nat.zero_add]
  refine ⟨p.written, ?_⟩
  rw [Client.buildPreEncodedHeaderPrefix, writeRequestHeaderPrefix_eq, hp, Option.map_some]

/-- Whether the two schemes write a port the same way. -/
def PortAgrees (port : ℤ) (tls useTLS : Bool) : Prop := tls = useTLS ∨ (port ≠ 80 ∧ port ≠ 443)

theorem portSuffix_agrees {port : ℤ} {tls useTLS : Bool} (h : PortAgrees port tls useTLS) :
    portSuffix (if tls then 443 else 80) port = portSuffix (if useTLS then 443 else 80) port := by
  rcases h with rfl | ⟨h80, h443⟩
  · rfl
  · cases tls <;> cases useTLS <;> simp [portSuffix, h80, h443]

/-- There are at most four bytes between them, and none only if they agree. -/
theorem portSuffix_bounds (port : ℤ) (tls useTLS : Bool) :
    let here := (portSuffix (if tls then 443 else 80) port).length
    let there := (portSuffix (if useTLS then 443 else 80) port).length
    here ≤ there + 4 ∧ there ≤ here + 4 ∧ (here = there → PortAgrees port tls useTLS) := by
  by_cases h : PortAgrees port tls useTLS
  · rw [portSuffix_agrees h]
    exact ⟨by omega, by omega, fun _ => h⟩
  · simp only [PortAgrees, not_or, not_and_or, not_not] at h
    obtain ⟨hne, rfl | rfl⟩ := h
    · revert hne
      cases tls <;> cases useTLS <;> simp [PortAgrees] <;> decide
    · revert hne
      cases tls <;> cases useTLS <;> simp [PortAgrees] <;> decide

/-- A line that only one of the two writes. -/
theorem excess {here there : Bool} (h : there = true → here = true) (width : ℕ) :
    ∃ k, (if here then width else 0) = (if there then width else 0) + width * k
      ∧ (k = 0 → there = here) := by
  cases here <;> cases there
  · exact ⟨0, rfl, fun _ => rfl⟩
  · cases h rfl
  · exact ⟨1, by simp, fun h => absurd h Nat.one_ne_zero⟩
  · exact ⟨0, rfl, fun _ => rfl⟩

theorem length_encodingLines (compressed : Bool) :
    (joinLines (encodingLines compressed)).length = if compressed then 24 else 0 := by
  cases compressed <;> decide

theorem length_expectLines (expects : Bool) :
    (joinLines (expectLines expects)).length = if expects then 22 else 0 := by
  cases expects <;> decide

/-- The lengths of the first lines, as far as they depend on the flags. -/
theorem length_firstLines (req : Outgoing) (cfg : HeadConfig) (host : Bytes) (port : ℤ)
    (forwardProxy : Bool) :
    ∃ n, 0 < n ∧ ∀ useTLS compressed,
      (joinLines (firstLines req cfg host port useTLS compressed forwardProxy)).length
        = n + (portSuffix (if useTLS then 443 else 80) port).length
          + if compressed then 24 else 0 := by
  refine ⟨(requestLine req host port forwardProxy).length + (ascii "Host: " ++ host).length
    + (connectionLine cfg).length + 6, by omega, ?_⟩
  intro useTLS compressed
  rw [← length_encodingLines]
  simp only [firstLines, joinLines_append, joinLines_cons, joinLines_nil, hostLine,
    List.length_append, List.length_cons, List.length_nil]
  omega

namespace Sender

/-- When the two ways agree on the head of a request whose body has been prepared. -/
structure Agrees (c : Sender) (pipelining : Bool) (req : Outgoing) (body : Bytes)
    (compressed : Bool) : Prop where
  port : PortAgrees c.port c.tls c.client.cfg.useTLS
  encoding : compressed = req.compressed
  expectation : req.expectContinue = true → pipelining = true ∧ 0 < body.length
  room : (c.lastBytes req (givenBody pipelining req body).length).length ≤ 128

/-- The expectation that the way without a prefix announces. -/
theorem expects_givenBody (pipelining : Bool) (req : Outgoing) (body : Bytes) :
    (req.expectContinue && decide (0 < (givenBody pipelining req body).length))
      = (req.expectContinue && pipelining && decide (0 < body.length)) := by
  unfold givenBody holdsBack
  cases pipelining <;> cases req.expectContinue <;> cases body <;> simp

/-- With what is written in front of the length. -/
theorem lastBytes_eq (c : Sender) (pipelining : Bool) (req : Outgoing) (body : Bytes) :
    c.lastBytes req (givenBody pipelining req body).length
      = c.client.proxyAuthHeader c.tls
        ++ joinLines (expectLines (req.expectContinue && pipelining && decide (0 < body.length)))
        ++ tailBytes (givenBody pipelining req body).length := by
  rw [lastBytes, expects_givenBody, tailBytes, List.append_assoc _ _ [CR, LF]]

section

variable {c : Sender} {pipelining : Bool} {req : Outgoing} {body pre : Bytes} {compressed : Bool}

/-- If the two ways agree, then so do their heads. -/
theorem Agrees.head_eq (h : c.Agrees pipelining req body compressed)
    (hpre : c.client.buildPreEncodedHeaderPrefix req c.host c.port c.tls = some pre) :
    pre ++ tailBytes (givenBody pipelining req body).length
      = c.firstBytes req compressed ++ req.header.written
        ++ c.lastBytes req (givenBody pipelining req body).length := by
  have hexpect : (req.expectContinue && pipelining && decide (0 < body.length))
      = req.expectContinue := by
    cases hflag : req.expectContinue with
    | false => rfl
    | true =>
      obtain ⟨hpipelining, hbody⟩ := h.expectation hflag
      simp [hpipelining, hbody]
  rw [(buildPreEncodedHeaderPrefix_spec hpre).1, lastBytes_eq, hexpect, firstBytes, h.encoding]
  simp only [firstLines, hostLine, portSuffix_agrees h.port, List.append_assoc]

/-- If the heads have the same length, then the two ways agree. -/
theorem agrees_of_length
    (hpre : c.client.buildPreEncodedHeaderPrefix req c.host c.port c.tls = some pre)
    (hflag : compressed = true → req.compressed = true)
    (hroom : (c.lastBytes req (givenBody pipelining req body).length).length ≤ 128)
    (heq : (pre ++ tailBytes (givenBody pipelining req body).length).length
      = (c.firstBytes req compressed ++ req.header.written
          ++ c.lastBytes req (givenBody pipelining req body).length).length) :
    c.Agrees pipelining req body compressed := by
  obtain ⟨n, -, hn⟩ :=
    length_firstLines req c.client.cfg c.host c.port (c.client.isForwardProxy c.tls)
  rw [(buildPreEncodedHeaderPrefix_spec hpre).1, lastBytes_eq, firstBytes] at heq
  simp only [List.length_append, hn, length_expectLines] at heq
  obtain ⟨hle, hge, hport⟩ := portSuffix_bounds c.port c.tls c.client.cfg.useTLS
  obtain ⟨k, hk, hencoding⟩ := excess hflag 24
  have hexpects : (req.expectContinue && pipelining && decide (0 < body.length)) = true →
      req.expectContinue = true := by
    simp only [Bool.and_eq_true, and_imp]
    exact fun h _ _ => h
  obtain ⟨k', hk', hexpectation⟩ := excess hexpects 22
  -- a line that is missing on one side weighs more than the port
  have hk0 : k = 0 := by omega
  have hk'0 : k' = 0 := by omega
  refine ⟨hport (by omega), hencoding hk0, ?_, hroom⟩
  intro hexpect
  have hboth := hexpectation hk'0
  rw [hexpect] at hboth
  simpa using hboth

/-- The prefix is not empty, and then the first part is not too long either. -/
theorem prefix_bounds
    (hpre : c.client.buildPreEncodedHeaderPrefix req c.host c.port c.tls = some pre)
    (hflag : compressed = true → req.compressed = true) :
    pre ≠ [] ∧ (c.firstBytes req compressed).length ≤ 16 * 1024 := by
  obtain ⟨heq, hlong⟩ := buildPreEncodedHeaderPrefix_spec hpre
  obtain ⟨n, hpos, hn⟩ :=
    length_firstLines req c.client.cfg c.host c.port (c.client.isForwardProxy c.tls)
  have hlen := congrArg List.length heq
  simp only [List.length_append, hn] at hlen
  obtain ⟨hle, hge, -⟩ := portSuffix_bounds c.port c.tls c.client.cfg.useTLS
  obtain ⟨k, hk, -⟩ := excess hflag 24
  constructor
  · exact List.length_pos_iff.mp (by omega)
  · rw [firstBytes, hn]
    omega

end

/-- **When a prefix changes nothing.**  Sending a request with the prefix that was built for its
connection writes the bytes that sending it without a prefix writes exactly if nothing is
written, or the two ways agree. -/
theorem prefixed_eq_plain_iff (c : Sender) (buf buf' : WriteBuf) (pipelining continued : Bool)
    (req : Outgoing) {pre : Bytes}
    (hpre : c.client.buildPreEncodedHeaderPrefix req c.host c.port c.tls = some pre) :
    c.send buf pipelining continued { req with preEncodedHeaderPrefix := pre }
        = c.send buf' pipelining continued { req with preEncodedHeaderPrefix := [] }
      ↔ ∀ body compressed,
          prepareBody c.client.maxReqSize c.client.compressor req.toRequest = .ok (body, compressed) →
          (!pipelining && req.resp.isNone) = false → c.Agrees pipelining req body compressed := by
  rcases hbody : prepareBody c.client.maxReqSize c.client.compressor req.toRequest with
    e | ⟨body, compressed⟩
  · simp [send, hbody]
  rcases hresp : (!pipelining && req.resp.isNone) with _ | _
  swap
  · simp [send, hbody, hresp]
  have hflag := prepareBody_compressed hbody
  obtain ⟨hne, hfits⟩ := prefix_bounds hpre hflag
  have hsent : c.send buf pipelining continued { req with preEncodedHeaderPrefix := pre }
      = pre ++ tailBytes (givenBody pipelining req body).length
        ++ bodyBytes pipelining continued req body :=
    send_prefixed { req with preEncodedHeaderPrefix := pre } hbody hresp hne
  have hplain : c.send buf' pipelining continued { req with preEncodedHeaderPrefix := [] } = _ :=
    send_plain { req with preEncodedHeaderPrefix := [] } hbody hresp rfl
  change _ = if 16 * 1024 < (c.firstBytes req compressed).length then []
    else if 128 < (c.lastBytes req (givenBody pipelining req body).length).length then []
    else c.firstBytes req compressed ++ req.header.written
      ++ c.lastBytes req (givenBody pipelining req body).length
      ++ bodyBytes pipelining continued req body at hplain
  rw [hsent, hplain, if_neg (by omega)]
  constructor
  · intro heq body' compressed' hok _
    cases hok
    by_cases hroom : 128 < (c.lastBytes req (givenBody pipelining req body).length).length
    · -- nothing is written without the prefix
      rw [if_pos hroom, List.append_assoc] at heq
      exact absurd (List.append_eq_nil_iff.mp heq).1 hne
    · rw [if_neg hroom] at heq
      exact agrees_of_length hpre hflag (by omega)
        (congrArg List.length (List.append_cancel_right heq))
  · intro hagrees
    have h := hagrees body compressed rfl rfl
    have hroom := h.room
    rw [if_neg (by omega), h.head_eq hpre]

/-- A request with two headers and a body. -/
def taggedPost : Outgoing :=
  Outgoing.setHeaders { getPath (ascii "/") with method := ascii "POST", body := ascii "data" }
    [(ascii "X-Tag", ascii "a"), (ascii "Accept", ascii "text/plain")]

theorem prefixed_eq_plain_iff_taggedPost :
    taggedPost.header.written = ascii "X-Tag: a\r\nAccept: text/plain\r\n"
      ∧ ∃ pre, plainSender.client.buildPreEncodedHeaderPrefix taggedPost plainSender.host
          plainSender.port plainSender.tls = some pre
        ∧ plainSender.send freshBuf true false { taggedPost with preEncodedHeaderPrefix := pre }
          = plainSender.send freshBuf true false { taggedPost with preEncodedHeaderPrefix := [] } := by
  refine ⟨by decide +kernel, ?_⟩
  obtain ⟨pre, hpre⟩ : ∃ pre, plainSender.client.buildPreEncodedHeaderPrefix taggedPost
      plainSender.host plainSender.port plainSender.tls = some pre :=
    buildPreEncodedHeaderPrefix_of_le (by decide +kernel)
  refine ⟨pre, hpre, (prefixed_eq_plain_iff plainSender freshBuf freshBuf true false taggedPost
    hpre).mpr fun body compressed hbody _ => ?_⟩
  -- headers do not change the other fields
  obtain ⟨header, hframe⟩ : ∃ header, taggedPost = { getPath (ascii "/") with
      method := ascii "POST", body := ascii "data", header := header } := setHeaders_frame _ _
  have hdata : prepareBody plainSender.client.maxReqSize plainSender.client.compressor
      taggedPost.toRequest = .ok (ascii "data", false) := by
    rw [hframe]
    rfl
  rw [hdata] at hbody
  cases hbody
  refine ⟨.inl rfl, ?_, ?_, by decide +kernel⟩
  · rw [hframe]
    rfl
  · rw [hframe]
    exact fun h => by cases h

/-- A request whose body is to be compressed. -/
def compressedPost : Outgoing :=
  { getPath (ascii "/") with method := ascii "POST", body := ascii "data", compressed := true }

/-- Without a compressor, the prefix announces what the body is not. -/
theorem prefixed_announces_gzip :
    ∃ pre, plainSender.client.buildPreEncodedHeaderPrefix compressedPost plainSender.host
        plainSender.port plainSender.tls = some pre
      ∧ plainSender.send freshBuf true false { compressedPost with preEncodedHeaderPrefix := pre }
        = ascii "POST / HTTP/1.1\r\nHost: example.com:8080\r\nConnection: keep-alive\r\n"
          ++ ascii "Content-Encoding: gzip\r\nContent-Length: 4\r\n\r\ndata"
      ∧ plainSender.send freshBuf true false { compressedPost with preEncodedHeaderPrefix := [] }
        = ascii "POST / HTTP/1.1\r\nHost: example.com:8080\r\nConnection: keep-alive\r\n"
          ++ ascii "Content-Length: 4\r\n\r\ndata" := by
  obtain ⟨pre, hpre⟩ : ∃ pre, plainSender.client.buildPreEncodedHeaderPrefix compressedPost
      plainSender.host plainSender.port plainSender.tls = some pre :=
    buildPreEncodedHeaderPrefix_of_le (by decide +kernel)
  have hbody : prepareBody plainSender.client.maxReqSize plainSender.client.compressor
      compressedPost.toRequest = .ok (ascii "data", false) := rfl
  obtain ⟨hne, -⟩ := prefix_bounds hpre (prepareBody_compressed hbody)
  refine ⟨pre, hpre, ?_, ?_⟩
  · refine (send_prefixed { compressedPost with preEncodedHeaderPrefix := pre } hbody rfl hne).trans ?_
    rw [(buildPreEncodedHeaderPrefix_spec hpre).1]
    decide +kernel
  · refine (send_plain compressedPost hbody rfl rfl).trans ?_
    decide +kernel

end Sender

end BurstHttp
