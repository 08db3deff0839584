/-
Whether the head of a request can be split.

A head is a list of lines, each ended by CRLF, and an empty line.  `SetHeader` lets no
CR or LF into its lines, and the lines the client makes itself have none; but nobody
looks at the method, the path and the host.

* `setHeaders_written` — what a sequence of `SetHeader` calls leaves in the buffer of
  the request: the lines of the calls that were accepted, which are clean;
* `headEnd_joinLines` — a head of clean lines ends where its first CRLFCRLF does;
* `head_whole_iff` — which heads are as they should be;
* `head_split` — one that is not.
-/
import BurstHttp.Writer

namespace BurstHttp

/-! ### Clean strings -/

theorem containsCRLF_append (s t : Bytes) :
    containsCRLF (s ++ t) = (containsCRLF s || containsCRLF t) := List.any_append

theorem containsCRLF_eq_false {s : Bytes} :
    containsCRLF s = false ↔ ∀ b ∈ s, b ≠ CR ∧ b ≠ LF := by
  simp [containsCRLF]

theorem digits_clean (n : ℕ) : containsCRLF (Decimal.digits n) = false := by
  rw [containsCRLF_eq_false]
  intro b hb
  have hdigit := Decimal.isDigit_of_mem hb
  constructor
  · rintro rfl
    exact absurd hdigit (by decide)
  · rintro rfl
    exact absurd hdigit (by decide)

theorem portSuffix_clean (defaultPort port : ℤ) :
    containsCRLF (portSuffix defaultPort port) = false := by
  unfold portSuffix
  split
  · rw [← List.singleton_append, containsCRLF_append, digits_clean]
    decide
  · rfl

theorem base64Char_clean (n : ℕ) : base64Char n ≠ CR ∧ base64Char n ≠ LF := by
  have hall : ∀ b ∈ base64Alphabet, b ≠ CR ∧ b ≠ LF := by decide +kernel
  unfold base64Char
  rw [List.getD_eq_getElem?_getD]
  rcases h : base64Alphabet[n]? with _ | b
  · decide
  · exact hall b (List.mem_of_getElem? h)

theorem base64_clean (s : Bytes) : containsCRLF (base64 s) = false := by
  rw [containsCRLF_eq_false]
  have hpad : (61 : UInt8) ≠ CR ∧ (61 : UInt8) ≠ LF := by decide
  fun_induction base64 s with
  | case1 a b c rest ih =>
    intro x hx
    simp only [List.mem_cons] at hx
    rcases hx with rfl | rfl | rfl | rfl | hx
    · exact base64Char_clean _
    · exact base64Char_clean _
    · exact base64Char_clean _
    · exact base64Char_clean _
    · exact ih x hx
  | case2 a b =>
    intro x hx
    simp only [List.mem_cons, List.not_mem_nil, or_false] at hx
    rcases hx with rfl | rfl | rfl | rfl
    · exact base64Char_clean _
    · exact base64Char_clean _
    · exact base64Char_clean _
    · exact hpad
  | case3 a =>
    intro x hx
    simp only [List.mem_cons, List.not_mem_nil, or_false] at hx
    rcases hx with rfl | rfl | rfl | rfl
    · exact base64Char_clean _
    · exact base64Char_clean _
    · exact hpad
    · exact hpad
  | case4 =>
    intro x hx
    cases hx

/-! ### `SetHeader` -/

/-- A sequence of calls of `SetHeader`. -/
def Outgoing.setHeaders (req : Outgoing) : List (Bytes × Bytes) → Outgoing
  | [] => req
  | field :: rest => (req.setHeader field.1 field.2).2.setHeaders rest

/-- The calls that return true. -/
def Outgoing.accepted (req : Outgoing) : List (Bytes × Bytes) → List (Bytes × Bytes)
  | [] => []
  | field :: rest =>
    let x := req.setHeader field.1 field.2
    if x.1 then field :: x.2.accepted rest else x.2.accepted rest

def fieldLine (field : Bytes × Bytes) : Bytes := field.1 ++ ascii ": " ++ field.2

/-- A larger buffer has the same bytes in it. -/
theorem ensureHeaderBufferSize_written {header page : Page UInt8} {required : ℕ}
    (h : ensureHeaderBufferSize header required = some page) : page.written = header.written := by
  unfold ensureHeaderBufferSize at h
  by_cases hroom : required ≤ header.buf.length
  · rw [if_pos hroom] at h
    cases h
    rfl
  rw [if_neg hroom] at h
  dsimp only at h
  -- whatever the new size is
  generalize (_ : ℕ) ⊓ (1024 * 1024) = newSize at h
  by_cases hlarge : newSize < required
  · rw [if_pos hlarge] at h
    cases h
  · rw [if_neg hlarge] at h
    rw [Page.written_of_put h, Page.written_blank, List.nil_append]

/-- What one call does: nothing, or it adds a clean line. -/
theorem setHeader_cases (req : Outgoing) (field : Bytes × Bytes) :
    (req.setHeader field.1 field.2 = (false, req)) ∨
    ∃ header, req.setHeader field.1 field.2 = (true, { req with header := header })
      ∧ header.written = req.header.written ++ joinLines [fieldLine field]
      ∧ containsCRLF (fieldLine field) = false := by
  unfold Outgoing.setHeader
  by_cases hbad : (containsCRLF field.1 || containsCRLF field.2) = true
  · rw [if_pos hbad]
    exact .inl rfl
  rw [if_neg hbad]
  dsimp only
  split
  · exact .inl rfl
  · rename_i header hheader
    obtain ⟨page, hpage, hput⟩ := Option.bind_eq_some_iff.mp hheader
    have hsame := ensureHeaderBufferSize_written hpage
    have hsep : containsCRLF (ascii ": ") = false := by decide
    refine .inr ⟨header, rfl, ?_, ?_⟩
    · rw [Page.written_of_put hput, hsame]
      simp [fieldLine]
    · simp only [Bool.or_eq_true, not_or, Bool.not_eq_true] at hbad
      rw [fieldLine, containsCRLF_append, containsCRLF_append, hbad.1, hbad.2, hsep]
      rfl

theorem setHeaders_written (req : Outgoing) (calls : List (Bytes × Bytes)) :
    (req.setHeaders calls).header.written
      = req.header.written ++ joinLines ((req.accepted calls).map fieldLine) := by
  induction calls generalizing req with
  | nil => simp [Outgoing.setHeaders, Outgoing.accepted]
  | cons field rest ih =>
    rw [Outgoing.setHeaders, Outgoing.accepted, ih]
    rcases setHeader_cases req field with h | ⟨header, h, hwritten, -⟩
    · simp [h]
    · simp [h, hwritten]

theorem accepted_clean (req : Outgoing) (calls : List (Bytes × Bytes)) :
    ∀ field ∈ req.accepted calls, containsCRLF (fieldLine field) = false := by
  induction calls generalizing req with
  | nil => simp [Outgoing.accepted]
  | cons field rest ih =>
    intro other hother
    rw [Outgoing.accepted] at hother
    rcases setHeader_cases req field with h | ⟨header, h, -, hclean⟩
    · rw [h] at hother
      exact ih req other hother
    · rw [h] at hother
      rcases List.mem_cons.mp hother with rfl | hother
      · exact hclean
      · exact ih _ other hother

/-- `SetHeader` changes nothing else. -/
theorem setHeaders_frame (req : Outgoing) (calls : List (Bytes × Bytes)) :
    ∃ header, req.setHeaders calls = { req with header := header } := by
  induction calls generalizing req with
  | nil => exact ⟨req.header, rfl⟩
  | cons field rest ih =>
    rw [Outgoing.setHeaders]
    obtain ⟨header, h⟩ := ih (req.setHeader field.1 field.2).2
    refine ⟨header, h.trans ?_⟩
    rcases setHeader_cases req field with hone | ⟨_, hone, -, -⟩ <;> rw [hone]

/-! ### The end of a head -/

theorem headEnd_line {line : Bytes} (hclean : containsCRLF line = false) {c : UInt8} (hc : c ≠ CR)
    (rest : Bytes) :
    headEnd (line ++ [CR, LF] ++ c :: rest) = (headEnd (c :: rest)).map (· + (line.length + 2)) := by
  have hne : ∀ {a : UInt8} {l : Bytes}, a ≠ CR → ¬CrlfAt (a :: l) 0 := by
    intro a l ha hat
    exact ha (List.cons_prefix_cons.mp hat).1.symm
  induction line with
  | nil =>
    have hat : ¬CrlfAt (CR :: LF :: c :: rest) 0 := by
      rcases rest with _ | ⟨d, rest⟩
      · exact fun hat => absurd hat.le_length (by simp)
      · exact fun hat => hc (crlfAt_zero.mp hat).2.2.1
    change headEnd (CR :: LF :: c :: rest) = _
    rw [headEnd_cons_of_ne hat, headEnd_cons_of_ne (hne (by decide)), Option.map_map]
    rfl
  | cons a line ih =>
    rw [containsCRLF_eq_false] at hclean ih
    have ha := (hclean a List.mem_cons_self).1
    rw [List.cons_append, List.cons_append, headEnd_cons_of_ne (hne ha),
      ih fun b hb => hclean b (List.mem_cons_of_mem a hb), Option.map_map]
    congr 1

theorem headEnd_lastLine {line : Bytes} (hclean : containsCRLF line = false) :
    headEnd (line ++ [CR, LF] ++ [CR, LF]) = some (line.length + 4) := by
  induction line with
  | nil => rfl
  | cons a line ih =>
    rw [containsCRLF_eq_false] at hclean ih
    have ha : ¬CrlfAt (a :: (line ++ [CR, LF] ++ [CR, LF])) 0 := fun hat =>
      (hclean a List.mem_cons_self).1 (List.cons_prefix_cons.mp hat).1.symm
    rw [List.cons_append, List.cons_append, headEnd_cons_of_ne ha,
      ih fun b hb => hclean b (List.mem_cons_of_mem a hb)]
    rfl

/-- The first empty line behind clean lines that are not empty is the one at the end. -/
theorem headEnd_joinLines {lines : List Bytes} (hne : lines ≠ [])
    (hlines : ∀ line ∈ lines, line ≠ [] ∧ containsCRLF line = false) :
    headEnd (joinLines lines ++ [CR, LF]) = some (joinLines lines ++ [CR, LF]).length := by
  induction lines with
  | nil => exact absurd rfl hne
  | cons line rest ih =>
    have hclean := (hlines line List.mem_cons_self).2
    rcases rest with _ | ⟨next, rest⟩
    · rw [joinLines_cons, joinLines_nil, List.append_nil, headEnd_lastLine hclean]
      simp
    · have hrest := ih (List.cons_ne_nil _ _) fun l hl => hlines l (List.mem_cons_of_mem line hl)
      obtain ⟨hnext, hnextClean⟩ := hlines next (by simp)
      -- the next line begins with a byte that is no CR
      obtain ⟨c, tail, rfl⟩ := List.exists_cons_of_ne_nil hnext
      have hc := (containsCRLF_eq_false.mp hnextClean c List.mem_cons_self).1
      rw [joinLines_cons] at hrest ⊢
      rw [joinLines_cons, List.append_assoc (line ++ [CR, LF])]
      simp only [List.cons_append] at hrest ⊢
      rw [headEnd_line hclean hc, hrest]
      simp only [Option.map_some, List.length_append, List.length_cons, List.length_nil,
        Option.some_inj]
      omega

/-! ### Which heads are whole -/

/-- The line of a `ProxyDialer`, if it has credentials. -/
def ProxyDialer.authLines (d : ProxyDialer) : List Bytes :=
  if d.username ≠ [] ∨ d.password ≠ [] then
    [ascii "Proxy-Authorization: Basic " ++ base64 (d.username ++ [58] ++ d.password)]
  else []

def Client.authLines (c : Client) (useTLS : Bool) : List Bytes :=
  if c.isForwardProxy useTLS then (c.proxyDialer.map ProxyDialer.authLines).getD [] else []

/-- The lines a head should have: the request line, `Host`, `Connection`, `Content-Encoding`,
the fields that `SetHeader` has accepted, `Proxy-Authorization`, `Expect` and
`Content-Length`. -/
def Sender.headLines (c : Sender) (req : Outgoing) (fields : List (Bytes × Bytes)) (body : Bytes)
    (compressed : Bool) : List Bytes :=
  firstLines req c.client.cfg c.host c.port c.client.cfg.useTLS compressed
      (c.client.isForwardProxy c.tls)
    ++ fields.map fieldLine ++ c.client.authLines c.tls
    ++ expectLines (req.expectContinue && decide (0 < body.length)) ++ [lengthLine body.length]

theorem proxyAuthHeader_eq (c : Client) (useTLS : Bool) :
    c.proxyAuthHeader useTLS = joinLines (c.authLines useTLS) := by
  have hend : ascii "\r\n" = [CR, LF] := by decide
  have hone : ∀ d : ProxyDialer, d.authHeader = joinLines d.authLines := by
    intro d
    unfold ProxyDialer.authHeader ProxyDialer.authLines
    split <;> simp [hend]
  unfold Client.proxyAuthHeader Client.authLines
  split
  · cases c.proxyDialer with
    | none => rfl
    | some d => exact hone d
  · rfl

theorem authLines_clean (c : Client) (useTLS : Bool) :
    ∀ line ∈ c.authLines useTLS, line ≠ [] ∧ containsCRLF line = false := by
  have hname : containsCRLF (ascii "Proxy-Authorization: Basic ") = false := by decide
  intro line hline
  unfold Client.authLines at hline
  split at hline
  · cases hd : c.proxyDialer with
    | none => simp [hd] at hline
    | some d =>
      simp only [hd, Option.map_some, Option.getD_some, ProxyDialer.authLines] at hline
      split at hline
      · rw [List.mem_singleton.mp hline]
        refine ⟨List.append_ne_nil_of_left_ne_nil (by decide) _, ?_⟩
        rw [containsCRLF_append, hname, base64_clean]
        rfl
      · cases hline
  · cases hline

/-- What `writeRequest` puts on the wire is made of these lines. -/
theorem writeRequest_head {c : Sender} {buf : WriteBuf} {req : Outgoing}
    {calls : List (Bytes × Bytes)} {body head rest : Bytes} {compressed : Bool}
    (hfresh : req.header.pos = 0) (hplain : req.preEncodedHeaderPrefix = [])
    (h : c.writeRequest buf (req.setHeaders calls) body compressed = .ok (head, rest)) :
    head = joinLines (c.headLines req (req.accepted calls) body compressed) ++ [CR, LF] := by
  have hwritten := setHeaders_written req calls
  have hempty : req.header.written = [] := by
    rw [← List.length_eq_zero_iff, Page.length_written, hfresh]
  obtain ⟨header, hframe⟩ := setHeaders_frame req calls
  rw [hempty, List.nil_append] at hwritten
  rw [hframe] at h hwritten
  rw [Sender.writeRequest_plain c buf { req with header := header } hplain] at h
  split_ifs at h
  cases h
  dsimp only at hwritten ⊢
  rw [hwritten, Sender.firstBytes, Sender.lastBytes, proxyAuthHeader_eq]
  simp [Sender.headLines, firstLines, requestLine, Outgoing.effectiveMethod,
    Outgoing.effectivePath]

theorem requestLine_clean {req : Outgoing} {host : Bytes} {port : ℤ} {forwardProxy : Bool}
    (hmethod : containsCRLF req.effectiveMethod = false)
    (hpath : containsCRLF req.effectivePath = false) (hhost : containsCRLF host = false) :
    requestLine req host port forwardProxy ≠ []
      ∧ containsCRLF (requestLine req host port forwardProxy) = false := by
  have hspace : containsCRLF [SP] = false := by decide
  have hscheme : containsCRLF (ascii "http://") = false := by decide
  have hversion : containsCRLF (ascii " HTTP/1.1") = false := by decide
  have horigin : containsCRLF
      (if forwardProxy then ascii "http://" ++ host ++ portSuffix 80 port else []) = false := by
    cases forwardProxy with
    | false => rfl
    | true => simp only [if_true, containsCRLF_append, hscheme, hhost, portSuffix_clean,
        Bool.or_false]
  constructor
  · exact List.append_ne_nil_of_right_ne_nil _ (by decide)
  · simp only [requestLine, containsCRLF_append, hmethod, hspace, horigin, hpath, hversion,
      Bool.or_false]

theorem hostLine_clean {host : Bytes} {port : ℤ} {useTLS : Bool}
    (hhost : containsCRLF host = false) :
    hostLine host port useTLS ≠ [] ∧ containsCRLF (hostLine host port useTLS) = false := by
  have hname : containsCRLF (ascii "Host: ") = false := by decide
  constructor
  · rw [hostLine, List.append_assoc]
    exact List.append_ne_nil_of_left_ne_nil (by decide) _
  · simp only [hostLine, containsCRLF_append, hname, hhost, portSuffix_clean, Bool.or_false]

theorem fieldLine_ne_nil (field : Bytes × Bytes) : fieldLine field ≠ [] := by
  rw [fieldLine, List.append_assoc]
  exact List.append_ne_nil_of_right_ne_nil _ (List.append_ne_nil_of_left_ne_nil (by decide) _)

theorem lengthLine_clean (n : ℕ) : lengthLine n ≠ [] ∧ containsCRLF (lengthLine n) = false := by
  have hname : containsCRLF (ascii "Content-Length: ") = false := by decide
  constructor
  · exact List.append_ne_nil_of_left_ne_nil (by decide) _
  · rw [lengthLine, containsCRLF_append, hname, digits_clean]
    rfl

theorem connectionLine_clean (cfg : HeadConfig) :
    connectionLine cfg ≠ [] ∧ containsCRLF (connectionLine cfg) = false := by
  unfold connectionLine
  split <;> decide

theorem encodingLines_clean (compressed : Bool) :
    ∀ line ∈ encodingLines compressed, line ≠ [] ∧ containsCRLF line = false := by
  cases compressed <;> decide

theorem expectLines_clean (expects : Bool) :
    ∀ line ∈ expectLines expects, line ≠ [] ∧ containsCRLF line = false := by
  cases expects <;> decide

/-- All lines are clean if the strings that nobody checks are. -/
theorem headLines_clean {c : Sender} {req : Outgoing} {fields : List (Bytes × Bytes)}
    (hmethod : containsCRLF req.effectiveMethod = false)
    (hpath : containsCRLF req.effectivePath = false) (hhost : containsCRLF c.host = false)
    (hfields : ∀ field ∈ fields, containsCRLF (fieldLine field) = false) (body : Bytes)
    (compressed : Bool) :
    ∀ line ∈ c.headLines req fields body compressed, line ≠ [] ∧ containsCRLF line = false := by
  intro line hline
  simp only [Sender.headLines, firstLines, List.mem_append, List.mem_cons, List.not_mem_nil,
    or_false, List.mem_map] at hline
  rcases hline with (((((rfl | rfl | rfl) | hline) | ⟨field, hfield, rfl⟩) | hline) | hline) | rfl
  · exact requestLine_clean hmethod hpath hhost
  · exact hostLine_clean hhost
  · exact connectionLine_clean _
  · exact encodingLines_clean _ line hline
  · exact ⟨fieldLine_ne_nil field, hfields field hfield⟩
  · exact authLines_clean c.client c.tls line hline
  · exact expectLines_clean _ line hline
  · exact lengthLine_clean _

/-- **When a head is whole.**  The head that `writeRequest` puts on the wire, after any calls of
`SetHeader`, consists of the lines it should have, without CR or LF in them, and of an empty
line which is the first one, exactly if there is no CR or LF in the method, the path and the
host. -/
theorem head_whole_iff (c : Sender) (buf : WriteBuf) (req : Outgoing)
    (hfresh : req.header.pos = 0) (hplain : req.preEncodedHeaderPrefix = [])
    (calls : List (Bytes × Bytes)) (body : Bytes) (compressed : Bool) {head rest : Bytes}
    (h : c.writeRequest buf (req.setHeaders calls) body compressed = .ok (head, rest)) :
    (head = joinLines (c.headLines req (req.accepted calls) body compressed) ++ [CR, LF]
        ∧ (∀ line ∈ c.headLines req (req.accepted calls) body compressed, containsCRLF line = false)
        ∧ headEnd head = some head.length)
      ↔ containsCRLF req.effectiveMethod = false ∧ containsCRLF req.effectivePath = false
        ∧ containsCRLF c.host = false := by
  have hhead := writeRequest_head hfresh hplain h
  constructor
  · rintro ⟨-, hclean, -⟩
    have hline := hclean (requestLine req c.host c.port (c.client.isForwardProxy c.tls))
      (by simp [Sender.headLines, firstLines])
    have hhost := hclean (hostLine c.host c.port c.client.cfg.useTLS)
      (by simp [Sender.headLines, firstLines])
    simp only [requestLine, containsCRLF_append, Bool.or_eq_false_iff] at hline
    simp only [hostLine, containsCRLF_append, Bool.or_eq_false_iff] at hhost
    exact ⟨hline.1.1.1.1, hline.1.2, hhost.1.2⟩
  · rintro ⟨hmethod, hpath, hhost⟩
    have hlines := headLines_clean hmethod hpath hhost (accepted_clean req calls) body compressed
    refine ⟨hhead, fun line hline => (hlines line hline).2, ?_⟩
    rw [hhead]
    exact headEnd_joinLines (by simp [Sender.headLines]) hlines

/-- A connection of a client without a proxy. -/
def plainSender : Sender where
  client := ⟨⟨true, false, false⟩, none, 1024, none⟩
  host := ascii "example.com"
  port := 8080
  tls := false

def freshBuf : WriteBuf := ⟨List.replicate (16 * 1024) 0, List.length_replicate⟩

/-- A request with this path and no headers yet. -/
def getPath (path : Bytes) : Outgoing :=
  { getIndex with path := path, header := Page.blank [] }

/-- The second of the two calls is refused. -/
theorem head_whole_iff_getPath :
    ∃ head, plainSender.writeRequest freshBuf ((getPath (ascii "/")).setHeaders
        [(ascii "A", ascii "b"), (ascii "A", ascii "b\r\nB: c")]) [] false = .ok (head, [])
      ∧ ((head = joinLines (plainSender.headLines (getPath (ascii "/")) [(ascii "A", ascii "b")] []
            false) ++ [CR, LF]
          ∧ (∀ line ∈ plainSender.headLines (getPath (ascii "/")) [(ascii "A", ascii "b")] [] false,
              containsCRLF line = false)
          ∧ headEnd head = some head.length)
        ↔ containsCRLF (getPath (ascii "/")).effectiveMethod = false
          ∧ containsCRLF (getPath (ascii "/")).effectivePath = false
          ∧ containsCRLF plainSender.host = false) := by
  have hcalls : (getPath (ascii "/")).accepted
      [(ascii "A", ascii "b"), (ascii "A", ascii "b\r\nB: c")] = [(ascii "A", ascii "b")] := by
    decide +kernel
  have hwrite := Sender.writeRequest_plain plainSender freshBuf
    ((getPath (ascii "/")).setHeaders
      [(ascii "A", ascii "b"), (ascii "A", ascii "b\r\nB: c")]) (by decide +kernel) [] false
  rw [if_neg (by decide +kernel), if_neg (by decide +kernel)] at hwrite
  refine ⟨_, hwrite, ?_⟩
  rw [← hcalls]
  exact head_whole_iff plainSender freshBuf (getPath (ascii "/")) rfl rfl _ [] false hwrite

/-- A path with line ends in it makes two requests of one. -/
theorem head_split :
    ∃ head, plainSender.writeRequest freshBuf
        (getPath (ascii "/ HTTP/1.1\r\n\r\nGET /admin")) [] false = .ok (head, [])
      ∧ headEnd head = some 18 ∧ head.length = 108 := by
  have hwrite := Sender.writeRequest_plain plainSender freshBuf
    (getPath (ascii "/ HTTP/1.1\r\n\r\nGET /admin")) rfl [] false
  rw [if_neg (by decide +kernel), if_neg (by decide +kernel)] at hwrite
  exact ⟨_, hwrite, by decide +kernel, by decide +kernel⟩

end BurstHttp
