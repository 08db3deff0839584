/-
The status line of a header block (parser.go, `parseStatusCode`).

The two loops of `parseStatusCode` look for blanks and do not know where the first line
ends; behind the three digits it looks at nothing.

* `IsStatusLine` — the grammar of a status line, and `isStatusLine_iff` — the same as a
  test of the line;
* `parseStatusCode_line` — when the line has a blank behind `HTTP/`, the code is read
  off the line alone;
* `status_line_iff` — the blocks on which `parseStatusCode` reads the grammar;
* `status_line_in_header` — a block whose code comes out of a header field.
-/
import BurstHttp.FramingFields

namespace BurstHttp

/-! ### The grammar -/

/-- What stands before the first CRLF. -/
def firstLine (head : Bytes) : Bytes := ((cutCRLF head).getD ([], [])).1

/-- `HTTP/` and a version, blanks, three digits that make a code from 100 to 599, and then
a blank or nothing more.  A version is anything without a blank in it. -/
structure IsStatusLine (line : Bytes) (code : ℕ) : Prop where
  parts : ∃ version blanks digits rest,
    line = ascii "HTTP/" ++ version ++ blanks ++ digits ++ rest ∧
    (version ≠ [] ∧ ∀ b ∈ version, isBlank b = false) ∧
    (blanks ≠ [] ∧ ∀ b ∈ blanks, isBlank b = true) ∧
    (digits.length = 3 ∧ (∀ b ∈ digits, isDigit b = true) ∧ Decimal.value digits = code) ∧
    rest.head?.all isBlank = true
  range : 100 ≤ code ∧ code ≤ 599

/-- `parseStatusCode` does what the grammar says of the first line, and the lines behind
it have no influence. -/
def ReadsStatusLine (head : Bytes) : Prop :=
  (∀ code, parseStatusCode head = (code, true) ↔ IsStatusLine (firstLine head) code) ∧
  ∀ head', crlf2 <:+ head' → firstLine head' = firstLine head →
    parseStatusCode head' = parseStatusCode head

/-! ### What is read -/

/-- What stands behind `HTTP/`, the version and the blanks. -/
def statusText (line : Bytes) : Bytes :=
  ((line.drop 5).dropWhile fun b => !isBlank b).dropWhile isBlank

/-- The code at the front of a text, and whether it is acceptable. -/
def codeOf : Bytes → ℕ × Bool
  | a :: b :: c :: _ =>
    if a < 49 || 57 < a || !isDigit b || !isDigit c then (0, false)
    else
      let code := (a - 48).toNat * 100 + (b - 48).toNat * 10 + (c - 48).toNat
      (code, 100 ≤ code && code < 600)
  | _ => (0, false)

theorem parseStatusCode_eq (buf : Bytes) :
    parseStatusCode buf
      = if buf.length < 12 then (0, false)
        else if buf.take 5 ≠ ascii "HTTP/" then (0, false)
        else codeOf (statusText buf) := by
  unfold parseStatusCode codeOf statusText
  split_ifs
  · rfl
  · rfl
  · rfl

theorem codeOf_short {l : Bytes} (h : l.length < 3) : codeOf l = (0, false) := by
  rcases l with _ | ⟨a, _ | ⟨b, _ | ⟨c, l⟩⟩⟩
  · rfl
  · rfl
  · rfl
  · simp at h
    omega

/-- A line end is no digit: the code is not read over it. -/
theorem codeOf_append (l m : Bytes) : codeOf (l ++ CR :: m) = codeOf l := by
  have hcr : isDigit CR = false := by decide
  rcases l with _ | ⟨a, _ | ⟨b, _ | ⟨c, l⟩⟩⟩
  · rcases m with _ | ⟨x, _ | ⟨y, m⟩⟩ <;> rfl
  · rcases m with _ | ⟨x, m⟩
    · rfl
    · simp [codeOf, hcr]
  · simp [codeOf, hcr]
  · rfl

theorem isDigit_iff {b : UInt8} : isDigit b = true ↔ 48 ≤ b.toNat ∧ b.toNat ≤ 57 := by
  simp only [isDigit, Bool.and_eq_true, decide_eq_true_eq, UInt8.le_iff_toNat_le]
  rfl

theorem digit_toNat {b : UInt8} (h : 48 ≤ b.toNat) : (b - 48).toNat = b.toNat - 48 :=
  UInt8.toNat_sub_of_le _ _ (UInt8.le_iff_toNat_le.mpr h)

/-- The code that is read is the number that three digits make. -/
theorem codeOf_iff {l : Bytes} {code : ℕ} :
    codeOf l = (code, true) ↔
      ∃ a b c rest, l = a :: b :: c :: rest ∧ (∀ d ∈ [a, b, c], isDigit d = true) ∧
        Decimal.value [a, b, c] = code ∧ 100 ≤ code ∧ code ≤ 599 := by
  rcases l with _ | ⟨a, _ | ⟨b, _ | ⟨c, rest⟩⟩⟩
  · simp [codeOf]
  · simp [codeOf]
  · simp [codeOf]
  have hvalue : Decimal.value [a, b, c]
      = (a.toNat - 48) * 100 + (b.toNat - 48) * 10 + (c.toNat - 48) := by
    simp only [Decimal.value, List.foldl_cons, List.foldl_nil]
    omega
  have h49 : a < 49 ↔ a.toNat < 49 := UInt8.lt_iff_toNat_lt
  have h57 : 57 < a ↔ 57 < a.toNat := UInt8.lt_iff_toNat_lt
  constructor
  · intro h
    rw [codeOf] at h
    split at h
    · exact absurd h (by simp)
    · rename_i hdigits
      simp only [Bool.or_eq_true, decide_eq_true_eq, Bool.not_eq_true', not_or, Bool.not_eq_false,
        h49, h57, isDigit_iff] at hdigits
      obtain ⟨⟨⟨ha, ha'⟩, hb⟩, hc⟩ := hdigits
      rw [digit_toNat (by omega), digit_toNat hb.1, digit_toNat hc.1] at h
      simp only [Prod.mk.injEq, Bool.and_eq_true, decide_eq_true_eq] at h
      refine ⟨a, b, c, rest, rfl, ?_, by omega, by omega, by omega⟩
      simp only [List.mem_cons, List.not_mem_nil, or_false, forall_eq_or_imp, forall_eq, isDigit_iff]
      omega
  · rintro ⟨a', b', c', rest', hl, hdigits, hcode, hrange⟩
    obtain ⟨rfl, rfl, rfl, rfl⟩ : a = a' ∧ b = b' ∧ c = c' ∧ rest = rest' := by simpa using hl
    simp only [List.mem_cons, List.not_mem_nil, or_false, forall_eq_or_imp, forall_eq,
      isDigit_iff] at hdigits
    have hno : ¬ (a < 49 || 57 < a || !isDigit b || !isDigit c) = true := by
      simp only [Bool.or_eq_true, decide_eq_true_eq, Bool.not_eq_true', ← Bool.not_eq_true, h49, h57,
        isDigit_iff]
      omega
    rw [codeOf, if_neg hno, digit_toNat hdigits.1.1, digit_toNat hdigits.2.1.1,
      digit_toNat hdigits.2.2.1, ← hvalue, hcode]
    simp only [Prod.mk.injEq, Bool.and_eq_true, decide_eq_true_eq, true_and]
    omega

/-! ### The line as a test -/

theorem digit_not_blank {b : UInt8} (h : isDigit b = true) : isBlank b = false := by
  rw [isDigit_iff] at h
  simp only [isBlank, Bool.or_eq_false_iff, beq_eq_false_iff_ne, ne_eq, ← UInt8.toNat_inj]
  constructor
  · exact fun hb => absurd (hb ▸ h.1) (by decide)
  · exact fun hb => absurd (hb ▸ h.1) (by decide)

/-- A version stands behind `HTTP/`. -/
def hasVersion (line : Bytes) : Bool := (line.drop 5).head?.any fun b => !isBlank b

/-- The code is followed by a blank or by the end of the line. -/
def codeEnds (line : Bytes) : Bool := ((statusText line).drop 3).head?.all isBlank

theorem isStatusLine_iff {line : Bytes} {code : ℕ} :
    IsStatusLine line code ↔
      ascii "HTTP/" <+: line ∧ hasVersion line = true ∧ codeOf (statusText line) = (code, true) ∧
        codeEnds line = true := by
  constructor
  · rintro ⟨⟨version, blanks, digits, rest, rfl, ⟨hversion, hvis⟩, ⟨hblanks, hblank⟩,
      ⟨hlen, hdigits, hvalue⟩, hrest⟩, hrange⟩
    obtain ⟨a, b, c, rfl⟩ : ∃ a b c, digits = [a, b, c] := by
      obtain ⟨a, b, c, h⟩ := List.length_eq_three.mp hlen
      exact ⟨a, b, c, h⟩
    obtain ⟨v, version, rfl⟩ := List.exists_cons_of_ne_nil hversion
    obtain ⟨s, blanks, rfl⟩ := List.exists_cons_of_ne_nil hblanks
    have hdrop : (ascii "HTTP/" ++ (v :: version) ++ (s :: blanks) ++ [a, b, c] ++ rest).drop 5
        = (v :: version) ++ ((s :: blanks) ++ ([a, b, c] ++ rest)) := by
      rw [show (5 : ℕ) = (ascii "HTTP/").length from rfl]
      simp only [List.append_assoc, List.drop_left]
    have htext : statusText (ascii "HTTP/" ++ (v :: version) ++ (s :: blanks) ++ [a, b, c] ++ rest)
        = a :: b :: c :: rest := by
      rw [statusText, hdrop, List.dropWhile_append_of_pos (by simpa using hvis),
        List.cons_append, List.dropWhile_cons_of_neg (by simp [hblank s (by simp)]),
        ← List.cons_append, List.dropWhile_append_of_pos hblank]
      exact List.dropWhile_cons_of_neg (by simp [digit_not_blank (hdigits a (by simp))])
    refine ⟨?_, ?_, ?_, ?_⟩
    · simp only [List.append_assoc]
      exact List.prefix_append _ _
    · rw [hasVersion, hdrop]
      simpa using hvis v (by simp)
    · rw [htext]
      exact codeOf_iff.mpr ⟨a, b, c, rest, rfl, hdigits, hvalue, hrange⟩
    · rw [codeEnds, htext]
      exact hrest
  · rintro ⟨⟨l, rfl⟩, hversion, hcode, hends⟩
    obtain ⟨a, b, c, rest, htext, hdigits, hvalue, hrange⟩ := codeOf_iff.mp hcode
    have hdrop : (ascii "HTTP/" ++ l).drop 5 = l := List.drop_left' rfl
    rw [hasVersion, hdrop] at hversion
    rw [codeEnds, htext] at hends
    rw [statusText, hdrop] at htext
    -- the line falls into the parts that the two loops skip, and what is left
    have hsplit : l = l.takeWhile (fun b => !isBlank b)
        ++ ((l.dropWhile fun b => !isBlank b).takeWhile isBlank ++ a :: b :: c :: rest) := by
      rw [← htext, List.takeWhile_append_dropWhile, List.takeWhile_append_dropWhile]
    refine ⟨⟨l.takeWhile (fun b => !isBlank b), (l.dropWhile fun b => !isBlank b).takeWhile isBlank,
      [a, b, c], rest, ?_, ⟨?_, ?_⟩, ⟨?_, ?_⟩, ⟨rfl, hdigits, hvalue⟩, hends⟩, hrange⟩
    · conv_lhs => rw [hsplit]
      simp
    · rcases l with _ | ⟨v, l⟩
      · exact absurd hversion (by simp)
      · rw [List.takeWhile_cons_of_pos (by simpa using hversion)]
        simp
    · intro b hb
      simpa using List.mem_takeWhile_imp hb
    · -- the first loop stops at a blank
      intro hnil
      rcases hl : l.dropWhile (fun b => !isBlank b) with _ | ⟨s, l'⟩
      · rw [hl] at htext
        exact absurd htext (by simp)
      · have hs : isBlank s = true := by
          have := List.head_dropWhile_not (fun b => !isBlank b) (by rw [hl]; simp : l.dropWhile (fun b => !isBlank b) ≠ [])
          simpa [hl] using this
        rw [hl, List.takeWhile_cons_of_pos hs] at hnil
        exact absurd hnil (by simp)
    · exact fun b hb => List.mem_takeWhile_imp hb

/-! ### The line in its block -/

theorem cutCRLF_clean {l line rest : Bytes} (h : cutCRLF l = some (line, rest)) :
    ¬ [CR, LF] <:+: line := by
  rintro ⟨x, y, hline⟩
  have hat : [CR, LF] <+: l.drop x.length := by
    rw [cutCRLF_eq h, ← hline]
    simp only [List.append_assoc, List.drop_left]
    exact List.prefix_append _ _
  obtain ⟨line', rest', hcut, hle⟩ := cutCRLF_first hat
  rw [h, Option.some_inj, Prod.mk.injEq] at hcut
  have hlen := congrArg List.length hline
  rw [hcut.1] at hlen
  simp only [List.length_append, List.length_cons, List.length_nil] at hlen
  omega

/-- A block that ends in two CRLF has its first line before the first. -/
theorem cutCRLF_firstLine {head : Bytes} (h : crlf2 <:+ head) :
    ∃ rest, cutCRLF head = some (firstLine head, rest) ∧ 2 ≤ rest.length := by
  obtain ⟨front, rfl⟩ := h
  have hat : [CR, LF] <+: (front ++ crlf2).drop front.length := by
    rw [List.drop_left]
    exact List.prefix_append [CR, LF] [CR, LF]
  obtain ⟨line, rest, hcut, hle⟩ := cutCRLF_first hat
  have hlen := congrArg List.length (cutCRLF_eq hcut)
  simp only [crlf2, List.length_append, List.length_cons, List.length_nil] at hlen
  refine ⟨rest, ?_, by omega⟩
  rw [firstLine, hcut]
  rfl

/-- A line without `HTTP/` is refused. -/
theorem parseStatusCode_other {head : Bytes} (h : crlf2 <:+ head)
    (hhttp : ¬ ascii "HTTP/" <+: firstLine head) : parseStatusCode head = (0, false) := by
  obtain ⟨rest, hcut, -⟩ := cutCRLF_firstLine h
  have hhead := cutCRLF_eq hcut
  generalize firstLine head = line at hhead hhttp
  have htake : head.take 5 ≠ ascii "HTTP/" := by
    intro htake
    rcases Nat.lt_or_ge line.length 5 with hlt | hge
    · -- the line end would be one of the five bytes
      have hcr : CR ∈ head.take 5 := by
        rw [hhead, List.take_append, List.take_of_length_le hlt.le]
        obtain ⟨k, hk⟩ : ∃ k, 5 - line.length = k + 1 := ⟨4 - line.length, by omega⟩
        rw [hk, List.take_succ_cons]
        simp
      rw [htake] at hcr
      exact absurd hcr (by decide)
    · rw [hhead, List.take_append_of_le_length hge] at htake
      exact hhttp (htake ▸ List.take_prefix 5 line)
  rw [parseStatusCode_eq]
  split_ifs
  · rfl
  · rfl

/-- A blank behind `HTTP/` keeps the loops in the line. -/
theorem statusText_append {line : Bytes} (h5 : 5 ≤ line.length)
    (hblank : ∃ b ∈ line.drop 5, isBlank b = true) (m : Bytes) :
    statusText (line ++ CR :: m) = statusText line ++ CR :: m := by
  have hstop : (line.drop 5).dropWhile (fun b => !isBlank b) ≠ [] := by
    obtain ⟨b, hb, hblank⟩ := hblank
    intro hnil
    have := List.dropWhile_eq_nil_iff.mp hnil b hb
    simp [hblank] at this
  rw [statusText, List.drop_append_of_le_length h5, List.dropWhile_append, if_neg (by simpa using hstop),
    dropBlank_append]
  rfl

/-- With a blank behind `HTTP/` the code is read off the line. -/
theorem parseStatusCode_line {head : Bytes} (h : crlf2 <:+ head)
    (hhttp : ascii "HTTP/" <+: firstLine head)
    (hblank : ∃ b ∈ (firstLine head).drop 5, isBlank b = true) :
    parseStatusCode head = codeOf (statusText (firstLine head)) := by
  obtain ⟨rest, hcut, hrest⟩ := cutCRLF_firstLine h
  have hhead := cutCRLF_eq hcut
  generalize firstLine head = line at hhead hhttp hblank
  have h5 : 5 ≤ line.length := hhttp.length_le
  have htake : head.take 5 = ascii "HTTP/" := by
    rw [hhead, List.take_append_of_le_length h5]
    exact (List.prefix_iff_eq_take.mp hhttp).symm
  have htext : codeOf (statusText head) = codeOf (statusText line) := by
    rw [hhead, statusText_append h5 hblank, codeOf_append]
  rw [parseStatusCode_eq, htext, if_neg (not_not.mpr htake)]
  split
  · -- too short for three digits
    rename_i hshort
    rw [hhead] at hshort
    simp only [List.length_append, List.length_cons] at hshort
    refine (codeOf_short ?_).symm
    have h1 := (List.dropWhile_suffix (fun b => !isBlank b) (l := line.drop 5)).length_le
    have h2 := (List.dropWhile_suffix isBlank
      (l := (line.drop 5).dropWhile fun b => !isBlank b)).length_le
    rw [List.length_drop] at h1
    rw [statusText]
    omega
  · rfl

theorem blank_of_statusText {line : Bytes} (h : statusText line ≠ []) :
    ∃ b ∈ line.drop 5, isBlank b = true := by
  by_contra hno
  refine h ?_
  have hall : (line.drop 5).dropWhile (fun b => !isBlank b) = [] := by
    refine List.dropWhile_eq_nil_iff.mpr fun b hb => ?_
    simpa using fun hb' => hno ⟨b, hb, hb'⟩
  rw [statusText, hall]
  rfl

/-- Without one, the code is read out of the next line. -/
theorem parseStatusCode_next {line : Bytes} (hhttp : ascii "HTTP/" <+: line)
    (hno : ¬ ∃ b ∈ line.drop 5, isBlank b = true) :
    parseStatusCode (line ++ [CR, LF] ++ ascii " 100" ++ crlf2) = (100, true) := by
  have h5 : 5 ≤ line.length := hhttp.length_le
  have hcrlf : ∀ b ∈ [CR, LF], (!isBlank b) = true := by decide +kernel
  have hall : (line.drop 5 ++ [CR, LF]).dropWhile (fun b => !isBlank b) = [] := by
    refine List.dropWhile_eq_nil_iff.mpr fun b hb => ?_
    rcases List.mem_append.mp hb with hb | hb
    · simpa using fun hb' => hno ⟨b, hb, hb'⟩
    · exact hcrlf b hb
  have htext : statusText (line ++ [CR, LF] ++ ascii " 100" ++ crlf2) = ascii "100" ++ crlf2 := by
    rw [statusText, List.append_assoc, List.append_assoc, List.drop_append_of_le_length h5,
      ← List.append_assoc (line.drop 5), List.dropWhile_append, hall]
    decide
  rw [parseStatusCode_eq, htext, if_neg (by simp [ascii, crlf2]; omega), if_neg]
  · decide
  · rw [not_not, List.append_assoc, List.append_assoc, List.take_append_of_le_length h5]
    exact (List.prefix_iff_eq_take.mp hhttp).symm

/-! ### The blocks that are read right -/

/-- If the line begins with `HTTP/`, it has a blank behind it; and if a code stands behind
the blanks, a version stands before them, and a blank or the end of the line behind the
code. -/
def DelimitedStatus (line : Bytes) : Prop :=
  ascii "HTTP/" <+: line →
    (∃ b ∈ line.drop 5, isBlank b = true) ∧
      ((codeOf (statusText line)).2 = true → hasVersion line = true ∧ codeEnds line = true)

instance (line : Bytes) : Decidable (DelimitedStatus line) :=
  inferInstanceAs (Decidable (_ → _ ∧ (_ → _ ∧ _)))

/-- `parseStatusCode` reads the status line of a block, and nothing else, exactly if the
parts of the line are delimited. -/
theorem status_line_iff {head : Bytes} (h : crlf2 <:+ head) :
    ReadsStatusLine head ↔ DelimitedStatus (firstLine head) := by
  by_cases hhttp : ascii "HTTP/" <+: firstLine head
  case neg =>
    have hnone : ∀ code, ¬ IsStatusLine (firstLine head) code := fun code hline =>
      hhttp (isStatusLine_iff.mp hline).1
    refine iff_of_true ⟨fun code => iff_of_false ?_ (hnone code), ?_⟩ fun hhttp' => absurd hhttp' hhttp
    · rw [parseStatusCode_other h hhttp]
      simp
    · intro head' h' hsame
      rw [parseStatusCode_other h hhttp, parseStatusCode_other h' (hsame ▸ hhttp)]
  by_cases hblank : ∃ b ∈ (firstLine head).drop 5, isBlank b = true
  case neg =>
    -- a block with the same line and another next line is read otherwise
    refine iff_of_false ?_ fun hdel => hblank (hdel hhttp).1
    rintro ⟨hgrammar, hsame⟩
    obtain ⟨rest, hcut, -⟩ := cutCRLF_firstLine h
    have hnext : firstLine (firstLine head ++ [CR, LF] ++ ascii " 100" ++ crlf2) = firstLine head := by
      conv_lhs => rw [firstLine]
      rw [List.append_assoc, cutCRLF_line (cutCRLF_clean hcut)]
      rfl
    have hread := hsame _ (List.suffix_append _ _) hnext
    rw [parseStatusCode_next hhttp hblank] at hread
    have hcode := (isStatusLine_iff.mp ((hgrammar 100).mp hread.symm)).2.2.1
    refine hblank (blank_of_statusText fun hnil => ?_)
    rw [hnil] at hcode
    exact absurd hcode (by decide)
  have hline := parseStatusCode_line h hhttp hblank
  constructor
  · rintro ⟨hgrammar, -⟩ -
    refine ⟨hblank, fun hcode => ?_⟩
    obtain ⟨-, hversion, -, hends⟩ :=
      isStatusLine_iff.mp ((hgrammar _).mp (hline.trans (Prod.ext rfl hcode)))
    exact ⟨hversion, hends⟩
  · intro hdel
    refine ⟨fun code => ?_, ?_⟩
    · rw [hline, isStatusLine_iff]
      constructor
      · intro hcode
        obtain ⟨hversion, hends⟩ := (hdel hhttp).2 (by rw [hcode])
        exact ⟨hhttp, hversion, hcode, hends⟩
      · exact fun hstatus => hstatus.2.2.1
    · intro head' h' hsame
      rw [hline, parseStatusCode_line h' (hsame ▸ hhttp) (hsame ▸ hblank), hsame]

/-- A usual status line is read right. -/
theorem status_line_iff_ok : ReadsStatusLine (ascii "HTTP/1.1 200 OK\r\n\r\n") :=
  (status_line_iff (by decide +kernel)).mpr (by decide +kernel)

/-- A line that ends behind the version: the code comes out of a header field. -/
theorem status_line_in_header :
    parseStatusCode (ascii "HTTP/1.1\r\nRetry-After: 120\r\n\r\n") = (120, true) ∧
      ¬ ReadsStatusLine (ascii "HTTP/1.1\r\nRetry-After: 120\r\n\r\n") := by
  have hread : parseStatusCode (ascii "HTTP/1.1\r\nRetry-After: 120\r\n\r\n") = (120, true) := by
    decide +kernel
  refine ⟨hread, ?_⟩
  rintro ⟨hgrammar, -⟩
  have hcode := (isStatusLine_iff.mp ((hgrammar 120).mp hread)).2.2.1
  exact absurd hcode (by decide +kernel)

end BurstHttp
