/-
The number behind `Content-Length`.

`parseContentLength` looks for the text of the field name and reads the digits behind
it into an `int`.  Nothing keeps the sum from leaving the range of an `int`, so what it
returns is the number modulo 2^64.

* `parseContentLength_append`, `parseContentLength_at` — the scan: it reads behind the
  first place at which the text stands;
* `contentLengthValue_digits` — the digit loop, on digits that go on to the end of the
  line;
* `contentLength_exact_iff` — when the number that is read is the number that is written;
* `contentLength_wraps` — two that are not.
-/
import BurstHttp.ReadHead
import BurstHttp.Lib.Decimal

namespace BurstHttp

/-- The field name as the scan looks for it. -/
def lengthKey : Bytes := ascii "content-length:"

/-! ### Where the text stands -/

theorem hasKey_short {key l : Bytes} (h : l.length < key.length) : hasKey key l = false := by
  have hle : ¬ key.length ≤ l.length := by omega
  simp [hasKey, hle]

/-- A letter and its capital are the bytes with one lower case. -/
theorem lower_eq {b c : UInt8} (h : lower b = c) : b = c ∨ b + 32 = c := by
  unfold lower at h
  split at h
  · exact Or.inr h
  · exact Or.inl h

/-- A match begins with the first letter, in either case. -/
theorem hasKey_first {b c : UInt8} {key l : Bytes} (h : hasKey (c :: key) (b :: l) = true) :
    b = c ∨ b = c - 32 := by
  have hlower : lower b = c := by
    simp only [hasKey, Bool.and_eq_true, beq_iff_eq] at h
    exact (List.cons.inj h.2).1
  rcases lower_eq hlower with hb | hb
  · exact Or.inl hb
  · exact Or.inr (by rw [← hb, UInt8.add_sub_cancel])

theorem parseContentLength_short {l : Bytes} (h : l.length < 15) :
    parseContentLength l = (0, false) := by
  rcases l with _ | ⟨b, l⟩
  · rfl
  · rw [parseContentLength, if_neg]
    show ¬ 15 ≤ _
    omega

/-- The scan goes on where the text does not stand. -/
theorem parseContentLength_skip {b : UInt8} {l : Bytes} (h : hasKey lengthKey (b :: l) = false) :
    parseContentLength (b :: l) = parseContentLength l := by
  by_cases hlen : (ascii "content-length:").length ≤ (b :: l).length
  · rw [parseContentLength, if_pos hlen, if_neg]
    rw [show ascii "content-length:" = lengthKey from rfl, h, Bool.and_false]
    exact Bool.false_ne_true
  · rw [parseContentLength, if_neg hlen, parseContentLength_short]
    change ¬ 15 ≤ (b :: l).length at hlen
    rw [List.length_cons] at hlen
    omega

/-- Where it stands, the digits behind it are read. -/
theorem parseContentLength_at {l : Bytes} (h : hasKey lengthKey l = true) :
    parseContentLength l = contentLengthValue ((l.drop 15).dropWhile isBlank) 0 0 := by
  have hlen : (ascii "content-length:").length ≤ l.length := by
    by_contra hshort
    have hnot : hasKey lengthKey l = false := hasKey_short (not_le.mp hshort)
    exact Bool.false_ne_true (hnot.symm.trans h)
  rcases l with _ | ⟨b, l⟩
  · exact absurd hlen (by decide)
  · rw [parseContentLength, if_pos hlen, if_pos]
    · rfl
    · have hfirst : (b == 99 || b == 67) = true := by
        rcases hasKey_first h with rfl | rfl
        · rfl
        · rfl
      rw [hfirst]
      exact h

/-- So the first place at which it stands decides. -/
theorem parseContentLength_append {pre l : Bytes}
    (h : ∀ i < pre.length, hasKey lengthKey ((pre ++ l).drop i) = false) :
    parseContentLength (pre ++ l) = parseContentLength l := by
  induction pre with
  | nil => rfl
  | cons b pre ih =>
    have hfirst : hasKey lengthKey (b :: (pre ++ l)) = false := h 0 (by simp)
    rw [List.cons_append, parseContentLength_skip hfirst, ih]
    intro i hi
    exact h (i + 1) (by rw [List.length_cons]; omega)

/-! ### The digits -/

theorem wrap64_step (x d : ℤ) : wrap64 (wrap64 x * 10 + d) = wrap64 (x * 10 + d) := by
  unfold wrap64
  rw [← Int.bmod_add_bmod, Int.bmod_mul_bmod, Int.bmod_add_bmod]

theorem isDigit_sub {b : UInt8} (h : isDigit b = true) : (b - 48).toNat = b.toNat - 48 := by
  simp only [isDigit, Bool.and_eq_true, decide_eq_true_eq] at h
  exact UInt8.toNat_sub_of_le _ _ h.1

/-- The digit loop, on digits that go on to the end of the line.  The accumulator only has to be
right modulo 2^64. -/
theorem contentLengthValue_digits {d : Bytes} (h : ∀ b ∈ d, isDigit b = true) (v n : ℕ)
    (rest : Bytes) :
    contentLengthValue (d ++ CR :: rest) (wrap64 v) n
      = (wrap64 (d.foldl (fun v b => 10 * v + (b.toNat - 48)) v : ℕ),
          decide (0 < n + d.length)) := by
  induction d generalizing v n with
  | nil => rfl
  | cons b d ih =>
    have hb := h b List.mem_cons_self
    have hstep : wrap64 (wrap64 v * 10 + (b - 48).toNat)
        = wrap64 ((10 * v + (b.toNat - 48) : ℕ) : ℤ) := by
      rw [wrap64_step, isDigit_sub hb]
      congr 1
      omega
    have hcount : n + 1 + d.length = n + (d.length + 1) := by omega
    rw [List.cons_append, contentLengthValue, if_pos hb, hstep,
      ih (fun c hc => h c (List.mem_cons_of_mem b hc)), List.foldl_cons, List.length_cons, hcount]

/-! ### One line with a number -/

/-- A header block with the line `Content-Length: d` behind `pre`, and the field name nowhere
else. -/
structure LengthLine (head pre d post : Bytes) : Prop where
  eq : head = pre ++ (ascii "Content-Length: " ++ d ++ CR :: LF :: post)
  once : ∀ i, hasKey lengthKey (head.drop i) = true → i = pre.length
  ne_nil : d ≠ []
  digits : ∀ b ∈ d, isDigit b = true

/-- The number is read exactly, or refused where an `int` cannot hold it. -/
def ReadExactly (head d : Bytes) : Prop :=
  if Decimal.value d < 2 ^ 63 then parseContentLength head = ((Decimal.value d : ℤ), true)
  else (parseContentLength head).2 = false

/-- Where the number decides about the body, it is what both parsers slice the body buffer with,
and the slice is within the buffer that `ensureBufferSize` has made.  With a limit up to
`Response.safeSize`, for which `make` does not panic either, neither parser does. -/
def SlicesExactly (head d : Bytes) : Prop :=
  ∀ (method : Bytes) (status : ℕ) (length : ℤ), framing method head = .sized status length →
    length = Decimal.value d ∧
    (∀ resp : Response, (resp.ensureBufferSize length).1 = true →
      0 ≤ length ∧ length ≤ (resp.ensureBufferSize length).2.bodyBuf.length ∧
      (length ≤ Response.safeSize → ((resp.ensureBufferSize length).2.bodyBuf.length : ℤ)
        ≤ max (resp.bodyBuf.length : ℤ) (2 * Response.safeSize))) ∧
    ∀ (gunzip : Bytes → Gunzip) (rest : Bytes) (r : Reader) (bufLen : ℕ) (resp : Response)
      (maxBody : ℤ) (headerReadSize bodyReadSize : ℕ), r.flat = head ++ rest →
      0 < headerReadSize → 0 < maxBody → maxBody ≤ Response.safeSize →
      (readResponse r bufLen resp maxBody method headerReadSize bodyReadSize).1.1 ≠ .panic ∧
      (readResponseBuffered gunzip bufLen resp maxBody method r).1.1 ≠ .panic

section

variable {head pre d post : Bytes} (h : LengthLine head pre d post)
include h

/-- What is read is the number that is written, modulo 2^64. -/
theorem LengthLine.parse : parseContentLength head = (wrap64 (Decimal.value d), true) := by
  have hbefore : ∀ i < pre.length,
      hasKey lengthKey ((pre ++ (ascii "Content-Length: " ++ d ++ CR :: LF :: post)).drop i)
        = false := by
    intro i hi
    rw [← h.eq]
    refine Bool.eq_false_iff.mpr fun hkey => ?_
    have := h.once i hkey
    omega
  have hkey : hasKey lengthKey (ascii "Content-Length: " ++ d ++ CR :: LF :: post) = true := by
    rw [List.append_assoc, hasKey, List.take_append_of_le_length (by decide), List.length_append]
    simp only [Bool.and_eq_true, decide_eq_true_eq]
    refine ⟨?_, by decide⟩
    have hlen : lengthKey.length ≤ (ascii "Content-Length: ").length := by decide
    omega
  -- one blank stands between the colon and the digits, and no digit is a blank
  have hblank : (((ascii "Content-Length: " ++ d ++ CR :: LF :: post).drop 15).dropWhile isBlank)
      = d ++ CR :: LF :: post := by
    obtain ⟨c, d', rfl⟩ := List.exists_cons_of_ne_nil h.ne_nil
    have hc : isBlank c = false := by
      have hdigit := h.digits c List.mem_cons_self
      refine Bool.eq_false_iff.mpr fun hblank => ?_
      simp only [isBlank, Bool.or_eq_true, beq_iff_eq] at hblank
      rcases hblank with rfl | rfl
      · exact absurd hdigit (by decide)
      · exact absurd hdigit (by decide)
    show (SP :: c :: (d' ++ CR :: LF :: post)).dropWhile isBlank = _
    rw [List.dropWhile_cons_of_pos (by decide), List.dropWhile_cons_of_neg (by simp [hc])]
    rfl
  have hdigits := contentLengthValue_digits h.digits 0 0 (LF :: post)
  have hpos : decide (0 < 0 + d.length) = true := by
    have := List.length_pos_iff.mpr h.ne_nil
    simpa using this
  rw [h.eq, parseContentLength_append hbefore, parseContentLength_at hkey, hblank]
  rw [hpos] at hdigits
  exact hdigits

end

/-! ### Slices -/

theorem decompressBody_ne_panic (gunzip : Bytes → Gunzip) (resp : Response) :
    (decompressBody gunzip resp).1 ≠ .panic := by
  unfold decompressBody
  split
  · simp
  split
  · simp
  rcases gunzip resp.body with e | e | data
  · simp
  · simp
  · simp

theorem readSized_ne_panic {length : ℤ} (h : 0 ≤ length) (r : Reader) (leftover : Bytes)
    (resp : Response) (bodyReadSize : ℕ) :
    (readSized r leftover resp length bodyReadSize).1.1 ≠ .panic := by
  unfold readSized
  split
  · simp
  rcases resp.ensureBufferSize length with ⟨_ | _, resp'⟩
  · simp
  dsimp only
  rw [if_neg (by omega)]
  split
  · simp
  · simp

theorem readSizedBuffered_ne_panic (gunzip : Bytes → Gunzip) {length : ℤ} (h : 0 ≤ length)
    (resp : Response) (br : Reader) :
    (readSizedBuffered gunzip resp length br).1.1 ≠ .panic := by
  unfold readSizedBuffered
  split
  · simp
  rcases resp.ensureBufferSize length with ⟨_ | _, resp'⟩
  · simp
  dsimp only
  rw [if_neg (by omega)]
  split
  · simp
  · exact decompressBody_ne_panic gunzip _

/-- With a length that is not negative neither parser panics. -/
theorem sized_ne_panic {head : Bytes} (hhead : headEnd head = some head.length) {method : Bytes}
    {status : ℕ} {length : ℤ} (hframe : framing method head = .sized status length)
    (hlength : 0 ≤ length) (gunzip : Bytes → Gunzip) {rest : Bytes} {r : Reader} (bufLen : ℕ)
    (resp : Response) (maxBody : ℤ) {headerReadSize : ℕ} (bodyReadSize : ℕ)
    (hr : r.flat = head ++ rest) (hsize : 0 < headerReadSize) :
    (readResponse r bufLen resp maxBody method headerReadSize bodyReadSize).1.1 ≠ .panic ∧
      (readResponseBuffered gunzip bufLen resp maxBody method r).1.1 ≠ .panic := by
  rcases hat : headAt bufLen r.flat with _ | ⟨head', rest'⟩
  · obtain ⟨e, r', hread⟩ := readResponse_noHead hat resp maxBody method headerReadSize bodyReadSize
    obtain ⟨e', br', hread'⟩ := readResponseBuffered_noHead hat gunzip resp maxBody method
    rw [hread, hread']
    exact ⟨by simp, by simp⟩
  · -- the header block of the stream is the given one
    obtain rfl : head' = head := by
      obtain ⟨hend, -, heq⟩ := headAt_eq_some.mp hat
      rw [hr] at hend heq
      rw [headEnd_append hhead, Option.some_inj] at hend
      exact (List.append_inj heq hend).1.symm
    obtain ⟨leftover, r', hread, -, -, -⟩ :=
      readResponse_head hat resp maxBody method hsize bodyReadSize
    obtain ⟨br', hread', -, -, -⟩ := readResponseBuffered_head hat gunzip resp maxBody method
    rw [hread, hread', readBody, readBodyBuffered, hframe]
    dsimp only
    constructor
    · split
      · simp
      · exact readSized_ne_panic hlength r' leftover _ bodyReadSize
    · split
      · simp
      · exact readSizedBuffered_ne_panic gunzip hlength _ br'

/-- **Content-Length is read exactly below 2^63, and only there.**  A header block has one line
with a number.  The number is read exactly or refused, and the parsers slice the body buffer with
nothing else, if and only if it is less than 2^63. -/
theorem contentLength_exact_iff {head pre d post : Bytes} (hhead : headEnd head = some head.length)
    (h : LengthLine head pre d post) :
    ReadExactly head d ∧ SlicesExactly head d ↔ Decimal.value d < 2 ^ 63 := by
  have hparse := h.parse
  constructor
  · rintro ⟨hread, -⟩
    by_contra hbig
    -- the digits were all digits, so the scan reports a length
    rw [ReadExactly, if_neg hbig, hparse] at hread
    exact Bool.false_ne_true hread.symm
  · intro hsmall
    have hwrap : wrap64 (Decimal.value d) = Decimal.value d := wrap64_eq (by omega) (by omega)
    rw [hwrap] at hparse
    refine ⟨by rw [ReadExactly, if_pos hsmall, hparse], ?_⟩
    intro method status length hframe
    obtain rfl : length = Decimal.value d := by
      unfold framing at hframe
      dsimp only at hframe
      rw [hparse] at hframe
      split_ifs at hframe
      simp only [Framing.sized.injEq] at hframe
      exact hframe.2.symm
    refine ⟨rfl, fun resp hyes => ⟨by omega, resp.ensureBufferSize_le _ hyes,
      resp.ensureBufferSize_length_le⟩, ?_⟩
    intro gunzip rest r bufLen resp maxBody headerReadSize bodyReadSize hr hsize _ _
    exact sized_ne_panic hhead hframe (by omega) gunzip bufLen resp maxBody bodyReadSize hr hsize

/-- A response that declares a body of `d` bytes. -/
def declaring (d : Bytes) : Bytes :=
  ascii "HTTP/1.1 200 OK\r\nContent-Length: " ++ d ++ ascii "\r\n\r\n"

theorem contentLength_exact_five :
    ReadExactly (declaring (ascii "5")) (ascii "5") ∧
      SlicesExactly (declaring (ascii "5")) (ascii "5") := by
  have hline : LengthLine (declaring (ascii "5")) (ascii "HTTP/1.1 200 OK\r\n") (ascii "5")
      (ascii "\r\n") := by
    refine ⟨by decide +kernel, ?_, by decide, by decide +kernel⟩
    intro i hi
    by_contra hne
    have hsome : ∀ i < 40, hasKey lengthKey ((declaring (ascii "5")).drop i) = true → i = 17 := by
      decide +kernel
    by_cases hlt : i < 40
    · exact hne (hsome i hlt hi)
    · rw [List.drop_eq_nil_of_le (by rw [show (declaring (ascii "5")).length = 38 from rfl]; omega)] at hi
      exact absurd hi (by decide)
  exact (contentLength_exact_iff (by decide +kernel) hline).mpr (by decide)

/-- 2^64 + 2 is read as 2; 2^63 is read as a negative number, with which both parsers slice the
body buffer. -/
theorem contentLength_wraps :
    parseContentLength (declaring (ascii "18446744073709551618")) = (2, true) ∧
    parseContentLength (declaring (ascii "9223372036854775808")) = (-2 ^ 63, true) ∧
    (readResponse (.ofSegs [declaring (ascii "9223372036854775808")] .eof) 128
      ⟨0, 0, [], [], [], 0, []⟩ 10 (ascii "GET") 128 128).1.1 = .panic ∧
    (readResponseBuffered (fun _ => .data []) 128 ⟨0, 0, [], [], [], 0, []⟩ 10 (ascii "GET")
      (.ofSegs [declaring (ascii "9223372036854775808")] .eof)).1.1 = .panic := by
  decide +kernel

end BurstHttp
