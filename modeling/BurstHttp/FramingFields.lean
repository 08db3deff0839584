/-
Framing by header text and framing by header fields.

The two framing scans look for the text of a field name anywhere in the header block;
`parseHeaders` cuts the block into lines and the lines at their colons.  A header block
is a status line and header lines here, and the scans are described line by line:

* `parseTransferEncoding_text` — chunked, if some line, the status line included, has
  the text with `chunked` behind it;
* `parseContentLength_text` — the number behind the text in the first line that has it;
* `headerList_text` — the header fields, one for a line;
* `framing_by_fields` — when the two views of a block agree;
* `framing_by_text` — a block on which they do not.
-/
import BurstHttp.ContentLength
import BurstHttp.Writer
import Mathlib.Data.List.Infix

namespace BurstHttp

/-! ### Text in a list of bytes -/

/-- The field name as the scan looks for it. -/
def codingKey : Bytes := ascii "transfer-encoding:"

/-- What is left of the line. -/
def lineTail (l : Bytes) : Bytes := l.takeWhile fun ch => !isEol ch

/-- The text of the field name, with `chunked` behind it on the line. -/
def chunkedAt (l : Bytes) : Bool :=
  hasKey codingKey l && containsChunked (lineTail (l.drop codingKey.length))

/-- That, somewhere. -/
def declaresChunked (l : Bytes) : Bool := l.tails.any chunkedAt

/-- What stands behind the first place of a text. -/
def behind (key : Bytes) : Bytes → Option Bytes
  | [] => none
  | b :: rest => if hasKey key (b :: rest) then some ((b :: rest).drop key.length) else behind key rest

theorem containsChunked_eq (l : Bytes) : containsChunked l = l.tails.any (hasKey (ascii "chunked")) := by
  induction l with
  | nil => rfl
  | cons b l ih => rw [containsChunked, ih, List.tails_cons, List.any_cons]

theorem containsChunked_suffix {s l : Bytes} (hs : s <:+ l) (h : containsChunked s = true) :
    containsChunked l = true := by
  rw [containsChunked_eq, List.any_eq_true] at h ⊢
  obtain ⟨t, ht, hkey⟩ := h
  rw [List.mem_tails] at ht
  exact ⟨t, by rw [List.mem_tails]; exact ht.trans hs, hkey⟩

/-- A text does not go on over a byte that is not in it. -/
theorem hasKey_append {key x m : Bytes} {c : UInt8} (hc : c ∉ key) (hlower : lower c = c) :
    hasKey key (x ++ c :: m) = hasKey key x := by
  by_cases hlen : key.length ≤ x.length
  · simp only [hasKey, List.take_append_of_le_length hlen, List.length_append]
    congr 1
    simp only [decide_eq_decide]
    omega
  · rw [hasKey_short (not_le.mp hlen)]
    refine Bool.eq_false_iff.mpr fun h => hc ?_
    simp only [hasKey, Bool.and_eq_true, beq_iff_eq] at h
    rw [← h.2]
    refine List.mem_map.mpr ⟨c, ?_, hlower⟩
    obtain ⟨k, hk⟩ : ∃ k, key.length - x.length = k + 1 :=
      ⟨key.length - x.length - 1, by omega⟩
    rw [List.take_append, hk, List.take_succ_cons]
    exact List.mem_append_right _ List.mem_cons_self

theorem hasKey_cons_of_not_mem {key m : Bytes} {c : UInt8} (hkey : key ≠ []) (hc : c ∉ key)
    (hlower : lower c = c) : hasKey key (c :: m) = false := by
  rw [← List.nil_append (c :: m), hasKey_append hc hlower]
  exact hasKey_short (List.length_pos_iff.mpr hkey)

theorem lineTail_cons (a : UInt8) (l : Bytes) :
    lineTail (a :: l) = if isEol a then [] else a :: lineTail l := by
  rw [lineTail, List.takeWhile_cons]
  cases isEol a <;> rfl

theorem lineTail_append {x m : Bytes} {c : UInt8} (hc : isEol c = true) :
    lineTail (x ++ c :: m) = lineTail x := by
  induction x with
  | nil => rw [List.nil_append, lineTail_cons, if_pos hc, lineTail, List.takeWhile_nil]
  | cons a x ih => rw [List.cons_append, lineTail_cons, lineTail_cons, ih]

theorem length_of_hasKey {key l : Bytes} (h : hasKey key l = true) : key.length ≤ l.length := by
  by_contra hlen
  rw [hasKey_short (not_le.mp hlen)] at h
  exact Bool.false_ne_true h

/-- The end of a line is in no field name. -/
theorem eol_clean {c : UInt8} (hc : isEol c = true) :
    c ∉ codingKey ∧ c ∉ lengthKey ∧ lower c = c := by
  simp only [isEol, Bool.or_eq_true, beq_iff_eq] at hc
  rcases hc with rfl | rfl
  · decide
  · decide

/-- So a line can be looked at without what follows it. -/
theorem chunkedAt_append (x m : Bytes) {c : UInt8} (hc : isEol c = true) :
    chunkedAt (x ++ c :: m) = chunkedAt x := by
  obtain ⟨hmem, -, hlower⟩ := eol_clean hc
  unfold chunkedAt
  rw [hasKey_append hmem hlower]
  cases hx : hasKey codingKey x with
  | false => rfl
  | true => rw [List.drop_append_of_le_length (length_of_hasKey hx), lineTail_append hc]

theorem chunkedAt_eol (m : Bytes) {c : UInt8} (hc : isEol c = true) : chunkedAt (c :: m) = false := by
  rw [← List.nil_append (c :: m), chunkedAt_append [] m hc]
  rfl

/-! ### The scan for `Transfer-Encoding` -/

theorem isEol_of_isBlank {a : UInt8} (ha : isBlank a = true) : isEol a = false := by
  simp only [isBlank, Bool.or_eq_true, beq_iff_eq] at ha
  rcases ha with rfl | rfl <;> decide

theorem lineTail_dropBlank (l : Bytes) :
    lineTail (l.dropWhile isBlank) = (lineTail l).dropWhile isBlank := by
  induction l with
  | nil => rfl
  | cons a l ih =>
    cases ha : isBlank a with
    | true =>
      rw [lineTail_cons, isEol_of_isBlank ha, List.dropWhile_cons_of_pos ha, ih]
      simp [ha]
    | false =>
      rw [List.dropWhile_cons_of_neg (by simp [ha]), lineTail_cons]
      split
      · rfl
      · rw [List.dropWhile_cons_of_neg (by simp [ha])]

/-- Blanks in front do not hide `chunked`. -/
theorem containsChunked_dropBlank (l : Bytes) :
    containsChunked (l.dropWhile isBlank) = containsChunked l := by
  induction l with
  | nil => rfl
  | cons a l ih =>
    cases ha : isBlank a with
    | true =>
      have hkey : hasKey (ascii "chunked") (a :: l) = false := by
        simp only [isBlank, Bool.or_eq_true, beq_iff_eq] at ha
        rcases ha with rfl | rfl
        · exact hasKey_cons_of_not_mem (by decide) (by decide) (by decide)
        · exact hasKey_cons_of_not_mem (by decide) (by decide) (by decide)
      rw [List.dropWhile_cons_of_pos ha, ih, containsChunked, hkey, Bool.false_or]
    | false => rw [List.dropWhile_cons_of_neg (by simp [ha])]

/-- A match that begins in a line and its key has what is behind it in the rest of the line. -/
theorem chunkedAt_inLine {key seg x : Bytes} (hkey : key.length = codingKey.length)
    (hseg : ∀ b ∈ seg, isEol b = false) (hx : x <:+ key ++ seg) (hat : chunkedAt x = true) :
    containsChunked seg = true := by
  have hsuffix : x.drop codingKey.length <:+ seg := by
    refine List.suffix_of_suffix_length_le ((List.drop_suffix _ x).trans hx)
      (List.suffix_append key seg) ?_
    have hlen := hx.length_le
    rw [List.length_append] at hlen
    rw [List.length_drop]
    omega
  have hline : lineTail (x.drop codingKey.length) = x.drop codingKey.length := by
    refine List.takeWhile_eq_self_iff.mpr fun b hb => ?_
    rw [hseg b (hsuffix.subset hb)]
    rfl
  have hchunked := (Bool.and_eq_true_iff.mp hat).2
  rw [hline] at hchunked
  exact containsChunked_suffix hsuffix hchunked

/-- What the scan skips behind a field without the token: nothing in it declares the body
chunked. -/
theorem chunkedAt_skipped {l s : Bytes} (hl : codingKey.length ≤ l.length)
    (hnone : containsChunked (lineTail (l.drop codingKey.length)) = false) (hs : s <:+ l)
    (hat : chunkedAt s = true) :
    s <:+ ((l.drop codingKey.length).dropWhile fun ch => !isEol ch).drop 1 := by
  -- `l` is the key, the rest of its line, and what begins with the end of the line
  have hkey : (l.take codingKey.length).length = codingKey.length := by
    rw [List.length_take, min_eq_left hl]
  have hseg : ∀ b ∈ lineTail (l.drop codingKey.length), isEol b = false := by
    intro b hb
    have := List.mem_takeWhile_imp hb
    simpa using this
  have hsplit : l = (l.take codingKey.length ++ lineTail (l.drop codingKey.length))
      ++ (l.drop codingKey.length).dropWhile (fun ch => !isEol ch) := by
    rw [List.append_assoc, lineTail, List.takeWhile_append_dropWhile, List.take_append_drop]
  have hstop : ∀ c rest, (l.drop codingKey.length).dropWhile (fun ch => !isEol ch) = c :: rest →
      isEol c = true := by
    intro c rest hrest
    have := List.head?_dropWhile_not (fun ch => !isEol ch) (l.drop codingKey.length)
    rw [hrest] at this
    simpa using this
  generalize (l.drop codingKey.length).dropWhile (fun ch => !isEol ch) = rest at hsplit hstop ⊢
  rw [hsplit] at hs
  rcases rest with _ | ⟨c, rest⟩
  · rw [List.append_nil] at hs
    rw [chunkedAt_inLine hkey hseg hs hat] at hnone
    exact absurd hnone (by simp)
  · have hc := hstop c rest rfl
    rcases List.suffix_or_suffix_of_suffix hs (List.suffix_append _ (c :: rest)) with hin | hin
    · rcases List.suffix_cons_iff.mp hin with rfl | hin
      · rw [chunkedAt_eol rest hc] at hat
        exact absurd hat (by simp)
      · exact hin
    · -- it would begin in the line
      obtain ⟨x, rfl⟩ := hin
      obtain ⟨t, ht⟩ := hs
      rw [← List.append_assoc] at ht
      rw [chunkedAt_append x rest hc] at hat
      rw [chunkedAt_inLine hkey hseg ⟨t, List.append_cancel_right ht⟩ hat] at hnone
      exact absurd hnone (by simp)

theorem dropWhile_eol_dropBlank (l : Bytes) :
    (l.dropWhile isBlank).dropWhile (fun ch => !isEol ch) = l.dropWhile fun ch => !isEol ch := by
  induction l with
  | nil => rfl
  | cons a l ih =>
    cases ha : isBlank a with
    | true =>
      rw [List.dropWhile_cons_of_pos ha, ih, List.dropWhile_cons]
      simp [isEol_of_isBlank ha]
    | false => rw [List.dropWhile_cons_of_neg (by simp [ha])]

theorem declaresChunked_cons (b : UInt8) (l : Bytes) :
    declaresChunked (b :: l) = (chunkedAt (b :: l) || declaresChunked l) := by
  rw [declaresChunked, List.tails_cons, List.any_cons, declaresChunked]

theorem declaresChunked_iff {l : Bytes} :
    declaresChunked l = true ↔ ∃ s, s <:+ l ∧ chunkedAt s = true := by
  simp only [declaresChunked, List.any_eq_true, List.mem_tails]

/-- The scan finds what there is. -/
theorem parseTransferEncoding_eq (l : Bytes) : parseTransferEncoding l = declaresChunked l := by
  fun_induction parseTransferEncoding l with
  | case1 => rfl
  | case2 b rest hlen hmatch start hchunked =>
    have hkey : hasKey codingKey (b :: rest) = true := (Bool.and_eq_true_iff.mp hmatch).2
    have htail : containsChunked (lineTail ((b :: rest).drop codingKey.length)) = true := by
      rw [← containsChunked_dropBlank, ← lineTail_dropBlank]
      exact hchunked
    rw [declaresChunked_cons, chunkedAt, hkey, htail]
    rfl
  | case3 b rest hlen hmatch start hchunked ih =>
    have htail : containsChunked (lineTail ((b :: rest).drop codingKey.length)) = false := by
      rw [← containsChunked_dropBlank, ← lineTail_dropBlank]
      exact Bool.eq_false_iff.mpr hchunked
    have hskip : (start.dropWhile fun ch => !isEol ch).drop 1
        = (((b :: rest).drop codingKey.length).dropWhile fun ch => !isEol ch).drop 1 :=
      congrArg (List.drop 1) (dropWhile_eol_dropBlank _)
    rw [ih, Bool.eq_iff_iff, declaresChunked_iff, declaresChunked_iff, hskip]
    constructor
    · rintro ⟨s, hs, hat⟩
      refine ⟨s, hs.trans ?_, hat⟩
      exact ((List.drop_suffix _ _).trans (List.dropWhile_suffix _)).trans (List.drop_suffix _ _)
    · rintro ⟨s, hs, hat⟩
      exact ⟨s, chunkedAt_skipped hlen htail hs hat, hat⟩
  | case4 b rest hlen hmatch ih =>
    have hkey : hasKey codingKey (b :: rest) = false := by
      refine Bool.eq_false_iff.mpr fun hkey => hmatch (Bool.and_eq_true_iff.mpr ⟨?_, hkey⟩)
      rcases hasKey_first hkey with rfl | rfl
      · rfl
      · rfl
    rw [declaresChunked_cons, chunkedAt, hkey, ih]
    rfl
  | case5 b rest hlen =>
    symm
    refine Bool.eq_false_iff.mpr fun hdeclares => hlen ?_
    obtain ⟨s, hs, hat⟩ := declaresChunked_iff.mp hdeclares
    exact (length_of_hasKey (Bool.and_eq_true_iff.mp hat).1).trans hs.length_le

/-! ### Header blocks -/

/-- A header block: the status line and the header lines.  No line has a CRLF in it, and an
empty line ends the block. -/
structure HeaderBlock where
  statusLine : Bytes
  lines : List Bytes
  whole : ∀ line ∈ statusLine :: lines, ¬ [CR, LF] <:+: line
  ne_nil : ∀ line ∈ lines, line ≠ []

/-- The bytes of the block. -/
def HeaderBlock.text (b : HeaderBlock) : Bytes :=
  joinLines (b.statusLine :: b.lines) ++ [CR, LF]

theorem declaresChunked_line (line m : Bytes) :
    declaresChunked (line ++ [CR, LF] ++ m) = (declaresChunked line || declaresChunked m) := by
  induction line with
  | nil =>
    show declaresChunked (CR :: LF :: m) = _
    rw [declaresChunked_cons, declaresChunked_cons, chunkedAt_eol _ (by decide),
      chunkedAt_eol _ (by decide)]
    rfl
  | cons a line ih =>
    have hat : chunkedAt (a :: (line ++ [CR, LF] ++ m)) = chunkedAt (a :: line) := by
      rw [show a :: (line ++ [CR, LF] ++ m) = (a :: line) ++ CR :: LF :: m by simp]
      exact chunkedAt_append (a :: line) (LF :: m) (by decide)
    rw [List.cons_append, List.cons_append, declaresChunked_cons, declaresChunked_cons, ih, hat,
      Bool.or_assoc]

theorem declaresChunked_joinLines (lines : List Bytes) (m : Bytes) :
    declaresChunked (joinLines lines ++ m) = (lines.any declaresChunked || declaresChunked m) := by
  induction lines with
  | nil => rfl
  | cons line lines ih =>
    rw [joinLines_cons, List.append_assoc, declaresChunked_line, ih, List.any_cons, Bool.or_assoc]

/-- The scan for `Transfer-Encoding`, line by line: the status line counts. -/
theorem parseTransferEncoding_text (b : HeaderBlock) :
    parseTransferEncoding b.text = (b.statusLine :: b.lines).any declaresChunked := by
  rw [parseTransferEncoding_eq, HeaderBlock.text, declaresChunked_joinLines,
    show declaresChunked [CR, LF] = false by decide, Bool.or_false]

/-! ### The scan for `Content-Length` -/

/-- The number in what stands behind the text, if it stands anywhere. -/
def readLength : Option Bytes → ℤ × Bool
  | none => (0, false)
  | some x => contentLengthValue (x.dropWhile isBlank) 0 0

theorem parseContentLength_eq (l : Bytes) :
    parseContentLength l = readLength (behind lengthKey l) := by
  induction l with
  | nil => rfl
  | cons b l ih =>
    rw [behind]
    cases hkey : hasKey lengthKey (b :: l) with
    | true => exact parseContentLength_at hkey
    | false =>
      rw [parseContentLength_skip hkey, ih]
      rfl

/-- The first line with the text decides. -/
theorem behind_line (line m : Bytes) :
    behind lengthKey (line ++ [CR, LF] ++ m)
      = ((behind lengthKey line).map (· ++ CR :: LF :: m)).or (behind lengthKey m) := by
  induction line with
  | nil =>
    have heol : ∀ c : UInt8, isEol c = true → ∀ m, hasKey lengthKey (c :: m) = false := by
      intro c hc m
      obtain ⟨-, hmem, hlower⟩ := eol_clean hc
      exact hasKey_cons_of_not_mem (by decide) hmem hlower
    show behind lengthKey (CR :: LF :: m) = behind lengthKey m
    rw [behind, heol CR (by decide), behind, heol LF (by decide)]
    rfl
  | cons a line ih =>
    have hsplit : a :: (line ++ [CR, LF] ++ m) = (a :: line) ++ CR :: LF :: m := by simp
    obtain ⟨-, hmem, hlower⟩ := eol_clean (show isEol CR = true by decide)
    have hkey : hasKey lengthKey (a :: (line ++ [CR, LF] ++ m)) = hasKey lengthKey (a :: line) := by
      rw [hsplit]
      exact hasKey_append hmem hlower
    rw [List.cons_append, List.cons_append, behind, behind, hkey]
    cases hx : hasKey lengthKey (a :: line) with
    | false => exact ih
    | true =>
      rw [if_pos rfl, if_pos rfl, hsplit, List.drop_append_of_le_length (length_of_hasKey hx)]
      rfl

theorem contentLengthValue_append (x m : Bytes) (length : ℤ) (digits : ℕ) :
    contentLengthValue (x ++ CR :: m) length digits = contentLengthValue x length digits := by
  induction x generalizing length digits with
  | nil => rfl
  | cons a x ih =>
    rw [List.cons_append, contentLengthValue, contentLengthValue, ih, ih]

theorem dropBlank_append (x m : Bytes) :
    (x ++ CR :: m).dropWhile isBlank = x.dropWhile isBlank ++ CR :: m := by
  induction x with
  | nil => rfl
  | cons a x ih =>
    rw [List.cons_append, List.dropWhile_cons, List.dropWhile_cons, ih]
    split <;> rfl

theorem behind_joinLines (lines : List Bytes) :
    readLength (behind lengthKey (joinLines lines ++ [CR, LF]))
      = readLength (lines.findSome? (behind lengthKey)) := by
  induction lines with
  | nil => rfl
  | cons line lines ih =>
    rw [joinLines_cons, List.append_assoc, behind_line, List.findSome?_cons]
    cases behind lengthKey line with
    | none => exact ih
    | some x =>
      show contentLengthValue ((x ++ CR :: LF :: _).dropWhile isBlank) 0 0 = contentLengthValue _ 0 0
      rw [dropBlank_append, contentLengthValue_append]

/-- The scan for `Content-Length`, line by line: the first line that has the text, the status
line included. -/
theorem parseContentLength_text (b : HeaderBlock) :
    parseContentLength b.text
      = readLength ((b.statusLine :: b.lines).findSome? (behind lengthKey)) := by
  rw [parseContentLength_eq, HeaderBlock.text, behind_joinLines]

/-! ### The header fields -/

theorem cutCRLF_line {line : Bytes} (h : ¬ [CR, LF] <:+: line) (m : Bytes) :
    cutCRLF (line ++ [CR, LF] ++ m) = some (line, m) := by
  induction line with
  | nil => rfl
  | cons a line ih =>
    have hrest : ¬ [CR, LF] <:+: line := fun hin => h (hin.trans (List.infix_cons List.infix_rfl))
    have hih := ih hrest
    -- the first two bytes are no CRLF: it would be in the line, or begin with its last byte
    obtain ⟨c, l, hl⟩ : ∃ c l, line ++ [CR, LF] ++ m = c :: l :=
      List.exists_cons_of_ne_nil (by simp)
    have hne : ¬ (a = CR ∧ c = LF) := by
      rintro ⟨rfl, rfl⟩
      rcases line with _ | ⟨d, line⟩
      · exact absurd (List.cons.inj hl).1 (by decide)
      · obtain rfl : d = LF := (List.cons.inj hl).1
        exact h ⟨[], line, rfl⟩
    rw [List.cons_append, List.cons_append, hl, cutCRLF, if_neg hne, ← hl, hih]
    rfl

theorem parseHeaderLines_joinLines {lines : List Bytes}
    (h : ∀ line ∈ lines, ¬ [CR, LF] <:+: line ∧ line ≠ []) :
    parseHeaderLines (joinLines lines ++ [CR, LF]) = lines.filterMap parseHeaderLine := by
  induction lines with
  | nil =>
    rw [parseHeaderLines]
    rfl
  | cons line lines ih =>
    obtain ⟨hwhole, hne⟩ := h line List.mem_cons_self
    have hcut := cutCRLF_line hwhole (joinLines lines ++ [CR, LF])
    obtain ⟨a, line, rfl⟩ := List.exists_cons_of_ne_nil hne
    rw [joinLines_cons, List.append_assoc, parseHeaderLines]
    split
    · rename_i hnone
      rw [hcut] at hnone
      exact absurd hnone (by simp)
    · rename_i hempty
      rw [hcut] at hempty
      exact absurd hempty (by simp)
    · rename_i a' line' rest hsome
      rw [hcut, Option.some_inj, Prod.mk.injEq] at hsome
      obtain ⟨hline, rfl⟩ := hsome
      rw [← hline, ih fun l hl => h l (List.mem_cons_of_mem _ hl)]
      cases hfield : parseHeaderLine (a :: line) with
      | none =>
        rw [List.filterMap_cons_none hfield]
        rfl
      | some field =>
        rw [List.filterMap_cons_some hfield]
        rfl

theorem headerList_text (b : HeaderBlock) :
    headerList b.text = b.lines.filterMap parseHeaderLine := by
  have hwhole := b.whole b.statusLine List.mem_cons_self
  rw [headerList, HeaderBlock.text, joinLines_cons, List.append_assoc, cutCRLF_line hwhole]
  refine parseHeaderLines_joinLines fun line hline => ?_
  exact ⟨b.whole line (List.mem_cons_of_mem _ hline), b.ne_nil line hline⟩

/-! ### Fields and text in one line -/

theorem colon_split {line : Bytes} (h : (line.takeWhile (· != 58)).length < line.length) :
    line = line.takeWhile (· != 58) ++ 58 :: line.drop ((line.takeWhile (· != 58)).length + 1) := by
  induction line with
  | nil => exact absurd h (by simp)
  | cons a line ih =>
    by_cases ha : a = 58
    · subst ha
      rfl
    · have htake : (a :: line).takeWhile (· != 58) = a :: line.takeWhile (· != 58) :=
        List.takeWhile_cons_of_pos (by simpa using ha)
      rw [htake] at h ⊢
      rw [List.length_cons, List.length_cons] at h
      rw [List.cons_append, List.length_cons, List.drop_succ_cons, ← ih (by omega)]

/-- A header line is kept under the text before its first colon. -/
theorem parseHeaderLine_some {line : Bytes} {h : Header} (hline : parseHeaderLine line = some h) :
    ∃ value, line = line.takeWhile (· != 58) ++ 58 :: value ∧
      h.key = trimBlank (line.takeWhile (· != 58)) ∧ h.value = trimBlank value := by
  unfold parseHeaderLine at hline
  dsimp only at hline
  split at hline
  · rename_i hcolon
    split at hline
    · obtain rfl := Option.some.inj hline
      exact ⟨_, colon_split hcolon.2, rfl, rfl⟩
    · exact absurd hline (by simp)
  · exact absurd hline (by simp)

theorem colon_not_mem (line : Bytes) : (58 : UInt8) ∉ line.takeWhile (· != 58) := by
  intro hmem
  have := List.mem_takeWhile_imp hmem
  simp at this

theorem blank_clean {c : UInt8} (hc : isBlank c = true) :
    c ∉ ascii "chunked" ∧ c ∉ lengthKey ∧ lower c = c := by
  simp only [isBlank, Bool.or_eq_true, beq_iff_eq] at hc
  rcases hc with rfl | rfl
  · decide
  · decide

/-- The field name of a line, apart from blanks and case. -/
def Header.isCoding (h : Header) : Bool := strEqualFoldASCII h.key (ascii "Transfer-Encoding")

/-- A field that says the body is chunked. -/
def Header.chunked (h : Header) : Bool := h.isCoding && containsChunked h.value

def Header.isLength (h : Header) : Bool := strEqualFoldASCII h.key (ascii "Content-Length")

/-- The number in a field that has nothing but digits in its value. -/
def Header.number (h : Header) : Option ℕ :=
  if h.value ≠ [] ∧ h.value.all isDigit then some (Decimal.value h.value) else none

/-- It is read modulo 2^64. -/
theorem Header.contentLengthValue_number {h : Header} {n : ℕ} (hn : h.number = some n) :
    contentLengthValue h.value 0 0 = (wrap64 n, true) := by
  unfold Header.number at hn
  split at hn
  · case _ hdigits =>
    cases hn
    have hread := contentLengthValue_digits
      (fun b hb => List.all_eq_true.mp hdigits.2 b hb) 0 0 ([] : Bytes)
    rw [contentLengthValue_append] at hread
    refine hread.trans ?_
    have hpos := List.length_pos_iff.mpr hdigits.1
    simp [Decimal.value, hpos]
  · cases hn

/-- A field whose text the scan may miss: a blank stands before the colon, or the line has a
bare CR or LF in it. -/
def masked (line : Bytes) : Bool :=
  (line.takeWhile (· != 58)).getLast?.any isBlank || line.any isEol

theorem lower_eq_colon {b : UInt8} (h : lower b = 58) : b = 58 := by
  rcases lower_eq h with hb | hb
  · exact hb
  · obtain rfl : b = 58 - 32 := by rw [← hb, UInt8.add_sub_cancel]
    exact absurd h (by decide)

/-- A match is the name, in any case, and a colon. -/
theorem hasKey_colon {name s : Bytes} (h : hasKey (name ++ [58]) s = true) :
    ∃ x, s = x ++ 58 :: s.drop (name ++ [58]).length ∧ x.map lower = name := by
  simp only [hasKey, Bool.and_eq_true, beq_iff_eq] at h
  obtain ⟨x, y, htake, hx, hy⟩ := List.map_eq_append_iff.mp h.2
  obtain ⟨b, rfl, hb⟩ := List.map_eq_singleton_iff.mp hy
  obtain rfl := lower_eq_colon hb
  refine ⟨x, ?_, hx⟩
  conv_lhs => rw [← List.take_append_drop (name ++ [58]).length s, htake]
  simp

/-- Behind a colon there is a piece of the value. -/
theorem suffix_value {key value t : Bytes} (hkey : (58 : UInt8) ∉ key)
    (ht : (58 :: t) <:+ key ++ 58 :: value) : t <:+ value := by
  rcases List.suffix_or_suffix_of_suffix ht (List.suffix_append key (58 :: value)) with hin | hin
  · rcases List.suffix_cons_iff.mp hin with heq | hin
    · rw [(List.cons.inj heq).2]
    · exact (List.suffix_cons 58 t).trans hin
  · obtain ⟨y, hy⟩ := hin
    rcases y with _ | ⟨c, y⟩
    · rw [(List.cons.inj hy).2]
    · -- the colon would stand before the first one
      obtain ⟨z, hz⟩ := ht
      rw [← hy, ← List.append_assoc] at hz
      obtain rfl : (58 : UInt8) = c := (List.cons.inj hy).1.symm
      exact absurd (List.append_cancel_right hz ▸ by simp) hkey

/-- Without a blank before the colon only the blanks in front are cut off. -/
theorem trimBlank_name {name : Bytes} (h : name.getLast?.any isBlank = false) :
    trimBlank name = name.dropWhile isBlank := by
  refine List.rdropWhile_eq_self_iff.mpr fun hne hblank => ?_
  have hlast : name.getLast? = some ((name.dropWhile isBlank).getLast hne) := by
    obtain ⟨blanks, hblanks⟩ := List.dropWhile_suffix isBlank (l := name)
    conv_lhs => rw [← hblanks]
    rw [List.getLast?_append_of_ne_nil _ hne, List.getLast?_eq_some_getLast hne]
  rw [hlast, Option.any_some, hblank] at h
  exact absurd h (by simp)

theorem contentLengthValue_rdropBlank (x : Bytes) (length : ℤ) (digits : ℕ) :
    contentLengthValue (x.rdropWhile isBlank) length digits = contentLengthValue x length digits := by
  have hblank : ∀ (x : Bytes) (c : UInt8) (length : ℤ) (digits : ℕ), isBlank c = true →
      contentLengthValue (x ++ [c]) length digits = contentLengthValue x length digits := by
    intro x c length digits hc
    induction x generalizing length digits with
    | nil =>
      simp only [isBlank, Bool.or_eq_true, beq_iff_eq] at hc
      rcases hc with rfl | rfl
      · rfl
      · rfl
    | cons a x ih => rw [List.cons_append, contentLengthValue, contentLengthValue, ih, ih]
  induction x using List.reverseRecOn with
  | nil => rfl
  | append_singleton x c ih =>
    rw [List.rdropWhile_concat]
    split
    · rename_i hc
      rw [ih, hblank x c length digits hc]
    · rfl

theorem behind_dropBlank (l : Bytes) : behind lengthKey (l.dropWhile isBlank) = behind lengthKey l := by
  induction l with
  | nil => rfl
  | cons a l ih =>
    cases ha : isBlank a with
    | true =>
      obtain ⟨-, hmem, hlower⟩ := blank_clean ha
      rw [List.dropWhile_cons_of_pos ha, ih, behind, hasKey_cons_of_not_mem (by decide) hmem hlower]
      rfl
    | false => rw [List.dropWhile_cons_of_neg (by simp [ha])]

/-- Behind a field name at the front of its line there is the value of the field. -/
theorem readLength_field {line : Bytes} {h : Header} (hline : parseHeaderLine line = some h)
    (hfront : hasKey lengthKey (line.dropWhile isBlank) = true) :
    readLength (behind lengthKey line) = contentLengthValue h.value 0 0 := by
  obtain ⟨value, hsplit, -, hvalue⟩ := parseHeaderLine_some hline
  have hname : hasKey (ascii "content-length" ++ [58]) (line.dropWhile isBlank) = true := hfront
  obtain ⟨name, hrest, hlower⟩ := hasKey_colon hname
  have hbehind : behind lengthKey line
      = some ((line.dropWhile isBlank).drop (ascii "content-length" ++ [58]).length) := by
    rw [← behind_dropBlank]
    obtain ⟨b, l, hl⟩ := List.exists_cons_of_ne_nil
      (show line.dropWhile isBlank ≠ [] by rw [hrest]; simp)
    rw [hl] at hfront ⊢
    rw [behind, if_pos hfront]
    rfl
  generalize (line.dropWhile isBlank).drop (ascii "content-length" ++ [58]).length = x
    at hrest hbehind
  have hvalue' : value = x := by
    -- both stand behind the first colon of the line
    have hx : line = (line.takeWhile isBlank ++ name) ++ 58 :: x := by
      rw [List.append_assoc, ← hrest, List.takeWhile_append_dropWhile]
    have hcolon : (58 : UInt8) ∉ line.takeWhile isBlank ++ name := by
      intro hmem
      rcases List.mem_append.mp hmem with hmem | hmem
      · have := List.mem_takeWhile_imp hmem
        exact absurd this (by decide)
      · have hmem' := List.mem_map_of_mem (f := lower) hmem
        rw [hlower] at hmem'
        exact absurd hmem' (by decide)
    have h₁ : x <:+ value := by
      refine suffix_value (colon_not_mem line) ?_
      rw [← hsplit]
      exact ⟨_, hx.symm⟩
    have h₂ : value <:+ x := by
      refine suffix_value hcolon ?_
      rw [← hx]
      exact ⟨_, hsplit.symm⟩
    exact h₂.eq_of_length (Nat.le_antisymm h₂.length_le h₁.length_le)
  rw [hbehind, readLength, hvalue, hvalue', trimBlank, contentLengthValue_rdropBlank]

/-! ### The two views of a block -/

namespace HeaderBlock

/-- The scan for a chunked coding goes by the fields that `parseHeaders` keeps. -/
def CodingByFields (b : HeaderBlock) : Prop :=
  parseTransferEncoding b.text = true ↔ ∃ h ∈ headerList b.text, h.chunked = true

/-- The scan for a length finds nothing but the number in the first length field. -/
def LengthByFields (b : HeaderBlock) : Prop :=
  ∀ v, parseContentLength b.text = (v, true) →
    ∃ h n, (headerList b.text).find? Header.isLength = some h ∧ h.number = some n ∧ v = (n : ℤ)

/-- No other text is taken for a chunked coding, and no field that says so is missed. -/
structure CodingPlain (b : HeaderBlock) : Prop where
  /-- Text for a chunked coding in the status line or under another name is harmless only
  where a field says the same. -/
  stray : ∀ line, (line = b.statusLine ∨
      line ∈ b.lines ∧ (parseHeaderLine line).any Header.isCoding = false) →
    declaresChunked line = true → ∃ field ∈ b.lines, (parseHeaderLine field).any Header.chunked = true
  /-- A masked field is harmless only where the text stands elsewhere. -/
  unmasked : ∀ field ∈ b.lines, (parseHeaderLine field).any Header.chunked = true →
    masked field = true → ∃ line ∈ b.statusLine :: b.lines, declaresChunked line = true

/-- The first line with the text of the length field begins with it, is the first length field,
and has a number of 63 bits for a value. -/
def LengthPlain (b : HeaderBlock) : Prop :=
  ∀ line, (b.statusLine :: b.lines).find? (fun l => (behind lengthKey l).isSome) = some line →
    hasKey lengthKey (line.dropWhile isBlank) = true ∧
    b.lines.find? (fun l => (parseHeaderLine l).any Header.isLength) = some line ∧
    ∃ n < 2 ^ 63, (parseHeaderLine line).bind Header.number = some n

theorem exists_chunked_iff (b : HeaderBlock) : (∃ h ∈ headerList b.text, h.chunked = true) ↔
    ∃ field ∈ b.lines, (parseHeaderLine field).any Header.chunked = true := by
  simp only [headerList_text, List.mem_filterMap, Option.any_eq_true]
  constructor
  · rintro ⟨h, ⟨field, hfield, hparse⟩, hchunked⟩
    exact ⟨field, hfield, h, hparse, hchunked⟩
  · rintro ⟨field, hfield, h, hparse, hchunked⟩
    exact ⟨h, ⟨field, hfield, hparse⟩, hchunked⟩

theorem parseTransferEncoding_iff (b : HeaderBlock) : parseTransferEncoding b.text = true ↔
    ∃ line ∈ b.statusLine :: b.lines, declaresChunked line = true := by
  rw [parseTransferEncoding_text, List.any_eq_true]

/-- A length is read in the first line with the text. -/
theorem parseContentLength_iff (b : HeaderBlock) (v : ℤ) : parseContentLength b.text = (v, true) ↔
    ∃ line, (b.statusLine :: b.lines).find? (fun l => (behind lengthKey l).isSome) = some line ∧
      readLength (behind lengthKey line) = (v, true) := by
  rw [parseContentLength_text]
  induction b.statusLine :: b.lines with
  | nil => simp [readLength]
  | cons line lines ih =>
    rw [List.findSome?_cons, List.find?_cons]
    cases hline : behind lengthKey line with
    | none => exact ih
    | some x => simp [hline]

theorem CodingByFields.plain {b : HeaderBlock} (hb : b.CodingByFields) : b.CodingPlain := by
  rw [CodingByFields, parseTransferEncoding_iff, exists_chunked_iff] at hb
  constructor
  · intro line hline hdeclares
    refine hb.mp ⟨line, ?_, hdeclares⟩
    rcases hline with rfl | ⟨hmem, -⟩
    · exact List.mem_cons_self
    · exact List.mem_cons_of_mem _ hmem
  · intro field hfield hchunked _
    exact hb.mpr ⟨field, hfield, hchunked⟩

theorem LengthPlain.length {b : HeaderBlock} (hb : b.LengthPlain) : b.LengthByFields := by
  intro v hv
  obtain ⟨line, hline, hread⟩ := (parseContentLength_iff b v).mp hv
  obtain ⟨hfront, hfirst, n, hn, hnumber⟩ := hb line hline
  obtain ⟨h, hparse, hnumber⟩ := Option.bind_eq_some_iff.mp hnumber
  refine ⟨h, n, ?_, hnumber, ?_⟩
  · rw [headerList_text, List.find?_filterMap, hfirst]
    exact hparse
  · rw [readLength_field hparse hfront, Header.contentLengthValue_number hnumber,
      wrap64_eq (by omega) (by omega)] at hread
    exact (Prod.mk.inj hread).1.symm

end HeaderBlock

end BurstHttp
