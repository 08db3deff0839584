/-
The fields of a header block (parser.go): `parseStatusCode`, the two framing
scans `parseContentLength` and `parseTransferEncoding`, and `parseHeaders`.

Index loops over the block become recursion on the part of the block that
starts at the index.  The framing scans look at every position of the block,
not only at line starts, exactly as the source does.
-/
import BurstHttp.Header

namespace BurstHttp

/-! ### Status line -/

/-- `parseStatusCode`: the code and whether it is acceptable. -/
def parseStatusCode (buf : Bytes) : ℕ × Bool :=
  if buf.length < 12 then (0, false)
  else if buf.take 5 ≠ ascii "HTTP/" then (0, false)
  else
    match ((buf.drop 5).dropWhile fun b => !isBlank b).dropWhile isBlank with
    | a :: b :: c :: _ =>
      if a < 49 || 57 < a || !isDigit b || !isDigit c then (0, false)
      else
        let code := (a - 48).toNat * 100 + (b - 48).toNat * 10 + (c - 48).toNat
        (code, 100 ≤ code && code < 600)
    | _ => (0, false)

theorem parseStatusCode_pos {buf : Bytes} (h : (parseStatusCode buf).2 = true) :
    0 < (parseStatusCode buf).1 := by
  unfold parseStatusCode at h ⊢
  split at h
  · exact absurd h (by simp)
  split at h
  · exact absurd h (by simp)
  rename_i h1 h2
  rw [if_neg h1, if_neg h2]
  split at h
  · split at h
    · exact absurd h (by simp)
    · rename_i h3
      rw [if_neg h3]
      simp only [Bool.and_eq_true, decide_eq_true_eq] at h ⊢
      omega
  · exact absurd h (by simp)

/-! ### Framing fields -/

/-- The field name `key` (lower case, colon included) stands at the front of
`s`, compared case-insensitively. -/
def hasKey (key s : Bytes) : Bool :=
  key.length ≤ s.length && (s.take key.length).map lower == key

/-- The digit loop of `parseContentLength`: `length` and `digits` are its
accumulators. -/
def contentLengthValue : Bytes → ℤ → ℕ → ℤ × Bool
  | [], length, digits => (length, 0 < digits)
  | ch :: rest, length, digits =>
    if isDigit ch then
      contentLengthValue rest (wrap64 (length * 10 + (ch - 48).toNat)) (digits + 1)
    else if isEol ch then (length, 0 < digits)
    else if isBlank ch then contentLengthValue rest length digits
    else (0, false)

/-- `parseContentLength`. -/
def parseContentLength : Bytes → ℤ × Bool
  | [] => (0, false)
  | b :: rest =>
    if (ascii "content-length:").length ≤ (b :: rest).length then
      if (b == 99 || b == 67) && hasKey (ascii "content-length:") (b :: rest) then
        contentLengthValue
          (((b :: rest).drop (ascii "content-length:").length).dropWhile isBlank) 0 0
      else parseContentLength rest
    else (0, false)

/-- `containsChunked`. -/
def containsChunked : Bytes → Bool
  | [] => false
  | b :: rest => hasKey (ascii "chunked") (b :: rest) || containsChunked rest

/-- `parseTransferEncoding`: after a field without the token the scan goes on
behind the end of that line. -/
def parseTransferEncoding (buf : Bytes) : Bool :=
  match buf with
  | [] => false
  | b :: rest =>
    if (ascii "transfer-encoding:").length ≤ (b :: rest).length then
      if (b == 116 || b == 84) && hasKey (ascii "transfer-encoding:") (b :: rest) then
        let start := ((b :: rest).drop (ascii "transfer-encoding:").length).dropWhile isBlank
        if containsChunked (start.takeWhile fun ch => !isEol ch) then true
        else parseTransferEncoding ((start.dropWhile fun ch => !isEol ch).drop 1)
      else parseTransferEncoding rest
    else false
termination_by buf.length
decreasing_by
  · have h1 := (List.dropWhile_suffix (fun ch => !isEol ch)
      (l := ((b :: rest).drop (ascii "transfer-encoding:").length).dropWhile isBlank)).length_le
    have h2 := (List.dropWhile_suffix isBlank
      (l := (b :: rest).drop (ascii "transfer-encoding:").length)).length_le
    have h3 : (ascii "transfer-encoding:").length = 18 := rfl
    simp only [List.length_drop, List.length_cons] at *
    omega
  · simp

/-! ### Header list -/

/-- The bytes before the first `CRLF` and the bytes behind it. -/
def cutCRLF : Bytes → Option (Bytes × Bytes)
  | a :: b :: rest =>
    if a = CR ∧ b = LF then some ([], rest)
    else (cutCRLF (b :: rest)).map fun p => (a :: p.1, p.2)
  | _ => none

theorem cutCRLF_eq {l line rest : Bytes} (h : cutCRLF l = some (line, rest)) :
    l = line ++ CR :: LF :: rest := by
  induction l generalizing line with
  | nil => exact absurd h (by simp [cutCRLF])
  | cons a l ih =>
    rcases l with _ | ⟨b, l⟩
    · exact absurd h (by simp [cutCRLF])
    · rw [cutCRLF] at h
      by_cases hab : a = CR ∧ b = LF
      · rw [if_pos hab, Option.some_inj, Prod.mk.injEq] at h
        obtain ⟨rfl, rfl⟩ := h
        obtain ⟨rfl, rfl⟩ := hab
        rfl
      · rw [if_neg hab, Option.map_eq_some_iff] at h
        obtain ⟨⟨line', rest'⟩, hcut, hp⟩ := h
        rw [Prod.mk.injEq] at hp
        obtain ⟨rfl, rfl⟩ := hp
        rw [ih hcut]
        rfl

/-- `cutCRLF` cuts at the first `CRLF`. -/
theorem cutCRLF_first {l : Bytes} {i : ℕ} (h : [CR, LF] <+: l.drop i) :
    ∃ line rest, cutCRLF l = some (line, rest) ∧ line.length ≤ i := by
  induction l generalizing i with
  | nil => exact absurd h (by simp)
  | cons a l ih =>
    rcases l with _ | ⟨b, l⟩
    · have := h.length_le
      simp at this
      omega
    · rw [cutCRLF]
      by_cases hab : a = CR ∧ b = LF
      · rw [if_pos hab]
        exact ⟨[], l, rfl, Nat.zero_le i⟩
      · rw [if_neg hab]
        rcases i with _ | i
        · refine absurd ?_ hab
          simp only [List.drop_zero, List.cons_prefix_cons] at h
          exact ⟨h.1.symm, h.2.1.symm⟩
        · obtain ⟨line, rest, hcut, hle⟩ := ih (by rwa [List.drop_succ_cons] at h)
          exact ⟨a :: line, rest, by rw [hcut]; rfl, by simpa using hle⟩

/-- Spaces and tabs removed at both ends, the four index loops of the source. -/
def trimBlank (l : Bytes) : Bytes := (l.dropWhile isBlank).rdropWhile isBlank

/-- One header line: kept when it has a colon behind its first byte and both
sides are non-empty after trimming. -/
def parseHeaderLine (line : Bytes) : Option Header :=
  let key := line.takeWhile (· != 58)
  if 0 < key.length ∧ key.length < line.length then
    let k := trimBlank key
    let v := trimBlank (line.drop (key.length + 1))
    if 0 < k.length ∧ 0 < v.length then some ⟨k, v⟩ else none
  else none

/-- The line loop of `parseHeaders`. -/
def parseHeaderLines (rest : Bytes) : List Header :=
  match _h : cutCRLF rest with
  | none => []
  | some ([], _) => []
  | some (a :: line, rest') => (parseHeaderLine (a :: line)).toList ++ parseHeaderLines rest'
termination_by rest.length
decreasing_by
  rw [cutCRLF_eq _h]
  simp
  omega

/-- `parseHeaders`. -/
def parseHeaders (headerBuf : Bytes) (resp : Response) : Response :=
  let resp := { resp with rawHeaderBuf := headerBuf }
  match cutCRLF headerBuf with
  | none => resp
  | some (_, []) => resp
  | some (_, rest) => { resp with headers := parseHeaderLines rest }

/-- The header list of a block. -/
def headerList (headerBuf : Bytes) : List Header :=
  match cutCRLF headerBuf with
  | none => []
  | some (_, rest) => parseHeaderLines rest

/-- A block that ends in the terminator has its first `CRLF` before its end. -/
theorem cutCRLF_of_headEnd {l : Bytes} {j : ℕ} (h : headEnd l = some j) :
    ∃ line a rest, cutCRLF (l.take j) = some (line, a :: rest) := by
  obtain ⟨i, rfl, hi, -⟩ := headEnd_eq_some.mp (headEnd_take.mpr ⟨h, le_rfl⟩)
  have hpre : [CR, LF] <+: (l.take (i + 4)).drop i := (List.prefix_append [CR, LF] [CR, LF]).trans hi
  obtain ⟨line, rest, hcut, hle⟩ := cutCRLF_first hpre
  rcases rest with _ | ⟨a, rest⟩
  · have hlen := congrArg List.length (cutCRLF_eq hcut)
    have := hi.le_length
    simp only [List.length_append, List.length_cons, List.length_nil] at hlen
    omega
  · exact ⟨line, a, rest, hcut⟩

/-- On a complete header block `parseHeaders` stores the block and its header
list, whatever the response held before. -/
theorem parseHeaders_of_headEnd {l : Bytes} {j : ℕ} (h : headEnd l = some j) (resp : Response) :
    parseHeaders (l.take j) resp
      = { resp with rawHeaderBuf := l.take j, headers := headerList (l.take j) } := by
  obtain ⟨line, a, rest, hcut⟩ := cutCRLF_of_headEnd h
  simp only [parseHeaders, headerList, hcut]

/-- `parseHeaders` on a complete header block. -/
theorem parseHeaders_of_head {head : Bytes} (h : headEnd head = some head.length)
    (resp : Response) :
    parseHeaders head resp = { resp with rawHeaderBuf := head, headers := headerList head } := by
  have := parseHeaders_of_headEnd h resp
  rwa [List.take_length] at this

end BurstHttp
