/-
Chunked bodies (parser.go, `readChunkedBody`).

The closures of the source share the bytes left over in the header buffer and
the connection: `ChunkReader` is that shared state, `readByte`, `readLine` and
`readExact` are the closures.  A line keeps at most 64 bytes of what it reads.
`chunkLine` is the decision the loop takes on a chunk-size line.

* `readLine_line`, `readExact_eq` — what the closures return, in terms of the
  bytes still to come;
* `chunkLoop_localAt` — the outcome of the loop depends only on the bytes it
  consumes.
-/
import BurstHttp.Lib.Feed
import BurstHttp.Fields

namespace BurstHttp

/-- An `io.Reader` on a connection: every `Read` into a non-empty slice returns
at least one byte or an error. -/
abbrev Reader := Feed UInt8 GoErr

/-- The state shared by the closures of `readChunkedBody`. -/
structure ChunkReader where
  leftover : Bytes
  r : Reader

namespace ChunkReader

/-- The bytes the closures will still see. -/
def flat (s : ChunkReader) : Bytes := s.leftover ++ s.r.flat

def cursor : Cursor ChunkReader UInt8 GoErr := ⟨flat, fun s => s.r.tail, fun s => s.r.ended⟩

/-- `readByte`. -/
def readByte (s : ChunkReader) : Except GoErr UInt8 × ChunkReader :=
  match s.leftover with
  | b :: rest => (.ok b, { s with leftover := rest })
  | [] => (s.r.next.1, { s with r := s.r.next.2 })

theorem readByte_nil {s : ChunkReader} (h : s.flat = []) :
    s.readByte = (.error s.r.tail, { s with r := { s.r with ended := true } }) := by
  obtain ⟨hl, hr⟩ := List.append_eq_nil_iff.mp h
  rw [readByte, hl]
  simp only [Feed.next_nil hr]

theorem readByte_cons {s : ChunkReader} {b : UInt8} {bs : Bytes} (h : s.flat = b :: bs) :
    ∃ s' : ChunkReader, s.readByte = (.ok b, s') ∧ s'.flat = bs ∧ s'.r.tail = s.r.tail ∧
      s'.r.ended = s.r.ended := by
  rcases hl : s.leftover with _ | ⟨c, rest⟩
  · have hr : s.r.flat = b :: bs := by rw [flat, hl] at h; exact h
    obtain ⟨r', hnext, hflat, htail, hended⟩ := Feed.next_cons hr
    refine ⟨{ s with r := r' }, ?_, ?_, htail, hended⟩
    · rw [readByte, hl]
      simp only [hnext]
    · show s.leftover ++ r'.flat = bs
      rw [hl, hflat]
      rfl
  · rw [flat, hl, List.cons_append, List.cons.injEq] at h
    obtain ⟨rfl, h⟩ := h
    refine ⟨{ s with leftover := rest }, ?_, h, rfl, rfl⟩
    rw [readByte, hl]

theorem readByte_flat_lt {s s' : ChunkReader} {b : UInt8} (h : s.readByte = (.ok b, s')) :
    s'.flat.length < s.flat.length := by
  rcases hf : s.flat with _ | ⟨c, bs⟩
  · rw [readByte_nil hf] at h
    exact absurd (congrArg Prod.fst h) (by simp)
  · obtain ⟨s'', hr, hflat, -, -⟩ := readByte_cons hf
    rw [hr, Prod.mk.injEq] at h
    rw [← h.2, hflat]
    simp

/-- The line without the `CR` that ends it. -/
def lineEnd (lineBuf : Bytes) : Bytes :=
  if lineBuf.getLast? = some CR then lineBuf.dropLast else lineBuf

/-- `readLine`, with the bytes already stored in `lineBuf`; further bytes of the
line are read and dropped once 64 are stored. -/
def readLine (lineBuf : Bytes) (s : ChunkReader) : Except GoErr Bytes × ChunkReader :=
  match _h : s.readByte with
  | (.error e, s') => (.error e, s')
  | (.ok b, s') =>
    if b = LF then (.ok (lineEnd lineBuf), s')
    else readLine (if lineBuf.length < 64 then lineBuf ++ [b] else lineBuf) s'
termination_by s.flat.length
decreasing_by exact readByte_flat_lt _h

/-- `readExact` into a slice of `n` bytes: what was stored in it, and the error. -/
def readExact (s : ChunkReader) (n : ℕ) : Bytes × Option GoErr × ChunkReader :=
  let got := s.leftover.take n
  let rest := s.r.readFull .eof (n - got.length)
  (got ++ rest.1, rest.2.1, ⟨s.leftover.drop n, rest.2.2⟩)

/-- One turn of the loop of `readLine`. -/
theorem readLine_of_readByte {lineBuf : Bytes} {s s' : ChunkReader} {b : UInt8}
    (hread : s.readByte = (.ok b, s')) :
    readLine lineBuf s =
      if b = LF then (.ok (lineEnd lineBuf), s')
      else readLine (if lineBuf.length < 64 then lineBuf ++ [b] else lineBuf) s' := by
  rw [readLine]
  split
  · rename_i h
    rw [hread] at h
    exact absurd (congrArg Prod.fst h) (by simp)
  · rename_i b' s'' h
    rw [hread, Prod.mk.injEq, Except.ok.injEq] at h
    obtain ⟨rfl, rfl⟩ := h
    rfl

/-- Reading a line that is there. -/
theorem readLine_line (lineBuf line rest : Bytes) (hline : LF ∉ line) :
    ∀ s : ChunkReader, s.flat = line ++ LF :: rest →
      ∃ s' : ChunkReader,
        readLine lineBuf s = (.ok (lineEnd (lineBuf ++ line.take (64 - lineBuf.length))), s') ∧
        s'.flat = rest ∧ s'.r.tail = s.r.tail ∧ s'.r.ended = s.r.ended := by
  induction line generalizing lineBuf with
  | nil =>
    intro s hs
    obtain ⟨s', hread, hflat, htail, hended⟩ := readByte_cons hs
    refine ⟨s', ?_, hflat, htail, hended⟩
    rw [readLine_of_readByte hread, if_pos rfl]
    simp
  | cons a line ih =>
    intro s hs
    obtain ⟨s', hread, hflat, htail, hended⟩ := readByte_cons hs
    have ha : a ≠ LF := fun h => hline (h ▸ List.mem_cons_self)
    rw [readLine_of_readByte hread, if_neg ha]
    obtain ⟨s'', hline', hflat', htail', hended'⟩ :=
      ih (if lineBuf.length < 64 then lineBuf ++ [a] else lineBuf)
        (fun h => hline (List.mem_cons_of_mem a h)) s' hflat
    refine ⟨s'', ?_, hflat', htail'.trans htail, hended'.trans hended⟩
    rw [hline']
    -- the first 64 bytes are stored
    by_cases h64 : lineBuf.length < 64
    · rw [if_pos h64]
      obtain ⟨k, hk⟩ : ∃ k, 64 - lineBuf.length = k + 1 := ⟨63 - lineBuf.length, by omega⟩
      rw [hk, List.take_succ_cons, List.append_assoc, List.length_append]
      simp only [List.length_cons, List.length_nil, List.singleton_append, Nat.zero_add]
      rw [show 64 - (lineBuf.length + 1) = k by omega]
    · rw [if_neg h64, show 64 - lineBuf.length = 0 by omega]
      simp

/-- Reading a line that the stream ends in. -/
theorem readLine_end (lineBuf : Bytes) :
    ∀ s : ChunkReader, LF ∉ s.flat →
      ∃ s' : ChunkReader, readLine lineBuf s = (.error s.r.tail, s') ∧ s'.flat = [] ∧
        s'.r.tail = s.r.tail ∧ s'.r.ended = true := by
  intro s
  induction hn : s.flat generalizing s lineBuf with
  | nil =>
    intro _
    rw [readLine]
    split
    · rename_i e s' h
      rw [readByte_nil hn, Prod.mk.injEq, Except.error.injEq] at h
      obtain ⟨rfl, rfl⟩ := h
      exact ⟨_, rfl, hn, rfl, rfl⟩
    · rename_i h
      rw [readByte_nil hn] at h
      exact absurd (congrArg Prod.fst h) (by simp)
  | cons a bs ih =>
    intro hlf
    obtain ⟨s', hread, hflat, htail, hended⟩ := readByte_cons hn
    have ha : a ≠ LF := fun h => hlf (h ▸ List.mem_cons_self)
    rw [readLine_of_readByte hread, if_neg ha]
    obtain ⟨s'', hread', hflat', htail', hended'⟩ :=
      ih (if lineBuf.length < 64 then lineBuf ++ [a] else lineBuf) s' hflat
        (fun h => hlf (List.mem_cons_of_mem a h))
    exact ⟨s'', by rw [hread', htail], hflat', htail'.trans htail, hended'⟩

/-- The two ways `readLine` can go. -/
theorem readLine_cases (lineBuf : Bytes) (s : ChunkReader) :
    (∃ line rest s', s.flat = line ++ LF :: rest ∧ LF ∉ line ∧
      readLine lineBuf s = (.ok (lineEnd (lineBuf ++ line.take (64 - lineBuf.length))), s') ∧
      s'.flat = rest) ∨
    (LF ∉ s.flat ∧ ∃ s', readLine lineBuf s = (.error s.r.tail, s') ∧ s'.flat = []) := by
  by_cases hlf : LF ∈ s.flat
  · obtain ⟨line, rest, heq, hline⟩ := List.eq_append_cons_of_mem hlf
    obtain ⟨s', hread, hflat, -, -⟩ := readLine_line lineBuf line rest hline s heq
    exact Or.inl ⟨line, rest, s', heq, hline, hread, hflat⟩
  · obtain ⟨s', hread, hflat, -, -⟩ := readLine_end lineBuf s hlf
    exact Or.inr ⟨hlf, s', hread, hflat⟩

theorem readLine_flat_lt {lineBuf line : Bytes} {s s' : ChunkReader}
    (h : readLine lineBuf s = (.ok line, s')) : s'.flat.length < s.flat.length := by
  rcases readLine_cases lineBuf s with ⟨line', rest, s'', heq, -, hread, hflat⟩ | ⟨-, s'', hread, -⟩
  · rw [hread, Prod.mk.injEq] at h
    rw [← h.2, hflat, heq, List.length_append, List.length_cons]
    omega
  · rw [hread] at h
    exact absurd (congrArg Prod.fst h) (by simp)

theorem readLine_flat_le (lineBuf : Bytes) (s : ChunkReader) :
    (readLine lineBuf s).2.flat.length ≤ s.flat.length := by
  rcases readLine_cases lineBuf s with ⟨line', rest, s'', heq, -, hread, hflat⟩ | ⟨-, s'', hread, hflat⟩
  · rw [hread, hflat, heq, List.length_append, List.length_cons]
    omega
  · rw [hread, hflat]
    exact Nat.zero_le _

/-- What `readExact` stores, whatever the segments: the next `n` bytes, or all
of them and the closing error. -/
theorem readExact_eq (s : ChunkReader) (n : ℕ) :
    ∃ s' : ChunkReader, s'.flat = s.flat.drop n ∧ s'.r.tail = s.r.tail ∧
      s'.r.ended = (s.r.ended || decide (s.flat.length < n)) ∧
      readExact s n
        = (s.flat.take n, (if s.flat.length < n then some s.r.tail else none), s') := by
  obtain ⟨r', hflat, htail, hended, hfill⟩ :=
    Feed.fill_eq GoErr.eof (Nat.succ_pos (n - (s.leftover.take n).length)) s.r
      (n - (s.leftover.take n).length)
  have hlen : (s.leftover.take n).length = min n s.leftover.length := List.length_take
  have hiff : s.r.flat.length < n - (s.leftover.take n).length ↔ s.flat.length < n := by
    rw [hlen, flat, List.length_append]
    omega
  refine ⟨⟨s.leftover.drop n, r'⟩, ?_, htail, ?_, ?_⟩
  · show s.leftover.drop n ++ r'.flat = s.flat.drop n
    rw [hflat, flat, List.drop_append, hlen]
    congr 2
    omega
  · rw [show (ChunkReader.mk (s.leftover.drop n) r').r.ended = r'.ended from rfl, hended]
    simp only [hiff]
  · rw [readExact, Feed.readFull]
    simp only [hfill, hiff]
    rw [flat, List.take_append, hlen]
    congr 3
    omega

/-- Behind a line, some data and another line, less is left. -/
theorem round_flat_lt {lineBuf line : Bytes} {s s1 : ChunkReader}
    (h : readLine lineBuf s = (.ok line, s1)) (n : ℕ) :
    ((s1.readExact n).2.2.readLine []).2.flat.length < s.flat.length := by
  have h1 := readLine_flat_lt h
  obtain ⟨s2, hflat, -, -, hread⟩ := readExact_eq s1 n
  have h2 := readLine_flat_le [] s2
  rw [hread]
  rw [hflat, List.length_drop] at h2
  dsimp only
  omega

theorem readByte_localAt (s : ChunkReader) : cursor.LocalAt readByte s := by
  refine Cursor.LocalAt.of_next (fun s hs => ?_) (fun s b bs hs => ?_) s
  · have hs' : s.flat = [] := hs
    rw [readByte_nil hs']
    exact ⟨rfl, hs', rfl, rfl⟩
  · obtain ⟨s', hread, hflat, htail, hended⟩ := readByte_cons (show s.flat = b :: bs from hs)
    rw [hread]
    exact ⟨rfl, hflat, htail, hended⟩

theorem readExact_localAt (n : ℕ) (s : ChunkReader) :
    cursor.LocalAt (fun s => (((readExact s n).1, (readExact s n).2.1), (readExact s n).2.2)) s := by
  refine Cursor.LocalAt.of_take n (fun s => ?_) s
  obtain ⟨s', hflat, htail, hended, hread⟩ := readExact_eq s n
  simp only [hread]
  exact ⟨rfl, hflat, htail, hended⟩

/-- `readLine` after the byte `x` it has just read. -/
def readLineThen (lineBuf : Bytes) (x : Except GoErr UInt8) (s : ChunkReader) :
    Except GoErr Bytes × ChunkReader :=
  match x with
  | .error e => (.error e, s)
  | .ok b =>
    if b = LF then (.ok (lineEnd lineBuf), s)
    else readLine (if lineBuf.length < 64 then lineBuf ++ [b] else lineBuf) s

theorem readLine_eq (lineBuf : Bytes) :
    readLine lineBuf = fun s => readLineThen lineBuf (readByte s).1 (readByte s).2 := by
  funext s
  rw [readLine]
  split
  · rename_i h
    rw [h]
    rfl
  · rename_i h
    rw [h]
    rfl

theorem readLine_localAt (lineBuf : Bytes) (s : ChunkReader) :
    cursor.LocalAt (readLine lineBuf) s := by
  induction hn : s.flat.length using Nat.strong_induction_on generalizing lineBuf s with
  | _ n ih =>
    rw [readLine_eq]
    refine (readByte_localAt s).bind ?_
    rcases hread : readByte s with ⟨_ | b, s'⟩
    · exact Cursor.LocalAt.pure _ _
    · unfold readLineThen
      by_cases hb : b = LF
      · simp only [if_pos hb]
        exact Cursor.LocalAt.pure _ _
      · simp only [if_neg hb]
        exact ih s'.flat.length (hn ▸ readByte_flat_lt hread) _ s' rfl

/-- The trailer loop: lines are read up to the first empty one, or the first
that cannot be read. -/
def drainTrailers (s : ChunkReader) : ChunkReader :=
  match _h : readLine [] s with
  | (.error _, s') => s'
  | (.ok [], s') => s'
  | (.ok (_ :: _), s') => drainTrailers s'
termination_by s.flat.length
decreasing_by exact readLine_flat_lt _h

/-- `drainTrailers` after the line `x` it has just read. -/
def drainTrailersThen (x : Except GoErr Bytes) (s : ChunkReader) : Unit × ChunkReader :=
  match x with
  | .error _ => ((), s)
  | .ok [] => ((), s)
  | .ok (_ :: _) => ((), drainTrailers s)

theorem drainTrailers_eq :
    (fun s => ((), drainTrailers s))
      = fun s => drainTrailersThen (readLine [] s).1 (readLine [] s).2 := by
  funext s
  rw [drainTrailers]
  split <;> rename_i h <;> rw [h] <;> rfl

theorem drainTrailers_step (s : ChunkReader) :
    s.drainTrailers = (drainTrailersThen (readLine [] s).1 (readLine [] s).2).2 :=
  congrArg Prod.snd (congrFun drainTrailers_eq s)

theorem drainTrailers_localAt (s : ChunkReader) :
    cursor.LocalAt (fun s => ((), drainTrailers s)) s := by
  induction hn : s.flat.length using Nat.strong_induction_on generalizing s with
  | _ n ih =>
    rw [drainTrailers_eq]
    refine (readLine_localAt [] s).bind ?_
    rcases hread : readLine [] s with ⟨_ | ⟨_ | ⟨a, line⟩⟩, s'⟩
    · exact Cursor.LocalAt.pure _ _
    · exact Cursor.LocalAt.pure _ _
    · exact ih s'.flat.length (hn ▸ readLine_flat_lt hread) s' rfl

end ChunkReader

/-! ### Chunk sizes -/

def hexDigit (b : UInt8) : Option ℕ :=
  if isDigit b then some (b.toNat - 48)
  else if 97 ≤ b ∧ b ≤ 102 then some (b.toNat - 87)
  else if 65 ≤ b ∧ b ≤ 70 then some (b.toNat - 55)
  else none

/-- The value of a string of hexadecimal digits, `acc` being the value of the
digits before it. -/
def hexValue (acc : ℕ) : Bytes → Option ℕ
  | [] => some acc
  | b :: rest => (hexDigit b).bind fun d => hexValue (acc * 16 + d) rest

/-- The unsigned part of `strconv.ParseInt` and its range check. -/
def parseMagnitude (neg : Bool) (digits : Bytes) : Option ℤ :=
  if digits = [] then none
  else
    (hexValue 0 digits).bind fun un =>
      if neg then (if 2 ^ 63 < un then none else some (-un))
      else if 2 ^ 63 ≤ un then none
      else some un

/-- `strconv.ParseInt(s, 16, 64)`; `none` is any error. -/
def parseInt16 : Bytes → Option ℤ
  | [] => none
  | b :: rest =>
    if b = 43 then parseMagnitude false rest
    else if b = 45 then parseMagnitude true rest
    else parseMagnitude false (b :: rest)

/-! ### The loop -/

/-- `copy(buf[off:], bs)` for a slice that is long enough. -/
def overwrite (buf : Bytes) (off : ℕ) (bs : Bytes) : Bytes :=
  buf.take off ++ bs ++ buf.drop (off + bs.length)

/-- What the loop does next: return, finish after the zero chunk, or read the
data that brings the body to `bodyLen` bytes. -/
inductive ChunkLine
  | fail (ret : Ret) (resp : Response)
  | last
  | data (resp : Response) (bodyLen : ℕ)

/-- The decision on a chunk-size line.  The slice
`bodyBuf[bodyLen : bodyLen+chunkSize]` panics when the sum has wrapped. -/
def chunkLine (maxBody : ℤ) (resp : Response) (bodyLen : ℕ) (line : Bytes) : ChunkLine :=
  match parseInt16 (line.takeWhile (· != 59)) with
  | none => .fail (.error (wrapError .protocol "invalid chunk size" .invalidResponse)) resp
  | some chunkSize =>
    if chunkSize < 0 then
      .fail (.error (wrapError .protocol "invalid chunk size" .invalidResponse)) resp
    else if chunkSize = 0 then .last
    else
      let required := wrap64 (bodyLen + chunkSize)
      if 0 < maxBody ∧ maxBody < required then .fail (.error .responseTooLarge) resp
      else
        match resp.ensureBufferSize required with
        | (false, resp) => .fail (.error .responseTooLarge) resp
        | (true, resp) =>
          if required < bodyLen then .fail .panic resp else .data resp required.toNat

theorem chunkLine_fail_ne_nil {maxBody : ℤ} {resp resp' : Response} {bodyLen : ℕ} {line : Bytes}
    {ret : Ret} (h : chunkLine maxBody resp bodyLen line = .fail ret resp') : ret ≠ .nil := by
  unfold chunkLine at h
  dsimp only at h
  split at h
  · obtain ⟨rfl, -⟩ := ChunkLine.fail.inj h
    simp
  · rename_i chunkSize _
    generalize resp.ensureBufferSize (wrap64 (bodyLen + chunkSize)) = x at h
    rcases x with ⟨_ | _, resp₁⟩
    · split_ifs at h
      all_goals
        obtain ⟨rfl, -⟩ := ChunkLine.fail.inj h
        simp
    · split_ifs at h
      all_goals
        obtain ⟨rfl, -⟩ := ChunkLine.fail.inj h
        simp

/-- The loop of `readChunkedBody` with `bodyLen` bytes of body in the buffer. -/
def chunkLoop (maxBody : ℤ) (resp : Response) (bodyLen : ℕ) (s : ChunkReader) :
    (Ret × Response) × ChunkReader :=
  match _h : s.readLine [] with
  | (.error e, s1) => ((.error e, resp), s1)
  | (.ok line, s1) =>
    match chunkLine maxBody resp bodyLen line with
    | .fail ret resp => ((ret, resp), s1)
    | .last =>
      ((.nil, { resp with contentLength := bodyLen, body := resp.bodyBuf.take bodyLen }),
        s1.drainTrailers)
    | .data resp bodyLen' =>
      let x := s1.readExact (bodyLen' - bodyLen)
      let resp := { resp with bodyBuf := overwrite resp.bodyBuf bodyLen x.1 }
      match x.2.1 with
      | some e => ((.error e, resp), x.2.2)
      | none => chunkLoop maxBody resp bodyLen' (x.2.2.readLine []).2
termination_by s.flat.length
decreasing_by exact ChunkReader.round_flat_lt _h _

/-- `readChunkedBody` with the bytes `leftover = buf[headerEnd:total]`. -/
def readChunkedBody (r : Reader) (leftover : Bytes) (resp : Response) (maxBody : ℤ) :
    (Ret × Response) × Reader :=
  let x := chunkLoop maxBody resp 0 ⟨leftover, r⟩
  (x.1, x.2.r)

/-- `chunkLoop` after the data `x` of a chunk that brings the body to `bodyLen'`
bytes. -/
def chunkLoopData (maxBody : ℤ) (resp : Response) (bodyLen bodyLen' : ℕ)
    (x : Bytes × Option GoErr) (s : ChunkReader) : (Ret × Response) × ChunkReader :=
  let resp := { resp with bodyBuf := overwrite resp.bodyBuf bodyLen x.1 }
  match x.2 with
  | some e => ((.error e, resp), s)
  | none => chunkLoop maxBody resp bodyLen' (s.readLine []).2

/-- `chunkLoop` after the line `x` it has just read. -/
def chunkLoopThen (maxBody : ℤ) (resp : Response) (bodyLen : ℕ) (x : Except GoErr Bytes)
    (s : ChunkReader) : (Ret × Response) × ChunkReader :=
  match x with
  | .error e => ((.error e, resp), s)
  | .ok line =>
    match chunkLine maxBody resp bodyLen line with
    | .fail ret resp => ((ret, resp), s)
    | .last =>
      ((.nil, { resp with contentLength := bodyLen, body := resp.bodyBuf.take bodyLen }),
        s.drainTrailers)
    | .data resp bodyLen' =>
      let x := s.readExact (bodyLen' - bodyLen)
      chunkLoopData maxBody resp bodyLen bodyLen' (x.1, x.2.1) x.2.2

theorem chunkLoop_eq (maxBody : ℤ) (resp : Response) (bodyLen : ℕ) :
    chunkLoop maxBody resp bodyLen = fun s =>
      chunkLoopThen maxBody resp bodyLen (s.readLine []).1 (s.readLine []).2 := by
  funext s
  rw [chunkLoop]
  split
  · rename_i h
    rw [h]
    rfl
  · rename_i h
    rw [h]
    rfl

/-- The outcome of the chunk loop depends only on the bytes it consumes. -/
theorem chunkLoop_localAt (maxBody : ℤ) (resp : Response) (bodyLen : ℕ) (s : ChunkReader) :
    ChunkReader.cursor.LocalAt (chunkLoop maxBody resp bodyLen) s := by
  induction hn : s.flat.length using Nat.strong_induction_on generalizing resp bodyLen s with
  | _ n ih =>
    rw [chunkLoop_eq]
    refine (ChunkReader.readLine_localAt [] s).bind ?_
    rcases hread : s.readLine [] with ⟨_ | line, s1⟩
    · exact Cursor.LocalAt.pure _ _
    · show ChunkReader.cursor.LocalAt (chunkLoopThen maxBody resp bodyLen (.ok line)) s1
      unfold chunkLoopThen
      dsimp only
      rcases chunkLine maxBody resp bodyLen line with ⟨ret, resp'⟩ | _ | ⟨resp', bodyLen'⟩
      · exact Cursor.LocalAt.pure _ _
      · exact (ChunkReader.drainTrailers_localAt s1).map fun _ =>
          (Ret.nil, { resp with contentLength := bodyLen, body := resp.bodyBuf.take bodyLen })
      · -- the data, then the line end behind it, then the rest of the loop
        refine (ChunkReader.readExact_localAt (bodyLen' - bodyLen) s1).bind
          (f := chunkLoopData maxBody resp' bodyLen bodyLen') ?_
        have hlt := ChunkReader.round_flat_lt hread (bodyLen' - bodyLen)
        obtain ⟨s2, -, -, -, hexact⟩ := ChunkReader.readExact_eq s1 (bodyLen' - bodyLen)
        rw [hexact] at hlt
        simp only [hexact]
        unfold chunkLoopData
        split
        · exact Cursor.LocalAt.pure _ _
        · refine (ChunkReader.readLine_localAt [] s2).bind
            (f := fun _ s3 => chunkLoop maxBody _ bodyLen' s3) ?_
          exact ih _ (hn ▸ hlt) _ _ _ rfl

/-! ### No bytes left over -/

namespace ChunkReader

theorem readByte_leftover {s : ChunkReader} (h : s.leftover = []) :
    s.readByte.2.leftover = [] := by
  rw [readByte, h]

theorem readLine_leftover (lineBuf : Bytes) {s : ChunkReader} (h : s.leftover = []) :
    (readLine lineBuf s).2.leftover = [] := by
  induction hn : s.flat.length using Nat.strong_induction_on generalizing lineBuf s with
  | _ n ih =>
    have h' := readByte_leftover h
    rw [readLine]
    split
    · rename_i hread
      rw [hread] at h'
      exact h'
    · rename_i hread
      have hlt := readByte_flat_lt hread
      rw [hread] at h'
      split
      · exact h'
      · exact ih _ (hn ▸ hlt) _ h' rfl

theorem drainTrailers_leftover {s : ChunkReader} (h : s.leftover = []) :
    s.drainTrailers.leftover = [] := by
  induction hn : s.flat.length using Nat.strong_induction_on generalizing s with
  | _ n ih =>
    have h' := readLine_leftover [] h
    rw [drainTrailers_step]
    rcases hread : readLine [] s with ⟨_ | ⟨_ | ⟨a, line⟩⟩, s'⟩
    · rw [hread] at h'
      exact h'
    · rw [hread] at h'
      exact h'
    · rw [hread] at h'
      exact ih _ (hn ▸ readLine_flat_lt hread) h' rfl

end ChunkReader

theorem chunkLoop_leftover (maxBody : ℤ) (resp : Response) (bodyLen : ℕ) {s : ChunkReader}
    (h : s.leftover = []) : (chunkLoop maxBody resp bodyLen s).2.leftover = [] := by
  induction hn : s.flat.length using Nat.strong_induction_on generalizing resp bodyLen s with
  | _ n ih =>
    have h1 := ChunkReader.readLine_leftover [] h
    rw [chunkLoop_eq]
    dsimp only
    rcases hread : s.readLine [] with ⟨_ | line, s1⟩
    · rw [hread] at h1
      exact h1
    · rw [hread] at h1
      unfold chunkLoopThen
      dsimp only
      rcases chunkLine maxBody resp bodyLen line with ⟨ret, resp'⟩ | _ | ⟨resp', bodyLen'⟩
      · exact h1
      · exact ChunkReader.drainTrailers_leftover h1
      · have hlt := ChunkReader.round_flat_lt hread (bodyLen' - bodyLen)
        obtain ⟨s2, -, -, -, hexact⟩ := ChunkReader.readExact_eq s1 (bodyLen' - bodyLen)
        have h2 : s2.leftover = [] := by
          have : (s1.readExact (bodyLen' - bodyLen)).2.2.leftover = s1.leftover.drop _ := rfl
          rw [hexact] at this
          rw [this, show s1.leftover = [] from h1, List.drop_nil]
        rw [hexact] at hlt
        simp only [hexact]
        unfold chunkLoopData
        split
        · exact h2
        · exact ih _ (hn ▸ hlt) _ _ (ChunkReader.readLine_leftover [] h2) rfl

/-- Reading a chunked body straight from a connection is local. -/
theorem readChunkedBody_localAt (resp : Response) (maxBody : ℤ) (r : Reader) :
    Feed.cursor.LocalAt (fun r => readChunkedBody r [] resp maxBody) r := by
  have hloc := chunkLoop_localAt maxBody resp 0 ⟨[], r⟩
  refine ⟨hloc.tail, hloc.sticky, fun t r' hext hend => ?_⟩
  obtain ⟨hval, hext', htail⟩ := hloc.extend t ⟨[], r'⟩ ⟨hext.flat, hext.ended⟩ hend
  refine ⟨hval, ⟨?_, hext'.ended⟩, htail⟩
  have hflat := hext'.flat
  unfold ChunkReader.cursor ChunkReader.flat at hflat
  simp only [chunkLoop_leftover maxBody resp 0 (s := ⟨[], r⟩) rfl,
    chunkLoop_leftover maxBody resp 0 (s := ⟨[], r'⟩) rfl, List.nil_append] at hflat
  exact hflat

end BurstHttp
