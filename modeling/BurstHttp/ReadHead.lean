/-
Reading the header block.

`headAt bufLen stream` cuts a stream behind its first `CRLFCRLF`, if that
comes within `bufLen` bytes.  Both header loops implement it:

* `readHeader_stops` / `readHeader_none` — the block-wise loop of
  `readResponse`, which may have read beyond the header block, and the places at
  which its reads begin;
* `readHeaderBuffered_some` / `readHeaderBuffered_none` — the byte-wise loop,
  which stops exactly behind it;
* `findHeaderEnd_exact` — the first terminator of a stream, found in any of its fronts and by the
  byte-wise loop;
* `readHeaderBuffered_localAt` — the byte-wise loop is local;
* `readResponse_head` / `readResponseBuffered_head` — so both parsers hand the
  same header block to their body readers.
-/
import BurstHttp.Parser

namespace BurstHttp

/-- The header block at the front of `stream` and the bytes behind it. -/
def headAt (bufLen : ℕ) (stream : Bytes) : Option (Bytes × Bytes) :=
  match headEnd stream with
  | none => none
  | some j => if j ≤ bufLen then some (stream.take j, stream.drop j) else none

theorem headAt_eq_some {bufLen : ℕ} {stream head rest : Bytes} :
    headAt bufLen stream = some (head, rest) ↔
      headEnd stream = some head.length ∧ head.length ≤ bufLen ∧ stream = head ++ rest := by
  unfold headAt
  constructor
  · intro h
    split at h
    · exact absurd h (by simp)
    · rename_i j hj
      have hle := (headEnd_bounds hj).2
      split at h
      · rename_i hb
        rw [Option.some_inj, Prod.mk.injEq] at h
        obtain ⟨rfl, rfl⟩ := h
        have hlen : (stream.take j).length = j := by rw [List.length_take, min_eq_left hle]
        rw [hlen]
        exact ⟨hj, hb, (List.take_append_drop j stream).symm⟩
      · exact absurd h (by simp)
  · rintro ⟨hj, hb, rfl⟩
    rw [hj]
    simp only [if_pos hb, List.take_left, List.drop_left]

/-- A complete header block in front of a stream is its header block, if it fits. -/
theorem headAt_of_front {bufLen : ℕ} {head rest stream : Bytes}
    (hhead : headEnd head = some head.length) (hfits : head.length ≤ bufLen)
    (hstream : stream = head ++ rest) : headAt bufLen stream = some (head, rest) :=
  headAt_eq_some.mpr ⟨hstream ▸ headEnd_append hhead rest, hfits, hstream⟩

/-- A complete header block carries its own end. -/
theorem headEnd_of_headAt {bufLen : ℕ} {stream head rest : Bytes}
    (h : headAt bufLen stream = some (head, rest)) : headEnd head = some head.length := by
  obtain ⟨hj, -, rfl⟩ := headAt_eq_some.mp h
  have := headEnd_take.mpr ⟨hj, le_rfl⟩
  rwa [List.take_left] at this

/-- No header block ends in `buf`, so none fits into a buffer `buf` fills. -/
theorem headAt_full {bufLen : ℕ} {buf more : Bytes} (h : headEnd buf = none)
    (hfull : bufLen ≤ buf.length) : headAt bufLen (buf ++ more) = none := by
  rcases hat : headAt bufLen (buf ++ more) with _ | ⟨head, rest⟩
  · rfl
  · obtain ⟨hj, hb, -⟩ := headAt_eq_some.mp hat
    have := headEnd_take.mpr ⟨hj, hb.trans hfull⟩
    rw [List.take_left, h] at this
    exact absurd this (by simp)

theorem headAt_of_headEnd_none {bufLen : ℕ} {stream : Bytes} (h : headEnd stream = none) :
    headAt bufLen stream = none := by
  rw [headAt, h]

theorem headEnd_nil : headEnd [] = none := headEnd_short (by simp)

/-- The response is delimited by the end of the stream: a status that has a
body, no chunked `Transfer-Encoding` and no `Content-Length`. -/
def framedByEOF (method stream : Bytes) : Bool :=
  match headEnd stream with
  | none => false
  | some j =>
    match framing method (stream.take j) with
    | .untilEOF _ => true
    | _ => false

theorem framing_of_framedByEOF {bufLen : ℕ} {method stream head rest : Bytes}
    (h : framedByEOF method stream = false) (hat : headAt bufLen stream = some (head, rest)) :
    ∀ status, framing method head ≠ .untilEOF status := by
  intro status hf
  obtain ⟨hj, -, rfl⟩ := headAt_eq_some.mp hat
  unfold framedByEOF at h
  rw [hj] at h
  dsimp only at h
  rw [List.take_left, hf] at h
  exact absurd h (by simp)

/-! ### The block-wise loop -/

theorem length_lt_of_headAt {bufLen : ℕ} {buf more head rest : Bytes} (hbuf : headEnd buf = none)
    (hat : headAt bufLen (buf ++ more) = some (head, rest)) : buf.length < head.length := by
  by_contra hle
  obtain ⟨hend, -, -⟩ := headAt_eq_some.mp hat
  have := headEnd_take.mpr ⟨hend, not_lt.mp hle⟩
  rw [List.take_left, hbuf] at this
  exact absurd this (by simp)

/-- What `readHeader` returns when the header block fits: its end, and a buffer that may
reach beyond it.  It goes on as long as the head is not complete, so the places behind the
head are those of the body reader. -/
theorem readHeader_stops {bufLen readSize : ℕ} (hsize : 0 < readSize) {cap : ℕ → ℕ}
    {buf head rest : Bytes} {r : Reader}
    (hcap : ∀ t, t < head.length → cap t = min (bufLen - t) readSize) (hbuf : headEnd buf = none)
    (hat : headAt bufLen (buf ++ r.flat) = some (head, rest)) :
    ∃ leftover r', readHeader bufLen readSize buf r = (.ok (head.length, head ++ leftover), r') ∧
      leftover ++ r'.flat = rest ∧ r'.tail = r.tail ∧ r'.ended = r.ended ∧
      (r.stops cap buf.length).filter (head.length ≤ ·)
        = r'.stops cap (head.length + leftover.length) := by
  induction hn : bufLen - buf.length using Nat.strong_induction_on generalizing buf r with
  | _ n ih =>
    have hlt := length_lt_of_headAt hbuf hat
    obtain ⟨-, hfits, -⟩ := headAt_eq_some.mp hat
    have hr : r.flat ≠ [] := fun h => by
      rw [h, List.append_nil, headAt_of_headEnd_none hbuf] at hat
      exact absurd hat (by simp)
    obtain ⟨b, bs, r', hread, hlen, hflat, htail, hended⟩ :=
      Feed.read_block (show 0 < min (bufLen - buf.length) readSize by omega) hr
    have hlenBuf : (buf ++ b :: bs).length = buf.length + (bs.length + 1) := by
      rw [List.length_append, List.length_cons]
    have hstops : (r.stops cap buf.length).filter (head.length ≤ ·)
        = (r'.stops cap (buf ++ b :: bs).length).filter (head.length ≤ ·) := by
      rw [Feed.stops_block ((hcap _ hlt).symm ▸ hread), List.filter_cons_of_neg (by simpa using hlt),
        hlenBuf]
    rw [hflat, ← List.append_assoc] at hat
    rw [readHeader, if_neg (by omega), hread, hstops]
    dsimp only
    rw [findHeaderEnd_eq]
    rcases hend : headEnd (buf ++ b :: bs) with _ | j
    · obtain ⟨leftover, r'', h1, h2, h3, h4, h5⟩ :=
        ih (bufLen - (buf ++ b :: bs).length) (by omega) hend hat rfl
      exact ⟨leftover, r'', h1, h2, h3.trans htail, h4.trans hended, h5⟩
    · obtain ⟨hj, -, heq⟩ := headAt_eq_some.mp hat
      obtain rfl : j = head.length := Option.some.inj ((headEnd_append hend _).symm.trans hj)
      have hle := (headEnd_bounds hend).2
      have htake : (buf ++ b :: bs).take head.length = head := by
        have := congrArg (List.take head.length) heq
        rwa [List.take_append_of_le_length hle, List.take_left] at this
      have hdrop : (buf ++ b :: bs).drop head.length ++ r'.flat = rest := by
        have := congrArg (List.drop head.length) heq
        rwa [List.drop_append_of_le_length hle, List.drop_left] at this
      have hsplit : head ++ (buf ++ b :: bs).drop head.length = buf ++ b :: bs := by
        have := List.take_append_drop head.length (buf ++ b :: bs)
        rwa [htake] at this
      refine ⟨(buf ++ b :: bs).drop head.length, r', by rw [hsplit], hdrop, htail, hended, ?_⟩
      rw [← List.length_append, hsplit]
      refine List.filter_eq_self.mpr fun t ht => ?_
      have := Feed.le_of_mem_stops ht
      simpa using hle.trans this

/-- Without a header block that fits, `readHeader` fails. -/
theorem readHeader_none {bufLen : ℕ} (readSize : ℕ) {buf : Bytes} {r : Reader}
    (hbuf : headEnd buf = none) (hat : headAt bufLen (buf ++ r.flat) = none) :
    ∃ e r', readHeader bufLen readSize buf r = (.error e, r') := by
  induction hn : bufLen - buf.length using Nat.strong_induction_on generalizing buf r with
  | _ n ih =>
    rw [readHeader]
    by_cases hroom : bufLen ≤ buf.length
    · exact ⟨_, _, if_pos hroom⟩
    rw [if_neg hroom]
    rcases Nat.eq_zero_or_pos (min (bufLen - buf.length) readSize) with h0 | h0
    · rw [h0, Feed.read, if_pos rfl]
      exact ⟨_, _, rfl⟩
    by_cases hr : r.flat = []
    · rw [Feed.read_nil h0 hr]
      exact ⟨_, _, rfl⟩
    obtain ⟨b, bs, r', hread, hlen, hflat, -, -⟩ := Feed.read_block h0 hr
    rw [hflat, ← List.append_assoc] at hat
    rw [hread]
    dsimp only
    rw [findHeaderEnd_eq]
    rcases hend : headEnd (buf ++ b :: bs) with _ | j
    · exact ih (bufLen - (buf ++ b :: bs).length)
        (by rw [List.length_append, List.length_cons]; omega) hend hat rfl
    · -- an end inside the buffer would have been a header block that fits
      exfalso
      have hle := (headEnd_bounds hend).2
      rw [List.length_append, List.length_cons] at hle
      rw [headAt, headEnd_append hend] at hat
      simp only [if_pos (show j ≤ bufLen by omega)] at hat
      exact absurd hat (by simp)

/-! ### The byte-wise loop -/

/-- What `readHeaderBuffered` returns when the header block fits. -/
theorem readHeaderBuffered_some {scratchLen : ℕ} {scratch : Bytes} {br : Reader}
    {head rest : Bytes} (hscr : headEnd scratch = none)
    (hat : headAt scratchLen (scratch ++ br.flat) = some (head, rest)) :
    ∃ br', readHeaderBuffered scratchLen scratch br = (.ok head, br') ∧ br'.flat = rest ∧
      br'.tail = br.tail ∧ br'.ended = br.ended := by
  induction hn : scratchLen - scratch.length using Nat.strong_induction_on
    generalizing scratch br with
  | _ n ih =>
    have hroom : ¬ scratchLen ≤ scratch.length := fun h => by
      rw [headAt_full hscr h] at hat
      exact absurd hat (by simp)
    rcases hbr : br.flat with _ | ⟨b, bs⟩
    · rw [hbr, List.append_nil, headAt_of_headEnd_none hscr] at hat
      exact absurd hat (by simp)
    obtain ⟨br', hnext, hflat, htail, hended⟩ := Feed.next_cons hbr
    have hwhole : scratch ++ br.flat = (scratch ++ [b]) ++ br'.flat := by
      rw [hbr, hflat, List.append_assoc, List.singleton_append]
    rw [hwhole] at hat
    rw [readHeaderBuffered, if_neg hroom, hnext]
    dsimp only
    have hsnoc := headEnd_snoc (b := b) hscr
    by_cases hend : endsHead (scratch ++ [b]) = true
    · rw [if_pos hend] at hsnoc ⊢
      obtain ⟨hj, -, heq⟩ := headAt_eq_some.mp hat
      have hhead : head.length = (scratch ++ [b]).length := by
        rw [List.length_append, List.length_singleton]
        exact Option.some.inj (hj.symm.trans (headEnd_append hsnoc _))
      obtain ⟨h1, h2⟩ := List.append_inj heq hhead.symm
      exact ⟨br', by rw [h1], h2, htail, hended⟩
    · rw [if_neg hend] at hsnoc ⊢
      obtain ⟨br'', h1, h2, h3, h4⟩ :=
        ih (scratchLen - (scratch ++ [b]).length)
          (by rw [List.length_append, List.length_singleton]; omega) hsnoc hat rfl
      exact ⟨br'', h1, h2, h3.trans htail, h4.trans hended⟩

/-- Without a header block that fits, `readHeaderBuffered` fails. -/
theorem readHeaderBuffered_none {scratchLen : ℕ} {scratch : Bytes} {br : Reader}
    (hscr : headEnd scratch = none) (hat : headAt scratchLen (scratch ++ br.flat) = none) :
    ∃ e br', readHeaderBuffered scratchLen scratch br = (.error e, br') := by
  induction hn : scratchLen - scratch.length using Nat.strong_induction_on
    generalizing scratch br with
  | _ n ih =>
    rw [readHeaderBuffered]
    by_cases hroom : scratchLen ≤ scratch.length
    · exact ⟨_, _, if_pos hroom⟩
    rw [if_neg hroom]
    rcases hbr : br.flat with _ | ⟨b, bs⟩
    · rw [Feed.next_nil hbr]
      exact ⟨_, _, rfl⟩
    obtain ⟨br', hnext, hflat, -, -⟩ := Feed.next_cons hbr
    have hwhole : scratch ++ br.flat = (scratch ++ [b]) ++ br'.flat := by
      rw [hbr, hflat, List.append_assoc, List.singleton_append]
    rw [hwhole] at hat
    rw [hnext]
    dsimp only
    have hsnoc := headEnd_snoc (b := b) hscr
    by_cases hend : endsHead (scratch ++ [b]) = true
    · rw [if_pos hend] at hsnoc
      exfalso
      rw [headAt, headEnd_append hsnoc] at hat
      simp only [if_pos (show scratch.length + 1 ≤ scratchLen by omega)] at hat
      exact absurd hat (by simp)
    · rw [if_neg hend] at hsnoc ⊢
      exact ih (scratchLen - (scratch ++ [b]).length)
        (by rw [List.length_append, List.length_singleton]; omega) hsnoc hat rfl

/-- The byte-wise loop returns the front of the stream up to the first terminator, if that fits. -/
theorem readHeaderBuffered_ok_iff {scratchLen : ℕ} {br : Reader} {head : Bytes} :
    (readHeaderBuffered scratchLen [] br).1 = .ok head ↔
      ∃ rest, headAt scratchLen br.flat = some (head, rest) := by
  have hflat : [] ++ br.flat = br.flat := List.nil_append _
  rcases hat : headAt scratchLen br.flat with _ | ⟨head', rest⟩
  · obtain ⟨e, br', hread⟩ := readHeaderBuffered_none headEnd_nil (hflat ▸ hat)
    rw [hread]
    simp
  · obtain ⟨br', hread, -⟩ := readHeaderBuffered_some headEnd_nil (hflat ▸ hat)
    rw [hread]
    simp [eq_comm]

/-- What `findHeaderEnd` returns on a front of a stream. -/
theorem findHeaderEnd_front {stream front : Bytes} (hfront : front <+: stream) {j : ℕ} :
    findHeaderEnd front = some j ↔ findHeaderEnd stream = some j ∧ j ≤ front.length := by
  rw [findHeaderEnd_eq, findHeaderEnd_eq]
  conv_lhs => rw [List.prefix_iff_eq_take.mp hfront]
  exact headEnd_take

/-- The first front of a stream on which `findHeaderEnd` succeeds. -/
theorem findSome_findHeaderEnd {stream : Bytes} {j : ℕ} {fronts : List Bytes}
    (hfronts : ∀ front ∈ fronts, front <+: stream) :
    fronts.findSome? findHeaderEnd = some j ↔
      findHeaderEnd stream = some j ∧ ∃ front ∈ fronts, j ≤ front.length := by
  induction fronts with
  | nil => simp
  | cons front fronts ih =>
    have hfront := findHeaderEnd_front (hfronts front List.mem_cons_self) (j := j)
    have hrest := ih fun p hp => hfronts p (List.mem_cons_of_mem front hp)
    rw [List.findSome?_cons, List.exists_mem_cons_iff, and_or_left, ← hfront, ← hrest]
    rcases hfound : findHeaderEnd front with _ | j'
    · simp
    · -- an end in the first front is the end in every later one
      obtain ⟨hwhole, -⟩ := (findHeaderEnd_front (hfronts front List.mem_cons_self)).mp hfound
      refine ⟨.inl, Or.rec id fun hlater => ?_⟩
      exact hwhole.symm.trans (hrest.mp hlater).1

/-- `findHeaderEnd` finds the first terminator of a stream, and nothing if there is none.  Of any
fronts of the stream, growing ones or others, the first on which it succeeds gives the same end as
the whole stream, and so does the byte-wise loop. -/
theorem findHeaderEnd_exact (stream : Bytes) :
    (∀ j, findHeaderEnd stream = some j ↔
      4 ≤ j ∧ CrlfAt stream (j - 4) ∧ ∀ i < j - 4, ¬ CrlfAt stream i) ∧
    (findHeaderEnd stream = none ↔ ∀ i, ¬ CrlfAt stream i) ∧
    (∀ fronts : List Bytes, (∀ front ∈ fronts, front <+: stream) → ∀ j,
      fronts.findSome? findHeaderEnd = some j ↔
        findHeaderEnd stream = some j ∧ ∃ front ∈ fronts, j ≤ front.length) ∧
    ∀ br : Reader, br.flat = stream → ∀ scratchLen j,
      (∃ head, (readHeaderBuffered scratchLen [] br).1 = .ok head ∧ head.length = j) ↔
        findHeaderEnd stream = some j ∧ j ≤ scratchLen := by
  refine ⟨fun j => ?_, ?_, ?_, ?_⟩
  · rw [findHeaderEnd_eq, headEnd_eq_some]
    constructor
    · rintro ⟨i, rfl, hat, hfirst⟩
      exact ⟨Nat.le_add_left 4 i, hat, hfirst⟩
    · rintro ⟨hle, hat, hfirst⟩
      exact ⟨j - 4, by omega, hat, hfirst⟩
  · rw [findHeaderEnd_eq]
    exact headEnd_eq_none
  · intro fronts hfronts j
    exact findSome_findHeaderEnd hfronts
  · rintro br rfl scratchLen j
    rw [findHeaderEnd_eq]
    constructor
    · rintro ⟨head, hread, rfl⟩
      obtain ⟨rest, hat⟩ := readHeaderBuffered_ok_iff.mp hread
      obtain ⟨hend, hle, -⟩ := headAt_eq_some.mp hat
      exact ⟨hend, hle⟩
    · rintro ⟨hend, hle⟩
      have hlen : (br.flat.take j).length = j := by
        rw [List.length_take, Nat.min_eq_left (headEnd_bounds hend).2]
      refine ⟨br.flat.take j, readHeaderBuffered_ok_iff.mpr ⟨br.flat.drop j, ?_⟩, hlen⟩
      rw [headAt_eq_some, hlen]
      exact ⟨hend, hle, (List.take_append_drop j br.flat).symm⟩

/-- `readHeaderBuffered` after the byte `x` it has just read. -/
def readHeaderBufferedThen (scratchLen : ℕ) (scratch : Bytes) (x : Except GoErr UInt8)
    (br : Reader) : Except GoErr Bytes × Reader :=
  match x with
  | .error e => (.error e, br)
  | .ok b =>
    if endsHead (scratch ++ [b]) then (.ok (scratch ++ [b]), br)
    else readHeaderBuffered scratchLen (scratch ++ [b]) br

theorem readHeaderBuffered_eq {scratchLen : ℕ} {scratch : Bytes}
    (h : ¬ scratchLen ≤ scratch.length) :
    readHeaderBuffered scratchLen scratch
      = fun br => readHeaderBufferedThen scratchLen scratch br.next.1 br.next.2 := by
  funext br
  rw [readHeaderBuffered, if_neg h]
  split
  · rename_i h'
    rw [h']
    rfl
  · rename_i h'
    rw [h']
    rfl

theorem readHeaderBuffered_localAt (scratchLen : ℕ) (scratch : Bytes) (br : Reader) :
    Feed.cursor.LocalAt (readHeaderBuffered scratchLen scratch) br := by
  induction hn : scratchLen - scratch.length using Nat.strong_induction_on
    generalizing scratch br with
  | _ n ih =>
    by_cases hroom : scratchLen ≤ scratch.length
    · have : readHeaderBuffered scratchLen scratch = fun br => (.error .headerTooLarge, br) := by
        funext br
        rw [readHeaderBuffered, if_pos hroom]
      rw [this]
      exact Cursor.LocalAt.pure _ _
    · rw [readHeaderBuffered_eq hroom]
      refine (Feed.next_localAt br).bind ?_
      rcases br.next.1 with _ | b
      · exact Cursor.LocalAt.pure _ _
      · unfold readHeaderBufferedThen
        dsimp only
        by_cases hend : endsHead (scratch ++ [b]) = true
        · simp only [if_pos hend]
          exact Cursor.LocalAt.pure _ _
        · simp only [if_neg hend]
          exact ih _ (by rw [List.length_append, List.length_singleton]; omega) _ _ rfl

/-! ### The parsers up to the header block -/

/-- Without a header block that fits, `readResponse` fails and leaves the response
alone. -/
theorem readResponse_noHead {bufLen : ℕ} {r : Reader} (hat : headAt bufLen r.flat = none)
    (resp : Response) (maxBody : ℤ) (method : Bytes) (headerReadSize bodyReadSize : ℕ) :
    ∃ e r', readResponse r bufLen resp maxBody method headerReadSize bodyReadSize
      = ((.error e, resp), r') := by
  obtain ⟨e, r', hread⟩ := readHeader_none (min headerReadSize bufLen) headEnd_nil
    (show headAt bufLen ([] ++ r.flat) = none by rw [List.nil_append, hat])
  exact ⟨e, r', by rw [readResponse, hread]⟩

/-- What `readResponse` asks for behind `t` bytes of a response with a head of `headLen`
bytes. -/
def requestSize (bufLen headerReadSize bodyReadSize headLen t : ℕ) : ℕ :=
  if t < headLen then min (bufLen - t) (min headerReadSize bufLen) else bodyReadSize

/-- The places in the body at which a read begins, the first of them behind the bytes left
over from the head. -/
def bodyStops (r : Reader) (bufLen headerReadSize bodyReadSize headLen : ℕ) : List ℕ :=
  ((r.stops (requestSize bufLen headerReadSize bodyReadSize headLen) 0).filter
    (headLen ≤ ·)).map (· - headLen)

/-- `readResponse` behind a head that fits, with the places the body reader starts from. -/
theorem readResponse_stops {bufLen headerReadSize : ℕ} (hsize : 0 < headerReadSize)
    (bodyReadSize : ℕ) {head rest : Bytes} {r : Reader}
    (hat : headAt bufLen r.flat = some (head, rest)) (resp : Response) (maxBody : ℤ) (method : Bytes) :
    ∃ leftover r', readResponse r bufLen resp maxBody method headerReadSize bodyReadSize
        = readBody r' head leftover resp maxBody method bodyReadSize ∧
      leftover ++ r'.flat = rest ∧ r'.tail = r.tail ∧ r'.ended = r.ended ∧
      bodyStops r bufLen headerReadSize bodyReadSize head.length
        = (r'.stops (requestSize bufLen headerReadSize bodyReadSize head.length)
            (head.length + leftover.length)).map (· - head.length) := by
  have hpos : 0 < bufLen := by
    obtain ⟨hj, hle, -⟩ := headAt_eq_some.mp hat
    have := headEnd_bounds hj
    omega
  obtain ⟨leftover, r', hread, hflat, htail, hended, hstops⟩ :=
    readHeader_stops (show 0 < min headerReadSize bufLen by omega)
      (fun t ht => if_pos ht : ∀ t, t < head.length →
        requestSize bufLen headerReadSize bodyReadSize head.length t = _) headEnd_nil
      (show headAt bufLen ([] ++ r.flat) = some (head, rest) by rw [List.nil_append, hat])
  refine ⟨leftover, r', ?_, hflat, htail, hended, ?_⟩
  · rw [readResponse, hread]
    dsimp only
    rw [List.take_left, List.drop_left]
  · rw [bodyStops]
    exact congrArg _ hstops

/-- `readResponse` behind a header block that fits: the body is read from the
bytes left over in the buffer and then from the connection. -/
theorem readResponse_head {bufLen : ℕ} {r : Reader} {head rest : Bytes}
    (hat : headAt bufLen r.flat = some (head, rest)) (resp : Response) (maxBody : ℤ)
    (method : Bytes) {headerReadSize : ℕ} (hsize : 0 < headerReadSize) (bodyReadSize : ℕ) :
    ∃ leftover r', readResponse r bufLen resp maxBody method headerReadSize bodyReadSize
        = readBody r' head leftover resp maxBody method bodyReadSize ∧
      leftover ++ r'.flat = rest ∧ r'.tail = r.tail ∧ r'.ended = r.ended := by
  obtain ⟨leftover, r', hbody, hflat, htail, hended, -⟩ :=
    readResponse_stops hsize bodyReadSize hat resp maxBody method
  exact ⟨leftover, r', hbody, hflat, htail, hended⟩

theorem readResponseBuffered_noHead {scratchLen : ℕ} {br : Reader}
    (hat : headAt scratchLen br.flat = none) (gunzip : Bytes → Gunzip) (resp : Response)
    (maxBody : ℤ) (method : Bytes) :
    ∃ e br', readResponseBuffered gunzip scratchLen resp maxBody method br
      = ((.error e, resp), br') := by
  obtain ⟨e, br', hread⟩ := readHeaderBuffered_none headEnd_nil
    (show headAt scratchLen ([] ++ br.flat) = none by rw [List.nil_append, hat])
  exact ⟨e, br', by rw [readResponseBuffered, hread]⟩

/-- `readResponseBuffered` behind a header block that fits. -/
theorem readResponseBuffered_head {scratchLen : ℕ} {br : Reader} {head rest : Bytes}
    (hat : headAt scratchLen br.flat = some (head, rest)) (gunzip : Bytes → Gunzip)
    (resp : Response) (maxBody : ℤ) (method : Bytes) :
    ∃ br', readResponseBuffered gunzip scratchLen resp maxBody method br
        = readBodyBuffered gunzip head resp maxBody method br' ∧
      br'.flat = rest ∧ br'.tail = br.tail ∧ br'.ended = br.ended := by
  obtain ⟨br', hread, hflat, htail, hended⟩ := readHeaderBuffered_some headEnd_nil
    (show headAt scratchLen ([] ++ br.flat) = some (head, rest) by rw [List.nil_append, hat])
  exact ⟨br', by rw [readResponseBuffered, hread], hflat, htail, hended⟩

end BurstHttp
