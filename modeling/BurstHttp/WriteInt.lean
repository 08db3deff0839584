/-
Numbers in a buffer (writer.go, `writeByte`, `writeBytes`, `writeInt`).

The encoders write with `Page.put`, which cannot fail half way.  Here the writes are those of the
source: single bytes that are assigned one after the other, at a position that may be anywhere, and
a scratch array of twenty bytes for the digits of a long number.

* `InPlace.assign_eq` — the assignments replace a segment of the buffer, if it has room for them;
* `InPlace.writeInt_eq`, `InPlace.writeInt_refines` — so `writeInt` writes the decimal digits if
  they fit, and refines the write of the encoders;
* `writeInt_roundTrip` — what it writes, and that `parseContentLength` reads it back.
-/
import BurstHttp.Address
import BurstHttp.ContentLength
import BurstHttp.Writer

namespace BurstHttp

/-- The arguments `buf` and `*pos` of the write functions. -/
structure BufPos where
  buf : Bytes
  pos : ℕ
  deriving DecidableEq, Repr

namespace InPlace

/-- `buf[i] = b` for bytes that follow each other.  Nothing is an index out of range. -/
def assign (buf : Bytes) (i : ℕ) : Bytes → Option Bytes
  | [] => some buf
  | b :: bs => if i < buf.length then assign (buf.set i b) (i + 1) bs else none

/-- A test for room, and assignments from `*pos` on. -/
def assignAt (w : BufPos) (bs : Bytes) : Option (Bool × BufPos) :=
  if w.buf.length < w.pos + bs.length then some (false, w)
  else (assign w.buf w.pos bs).map fun buf => (true, ⟨buf, w.pos + bs.length⟩)

def writeByte (b : UInt8) (w : BufPos) : Option (Bool × BufPos) := assignAt w [b]

/-- `writeBytes`: the slice that is copied into has the length of `b`. -/
def writeBytes (b : Bytes) (w : BufPos) : Bool × BufPos :=
  if w.buf.length < w.pos + b.length then (false, w)
  else (true, ⟨overwrite w.buf w.pos b, w.pos + b.length⟩)

def writeInt (n : ℤ) (w : BufPos) : Option (Bool × BufPos) :=
  if n < 0 then some (false, w)
  else
    let n := n.toNat
    let digit := Decimal.digit
    if n = 0 then writeByte (digit 0) w
    else if n < 10 then writeByte (digit n) w
    else if n < 100 then assignAt w [digit (n / 10), digit (n % 10)]
    else if n < 1000 then assignAt w [digit (n / 100), digit (n / 10 % 10), digit (n % 10)]
    else if n < 10000 then
      assignAt w [digit (n / 1000), digit (n / 100 % 10), digit (n / 10 % 10), digit (n % 10)]
    -- the digits of `n` at the end of `tmp`
    else (digitLoop 20 n []).map fun digits => writeBytes digits w

/-! ### What is written -/

/-- The assignments replace a segment of the buffer. -/
theorem assign_eq {buf bs : Bytes} {i : ℕ} (h : i + bs.length ≤ buf.length) :
    assign buf i bs = some (overwrite buf i bs) := by
  induction bs generalizing buf i with
  | nil => simp [assign, overwrite]
  | cons b bs ih =>
    rw [List.length_cons] at h
    -- the first byte comes to lie before the others
    have hset : buf.set i b = (buf.take i ++ [b]) ++ buf.drop (i + 1) := by
      rw [List.set_eq_take_append_cons_drop, if_pos (by omega), List.append_assoc]
      rfl
    have hlen : (buf.take i ++ [b]).length = i + 1 := by
      rw [List.length_append, List.length_take, List.length_singleton]
      omega
    rw [assign, if_pos (by omega), ih (by rw [List.length_set]; omega), hset, overwrite, overwrite,
      List.take_left' hlen, ← List.drop_drop, List.drop_left' hlen, List.drop_drop,
      List.length_cons]
    simp [Nat.add_assoc, Nat.add_comm 1]

theorem assignAt_eq (w : BufPos) (bs : Bytes) : assignAt w bs = some (writeBytes bs w) := by
  unfold assignAt writeBytes
  split
  · rfl
  · rw [assign_eq (by omega)]
    rfl

/-- `writeInt` is `writeBytes` of the decimal digits, whichever of its branches it takes. -/
theorem writeInt_eq {n : ℤ} (h0 : 0 ≤ n) (h1 : n < 2 ^ 63) (w : BufPos) :
    writeInt n w = some (writeBytes (Decimal.digits n.toNat) w) := by
  have hlt : n.toNat < 2 ^ 63 := by omega
  rw [writeInt, if_neg (by omega)]
  dsimp only [writeByte]
  simp only [assignAt_eq]
  generalize n.toNat = n at hlt ⊢
  split_ifs with h0 h1 h2 h3 h4
  · rw [h0, Decimal.digits_one (by omega)]
  · rw [Decimal.digits_one h1]
  · rw [Decimal.digits_two (by omega) h2]
  · rw [Decimal.digits_three (by omega) h3]
  · rw [Decimal.digits_four (by omega) h4]
  · -- a number of 64 bits has at most twenty digits
    have hroom : (Decimal.digits n).length ≤ 20 :=
      (Decimal.length_digits_le_iff (by decide)).mpr (hlt.trans (by decide))
    rw [digitLoop_eq (by omega), if_pos hroom, List.append_nil]
    rfl

/-- The buffer and the position of a page. -/
def ofPage (p : Page UInt8) : BufPos := ⟨p.buf, p.pos⟩

/-- A write at the position of a page. -/
theorem writeBytes_refines (bs : Bytes) (p : Page UInt8) :
    writeBytes bs (ofPage p) = ((p.put bs).isSome, ofPage ((p.put bs).getD p)) := by
  unfold writeBytes Page.put
  by_cases hroom : p.pos + bs.length ≤ p.buf.length
  · rw [dif_pos hroom, if_neg (by simpa [ofPage] using hroom)]
    rfl
  · rw [dif_neg hroom, if_pos (by simpa [ofPage] using hroom)]
    rfl

/-- The write of the encoders is refined by the one of the source: it succeeds on the same pages,
with the same bytes, and a failure leaves the page alone. -/
theorem writeInt_refines {n : ℤ} (h0 : 0 ≤ n) (h1 : n < 2 ^ 63) (p : Page UInt8) :
    writeInt n (ofPage p)
      = some ((BurstHttp.writeInt n p).isSome, ofPage ((BurstHttp.writeInt n p).getD p)) := by
  rw [writeInt_eq h0 h1, BurstHttp.writeInt_eq h0, writeBytes_refines]

/-- What `writeBytes` leaves in the buffer, where it succeeds. -/
theorem overwrite_segment {buf bs : Bytes} {pos : ℕ} (h : pos + bs.length ≤ buf.length) :
    (overwrite buf pos bs).length = buf.length ∧
    ((overwrite buf pos bs).drop pos).take bs.length = bs ∧
    ∀ i, i < pos ∨ pos + bs.length ≤ i → (overwrite buf pos bs)[i]? = buf[i]? := by
  have hlen : (buf.take pos).length = pos := by
    rw [List.length_take]
    omega
  unfold overwrite
  refine ⟨?_, ?_, ?_⟩
  · simp only [List.length_append, hlen, List.length_drop]
    omega
  · rw [List.append_assoc, List.drop_left' hlen, List.take_left]
  · rintro i (hi | hi)
    · rw [List.append_assoc, List.getElem?_append_left (by omega), List.getElem?_take_of_lt hi]
    · have hfront : (buf.take pos ++ bs).length = pos + bs.length := by
        rw [List.length_append, hlen]
      rw [List.getElem?_append_right (by omega), hfront, List.getElem?_drop]
      congr 1
      omega

end InPlace

theorem isDigit_of_mem_digits {n : ℕ} {b : UInt8} (h : b ∈ Decimal.digits n) : isDigit b = true := by
  have hdigit := Decimal.isDigit_of_mem h
  simp only [Decimal.isDigit, decide_eq_true_eq] at hdigit
  simp only [isDigit, Bool.and_eq_true, decide_eq_true_eq, UInt8.le_iff_toNat_le]
  exact hdigit

/-- `writeInt` succeeds if the decimal digits of a number fit behind the position.  Then it writes
them there and nowhere else and moves the position behind them; otherwise it does nothing.  The
digits are read back from a `Content-Length` line. -/
theorem writeInt_roundTrip {n : ℤ} (h0 : 0 ≤ n) (h1 : n < 2 ^ 63) (buf : Bytes) (pos : ℕ)
    {digits : Bytes} (hdigits : digits = Decimal.digits n.toNat) :
    (pos + digits.length ≤ buf.length → ∃ buf',
      InPlace.writeInt n ⟨buf, pos⟩ = some (true, ⟨buf', pos + digits.length⟩) ∧
      buf'.length = buf.length ∧ (buf'.drop pos).take digits.length = digits ∧
      ∀ i, i < pos ∨ pos + digits.length ≤ i → buf'[i]? = buf[i]?) ∧
    (buf.length < pos + digits.length →
      InPlace.writeInt n ⟨buf, pos⟩ = some (false, ⟨buf, pos⟩)) ∧
    ∀ head pre post : Bytes,
      head = pre ++ (ascii "Content-Length: " ++ digits ++ CR :: LF :: post) →
      (∀ i, hasKey lengthKey (head.drop i) = true → i = pre.length) →
      parseContentLength head = (n, true) := by
  subst hdigits
  rw [InPlace.writeInt_eq h0 h1]
  refine ⟨?_, ?_, ?_⟩
  · intro hfits
    refine ⟨overwrite buf pos (Decimal.digits n.toNat), ?_, InPlace.overwrite_segment hfits⟩
    rw [InPlace.writeBytes, if_neg (by simpa using hfits)]
  · intro hshort
    rw [InPlace.writeBytes, if_pos hshort]
  · intro head pre post hhead honce
    have hline : LengthLine head pre (Decimal.digits n.toNat) post :=
      ⟨hhead, honce, Decimal.digits_ne_nil _, fun b hb => isDigit_of_mem_digits hb⟩
    rw [hline.parse, Decimal.value_digits, Int.toNat_of_nonneg h0, wrap64_eq (by omega) h1]

/-- A length of five digits behind two other bytes, and in a header block. -/
theorem writeInt_roundTrip_12345 :
    (∃ buf', InPlace.writeInt 12345 ⟨List.replicate 8 0, 2⟩ = some (true, ⟨buf', 7⟩) ∧
      (buf'.drop 2).take 5 = ascii "12345") ∧
    InPlace.writeInt 12345 ⟨List.replicate 6 0, 2⟩ = some (false, ⟨List.replicate 6 0, 2⟩) ∧
    parseContentLength (ascii "HTTP/1.1 200 OK\r\nContent-Length: 12345\r\n\r\n") = (12345, true) := by
  have hdigits : ascii "12345" = Decimal.digits (12345 : ℤ).toNat := by decide
  obtain ⟨hfits, -, hparse⟩ :=
    writeInt_roundTrip (by decide) (by decide) (List.replicate 8 0) 2 hdigits
  obtain ⟨-, hshort, -⟩ :=
    writeInt_roundTrip (by decide) (by decide) (List.replicate 6 0) 2 hdigits
  obtain ⟨buf', hwrite, -, hbytes, -⟩ := hfits (by decide)
  refine ⟨⟨buf', hwrite, hbytes⟩, hshort (by decide), ?_⟩
  refine hparse _ (ascii "HTTP/1.1 200 OK\r\n") (ascii "\r\n") (by decide) ?_
  intro i hkey
  have hlt : i < 42 := by
    by_contra hge
    rw [List.drop_eq_nil_of_le (by simpa [ascii] using hge)] at hkey
    exact absurd hkey (by decide)
  revert hkey
  revert i
  decide

end BurstHttp
