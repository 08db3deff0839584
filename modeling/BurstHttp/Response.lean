/-
`Response` and its body buffer (response.go).

`body` is the slice `resp.Body`; `bodyBuf` is the whole recycled buffer, with
its old contents.  `ensureBufferSize` replaces the buffer when it is too
small: the new one is zeroed and the old contents are not copied
(`ensureBufferSize_grow`).
-/
import BurstHttp.Basic

namespace BurstHttp

/-- `Header`. -/
structure Header where
  key : Bytes
  value : Bytes
  deriving DecidableEq, Repr

/-- `Response`. -/
structure Response where
  statusCode : ℤ
  contentLength : ℤ
  body : Bytes
  headers : List Header
  bodyBuf : Bytes
  maxSize : ℤ
  rawHeaderBuf : Bytes
  deriving DecidableEq, Repr

/-- ASCII lower case, the `ch += 32` of the source's comparison loops. -/
def lower (b : UInt8) : UInt8 := if 65 ≤ b ∧ b ≤ 90 then b + 32 else b

/-- `strEqualFoldASCII`. -/
def strEqualFoldASCII (a b : Bytes) : Bool :=
  a.length == b.length && a.map lower == b.map lower

namespace Response

/-- `Response.Reset`. -/
def reset (r : Response) : Response :=
  { r with statusCode := 0, contentLength := 0, body := [], headers := [], maxSize := 0,
           rawHeaderBuf := [] }

/-- `Response.isConnectionClose`. -/
def isConnectionClose (r : Response) : Bool :=
  r.headers.any fun h =>
    strEqualFoldASCII h.key (ascii "Connection") && strEqualFoldASCII h.value (ascii "close")

/-- `((n / m) + 1) * m` unless `m` divides `n`. -/
def roundUp (n m : ℤ) : ℤ := if n % m ≠ 0 then (n / m + 1) * m else n

/-- The size `ensureBufferSize` asks for before it applies `maxSize`. -/
def grownSize (len : ℕ) (required : ℤ) : ℤ :=
  let newSize : ℤ := if len * 2 < required then required else len * 2
  if newSize < 1024 * 1024 then roundUp newSize 4096 else roundUp newSize 65536

/-- `Response.ensureBufferSize`. -/
def ensureBufferSize (r : Response) (required : ℤ) : Bool × Response :=
  if required ≤ r.bodyBuf.length then (true, r)
  else if 0 < r.maxSize ∧ r.maxSize < required then (false, r)
  else
    let newSize := grownSize r.bodyBuf.length required
    if 0 < r.maxSize ∧ r.maxSize < newSize then
      if r.maxSize < required then (false, r)
      else (true, { r with bodyBuf := List.replicate r.maxSize.toNat 0 })
    else (true, { r with bodyBuf := List.replicate newSize.toNat 0 })

theorem le_roundUp (n : ℤ) {m : ℤ} (hm : 0 < m) : n ≤ roundUp n m := by
  unfold roundUp
  split
  · have h := Int.lt_ediv_add_one_mul_self n hm
    omega
  · exact le_rfl

theorem le_grownSize (len : ℕ) (required : ℤ) : required ≤ grownSize len required := by
  unfold grownSize
  dsimp only
  generalize hn : (if (len * 2 : ℤ) < required then required else len * 2) = n
  have hle : required ≤ n := by
    rw [← hn]
    split <;> omega
  split
  · exact hle.trans (le_roundUp n (by norm_num))
  · exact hle.trans (le_roundUp n (by norm_num))

/-- Up to this limit every size that `ensureBufferSize` computes is an `int`, and one that `make`
takes: twice as much is the address space. -/
def safeSize : ℤ := 2 ^ 47

theorem roundUp_le {n m k : ℤ} (hm : 0 < m) (hk : m ∣ k) (h : n ≤ k) : roundUp n m ≤ k := by
  unfold roundUp
  split
  · case _ hn =>
    obtain ⟨q, rfl⟩ := hk
    have hne : n ≠ m * q := by
      rintro rfl
      exact hn (Int.mul_emod_right m q)
    have hlt : n / m < q := Int.ediv_lt_of_lt_mul hm (by rw [mul_comm]; omega)
    calc (n / m + 1) * m ≤ q * m := Int.mul_le_mul_of_nonneg_right hlt hm.le
      _ = m * q := mul_comm q m
  · exact h

theorem grownSize_le {len : ℕ} {required : ℤ} (hlen : (len : ℤ) ≤ required)
    (h : required ≤ safeSize) : grownSize len required ≤ 2 * safeSize := by
  unfold grownSize
  dsimp only
  generalize hn : (if (len * 2 : ℤ) < required then required else len * 2) = n
  have hle : n ≤ 2 * safeSize := by
    rw [← hn]
    unfold safeSize at h ⊢
    split <;> omega
  split
  · exact roundUp_le (by norm_num) (by decide) hle
  · exact roundUp_le (by norm_num) (by decide) hle

/-- A buffer that is large enough is kept. -/
theorem ensureBufferSize_fits {r : Response} {required : ℤ}
    (h : required ≤ r.bodyBuf.length) : r.ensureBufferSize required = (true, r) := by
  rw [ensureBufferSize, if_pos h]

/-- Without a `maxSize` a buffer that is too small is replaced by a zeroed one. -/
theorem ensureBufferSize_grow {r : Response} {required : ℤ} (hmax : r.maxSize = 0)
    (h : (r.bodyBuf.length : ℤ) < required) :
    r.ensureBufferSize required
      = (true, { r with bodyBuf := List.replicate (grownSize r.bodyBuf.length required).toNat 0 }) := by
  rw [ensureBufferSize, if_neg (by omega), if_neg (by omega)]
  dsimp only
  rw [if_neg (by omega)]

/-- `ensureBufferSize` touches nothing but the buffer. -/
theorem ensureBufferSize_frame (r : Response) (required : ℤ) :
    ∃ buf, (r.ensureBufferSize required).2 = { r with bodyBuf := buf } := by
  unfold ensureBufferSize
  dsimp only
  split_ifs <;> exact ⟨_, rfl⟩

/-- What the head of a response leaves in the object. -/
def shown (r : Response) : ℤ × List Header := (r.statusCode, r.headers)

theorem ensureBufferSize_shown (r : Response) (required : ℤ) :
    (r.ensureBufferSize required).2.shown = r.shown := by
  obtain ⟨buf, hframe⟩ := r.ensureBufferSize_frame required
  rw [hframe]
  rfl

/-- When `ensureBufferSize` says yes, the buffer has the required length. -/
theorem ensureBufferSize_le (r : Response) (required : ℤ)
    (h : (r.ensureBufferSize required).1 = true) :
    required ≤ (r.ensureBufferSize required).2.bodyBuf.length := by
  unfold ensureBufferSize at h ⊢
  dsimp only at h ⊢
  have hgrown := le_grownSize r.bodyBuf.length required
  split_ifs at h ⊢ with h1 h2 h3 h4
  · exact h1
  · rw [List.length_replicate]
    omega
  · rw [List.length_replicate]
    omega

/-- No buffer is made that does not fit the address space. -/
theorem ensureBufferSize_length_le (r : Response) {required : ℤ} (h : required ≤ safeSize) :
    ((r.ensureBufferSize required).2.bodyBuf.length : ℤ)
      ≤ max (r.bodyBuf.length : ℤ) (2 * safeSize) := by
  unfold ensureBufferSize
  split
  · exact le_max_left ..
  · case _ hlen =>
    have hle : (r.bodyBuf.length : ℤ) ≤ required := by omega
    have hgrown := grownSize_le hle h
    dsimp only
    split_ifs with h1 h2 h3
    · exact le_max_left ..
    · exact le_max_left ..
    · refine le_max_of_le_right ?_
      rw [List.length_replicate]
      unfold safeSize at hgrown ⊢
      omega
    · refine le_max_of_le_right ?_
      rw [List.length_replicate]
      unfold safeSize at hgrown ⊢
      omega

end Response

end BurstHttp
