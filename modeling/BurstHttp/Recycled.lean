/-
Parsing does not look at what a recycled `Response` held before.

Two responses *agree up to `n`* when they have the same exported status and
headers, the same limits, buffers of the same length, and the same first `n`
bytes in them.  The body readers started on agreeing responses make the same
decisions, and when they succeed the exported fields are the same
(`chunkLoop_agree`, `decompressBody_agree`).
-/
import BurstHttp.Parser

namespace BurstHttp

namespace Response

/-- The exported fields. -/
def visible (r : Response) : ℤ × List Header × Bytes × ℤ :=
  (r.statusCode, r.headers, r.body, r.contentLength)

/-- The limits on the body buffer. -/
def limits (r : Response) : ℕ × ℤ := (r.bodyBuf.length, r.maxSize)

/-- Equal but for the part of the buffer behind the first `n` bytes. -/
structure Agree (n : ℕ) (a b : Response) : Prop where
  statusCode : a.statusCode = b.statusCode
  headers : a.headers = b.headers
  limits : a.limits = b.limits
  front : a.bodyBuf.take n = b.bodyBuf.take n

theorem Agree.length {n : ℕ} {a b : Response} (h : Agree n a b) :
    a.bodyBuf.length = b.bodyBuf.length := congrArg Prod.fst h.limits

theorem Agree.maxSize {n : ℕ} {a b : Response} (h : Agree n a b) : a.maxSize = b.maxSize :=
  congrArg Prod.snd h.limits

/-- What `ensureBufferSize` answers depends only on the limits, and so does the
new buffer when there is one. -/
theorem ensureBufferSize_agree {n : ℕ} {a b : Response} (h : Agree n a b) (required : ℤ) :
    (a.ensureBufferSize required).1 = (b.ensureBufferSize required).1 ∧
      Agree n (a.ensureBufferSize required).2 (b.ensureBufferSize required).2 := by
  have hlen := h.length
  have hmax := h.maxSize
  unfold ensureBufferSize
  rw [hlen, hmax]
  dsimp only
  split_ifs
  · exact ⟨rfl, h⟩
  · exact ⟨rfl, h⟩
  · exact ⟨rfl, h⟩
  · exact ⟨rfl, h.statusCode, h.headers, by simp [limits], rfl⟩
  · exact ⟨rfl, h.statusCode, h.headers, by simp [limits], rfl⟩

end Response

theorem overwrite_length {buf bs : Bytes} {off : ℕ} (h : off + bs.length ≤ buf.length) :
    (overwrite buf off bs).length = buf.length := by
  simp only [overwrite, List.length_append, List.length_take, List.length_drop]
  omega

theorem overwrite_take {buf : Bytes} {off : ℕ} (h : off ≤ buf.length) (bs : Bytes) :
    (overwrite buf off bs).take (off + bs.length) = buf.take off ++ bs := by
  rw [overwrite, List.take_left']
  simp only [List.length_append, List.length_take]
  omega

/-- Storing the same bytes behind the common front extends it. -/
theorem Response.Agree.overwrite {n : ℕ} {a b : Response} (h : Response.Agree n a b) (bs : Bytes)
    (hn : n + bs.length ≤ a.bodyBuf.length) :
    Response.Agree (n + bs.length) { a with bodyBuf := BurstHttp.overwrite a.bodyBuf n bs }
      { b with bodyBuf := BurstHttp.overwrite b.bodyBuf n bs } := by
  have hlen := h.length
  refine ⟨h.statusCode, h.headers, ?_, ?_⟩
  · simp only [Response.limits, Prod.mk.injEq]
    refine ⟨?_, h.maxSize⟩
    rw [overwrite_length hn, overwrite_length (by omega), hlen]
  · show (BurstHttp.overwrite a.bodyBuf n bs).take _ = (BurstHttp.overwrite b.bodyBuf n bs).take _
    rw [overwrite_take (by omega), overwrite_take (by omega), h.front]

/-! ### Chunked bodies -/

/-- The two decisions on one chunk-size line correspond. -/
inductive ChunkLine.Agree (n : ℕ) : ChunkLine → ChunkLine → Prop
  | fail (ret : Ret) (a b : Response) (hret : ret ≠ .nil) : Agree n (.fail ret a) (.fail ret b)
  | last : Agree n .last .last
  | data (a b : Response) (m : ℕ) (h : Response.Agree n a b) (hnm : n ≤ m)
      (hm : m ≤ a.bodyBuf.length) : Agree n (.data a m) (.data b m)

theorem chunkLine_agree (maxBody : ℤ) {n : ℕ} {a b : Response} (h : Response.Agree n a b)
    (line : Bytes) :
    ChunkLine.Agree n (chunkLine maxBody a n line) (chunkLine maxBody b n line) := by
  unfold chunkLine
  rcases parseInt16 (line.takeWhile (· != 59)) with _ | chunkSize
  · exact .fail _ _ _ (by simp)
  dsimp only
  by_cases h1 : chunkSize < 0
  · rw [if_pos h1, if_pos h1]
    exact .fail _ _ _ (by simp)
  rw [if_neg h1, if_neg h1]
  by_cases h2 : chunkSize = 0
  · rw [if_pos h2, if_pos h2]
    exact .last
  rw [if_neg h2, if_neg h2]
  by_cases h3 : 0 < maxBody ∧ maxBody < wrap64 (n + chunkSize)
  · rw [if_pos h3, if_pos h3]
    exact .fail _ _ _ (by simp)
  rw [if_neg h3, if_neg h3]
  obtain ⟨hok, hag⟩ := Response.ensureBufferSize_agree h (wrap64 (n + chunkSize))
  rcases ha : a.ensureBufferSize (wrap64 (n + chunkSize)) with ⟨_ | _, a'⟩
  · rcases hb : b.ensureBufferSize (wrap64 (n + chunkSize)) with ⟨_ | _, b'⟩
    · exact .fail _ _ _ (by simp)
    · rw [ha, hb] at hok
      exact absurd hok (by simp)
  · rcases hb : b.ensureBufferSize (wrap64 (n + chunkSize)) with ⟨_ | _, b'⟩
    · rw [ha, hb] at hok
      exact absurd hok (by simp)
    · have hle := Response.ensureBufferSize_le a (wrap64 (n + chunkSize))
        (by rw [ha])
      rw [ha, hb] at hag
      rw [ha] at hle
      dsimp only at hag hle ⊢
      by_cases h4 : wrap64 (n + chunkSize) < n
      · rw [if_pos h4, if_pos h4]
        exact .fail _ _ _ (by simp)
      · rw [if_neg h4, if_neg h4]
        exact .data _ _ _ hag (by omega) (by omega)

/-- Agreeing responses give the same outcome; on success the exported fields
and the limits are the same. -/
theorem chunkLoop_agree (maxBody : ℤ) {n : ℕ} {a b : Response} (h : Response.Agree n a b)
    (hn : n ≤ a.bodyBuf.length) (s : ChunkReader) :
    (chunkLoop maxBody a n s).1.1 = (chunkLoop maxBody b n s).1.1 ∧
    (chunkLoop maxBody a n s).2 = (chunkLoop maxBody b n s).2 ∧
    ((chunkLoop maxBody a n s).1.1 = .nil →
      (chunkLoop maxBody a n s).1.2.visible = (chunkLoop maxBody b n s).1.2.visible ∧
      (chunkLoop maxBody a n s).1.2.limits = (chunkLoop maxBody b n s).1.2.limits) := by
  induction hk : s.flat.length using Nat.strong_induction_on generalizing n a b s with
  | _ k ih =>
    simp only [chunkLoop_eq]
    rcases hread : s.readLine [] with ⟨_ | line, s1⟩
    · exact ⟨rfl, rfl, fun hnil => absurd hnil (by simp [chunkLoopThen])⟩
    have hline := chunkLine_agree maxBody h line
    unfold chunkLoopThen
    dsimp only
    generalize chunkLine maxBody a n line = la at hline ⊢
    generalize chunkLine maxBody b n line = lb at hline ⊢
    cases hline with
    | fail ret a' b' hret => exact ⟨rfl, rfl, fun hnil => absurd hnil hret⟩
    | last =>
      refine ⟨rfl, rfl, fun _ => ⟨?_, h.limits⟩⟩
      simp only [Response.visible, h.statusCode, h.headers, h.front]
    | data a' b' m hag hnm hm =>
      have hlt := ChunkReader.round_flat_lt hread (m - n)
      obtain ⟨s2, -, -, -, hexact⟩ := ChunkReader.readExact_eq s1 (m - n)
      rw [hexact] at hlt
      simp only [hexact]
      unfold chunkLoopData
      dsimp only
      by_cases hshort : s1.flat.length < m - n
      · rw [if_pos hshort]
        exact ⟨rfl, rfl, fun hnil => absurd hnil (by simp)⟩
      · rw [if_neg hshort]
        have hbs : (s1.flat.take (m - n)).length = m - n := by
          rw [List.length_take]
          omega
        have hag' := hag.overwrite (s1.flat.take (m - n)) (by omega)
        rw [hbs, show n + (m - n) = m by omega] at hag'
        refine ih _ (hk ▸ hlt) hag' ?_ _ rfl
        show m ≤ (BurstHttp.overwrite a'.bodyBuf n (s1.flat.take (m - n))).length
        rw [overwrite_length (by omega)]
        exact hm

/-! ### Decompression -/

theorem decompressBody_agree (gunzip : Bytes → Gunzip) {a b : Response}
    (hv : a.visible = b.visible) (hl : a.limits = b.limits) :
    (decompressBody gunzip a).1 = (decompressBody gunzip b).1 ∧
      (decompressBody gunzip a).2.visible = (decompressBody gunzip b).2.visible := by
  simp only [Response.visible, Prod.mk.injEq] at hv
  obtain ⟨hs, hh, hb, hc⟩ := hv
  have hag : Response.Agree 0 a b := ⟨hs, hh, hl, by simp⟩
  unfold decompressBody
  rw [hb, hh]
  split
  · exact ⟨rfl, by simp [Response.visible, hs, hh, hb, hc]⟩
  split
  · exact ⟨rfl, by simp [Response.visible, hs, hh, hb, hc]⟩
  rcases gunzip b.body with e | e | data
  · exact ⟨rfl, by simp [Response.visible, hs, hh, hb, hc]⟩
  · exact ⟨rfl, by simp [Response.visible, hs, hh, hb, hc]⟩
  · obtain ⟨hok, hag'⟩ := Response.ensureBufferSize_agree hag data.length
    refine ⟨rfl, ?_⟩
    simp only [Response.visible, hok, hag'.length, hag'.statusCode, hag'.headers]

end BurstHttp
