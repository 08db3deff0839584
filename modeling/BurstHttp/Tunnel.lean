/-
A tunnel through an HTTP proxy (proxy.go, `readConnectResponse`).

`readConnectResponse` makes one read, and a second one if the first has not brought the end
of the header block.  It takes the status code from fixed places, and what it has read
behind the header block is lost.

* `arrived` — what the reads bring, by the segments of the stream;
* `readConnectResponse_eq` — the outcome, and what is left;
* `connectResponse_iff` — the streams on which both are as they should be.
-/
import BurstHttp.Fields
import BurstHttp.Header
import BurstHttp.Lib.Feed
import BurstHttp.Writer

namespace BurstHttp

/-! ### The response -/

/-- What `readConnectResponse` returns. -/
inductive ConnectErr
  | io (err : GoErr)
  | closed                     -- "proxy connection closed"
  | tooLarge                   -- "proxy response too large"
  | incomplete                 -- "proxy response incomplete"
  | tooShort                   -- "proxy response too short"
  | rejected (statusCode : ℕ)  -- "proxy CONNECT rejected (HTTP "
  deriving DecidableEq

/-- The check of the status code, in what has been read. -/
def checkConnect (buf : Bytes) : Except ConnectErr Unit :=
  if buf.length < 12 then .error .tooShort
  else if (buf.drop 9).take 3 = ascii "200" then .ok ()
  else
    .error (.rejected ((buf.getD 9 0 - 48).toNat * 100 + (buf.getD 10 0 - 48).toNat * 10
      + (buf.getD 11 0 - 48).toNat))

/-- `ProxyDialer.readConnectResponse`, and what is left on the connection. -/
def readConnectResponse (r : Feed UInt8 GoErr) : Except ConnectErr Unit × Feed UInt8 GoErr :=
  match r.read 512 with
  | (.error err, r) => (.error (.io err), r)
  | (.ok got, r) =>
    if got = [] then (.error .closed, r)
    else
      match findHeaderEnd got with
      | some _ => (checkConnect got, r)
      | none =>
        if 512 ≤ got.length then (.error .tooLarge, r)
        else
          match r.read (512 - got.length) with
          | (.error err, r) => (.error (.io err), r)
          | (.ok more, r) =>
            if more = [] then (.error .closed, r)
            else
              match findHeaderEnd (got ++ more) with
              | none => (.error .incomplete, r)
              | some _ => (checkConnect (got ++ more), r)

/-- What the reads bring, when the header block has `n` bytes: the first segment if it has all of
the block, and otherwise the first two, but never more than 512 bytes. -/
def arrived (n : ℕ) : List Bytes → Bytes
  | [] => []
  | s :: rest =>
    if n ≤ s.length then s.take 512 else s ++ (rest.headD []).take (512 - s.length)

/-- A code from 200 to 299, as `parseStatusCode` reads it. -/
def Is2xx (head : Bytes) : Prop :=
  (parseStatusCode head).2 = true ∧ 200 ≤ (parseStatusCode head).1 ∧ (parseStatusCode head).1 < 300

instance (head : Bytes) : Decidable (Is2xx head) := inferInstanceAs (Decidable (_ ∧ _ ∧ _))

theorem checkConnect_iff {buf : Bytes} :
    checkConnect buf = .ok () ↔ (buf.drop 9).take 3 = ascii "200" := by
  unfold checkConnect
  by_cases hshort : buf.length < 12
  · rw [if_pos hshort]
    refine iff_of_false nofun ?_
    intro hcode
    have hlen := congrArg List.length hcode
    rw [List.length_take, List.length_drop, show (ascii "200").length = 3 by decide] at hlen
    omega
  · rw [if_neg hshort]
    split
    · rename_i hcode
      exact iff_of_true rfl hcode
    · rename_i hcode
      exact iff_of_false nofun hcode

/-- The end of the block is found as soon as the block is there. -/
theorem findHeaderEnd_take {head : Bytes} (hhead : headEnd head = some head.length)
    (tunnel : Bytes) (n : ℕ) :
    findHeaderEnd ((head ++ tunnel).take n) = if head.length ≤ n then some head.length else none := by
  rw [findHeaderEnd_eq]
  have hwhole := headEnd_append hhead tunnel
  split
  · rename_i hle
    exact headEnd_take.mpr ⟨hwhole, hle⟩
  · rename_i hlt
    cases hfound : headEnd ((head ++ tunnel).take n) with
    | none => rfl
    | some j =>
      obtain ⟨hj, hle⟩ := headEnd_take.mp hfound
      rw [hwhole, Option.some_inj] at hj
      omega

/-- One read is enough if it brings the end of the block. -/
theorem readConnectResponse_once {r r₁ : Feed UInt8 GoErr} {got : Bytes} {n : ℕ}
    (hread : r.read 512 = (.ok got, r₁)) (hne : got ≠ []) (hfound : findHeaderEnd got = some n) :
    readConnectResponse r = (checkConnect got, r₁) := by
  simp only [readConnectResponse, hread, if_neg hne, hfound]

/-- Otherwise there is a second one, and no third. -/
theorem readConnectResponse_twice {r r₁ r₂ : Feed UInt8 GoErr} {got more : Bytes}
    (hread : r.read 512 = (.ok got, r₁)) (hne : got ≠ []) (hnot : findHeaderEnd got = none)
    (hroom : got.length < 512) (hread' : r₁.read (512 - got.length) = (.ok more, r₂))
    (hne' : more ≠ []) :
    readConnectResponse r
      = (if (findHeaderEnd (got ++ more)).isSome then checkConnect (got ++ more)
          else .error .incomplete, r₂) := by
  have hroom' : ¬ 512 ≤ got.length := by omega
  simp only [readConnectResponse, hread, if_neg hne, hnot, if_neg hroom', hread', if_neg hne']
  cases findHeaderEnd (got ++ more) <;> rfl

/-- What the reads bring is the front of the stream; if the block is in it, the status code is
looked at, and the rest is what is left. -/
theorem readConnectResponse_eq {r : Feed UInt8 GoErr} {head tunnel : Bytes}
    (hflat : r.flat = head ++ tunnel) (hhead : headEnd head = some head.length)
    (hlen : head.length ≤ 512) :
    arrived head.length r.segs = (head ++ tunnel).take (arrived head.length r.segs).length
      ∧ (readConnectResponse r).1
        = (if head.length ≤ (arrived head.length r.segs).length
            then checkConnect (arrived head.length r.segs) else .error .incomplete)
      ∧ (readConnectResponse r).2.flat
        = (head ++ tunnel).drop (arrived head.length r.segs).length := by
  have hpos := (headEnd_bounds hhead).1
  rcases hs : r.segs with _ | ⟨s, rest⟩
  · -- there is nothing on the stream
    rw [Feed.flat, hs] at hflat
    have hlen' := congrArg List.length hflat
    rw [List.length_append, List.flatten_nil, List.length_nil] at hlen'
    omega
  have hsegs : s ++ rest.flatten = head ++ tunnel := by
    rw [← hflat, Feed.flat, hs, List.flatten_cons]
  have hne : s ≠ [] := r.ne_nil s (by rw [hs]; exact List.mem_cons_self)
  obtain ⟨r₁, hread, hsegs₁, hflat₁⟩ := Feed.read_cons (show 0 < 512 by decide) hs
  rw [hflat] at hflat₁
  by_cases hfirst : head.length ≤ s.length
  · -- the first read brings the whole block
    have hle : head.length ≤ (s.take 512).length := by
      rw [List.length_take]
      omega
    have hgot : s.take 512 = (head ++ tunnel).take (s.take 512).length :=
      List.prefix_iff_eq_take.mp ((List.take_prefix _ _).trans ⟨_, hsegs⟩)
    have hne' : s.take 512 ≠ [] := fun hnil =>
      hne ((List.take_eq_nil_iff.mp hnil).resolve_left (by decide))
    have hfound : findHeaderEnd (s.take 512) = some head.length := by
      rw [hgot, findHeaderEnd_take hhead, if_pos hle]
    simp only [arrived, if_pos hfirst, if_pos hle]
    rw [readConnectResponse_once hread hne' hfound]
    exact ⟨hgot, rfl, hflat₁⟩
  · -- the first read brings the first segment, which is not all of it
    have htake : s.take 512 = s := List.take_of_length_le (by omega)
    rw [htake] at hread hflat₁
    have hsegs₁ : r₁.segs = rest := by
      rw [hsegs₁, Feed.dropHead, if_neg (by omega)]
    have hnot : findHeaderEnd s = none := by
      have hfront : s = (head ++ tunnel).take s.length := by rw [← hsegs, List.take_left]
      rw [hfront, findHeaderEnd_take hhead, if_neg hfirst]
    rcases rest with _ | ⟨s', rest⟩
    · have hlen' := congrArg List.length hsegs
      rw [List.length_append, List.length_append, List.flatten_nil, List.length_nil] at hlen'
      omega
    have hroom : 0 < 512 - s.length := by omega
    obtain ⟨r₂, hread', -, hflat₂⟩ := Feed.read_cons hroom hsegs₁
    rw [hflat₁, List.drop_drop, ← List.length_append] at hflat₂
    have hne' : s'.take (512 - s.length) ≠ [] := fun hnil =>
      r.ne_nil s' (by rw [hs]; simp) ((List.take_eq_nil_iff.mp hnil).resolve_left (by omega))
    have hgot : s ++ s'.take (512 - s.length)
        = (head ++ tunnel).take (s ++ s'.take (512 - s.length)).length := by
      refine List.prefix_iff_eq_take.mp ?_
      rw [← hsegs, List.flatten_cons, List.prefix_append_right_inj]
      exact (List.take_prefix _ _).trans (List.prefix_append _ _)
    have hfound := findHeaderEnd_take hhead tunnel (s ++ s'.take (512 - s.length)).length
    rw [← hgot] at hfound
    simp only [arrived, if_neg hfirst, List.headD_cons]
    rw [readConnectResponse_twice hread hne hnot (by omega) hread' hne', hfound]
    refine ⟨hgot, ?_, hflat₂⟩
    by_cases hle : head.length ≤ (s ++ s'.take (512 - s.length)).length
    · rw [if_pos hle, if_pos hle]
      rfl
    · rw [if_neg hle, if_neg hle]
      rfl

/-- **Replies to CONNECT.**  For a proxy that sends a header block of at most 512 bytes and then
tunnel bytes, in some segments: `readConnectResponse` succeeds exactly on a status code 2xx, and
leaves the tunnel bytes when it succeeds, exactly if
* with a code 2xx, the reads bring the header block and nothing else, and `200` stands at the
  places 9 to 11;
* with another code, if the reads bring the whole block, something else stands there. -/
theorem connectResponse_iff {r : Feed UInt8 GoErr} {head tunnel : Bytes} {closing : GoErr}
    (hr : r.Delivers (head ++ tunnel) closing) (hhead : headEnd head = some head.length)
    (hlen : head.length ≤ 512) :
    (((readConnectResponse r).1 = .ok () ↔ Is2xx head)
        ∧ ((readConnectResponse r).1 = .ok () → (readConnectResponse r).2.flat = tunnel)) ↔
      (Is2xx head → arrived head.length r.segs = head ∧ (head.drop 9).take 3 = ascii "200")
        ∧ (¬ Is2xx head → head.length ≤ (arrived head.length r.segs).length →
          ((arrived head.length r.segs).drop 9).take 3 ≠ ascii "200") := by
  obtain ⟨hgot, hret, hleft⟩ := readConnectResponse_eq hr.flat hhead hlen
  generalize arrived head.length r.segs = got at hgot hret hleft
  have hok : (readConnectResponse r).1 = .ok () ↔
      head.length ≤ got.length ∧ (got.drop 9).take 3 = ascii "200" := by
    rw [hret]
    split
    · rename_i hle
      rw [checkConnect_iff]
      exact ⟨fun h => ⟨hle, h⟩, fun h => h.2⟩
    · rename_i hlt
      exact iff_of_false nofun fun h => hlt h.1
  -- what is left are the tunnel bytes if the block is all that was read
  have htunnel : head.length ≤ got.length →
      ((readConnectResponse r).2.flat = tunnel ↔ got = head) := by
    intro hle
    have hwhole : got.length ≤ (head ++ tunnel).length := by
      rw [hgot]
      exact List.length_take_le' _ _
    rw [hleft]
    constructor
    · intro hdrop
      have hlen' := congrArg List.length hdrop
      rw [List.length_drop, List.length_append] at hlen'
      rw [List.length_append] at hwhole
      rw [hgot, show got.length = head.length by omega, List.take_left]
    · rintro rfl
      rw [List.drop_left]
  rw [hok]
  by_cases hcode : Is2xx head
  · simp only [hcode, iff_true, true_imp_iff, not_true_eq_false, false_imp_iff, and_true]
    constructor
    · rintro ⟨⟨hle, h200⟩, hrest⟩
      have hsame := (htunnel hle).mp (hrest ⟨hle, h200⟩)
      rw [hsame] at h200
      exact ⟨hsame, h200⟩
    · rintro ⟨rfl, h200⟩
      exact ⟨⟨Nat.le_refl _, h200⟩, fun h => (htunnel h.1).mpr rfl⟩
  · simp only [hcode, iff_false, not_and, false_imp_iff, not_false_eq_true, true_imp_iff, true_and,
      ne_eq]
    exact ⟨fun h => h.1, fun h => ⟨h, fun hok => absurd hok.2 (h hok.1)⟩⟩

/-- A proxy that sends the block in two segments, and then a byte through the tunnel. -/
def twoSegments : Feed UInt8 GoErr :=
  .ofSegs [ascii "HTTP/1.1 200", ascii " OK\r\n\r\n", [7]] .eof

theorem connectResponse_iff_twoSegments :
    ((readConnectResponse twoSegments).1 = .ok () ↔ Is2xx (ascii "HTTP/1.1 200 OK\r\n\r\n"))
      ∧ ((readConnectResponse twoSegments).1 = .ok () →
        (readConnectResponse twoSegments).2.flat = [7]) := by
  have hr : twoSegments.Delivers (ascii "HTTP/1.1 200 OK\r\n\r\n" ++ [7]) .eof := by
    refine ⟨by decide +kernel, rfl, rfl⟩
  exact (connectResponse_iff hr (by decide +kernel) (by decide +kernel)).mpr (by decide +kernel)

/-- The same bytes in three segments are refused, and in one segment the tunnel byte is lost;
and a proxy that answers 204 is refused. -/
theorem connectResponse_split :
    (readConnectResponse (.ofSegs
        [ascii "HTTP/1.1", ascii " 200 OK", ascii "\r\n\r\n", [7]] .eof)).1 = .error .incomplete
      ∧ (readConnectResponse (.ofSegs [ascii "HTTP/1.1 200 OK\r\n\r\n" ++ [7]] .eof)).1 = .ok ()
      ∧ (readConnectResponse (.ofSegs [ascii "HTTP/1.1 200 OK\r\n\r\n" ++ [7]] .eof)).2.flat = []
      ∧ Is2xx (ascii "HTTP/1.1 204 No Content\r\n\r\n")
      ∧ (readConnectResponse (.ofSegs [ascii "HTTP/1.1 204 No Content\r\n\r\n"] .eof)).1
        = .error (.rejected 204) := by
  decide +kernel

end BurstHttp
