/-
Headers that are set on a request and read back as a response's (request.go, `SetHeader`;
parser.go, `parseHeaders`).

`SetHeader` appends lines to a buffer that grows; `parseHeaders` cuts a block into lines,
a line at its first colon, and trims both sides.

* `Tidy` — a field that is not changed by cutting and trimming, and
  `parseHeaderLine_fieldLine` — its line gives it back;
* `setHeaders_parse_back` — what a sequence of `SetHeader` calls leaves in the buffer, and
  what `parseHeaders` makes of it.
-/
import BurstHttp.FramingFields
import BurstHttp.RequestHead

namespace BurstHttp

/-- No blank at either end. -/
def Trimmed (l : Bytes) : Prop :=
  l.head?.any isBlank = false ∧ l.getLast?.any isBlank = false

instance (l : Bytes) : Decidable (Trimmed l) := inferInstanceAs (Decidable (_ ∧ _))

/-- The key is not empty and has no colon in it, the value is not empty, and neither has a
blank at an end. -/
structure Tidy (field : Bytes × Bytes) : Prop where
  key_ne_nil : field.1 ≠ []
  key_colon : (58 : UInt8) ∉ field.1
  key_trimmed : Trimmed field.1
  value_ne_nil : field.2 ≠ []
  value_trimmed : Trimmed field.2

theorem dropBlank_of_trimmed {l : Bytes} (h : Trimmed l) : l.dropWhile isBlank = l := by
  rcases l with _ | ⟨a, l⟩
  · rfl
  · have ha : isBlank a = false := by simpa [Trimmed] using h.1
    rw [List.dropWhile_cons_of_neg (by simp [ha])]

theorem trimBlank_of_trimmed {l : Bytes} (h : Trimmed l) : trimBlank l = l := by
  rw [trimBlank_name h.2, dropBlank_of_trimmed h]

/-- The line of a tidy field gives the field back. -/
theorem parseHeaderLine_fieldLine {field : Bytes × Bytes} (h : Tidy field) :
    parseHeaderLine (fieldLine field) = some ⟨field.1, field.2⟩ := by
  obtain ⟨key, value⟩ := field
  obtain ⟨hkey, hcolon, htkey, hvalue, htvalue⟩ := h
  have hline : fieldLine (key, value) = key ++ 58 :: SP :: value := by
    simp only [fieldLine, List.append_assoc]
    rfl
  have htake : (key ++ 58 :: SP :: value).takeWhile (· != 58) = key := by
    rw [List.takeWhile_append_of_pos, List.takeWhile_cons_of_neg (by simp), List.append_nil]
    intro b hb
    have hb' : b ≠ 58 := fun heq => hcolon (heq ▸ hb)
    simpa using hb'
  have hdrop : (key ++ 58 :: SP :: value).drop (key.length + 1) = SP :: value := by
    rw [List.drop_append, List.drop_of_length_le (by omega)]
    simp
  -- the blank behind the colon is trimmed with the value
  have htrim : trimBlank (SP :: value) = value := by
    rw [trimBlank, List.dropWhile_cons_of_pos (by decide)]
    exact trimBlank_of_trimmed htvalue
  rw [hline, parseHeaderLine]
  dsimp only
  rw [htake, hdrop, htrim, trimBlank_of_trimmed htkey, if_pos, if_pos]
  · exact ⟨List.length_pos_iff.mpr hkey, List.length_pos_iff.mpr hvalue⟩
  · refine ⟨List.length_pos_iff.mpr hkey, ?_⟩
    rw [List.length_append, List.length_cons]
    omega

/-- A status line, lines that are not empty, and an empty line. -/
theorem parseHeaders_joinLines {status : Bytes} {lines : List Bytes}
    (hstatus : ¬ [CR, LF] <:+: status) (h : ∀ line ∈ lines, ¬ [CR, LF] <:+: line ∧ line ≠ [])
    (resp : Response) :
    (parseHeaders (status ++ [CR, LF] ++ (joinLines lines ++ [CR, LF])) resp).headers
      = lines.filterMap parseHeaderLine := by
  obtain ⟨a, rest, hrest⟩ := List.exists_cons_of_ne_nil
    (show joinLines lines ++ [CR, LF] ≠ [] by simp)
  rw [parseHeaders, cutCRLF_line hstatus, ← parseHeaderLines_joinLines h, hrest]

theorem clean_of_containsCRLF {line : Bytes} (h : containsCRLF line = false) :
    ¬ [CR, LF] <:+: line := by
  intro hin
  exact (containsCRLF_eq_false.mp h CR (hin.subset (by simp))).1 rfl

/-- After any calls of `SetHeader` on a request whose buffer is empty and of any length, the
buffer holds the lines of the calls that returned true, in order: a call that returns
false changes nothing, and a larger buffer has the same bytes in it.  Behind a status
line and before an empty line, `parseHeaders` makes the accepted pairs of them, if they
are tidy. -/
theorem setHeaders_parse_back (req : Outgoing) (buf : Bytes) (calls : List (Bytes × Bytes)) :
    let fresh : Outgoing := { req with header := .blank buf }
    let accepted := fresh.accepted calls
    let written := (fresh.setHeaders calls).header.written
    written = accepted.flatMap (fun field => field.1 ++ ascii ": " ++ field.2 ++ [CR, LF]) ∧
    (∀ (r : Outgoing) (key value : Bytes), (r.setHeader key value).1 = false →
      (r.setHeader key value).2 = r) ∧
    (∀ (header grown : Page UInt8) (required : ℕ),
      ensureHeaderBufferSize header required = some grown → grown.written = header.written) ∧
    ((∀ field ∈ accepted, Tidy field) → ∀ (status : Bytes) (resp : Response),
      ¬ [CR, LF] <:+: status →
      (parseHeaders (status ++ [CR, LF] ++ written ++ [CR, LF]) resp).headers
        = accepted.map fun field => ⟨field.1, field.2⟩) := by
  intro fresh accepted written
  have hwritten : written = joinLines (accepted.map fieldLine) := by
    have h := setHeaders_written fresh calls
    rwa [show fresh.header.written = [] from rfl, List.nil_append] at h
  refine ⟨?_, ?_, ?_, ?_⟩
  · rw [hwritten, joinLines, List.flatMap_map]
    rfl
  · intro r key value hfalse
    rcases setHeader_cases r (key, value) with h | ⟨header, h, -⟩
    · exact congrArg Prod.snd h
    · rw [h] at hfalse
      cases hfalse
  · exact fun header grown required h => ensureHeaderBufferSize_written h
  · intro htidy status resp hstatus
    have hlines : ∀ line ∈ accepted.map fieldLine, ¬ [CR, LF] <:+: line ∧ line ≠ [] := by
      intro line hline
      obtain ⟨field, hfield, rfl⟩ := List.mem_map.mp hline
      refine ⟨clean_of_containsCRLF (accepted_clean fresh calls field hfield), ?_⟩
      simp [fieldLine, (htidy field hfield).key_ne_nil]
    rw [List.append_assoc, hwritten, parseHeaders_joinLines hstatus hlines, List.filterMap_map,
      ← List.filterMap_eq_map]
    refine List.filterMap_congr fun field hfield => ?_
    exact parseHeaderLine_fieldLine (htidy field hfield)

/-- Three calls, the second of which is refused, from a buffer that has to grow. -/
theorem setHeaders_parse_back_twice :
    (parseHeaders (ascii "HTTP/1.1 200 OK" ++ [CR, LF]
        ++ ((getPath (ascii "/")).setHeaders [(ascii "A", ascii "b"), (ascii "A", ascii "b\r\nB: c"),
          (ascii "A", ascii "c: d")]).header.written ++ [CR, LF])
      ⟨0, 0, [], [], [], 0, []⟩).headers = [⟨ascii "A", ascii "b"⟩, ⟨ascii "A", ascii "c: d"⟩] := by
  have haccepted : (getPath (ascii "/")).accepted [(ascii "A", ascii "b"),
      (ascii "A", ascii "b\r\nB: c"), (ascii "A", ascii "c: d")]
      = [(ascii "A", ascii "b"), (ascii "A", ascii "c: d")] := by decide +kernel
  have hparse := (setHeaders_parse_back (getPath (ascii "/")) [] [(ascii "A", ascii "b"),
    (ascii "A", ascii "b\r\nB: c"), (ascii "A", ascii "c: d")]).2.2.2
  rw [show ({ getPath (ascii "/") with header := .blank [] } : Outgoing) = getPath (ascii "/") from rfl,
    haccepted] at hparse
  refine hparse ?_ (ascii "HTTP/1.1 200 OK") _ (by decide +kernel)
  intro field hfield
  simp only [List.mem_cons, List.not_mem_nil, or_false] at hfield
  rcases hfield with rfl | rfl
  · exact ⟨by decide +kernel, by decide +kernel, by decide +kernel, by decide +kernel, by decide +kernel⟩
  · exact ⟨by decide +kernel, by decide +kernel, by decide +kernel, by decide +kernel, by decide +kernel⟩

end BurstHttp
