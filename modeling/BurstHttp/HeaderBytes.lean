/-
Access to the headers of a response (response.go, `Header`, `HasHeader`, `HeaderBytes`;
parser.go, `headerBytesFromRaw`).

`Header` and `HasHeader` look into the list that `parseHeaders` has made; `HeaderBytes`
goes through the raw header block again.  The list leaves out the fields without a value,
the second walk does not.

* `headerLines` — the lines both walks see, `parseHeaderLines_eq` and
  `headerBytesLines_eq` — what they make of them;
* `header_bytes_agree_iff` — when the two agree;
* `header_bytes_blank_first` — a block on which they do not.
-/
import BurstHttp.StatusLine

namespace BurstHttp

/-! ### The functions of the source -/

/-- The name of a header line without the blanks around it, if it has a colon behind its
first byte. -/
def lineName (line : Bytes) : Option Bytes :=
  let name := line.takeWhile (· != 58)
  if 0 < name.length ∧ name.length < line.length then some (trimBlank name) else none

/-- What stands behind the first colon, without the blanks around it. -/
def lineValue (line : Bytes) : Bytes := trimBlank (line.drop ((line.takeWhile (· != 58)).length + 1))

/-- One line of `headerBytesFromRaw`. -/
def headerBytesLine (key line : Bytes) : Option Bytes :=
  (lineName line).bind fun name => if strEqualFoldASCII name key then some (lineValue line) else none

/-- The line loop of `headerBytesFromRaw`. -/
def headerBytesLines (key rest : Bytes) : Option Bytes :=
  match _h : cutCRLF rest with
  | none => none
  | some ([], _) => none
  | some (a :: line, rest') => (headerBytesLine key (a :: line)).or (headerBytesLines key rest')
termination_by rest.length
decreasing_by
  rw [cutCRLF_eq _h]
  simp
  omega

/-- `headerBytesFromRaw`; `none` is nil. -/
def headerBytesFromRaw (raw key : Bytes) : Option Bytes :=
  if raw.length = 0 ∨ key.length = 0 then none
  else
    match cutCRLF raw with
    | none => headerBytesLines key raw
    | some (_, rest) => headerBytesLines key rest

namespace Response

/-- `Response.Header`. -/
def header (r : Response) (key : Bytes) : Bytes :=
  ((r.headers.find? fun h => strEqualFoldASCII h.key key).map Header.value).getD []

/-- `Response.HasHeader`. -/
def hasHeader (r : Response) (key : Bytes) : Bool :=
  r.headers.any fun h => strEqualFoldASCII h.key key

/-- `Response.HeaderBytes`. -/
def headerBytes (r : Response) (key : Bytes) : Option Bytes := headerBytesFromRaw r.rawHeaderBuf key

/-- The two accesses give the same bytes, and `HeaderBytes` is nil exactly if there is no
such header. -/
def BytesAgree (r : Response) (key : Bytes) : Prop :=
  (r.headerBytes key).getD [] = r.header key ∧ (r.headerBytes key = none ↔ r.hasHeader key = false)

end Response

/-! ### The lines of a block -/

/-- The lines up to the first empty one. -/
def headerLines (rest : Bytes) : List Bytes :=
  match _h : cutCRLF rest with
  | none => []
  | some ([], _) => []
  | some (a :: line, rest') => (a :: line) :: headerLines rest'
termination_by rest.length
decreasing_by
  rw [cutCRLF_eq _h]
  simp
  omega

/-- What the line loops do with a line that is not empty. -/
theorem parseHeaderLines_cons {rest line rest' : Bytes} {a : UInt8}
    (h : cutCRLF rest = some (a :: line, rest')) :
    parseHeaderLines rest = (parseHeaderLine (a :: line)).toList ++ parseHeaderLines rest' := by
  rw [parseHeaderLines]
  split <;> simp_all

theorem headerBytesLines_cons {key rest line rest' : Bytes} {a : UInt8}
    (h : cutCRLF rest = some (a :: line, rest')) :
    headerBytesLines key rest
      = (headerBytesLine key (a :: line)).or (headerBytesLines key rest') := by
  rw [headerBytesLines]
  split <;> simp_all

theorem parseHeaderLines_eq (rest : Bytes) :
    parseHeaderLines rest = (headerLines rest).filterMap parseHeaderLine := by
  fun_induction headerLines rest with
  | case1 rest h =>
    rw [parseHeaderLines]
    split <;> simp_all
  | case2 rest rest' h =>
    rw [parseHeaderLines]
    split <;> simp_all
  | case3 rest a line rest' h ih =>
    rw [parseHeaderLines_cons h, ih, List.filterMap_cons]
    cases parseHeaderLine (a :: line) <;> rfl

theorem headerBytesLines_eq (key rest : Bytes) :
    headerBytesLines key rest = (headerLines rest).findSome? (headerBytesLine key) := by
  fun_induction headerLines rest with
  | case1 rest h =>
    rw [headerBytesLines]
    split <;> simp_all
  | case2 rest rest' h =>
    rw [headerBytesLines]
    split <;> simp_all
  | case3 rest a line rest' h ih =>
    rw [headerBytesLines_cons h, ih, List.findSome?_cons]
    cases headerBytesLine key (a :: line) <;> rfl

/-! ### One line -/

/-- The line has this name. -/
def isNamed (key line : Bytes) : Bool := (lineName line).any fun name => strEqualFoldASCII name key

theorem headerBytesLine_eq (key line : Bytes) :
    headerBytesLine key line = if isNamed key line then some (lineValue line) else none := by
  unfold headerBytesLine isNamed
  cases lineName line <;> rfl

theorem parseHeaderLine_eq (line : Bytes) :
    parseHeaderLine line = (lineName line).bind fun name =>
      if name ≠ [] ∧ lineValue line ≠ [] then some ⟨name, lineValue line⟩ else none := by
  unfold parseHeaderLine lineName lineValue
  dsimp only
  simp only [List.length_pos_iff]
  split_ifs <;> simp_all

theorem value_ne_nil {lines : List Bytes} {h : Header} (hh : h ∈ lines.filterMap parseHeaderLine) :
    h.value ≠ [] := by
  obtain ⟨line, -, hline⟩ := List.mem_filterMap.mp hh
  rw [parseHeaderLine_eq] at hline
  obtain ⟨name, -, hname⟩ := Option.bind_eq_some_iff.mp hline
  split at hname
  · rename_i hne
    cases hname
    exact hne.2
  · cases hname

/-! ### The two walks -/

/-- What `Header`, `HasHeader` and `HeaderBytes` find in the lines. -/
def LinesAgree (key : Bytes) (lines : List Bytes) : Prop :=
  (lines.findSome? (headerBytesLine key)).getD []
      = (((lines.filterMap parseHeaderLine).find? fun h => strEqualFoldASCII h.key key).map
          Header.value).getD [] ∧
    (lines.findSome? (headerBytesLine key) = none ↔
      (lines.filterMap parseHeaderLine).any (fun h => strEqualFoldASCII h.key key) = false)

theorem strEqualFoldASCII_nil {key : Bytes} (hkey : key ≠ []) : strEqualFoldASCII [] key = false := by
  obtain ⟨a, key, rfl⟩ := List.exists_cons_of_ne_nil hkey
  rfl

/-- A line with another name is passed over by both. -/
theorem linesAgree_skip {key line : Bytes} (hnamed : isNamed key line = false) (lines : List Bytes) :
    LinesAgree key (line :: lines) ↔ LinesAgree key lines := by
  have hbytes : headerBytesLine key line = none := by
    rw [headerBytesLine_eq, hnamed]
    rfl
  have hfield : ∀ h, parseHeaderLine line = some h → strEqualFoldASCII h.key key = false := by
    intro h hline
    rw [parseHeaderLine_eq] at hline
    obtain ⟨name, hname, hline⟩ := Option.bind_eq_some_iff.mp hline
    split at hline
    · cases hline
      simpa [isNamed, hname] using hnamed
    · cases hline
  unfold LinesAgree
  rw [List.findSome?_cons, hbytes]
  cases hline : parseHeaderLine line with
  | none => rw [List.filterMap_cons_none hline]
  | some h =>
    rw [List.filterMap_cons_some hline, List.find?_cons_of_neg (by simp [hfield h hline]),
      List.any_cons, hfield h hline, Bool.false_or]

/-- They agree exactly if the first line with the name, if there is one, has a value. -/
theorem linesAgree_iff {key : Bytes} (hkey : key ≠ []) (lines : List Bytes) :
    LinesAgree key lines ↔ ∀ line, lines.find? (isNamed key) = some line → lineValue line ≠ [] := by
  induction lines with
  | nil => simp [LinesAgree]
  | cons line lines ih =>
    by_cases hnamed : isNamed key line = true
    case neg =>
      rw [Bool.not_eq_true] at hnamed
      rw [linesAgree_skip hnamed, ih, List.find?_cons_of_neg (by simp [hnamed])]
    have hbytes : headerBytesLine key line = some (lineValue line) := by
      rw [headerBytesLine_eq, if_pos hnamed]
    rw [List.find?_cons_of_pos hnamed]
    simp only [Option.some_inj, forall_eq', LinesAgree, List.findSome?_cons, hbytes]
    obtain ⟨name, hname, hfold⟩ :
        ∃ name, lineName line = some name ∧ strEqualFoldASCII name key = true := by
      rw [isNamed] at hnamed
      cases hname : lineName line with
      | none => simp [hname] at hnamed
      | some name => exact ⟨name, rfl, by simpa [hname] using hnamed⟩
    have hne : name ≠ [] := by
      rintro rfl
      rw [strEqualFoldASCII_nil hkey] at hfold
      cases hfold
    by_cases hvalue : lineValue line = []
    · -- the list has a later field with the name or none, and neither has an empty value
      have hline : parseHeaderLine line = none := by
        rw [parseHeaderLine_eq, hname, Option.bind_some, if_neg fun h => h.2 hvalue]
      rw [List.filterMap_cons_none hline, hvalue]
      refine iff_of_false ?_ (by simp)
      rintro ⟨hsame, hnil⟩
      cases hfind : (lines.filterMap parseHeaderLine).find? fun h => strEqualFoldASCII h.key key with
      | none =>
        rw [List.find?_eq_none] at hfind
        have hany := hnil.mpr (List.any_eq_false.mpr hfind)
        cases hany
      | some h =>
        rw [hfind] at hsame
        exact value_ne_nil (List.mem_of_find?_eq_some hfind) hsame.symm
    · have hline : parseHeaderLine line = some ⟨name, lineValue line⟩ := by
        rw [parseHeaderLine_eq, hname, Option.bind_some, if_pos ⟨hne, hvalue⟩]
      rw [List.filterMap_cons_some hline]
      simp [hfold, hvalue]

/-! ### The block -/

/-- The header lines of a block. -/
def fieldLines (block : Bytes) : List Bytes := headerLines ((cutCRLF block).getD ([], [])).2

/-- The first header line with this name, if there is one, has a value that is not blank. -/
def FirstHasValue (block key : Bytes) : Prop :=
  ∀ line, (fieldLines block).find? (isNamed key) = some line → lineValue line ≠ []

/-- `HeaderBytes` and `Header` agree on a block and a key exactly if the first header line
with that name has a value. -/
theorem header_bytes_agree_iff {block key : Bytes} (h : crlf2 <:+ block) (hkey : key ≠ [])
    (resp : Response) : (parseHeaders block resp).BytesAgree key ↔ FirstHasValue block key := by
  obtain ⟨rest, hcut, hrest⟩ := cutCRLF_firstLine h
  have hblock : block ≠ [] := by
    rintro rfl
    exact absurd h.length_le (by simp [crlf2])
  have hparse : parseHeaders block resp
      = { resp with rawHeaderBuf := block, headers := parseHeaderLines rest } := by
    rcases rest with _ | ⟨a, rest⟩
    · simp at hrest
    · rw [parseHeaders, hcut]
  have hbytes : headerBytesFromRaw block key = headerBytesLines key rest := by
    rw [headerBytesFromRaw, if_neg (by simp [hblock, hkey]), hcut]
  have hlines : fieldLines block = headerLines rest := by
    rw [fieldLines, hcut]
    rfl
  rw [FirstHasValue, hlines, ← linesAgree_iff hkey, LinesAgree, ← headerBytesLines_eq,
    ← parseHeaderLines_eq, ← hbytes, hparse]
  rfl

/-- A response into which nothing has been parsed. -/
def blankResponse : Response := ⟨0, 0, [], [], [], 0, []⟩

/-- A header that is there once. -/
theorem header_bytes_agree_iff_once :
    (parseHeaders (ascii "HTTP/1.1 200 OK\r\nX-Custom: value\r\n\r\n") blankResponse).BytesAgree
      (ascii "x-custom") := by
  refine (header_bytes_agree_iff (by decide +kernel) (by decide +kernel) _).mpr ?_
  intro line hline
  have hfind : (fieldLines (ascii "HTTP/1.1 200 OK\r\nX-Custom: value\r\n\r\n")).find?
      (isNamed (ascii "x-custom")) = some (ascii "X-Custom: value") := by decide +kernel
  obtain rfl := Option.some.inj (hfind.symm.trans hline)
  decide +kernel

/-- Two headers of one name, the first of which has no value. -/
def blankFirst : Response :=
  parseHeaders (ascii "HTTP/1.1 200 OK\r\nX:\r\nX: a\r\n\r\n") blankResponse

/-- `HeaderBytes` is the first value, which is empty, and `Header` the second. -/
theorem header_bytes_blank_first :
    blankFirst.headerBytes (ascii "X") = some [] ∧ blankFirst.header (ascii "X") = ascii "a" ∧
      ¬ blankFirst.BytesAgree (ascii "X") := by
  have hbytes : blankFirst.headerBytes (ascii "X") = some [] := by decide +kernel
  have hheader : blankFirst.header (ascii "X") = ascii "a" := by decide +kernel
  refine ⟨hbytes, hheader, ?_⟩
  rintro ⟨hsame, -⟩
  rw [hbytes, hheader] at hsame
  exact absurd hsame (by decide +kernel)

end BurstHttp
