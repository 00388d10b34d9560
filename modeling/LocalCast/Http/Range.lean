import LocalCast.Contract.Errors
import LocalCast.Contract.Permissions
import LocalCast.Foundations.JsNumber

/-!
`http/range.ts`: byte ranges of the main API.

* `bytesUnit`, `rangeSpec`: the two regular expressions of the range parsers.
* `parseRangeHeader`, `ifRangeMatches`, `serveFile`: the functions of the source. A response
  keeps the bytes it streams as the interval it reads.
* `parseRangeHeader_spec`: the parser on one range of digits; `parseRangeHeader_from`: on an
  open-ended one.

Sizes and offsets are natural numbers: doubles are exact up to `2 ^ 53`.
-/

namespace LocalCast.Http

open JsString JsNumber Contract

/-! ### Requests and answers -/

inductive Method where
  | get | head | other
deriving DecidableEq

/-- What the content routes read of a request. -/
structure ContentRequest where
  method : Method
  download : Bool
  range : Option JsString
  ifRange : Option JsString

/-- What is served: the metadata of the file. -/
structure ServedFile where
  size : ℕ
  mtimeMs : ℚ
  isDir : Bool
  name : JsString

inductive Disposition where
  | inline | attachment
deriving DecidableEq

/-- An answer; `body` is the first and the last byte read from the file. -/
structure Response where
  status : ℕ
  etag : JsString
  lastModified : JsString
  disposition : Disposition
  contentRange : Option JsString
  contentLength : ℕ
  body : Option (ℕ × ℕ)
deriving DecidableEq

/-- An exception, and the `Content-Range` header set before it was thrown. -/
structure Refusal where
  error : ApiException
  contentRange : Option JsString
deriving DecidableEq

/-! ### The header -/

/-- `/^bytes\s*=/i`: what is left after the match. -/
def afterBytes (header : JsString) : Option JsString :=
  if lower (header.take 5) = js "bytes" then
    match (header.drop 5).dropWhile isSpace with
    | 61 :: rest => some rest
    | _ => none
  else none

def isLineTerminator (c : CodeUnit) : Bool := [10, 13, 0x2028, 0x2029].contains c

/-- `/^bytes\s*=\s*(.+)$/i` on a trimmed header: the group. -/
def bytesUnit (header : JsString) : Option JsString :=
  match afterBytes header with
  | none => none
  | some rest =>
      let group := rest.dropWhile isSpace
      if group = [] ∨ group.any isLineTerminator then none else some group

/-- `/^(\d*)-(\d*)$/`: the groups. -/
def rangeSpec (spec : JsString) : Option (JsString × JsString) :=
  match spec.dropWhile isDigit with
  | 45 :: last => if last.all isDigit then some (spec.takeWhile isDigit, last) else none
  | _ => none

inductive RangeParse where
  | none | ignore | multiple | unsatisfiable
  | single (start last : ℕ)
deriving DecidableEq

/-- The header is dropped, and the whole file is the answer. -/
def RangeParse.isFullBody : RangeParse → Bool
  | .none | .ignore | .multiple => true
  | .unsatisfiable | .single .. => false

/-- The numeric part of `parseRangeHeader`. -/
def parseBounds (firstRaw lastRaw : JsString) (size : ℕ) : RangeParse :=
  if size = 0 then .unsatisfiable
  else if firstRaw = [] then
    match safe (number lastRaw) with
    | none | some 0 => .unsatisfiable
    | some suffix => .single (size - suffix) (size - 1)
  else match safe (number firstRaw) with
    | none => .unsatisfiable
    | some start =>
        if start ≥ size then .unsatisfiable
        else if lastRaw = [] then .single start (size - 1)
        else match safe (number lastRaw) with
          | none => .unsatisfiable
          | some last =>
              if last < start then .unsatisfiable else .single start (min last (size - 1))

def parseRangeHeader (header : Option JsString) (size : ℕ) : RangeParse :=
  match header with
  | none | some [] => .none
  | some header =>
      match bytesUnit (trim header) with
      | none => .ignore
      | some group =>
          match (splitOn (fun c => c = 44) group).map trim with
          | [spec] =>
              if spec = [] then .ignore
              else match rangeSpec spec with
                | none | some ([], []) => .ignore
                | some (firstRaw, lastRaw) => parseBounds firstRaw lastRaw size
          | specs => if specs.any fun s => s = [] then .ignore else .multiple

/-- One range of digits and a dash. -/
lemma parseRangeHeader_spec {spec first last : JsString}
    (hunits : ∀ c ∈ spec, isDigit c = true ∨ c = 45) (hspec : rangeSpec spec = some (first, last))
    (hgroups : ¬ (first = [] ∧ last = [])) (size : ℕ) :
    parseRangeHeader (some (js "bytes=" ++ spec)) size = parseBounds first last size := by
  have hspace (c : CodeUnit) (hc : c ∈ spec) : isSpace c = false := by
    rcases hunits c hc with h | rfl
    · exact isSpace_of_isDigit h
    · rfl
  have htrim : trim (js "bytes=" ++ spec) = js "bytes=" ++ spec := by
    refine trim_of_no_space fun c hc => ?_
    rcases List.mem_append.mp hc with hc | hc
    · have hb : (js "bytes=").all fun c => !isSpace c := rfl
      simpa using List.all_eq_true.mp hb c hc
    · exact hspace c hc
  have hne : spec ≠ [] := by
    rintro rfl
    cases hspec
  have hgroup : bytesUnit (js "bytes=" ++ spec) = some spec := by
    have hafter : afterBytes (js "bytes=" ++ spec) = some spec := rfl
    have hdrop : spec.dropWhile isSpace = spec := by
      cases spec with
      | nil => rfl
      | cons c rest => exact List.dropWhile_cons_of_neg (by simp [hspace c List.mem_cons_self])
    have hany : spec.any isLineTerminator = false := by
      refine List.any_eq_false.mpr fun c hc => ?_
      rw [isLineTerminator, List.contains_eq_mem, decide_eq_true_eq]
      rcases hunits c hc with h | rfl
      · exact notMem_of_isDigit h rfl
      · decide
    simp [bytesUnit, hafter, hdrop, hany, hne]
  have hsplit : splitOn (fun c => c = 44) spec = [spec] := by
    refine splitOn_of_no_sep _ fun c hc => ?_
    rcases hunits c hc with h | rfl
    · exact decide_eq_false fun hc => notMem_of_isDigit h (l := [44]) rfl (by simp [hc])
    · rfl
  have hheader : ∃ c cs, js "bytes=" ++ spec = c :: cs := ⟨_, _, rfl⟩
  obtain ⟨c, cs, hcons⟩ := hheader
  rw [hcons] at htrim hgroup ⊢
  simp only [parseRangeHeader, htrim, hgroup, hsplit, List.map_cons, List.map_nil,
    trim_of_no_space hspace, if_neg hne, hspec]
  cases first with
  | nil =>
      cases last with
      | nil => exact absurd ⟨rfl, rfl⟩ hgroups
      | cons d ds => rfl
  | cons d ds => rfl

/-- The open-ended range `bytes=n-`. -/
lemma parseRangeHeader_from (n size : ℕ) :
    parseRangeHeader (some (js "bytes=" ++ (decimal n ++ [45]))) size =
      parseBounds (decimal n) [] size := by
  have hunits (c : CodeUnit) (hc : c ∈ decimal n ++ [45]) : isDigit c = true ∨ c = 45 := by
    rcases List.mem_append.mp hc with hc | hc
    · exact .inl (isDigit_of_mem_decimal hc)
    · exact .inr (List.mem_singleton.mp hc)
  have hspec : rangeSpec (decimal n ++ [45]) = some (decimal n, []) := by
    have h45 : isDigit 45 = false := rfl
    simp [rangeSpec, takeWhile_decimal n h45, dropWhile_decimal n h45]
  exact parseRangeHeader_spec hunits hspec (fun h => decimal_ne_nil n h.1) size

/-! ### Validators -/

/-- `W/"<size>-<mtimeMs>"`. -/
def weakETag (size : ℕ) (mtimeMs : ℚ) : JsString :=
  js "W/\"" ++ decimal size ++ 45 :: integer ⌊mtimeMs⌋ ++ js "\""

/-- The value of an `If-Range` header is an entity tag. -/
def isEntityTag (value : JsString) : Bool :=
  (js "W/").isPrefixOf value || (js "\"").isPrefixOf value

def ifRangeMatches (header etag lastModified : JsString) : Bool :=
  let value := trim header
  if isEntityTag value then value = etag else value = lastModified

/-- An `If-Range` that does not match drops a satisfiable range. -/
def checkIfRange (ifRange : Option JsString) (etag lastModified : JsString)
    (parsed : RangeParse) : RangeParse :=
  match ifRange, parsed with
  | none, _ | some [], _ => parsed
  | some header, .single start last =>
      if ifRangeMatches header etag lastModified then .single start last else .none
  | some _, _ => parsed

/-! ### Serving -/

structure ServeFileOptions where
  mode : AccessMode
  disposition : Disposition

def playbackOnly : ApiException :=
  ⟨.downloadNotAllowed, "This folder is shared for playback only"⟩

def contentRangeOf (start last size : ℕ) : JsString :=
  js "bytes " ++ decimal start ++ 45 :: decimal last ++ 47 :: decimal size

def unsatisfiedRange (size : ℕ) : JsString := js "bytes */" ++ decimal size

def serveFile (req : ContentRequest) (file : ServedFile) (opts : ServeFileOptions) :
    Except Refusal Response :=
  if req.method = .other then
    .error ⟨⟨.badRequest, "Only GET and HEAD are supported"⟩, none⟩
  else if file.isDir then .error ⟨⟨.notFound, "Not found"⟩, none⟩
  else
    let etag := weakETag file.size file.mtimeMs
    let lastModified := toUTCString ⌊file.mtimeMs⌋
    let parsed := checkIfRange req.ifRange etag lastModified (parseRangeHeader req.range file.size)
    if opts.mode = .stream ∧ req.method ≠ .head ∧
        (opts.disposition = .attachment ∨ parsed.isFullBody) then
      .error ⟨playbackOnly, none⟩
    else match parsed with
      | .unsatisfiable =>
          .error ⟨⟨.rangeNotSatisfiable, "Requested range is not satisfiable"⟩,
            some (unsatisfiedRange file.size)⟩
      | .single start last => .ok
          { status := 206, etag := etag, lastModified := lastModified
            disposition := opts.disposition
            contentRange := some (contentRangeOf start last file.size)
            contentLength := last - start + 1
            body := if req.method = .head ∨ file.size = 0 then none else some (start, last) }
      | _ => .ok
          { status := 200, etag := etag, lastModified := lastModified
            disposition := opts.disposition, contentRange := none, contentLength := file.size
            body := if req.method = .head ∨ file.size = 0 then none
              else some (0, file.size - 1) }

end LocalCast.Http
