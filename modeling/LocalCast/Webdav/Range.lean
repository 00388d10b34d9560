import LocalCast.Http.Range
import LocalCast.Library.Access

/-!
`modules/webdav/range.ts` and the `GET` handler of `modules/webdav/index.ts`: byte ranges of
the WebDAV mount, a second copy of those of the main API.
-/

namespace LocalCast.Webdav

open JsString JsNumber Contract Db Auth Library Http

inductive ParsedRange where
  | none | full | unsatisfiable
  | range (start last : ℕ)
deriving DecidableEq

/-- The numeric part of `parseRangeHeader`. -/
def parseBounds (startText endText : JsString) (size : ℕ) : ParsedRange :=
  if startText = [] then
    match number endText with
    | none | some 0 => .unsatisfiable
    | some suffix => if size = 0 then .unsatisfiable else .range (size - suffix) (size - 1)
  else match number startText with
    | none => .none
    | some start =>
        if start ≥ size then .unsatisfiable
        else match if endText = [] then some (size - 1) else number endText with
          | none => .none
          | some last =>
              if last < start then .none
              else .range start (if last > size - 1 then size - 1 else last)

def parseRangeHeader (header : Option JsString) (size : ℕ) : ParsedRange :=
  match header with
  | none | some [] => .none
  | some header =>
      match bytesUnit (trim header) with
      | none => .none
      | some group =>
          match (splitOn (fun c => c = 44) group).map trim with
          | [spec] =>
              match rangeSpec spec with
              | none | some ([], []) => .none
              | some (startText, endText) => parseBounds startText endText size
          | _ => .full

/-- `dateParse` is `Date.parse`, none where that is `NaN`. -/
def ifRangeMatches (dateParse : JsString → Option ℤ) (header : Option JsString) (etag : JsString)
    (mtimeMs : ℚ) : Bool :=
  match header with
  | none | some [] => true
  | some header =>
      let value := trim header
      if isEntityTag value then value = etag
      else match dateParse value with
        | none => false
        | some asDate => ⌊mtimeMs / 1000⌋ = asDate / 1000

/-- An `If-Range` that does not match drops a satisfiable range. -/
def checkIfRange (dateParse : JsString → Option ℤ) (ifRange : Option JsString) (etag : JsString)
    (mtimeMs : ℚ) : ParsedRange → ParsedRange
  | .range start last =>
      if ifRangeMatches dateParse ifRange etag mtimeMs then .range start last else .full
  | parsed => parsed

/-- `serveRange`, for a `GET` or a `HEAD`. -/
def serveRange (dateParse : JsString → Option ℤ) (req : ContentRequest) (file : ServedFile)
    (disposition : Disposition) : Except Refusal Response :=
  let etag := weakETag file.size file.mtimeMs
  -- `new Date` drops the fraction of a millisecond towards zero
  let lastModified := toUTCString
    (if file.mtimeMs < 0 then ⌈file.mtimeMs⌉ else ⌊file.mtimeMs⌋)
  match checkIfRange dateParse req.ifRange etag file.mtimeMs
      (parseRangeHeader req.range file.size) with
  | .unsatisfiable => .error ⟨⟨.rangeNotSatisfiable, "Requested range is outside the file."⟩,
      some (unsatisfiedRange file.size)⟩
  | .range start last => .ok
      { status := 206, etag := etag, lastModified := lastModified, disposition := disposition
        contentRange := some (contentRangeOf start last file.size)
        contentLength := if file.size = 0 then 0 else last - start + 1
        body := if req.method = .head ∨ file.size = 0 then none else some (start, last) }
  | _ => .ok
      { status := 200, etag := etag, lastModified := lastModified, disposition := disposition
        contentRange := none, contentLength := file.size
        body := if req.method = .head ∨ file.size = 0 then none else some (0, file.size - 1) }

/-- `/^bytes\s*=/i` on the header as it came. -/
def wantsRange (req : ContentRequest) : Bool := req.range.any fun header => (afterBytes header).isSome

/-- `getOrHead`, with the check of `assertVisible` before it; none is the answer 405 that a
directory gets. -/
def getOrHead (dateParse : JsString → Option ℤ) (st : AuthStore) (deviceId folderId : JsString)
    (file : ServedFile) (req : ContentRequest) : Option (Except Refusal Response) :=
  match assertCan st deviceId folderId .list with
  | .error e => some (.error ⟨e, none⟩)
  | .ok () =>
      if file.isDir then none
      else match assertCan st deviceId folderId
          (if wantsRange req ∨ req.method = .head then .stream else .download) with
        | .error e => some (.error ⟨e, none⟩)
        | .ok () => some (serveRange dateParse req file
            (if wantsRange req ∨ modeFor st deviceId folderId = .stream then .inline
              else .attachment))

end LocalCast.Webdav
