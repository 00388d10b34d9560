import LocalCast.Contract.Errors
import LocalCast.Library.Paths

/-!
`modules/uploads/paths.ts`: the syntactic check of a relative path a client declares, and the
names tried for a file whose own name is taken.
-/

namespace LocalCast.Uploads

open JsString Contract Library

/-- `RESERVED`. -/
def RESERVED : List JsString :=
  ["con", "prn", "aux", "nul",
    "com1", "com2", "com3", "com4", "com5", "com6", "com7", "com8", "com9",
    "lpt1", "lpt2", "lpt3", "lpt4", "lpt5", "lpt6", "lpt7", "lpt8", "lpt9"].map js

/-- The checks on one segment. -/
def checkSegment (segment : JsString) : Except ApiException Unit :=
  if segment = js "." ∨ segment = js ".." then
    .error ⟨.pathEscapesRoot, "The path escapes the shared folder."⟩
  else if segment.contains 58 then
    .error ⟨.pathEscapesRoot, "The path contains an invalid character."⟩
  else if segment.any (js "<>\"|?*").contains then
    .error ⟨.badRequest, "The name contains characters Windows forbids."⟩
  else if segment.getLast?.any fun c => c = 46 ∨ c = 32 then
    .error ⟨.badRequest, "A name cannot end in a dot or a space."⟩
  else if (RESERVED).contains (lower (segment.takeWhile (· ≠ 46))) then
    .error ⟨.badRequest, "`" ++ toText segment ++ "` is a reserved Windows name."⟩
  else .ok ()

/-- `sanitizeRelativePath`. -/
def sanitizeRelativePath (input : JsString) : Except ApiException JsString := do
  if input.contains 0 then
    throw ⟨.pathEscapesRoot, "The path contains a null byte."⟩
  let normalized := input.map fun c => if c = 92 then 47 else c
  if startsWithDrive normalized || normalized.head? = some 47 then
    throw ⟨.pathEscapesRoot, "The path must be relative to the folder."⟩
  let parts := segments (· = 47) normalized
  if parts = [] then
    throw ⟨.badRequest, "A file name is required."⟩
  parts.forM checkSegment
  return join [47] parts

/-- A path cut before its last component. -/
def splitLast (isSep : CodeUnit → Bool) (p : JsString) : JsString × JsString :=
  ((p.reverse.dropWhile fun c => !isSep c).reverse, (p.reverse.takeWhile fun c => !isSep c).reverse)

/-- A file name cut before its extension; a leading dot starts none. -/
def splitExt (base : JsString) : JsString × JsString :=
  let ext := (base.reverse.takeWhile (· ≠ 46)).reverse
  if base.tail.contains 46 then
    (base.take (base.length - (ext.length + 1)), 46 :: ext)
  else (base, [])

/-- The name `reserveFreeName` tries at `counter`: the path itself, then `stem (2).ext`,
`stem (3).ext`, ... -/
def candidate (absPath : JsString) (counter : ℕ) : JsString :=
  if counter = 1 then absPath
  else
    let (dir, base) := splitLast (fun c => c = 47 || c = 92) absPath
    let (stem, ext) := splitExt base
    dir ++ stem ++ js (" (" ++ toString counter ++ ")") ++ ext

/-- `reserveFreeName` gives up at this count. -/
def MAX_CANDIDATES : ℕ := 1000

/-- The relative path of the published file: the directory of the one that was asked for,
the name that was free. -/
def finalRel (relPath finalPath : JsString) : JsString :=
  join [47] ((segments (· = 47) relPath).dropLast
    ++ [(splitLast (fun c => c = 47 || c = 92) finalPath).2])

example : candidate (js "/media/a.b.jpg") 2 = js "/media/a.b (2).jpg" := by decide

end LocalCast.Uploads
