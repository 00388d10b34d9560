import LocalCast.Contract.Errors
import LocalCast.Foundations.JsString

/-!
`modules/print/spooler.ts`: the settings string of the print helper, what the helper-free path
refuses, and how a reading of the Windows queue is understood.
-/

namespace LocalCast.Print

open JsString Contract

inductive Color where
  | color | mono
deriving DecidableEq

inductive Duplex where
  | simplex | long | short
deriving DecidableEq

structure PrintSettingsInput where
  copies : ℕ
  color : Color
  duplex : Duplex
  pageRange : Option JsString
deriving DecidableEq

def SUMATRA_BINARY : String := "SumatraPDF.exe"

def isDigit (c : CodeUnit) : Bool := 48 ≤ c && c ≤ 57

/-- `\d+(-\d+)?`. -/
def isPages (p : JsString) : Bool :=
  let first := p.takeWhile isDigit
  match p.dropWhile isDigit with
  | [] => first ≠ []
  | c :: second => first ≠ [] && c = 45 && second ≠ [] && second.all isDigit

/-- `PAGE_RANGE_PATTERN`: numbers and intervals between commas, with any space around them. -/
def isPageRange (range : JsString) : Bool :=
  (splitOn (· = 44) range).all fun p => isPages (trim p)

/-- `buildPrintSettings`. -/
def buildPrintSettings (input : PrintSettingsInput) : Except ApiException JsString :=
  let range := (input.pageRange.map trim).getD []
  if range ≠ [] ∧ isPageRange range = false then
    .error ⟨.badRequest, "Page range must look like `1-4,7`."⟩
  else
    let color := match input.color with
      | .color => js "color"
      | .mono => js "monochrome"
    let duplex := match input.duplex with
      | .long => js "duplexlong"
      | .short => js "duplexshort"
      | .simplex => js "simplex"
    .ok (join [44] ((if range = [] then [] else [range.filter fun c => !isSpace c])
      ++ [color, duplex]
      ++ if input.copies > 1 then [js (toString input.copies ++ "x")] else []))

structure PrintToSupport where
  ext : JsString
  registered : Bool
  progId : Option JsString
  known : Bool
deriving DecidableEq

/-- `assertFallbackCanPrintType`. -/
def assertFallbackCanPrintType (support : PrintToSupport) (vendorDir : JsString) :
    Except ApiException Unit :=
  if !support.known || support.registered then .ok ()
  else
    let helper := "the print helper (" ++ SUMATRA_BINARY ++ " in " ++ toText vendorDir ++ ")"
    let why :=
      if support.ext = js ".pdf" then
        "No PDF reader on this machine registers a Windows print handler for " ++
          toText support.ext ++ ". Edge, the default PDF viewer on a clean Windows, can open a " ++
          "PDF but not print one from the shell."
      else
        "Windows has no application registered to print " ++
          (if support.ext = [] then "this type" else toText support.ext) ++
          " files. Its file type has no PrintTo handler, which is the case for .bmp and .webp " ++
          "on a stock install."
    .error ⟨.spoolerFailed, why ++ " Install " ++ helper ++
      ", or convert the file to PDF first. Nothing was sent to the printer."⟩

/-- `assertFallbackCanHonour`. -/
def assertFallbackCanHonour (input : PrintSettingsInput) (vendorDir : JsString) :
    Except ApiException Unit :=
  let unsupported : List String :=
    (if (input.pageRange.map trim).getD [] ≠ [] then ["a page range"] else [])
      ++ (if input.copies > 1 then ["more than one copy"] else [])
      ++ if input.duplex ≠ .simplex then ["double-sided printing"] else []
  if unsupported = [] then .ok ()
  else .error ⟨.spoolerFailed,
    "Without the print helper (" ++ SUMATRA_BINARY ++ " in " ++ toText vendorDir ++
      ") LocalCast prints through Windows, which cannot be asked for " ++
      " or ".intercalate unsupported ++ ". Print with the printer's own settings, " ++
      "or install the print helper. Nothing was sent to the printer."⟩

/-! ### The queue -/

structure SpoolerJob where
  id : ℤ
  documentName : JsString
  status : JsString
deriving DecidableEq

/-- A reading of the queue, and whether it is one at all. -/
structure SpoolerQueue where
  readable : Bool
  jobs : List SpoolerJob
deriving DecidableEq

inductive SpoolerOutcome where
  | printing | done | error | cancelled
deriving DecidableEq, Repr

/-- The value of a string of digits. -/
def digitsValue (text : JsString) : ℕ := text.foldl (fun n c => 10 * n + (c.toNat - 48)) 0

/-- `toLowerCase` as far as it can produce ASCII: the Kelvin sign is the one unit outside
ASCII whose lower case is an ASCII letter. -/
def lowerFlag (text : JsString) : JsString := lower (text.map fun c => if c = 0x212A then 107 else c)

/-- `classifyJobStatus`: the flags by name, or as the bits of an integer. -/
def classifyJobStatus (status : JsString) : SpoolerOutcome :=
  let text := trim status
  if text ≠ [] ∧ text.all isDigit = true then
    let has (mask : ℕ) : Bool := digitsValue text &&& mask ≠ 0
    if has (0x2 ||| 0x40 ||| 0x200) then .error
    else if has (0x4 ||| 0x100) then .cancelled
    else if has (0x1000 ||| 0x80) then .done
    else .printing
  else
    let flags := (splitOn (· = 44) (lowerFlag text)).map trim
    let has (names : List String) : Bool := flags.any fun f => names.any fun n => f = js n
    if has ["error", "blocked", "paperout"] then .error
    else if has ["deleting", "deleted"] then .cancelled
    else if has ["complete", "printed"] then .done
    else .printing

example : classifyJobStatus (js "Printing, Retained") = .printing := by decide

end LocalCast.Print
