import LocalCast.Foundations.JsString

/-!
`permissions.ts` of the contract package: access modes, operations, and the matrix that
decides every request.
-/

namespace LocalCast.Contract

/-- The three access modes of a folder grant. -/
inductive AccessMode where
  | full | stream | none
deriving DecidableEq, Repr

inductive Operation where
  | list | stream | download | print | upload
deriving DecidableEq, Repr

/-- The single decision point of authorization. -/
def can : AccessMode → Operation → Bool
  | .full, _ => true
  | .stream, .list | .stream, .stream => true
  | .stream, _ => false
  | .none, _ => false

/-- A folder and the mode granted on it. -/
structure FolderPermission where
  folderId : JsString
  mode : AccessMode
deriving DecidableEq

end LocalCast.Contract
