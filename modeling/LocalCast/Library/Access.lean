import LocalCast.Auth.Tokens

/-!
Who may do what in a folder: `library/permissions.ts`, and the checks on the folder row that
`library/resolver.ts` makes before it looks at a path.
-/

namespace LocalCast.Library

open JsString Contract Db Auth

/-- `REFUSAL`. -/
def refusal : Operation → ErrorCode
  | .list | .stream => .forbidden
  | .download => .downloadNotAllowed
  | .print => .printNotAllowed
  | .upload => .uploadNotAllowed

def refusalMessage : Operation → String
  | .download => "This folder is shared for playback only"
  | .print => "Printing is not allowed from this folder"
  | .upload => "Uploading is not allowed to this folder"
  | _ => "Not allowed"

/-- `modeFor`: `none` without a grant, and for a folder that is gone or disabled. -/
def modeFor (st : AuthStore) (deviceId folderId : JsString) : AccessMode :=
  match st.folder_permissions.get (deviceId, folderId), st.shared_folders.get folderId with
  | some p, some f => if f.enabled then p.mode else .none
  | _, _ => .none

/-- `assertCan`. -/
def assertCan (st : AuthStore) (deviceId folderId : JsString) (op : Operation) :
    Except ApiException Unit :=
  let mode := modeFor st deviceId folderId
  if mode = .none then .error ⟨.notFound, "Not found"⟩
  else if can mode op then .ok ()
  else .error ⟨refusal op, refusalMessage op⟩

/-- `visibleFolders`, by label. -/
def visibleFolders (st : AuthStore) (deviceId : JsString) : List JsString :=
  let joined := st.folder_permissions.rows.filterMap fun p =>
    if p.device_id = deviceId ∧ p.mode ≠ .none then
      (st.shared_folders.get p.folder_id).filter FolderRow.enabled
    else none
  (joined.mergeSort fun a b => toText a.label ≤ toText b.label).map FolderRow.id

/-- `getFolder`. -/
def getFolder (st : AuthStore) (folderId : JsString) : Except ApiException FolderRow :=
  match st.shared_folders.get folderId with
  | none => .error ⟨.notFound, "Not found"⟩
  | some row => if row.enabled then .ok row else .error ⟨.notFound, "Not found"⟩

/-- The checks `resolveWritable` makes on the folder. -/
def writableFolder (st : AuthStore) (folderId : JsString) : Except ApiException FolderRow := do
  let folder ← getFolder st folderId
  if !folder.writable then
    .error ⟨.uploadNotAllowed, "This folder does not accept uploads"⟩
  else if !folder.available then
    .error ⟨.folderUnavailable, "This folder is not available"⟩
  else .ok folder

end LocalCast.Library
