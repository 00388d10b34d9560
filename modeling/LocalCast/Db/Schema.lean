import LocalCast.Contract.Permissions
import LocalCast.Foundations.Table
import LocalCast.Print.Spooler

/-!
Rows of the database schema (`migrations/001_initial.sql`), each keyed by its primary key.
Times are unix milliseconds, ids are opaque texts.
-/

namespace LocalCast.Db

open Contract

/-- A point in time, in unix milliseconds. -/
abbrev Time := ℕ

inductive DeviceStatus where
  | pending | active | revoked
deriving DecidableEq, Repr

/-- `devices`. -/
structure DeviceRow where
  id : JsString
  user_id : JsString
  name : JsString
  platform : JsString
  status : DeviceStatus
  token_version : ℕ
  dav_password_hash : Option JsString
  refresh_hash : Option JsString
  refresh_expires_at : Option Time
  created_at : Time
deriving DecidableEq

instance : Keyed DeviceRow JsString := ⟨DeviceRow.id⟩

/-- `shared_folders`. -/
structure FolderRow where
  id : JsString
  path : JsString
  label : JsString
  writable : Bool
  enabled : Bool
  available : Bool
  auto_index : Bool
  last_indexed_at : Option Time
  file_count : Option ℕ
  total_bytes : Option ℕ
  created_at : Time
deriving DecidableEq

instance : Keyed FolderRow JsString := ⟨FolderRow.id⟩

/-- `folder_permissions`, keyed by device and folder. -/
structure PermissionRow where
  device_id : JsString
  folder_id : JsString
  mode : AccessMode
deriving DecidableEq

instance : Keyed PermissionRow (JsString × JsString) := ⟨fun r => (r.device_id, r.folder_id)⟩

/-- `pairing_tokens`. The snapshot of default permissions is kept as the list it encodes. -/
structure PairingTokenRow where
  id : JsString
  code : JsString
  secret_hash : JsString
  failed_attempts : ℕ
  locked_at : Option Time
  created_at : Time
  expires_at : Time
  consumed_at : Option Time
  consumed_by_device : Option JsString
  default_permissions : List FolderPermission
deriving DecidableEq

instance : Keyed PairingTokenRow JsString := ⟨PairingTokenRow.id⟩

/-- `files`, the index; its descriptive columns follow from the name. `rel_path` and
`parent_path` are separated by `/`. -/
structure FileRow where
  id : JsString
  folder_id : JsString
  rel_path : JsString
  parent_path : JsString
  name : JsString
  is_dir : Bool
  size : Option ℕ
  mtime : Option ℕ
deriving DecidableEq

instance : Keyed FileRow JsString := ⟨FileRow.id⟩

inductive UploadStatus where
  | active | complete | aborted
deriving DecidableEq, Repr

/-- `uploads`. -/
structure UploadRow where
  id : JsString
  device_id : JsString
  folder_id : JsString
  rel_path : JsString
  total_bytes : ℕ
  received_bytes : ℕ
  chunk_size : ℕ
  temp_path : JsString
  status : UploadStatus
  created_at : Time
  updated_at : Time
deriving DecidableEq

instance : Keyed UploadRow JsString := ⟨UploadRow.id⟩

inductive PrintJobStatus where
  | queued | printing | done | error | cancelled
deriving DecidableEq, Repr

/-- `print_jobs`; `settings` holds the columns `copies`, `color`, `duplex`, `page_range`. -/
structure PrintJobRow where
  id : JsString
  device_id : JsString
  printer_id : JsString
  source_path : Option JsString
  spool_path : Option JsString
  file_name : JsString
  settings : Print.PrintSettingsInput
  status : PrintJobStatus
  error_message : Option String
  windows_job_id : Option ℤ
  created_at : Time
  started_at : Option Time
  finished_at : Option Time
deriving DecidableEq

instance : Keyed PrintJobRow JsString := ⟨PrintJobRow.id⟩

@[simp] lemma key_printJob (r : PrintJobRow) : Keyed.key r = r.id := rfl

@[simp] lemma key_device (r : DeviceRow) : Keyed.key r = r.id := rfl

@[simp] lemma key_folder (r : FolderRow) : Keyed.key r = r.id := rfl

@[simp] lemma key_file (r : FileRow) : Keyed.key r = r.id := rfl

@[simp] lemma key_permission (r : PermissionRow) : Keyed.key r = (r.device_id, r.folder_id) := rfl

@[simp] lemma key_upload (r : UploadRow) : Keyed.key r = r.id := rfl

@[simp] lemma key_pairingToken (r : PairingTokenRow) : Keyed.key r = r.id := rfl

end LocalCast.Db
