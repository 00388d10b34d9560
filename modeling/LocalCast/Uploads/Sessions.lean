import LocalCast.Foundations.Disk
import LocalCast.Foundations.Runs
import LocalCast.Library.Access
import LocalCast.Uploads.Paths

/-!
`modules/uploads/sessions.ts`: resumable uploads, as one system of the `uploads` table, the
disk, and the calls in flight, each waiting on the file system.

A call waits on one file-system operation at a time. Its effect and the code that runs after
it are one step where no one can look in between, and two where the code after it writes the
table: `rename` and `rm` change the disk in one step, the row in a later one. Every operation
may fail, and `resolveWritable` may answer any path outside what it checks here.

* `Action`, `step`: one such step.
* `Effect`, `step_effect`: everything a step can do to the table and the disk.
-/

namespace LocalCast.Uploads

open JsString Contract Db Auth Library Runs

/-! ### State -/

/-- What the service takes from its configuration; `separator` is that of the platform. -/
structure UploadConfig where
  tempDir : JsString
  separator : CodeUnit
  chunkSize : ℕ
  maxBytes : ℕ

/-- The temp file of a session. -/
def tempPath (cfg : UploadConfig) (id : JsString) : JsString :=
  cfg.tempDir ++ cfg.separator :: (js "upload-" ++ id ++ js ".part")

/-- Below the temp directory. -/
def inTempDir (cfg : UploadConfig) (p : JsString) : Bool :=
  (cfg.tempDir ++ [cfg.separator]).isPrefixOf p

structure CreateInput where
  deviceId : JsString
  folderId : JsString
  relativePath : JsString
  totalBytes : ℕ
deriving DecidableEq

/-- `UploadSession` of the contract. -/
structure UploadSession where
  id : JsString
  receivedBytes : ℕ
  totalBytes : ℕ
  chunkSize : ℕ
  status : UploadStatus
deriving DecidableEq

/-- An exception with its details, or a file-system error. -/
inductive Failure where
  | api (e : ApiException) (details : List (String × ℕ))
  | fs (code : String)
deriving DecidableEq

inductive Answer where
  | session (dto : UploadSession)
  | swept (count : ℕ)
  | refused (f : Failure)
deriving DecidableEq

/-- A call in flight and what it holds. `finalize` is the tail of `create` and `append`, from
`resolving` on. -/
inductive Call where
  /-- `create`, waiting on `resolveWritable`. -/
  | creating (input : CreateInput) (relPath : JsString)
  /-- `create`, waiting on the temp file. -/
  | opening (input : CreateInput) (relPath : JsString)
  /-- `create`, its temp file there and its row not yet. -/
  | inserting (input : CreateInput) (relPath id : JsString)
  /-- `append`, waiting on its handle. -/
  | appending (row : UploadRow)
  /-- `append`, with its handle on `inode` and `received` bytes by its own count. -/
  | writing (row : UploadRow) (inode received : ℕ) (overflow threw : Bool)
  /-- `abort`, waiting on `rm`, and after it. -/
  | removing (row : UploadRow)
  | aborting (row : UploadRow)
  /-- `sweepAbandoned`, with the temp paths still to remove. -/
  | sweeping (cutoff : Time) (rest : List JsString) (count : ℕ)
  /-- `finalize`, waiting on `resolveWritable`, `mkdir`, `open 'wx'` and `rename`. -/
  | resolving (row : UploadRow)
  | making (row : UploadRow) (destination : JsString)
  | reserving (row : UploadRow) (destination : JsString) (counter : ℕ)
  | renaming (row : UploadRow) (finalPath : JsString)
  /-- `finalize`, its file published and its row not yet. -/
  | recording (row : UploadRow) (finalPath : JsString)
  /-- `finalize`, giving its reservation back after a failed `rename`. -/
  | cleaning (finalPath : JsString)
deriving DecidableEq

/-- A file as it was when `rename` published it. -/
structure Published where
  path : JsString
  inode : ℕ
  bytes : List UInt8
deriving DecidableEq

/-- `usedIds` records the ids drawn, `published` what every `rename` published. -/
structure UploadState where
  store : AuthStore
  uploads : Table UploadRow
  disk : Disk JsString
  calls : ℕ → Option Call
  usedIds : List JsString
  published : List Published
  answers : List Answer

namespace UploadState

/-- A server with an empty `uploads` table, over a library and a disk. -/
def init (store : AuthStore) (disk : Disk JsString) : UploadState :=
  { store := store, uploads := .empty, disk := disk, calls := fun _ => none
    usedIds := [], published := [], answers := [] }

/-- The call at slot `i` goes on as `c`. -/
def goOn (s : UploadState) (i : ℕ) (c : Call) : UploadState :=
  { s with calls := Function.update s.calls i (some c) }

/-- The call at slot `i` settles. -/
def answer (s : UploadState) (i : ℕ) (a : Answer) : UploadState :=
  { s with calls := Function.update s.calls i none, answers := a :: s.answers }

def setDisk (s : UploadState) (d : Disk JsString) : UploadState := { s with disk := d }

def setUploads (s : UploadState) (t : Table UploadRow) : UploadState := { s with uploads := t }

def refuse (s : UploadState) (i : ℕ) (e : ApiException) (details : List (String × ℕ)) :
    UploadState :=
  s.answer i (.refused (.api e details))

end UploadState

open UploadState

/-! ### The pieces of the service -/

def toDto (row : UploadRow) : UploadSession :=
  ⟨row.id, row.received_bytes, row.total_bytes, row.chunk_size, row.status⟩

def unknownSession : ApiException := ⟨.uploadSessionUnknown, "No such upload session."⟩

/-- `require`: another device's session is unknown. -/
def require (s : UploadState) (uploadId deviceId : JsString) : Except ApiException UploadRow :=
  match s.uploads.get uploadId with
  | none => .error unknownSession
  | some row => if row.device_id = deviceId then .ok row else .error unknownSession

def statusName : UploadStatus → String
  | .active => "active"
  | .complete => "complete"
  | .aborted => "aborted"

def tooLong : ApiException :=
  ⟨.uploadTooLarge, "This chunk would take the upload past the size it declared."⟩

def progressOf (received : ℕ) (row : UploadRow) : List (String × ℕ) :=
  [("receivedBytes", received), ("totalBytes", row.total_bytes)]

/-- `create` up to its first `await`. -/
def createCheck (cfg : UploadConfig) (s : UploadState) (input : CreateInput) :
    Except (ApiException × List (String × ℕ)) JsString :=
  if input.totalBytes > cfg.maxBytes then
    .error (⟨.uploadTooLarge, "That file is larger than this server accepts."⟩,
      [("maxBytes", cfg.maxBytes)])
  else match sanitizeRelativePath input.relativePath with
    | .error e => .error (e, [])
    | .ok relPath =>
        match assertCan s.store input.deviceId input.folderId .upload with
        | .error e => .error (e, [])
        | .ok _ =>
            match writableFolder s.store input.folderId with
            | .error e => .error (e, [])
            | .ok _ => .ok relPath

/-- `append` up to its first `await`. -/
def appendCheck (s : UploadState) (uploadId deviceId : JsString) (offset : ℕ)
    (declared : Option ℕ) : Except (ApiException × List (String × ℕ)) UploadRow :=
  match require s uploadId deviceId with
  | .error e => .error (e, [])
  | .ok row =>
      if row.status ≠ .active then
        .error (⟨.uploadSessionUnknown, "This upload is already " ++ statusName row.status ++ "."⟩, [])
      else if offset ≠ row.received_bytes then
        .error (⟨.uploadOffsetMismatch, "That offset is not where this upload currently stands."⟩,
          progressOf row.received_bytes row)
      else if declared.any fun n => offset + n > row.total_bytes then
        .error (tooLong, progressOf row.received_bytes row)
      else .ok row

/-- `finalize` up to its first `await`. -/
def finalize (s : UploadState) (i : ℕ) (row : UploadRow) : UploadState :=
  match writableFolder s.store row.folder_id with
  | .error e => s.refuse i e []
  | .ok _ => s.goOn i (.resolving row)

/-- `persistReceived`. -/
def persistReceived (s : UploadState) (uploadId : JsString) (received : ℕ) (now : Time) :
    UploadState :=
  s.setUploads (s.uploads.updateKey uploadId fun r =>
    { r with received_bytes := received, updated_at := now })

/-- `append` from the closing of its handle on. -/
def appendEnd (s : UploadState) (i : ℕ) (row : UploadRow) (received : ℕ) (overflow threw : Bool)
    (now : Time) : UploadState :=
  let s := if received ≠ row.received_bytes then persistReceived s row.id received now else s
  if threw then s.answer i (.refused (.fs "EPIPE"))
  else if overflow then s.refuse i tooLong (progressOf received row)
  else match require s row.id row.device_id with
    | .error e => s.refuse i e []
    | .ok updated =>
        if updated.received_bytes ≥ updated.total_bytes then finalize s i updated
        else s.answer i (.session (toDto updated))

/-- `create` from its temp file on: the row is inserted, where its device and its folder are
still there, and an empty file is finished at once. -/
def createEnd (cfg : UploadConfig) (s : UploadState) (i : ℕ) (input : CreateInput)
    (relPath id : JsString) (now : Time) : UploadState :=
  let row : UploadRow :=
    { id := id, device_id := input.deviceId, folder_id := input.folderId, rel_path := relPath
      total_bytes := input.totalBytes, received_bytes := 0, chunk_size := cfg.chunkSize
      temp_path := tempPath cfg id, status := .active, created_at := now, updated_at := now }
  if (s.store.devices.get input.deviceId).isNone
      || (s.store.shared_folders.get input.folderId).isNone then
    s.answer i (.refused (.fs "SQLITE_CONSTRAINT"))
  else match s.uploads.insert row with
    | none => s.answer i (.refused (.fs "SQLITE_CONSTRAINT"))
    | some uploads =>
        let s := s.setUploads uploads
        if input.totalBytes = 0 then finalize s i row else s.answer i (.session (toDto row))

/-- The answer of a call that reads the row of its session back. -/
def answerRow (s : UploadState) (i : ℕ) (uploadId : JsString) : UploadState :=
  match s.uploads.get uploadId with
  | none => s.refuse i unknownSession []
  | some row => s.answer i (.session (toDto row))

/-- `abort` from `rm` on. -/
def abortEnd (s : UploadState) (i : ℕ) (row : UploadRow) (now : Time) : UploadState :=
  answerRow (s.setUploads (s.uploads.updateKey row.id fun r =>
    { r with status := .aborted, updated_at := now })) i row.id

/-- `sweepAbandoned` from the last `rm` on. -/
def sweepEnd (s : UploadState) (i : ℕ) (cutoff : Time) (count : ℕ) (now : Time) : UploadState :=
  (s.setUploads (s.uploads.update (fun r => r.status = .active && r.updated_at < cutoff) fun r =>
    { r with status := .aborted, updated_at := now })).answer i (.swept count)

/-- `finalize` from `rename` on. -/
def finalizeEnd (s : UploadState) (i : ℕ) (row : UploadRow) (finalPath : JsString) (now : Time) :
    UploadState :=
  answerRow (s.setUploads (s.uploads.updateKey row.id fun r =>
    { r with
      status := .complete
      rel_path := finalRel row.rel_path finalPath
      received_bytes := r.total_bytes
      updated_at := now })) i row.id

/-! ### Steps -/

inductive Action where
  | create (i : ℕ) (input : CreateInput)
  /-- `resolveWritable` answers, in `create` or in `finalize`. -/
  | resolved (i : ℕ) (r : Except Failure JsString)
  | opened (i : ℕ) (id : JsString) (fails : Bool)
  | inserted (i : ℕ) (now : Time)
  | append (i : ℕ) (uploadId deviceId : JsString) (offset : ℕ) (declared : Option ℕ)
  | openedTemp (i : ℕ) (fails : Bool)
  /-- A chunk arrives; of a write, `written` bytes reach the file, and it may fail. -/
  | chunk (i : ℕ) (data : List UInt8) (written : ℕ) (fails : Bool)
  /-- The body ends, or breaks off, and the handle is closed. -/
  | closed (i : ℕ) (broken : Bool) (now : Time)
  | abort (i : ℕ) (uploadId deviceId : JsString)
  /-- `rm` settles, in `abort`, or for the next temp file of a sweep. -/
  | removed (i : ℕ) (fails : Bool)
  | aborted (i : ℕ) (now : Time)
  | sweep (i : ℕ) (now olderThan : Time)
  | swept (i : ℕ) (now : Time)
  | madeDir (i : ℕ) (fails : Bool)
  | reserved (i : ℕ) (fails : Bool)
  | renamed (i : ℕ) (fails : Bool)
  | recorded (i : ℕ) (now : Time)
  | cleaned (i : ℕ) (fails : Bool)
  | get (i : ℕ) (uploadId deviceId : JsString)
  /-- The operator changes devices, grants or folders; sessions go with theirs. -/
  | operate (store : AuthStore)
  /-- The server stops and starts again: the temp directory is cleaned. -/
  | restart

/-- One step; `none` where the action is not enabled. -/
def step (cfg : UploadConfig) (s : UploadState) : Action → Option UploadState
  | .create i input =>
      match s.calls i with
      | some _ => none
      | none => match createCheck cfg s input with
          | .error (e, details) => some (s.refuse i e details)
          | .ok relPath => some (s.goOn i (.creating input relPath))
  | .resolved i r =>
      match s.calls i, r with
      | some (.creating _ _), .error f => some (s.answer i (.refused f))
      | some (.creating input relPath), .ok _ => some (s.goOn i (.opening input relPath))
      | some (.resolving _), .error f => some (s.answer i (.refused f))
      | some (.resolving row), .ok destination => some (s.goOn i (.making row destination))
      | _, _ => none
  | .opened i id fails =>
      match s.calls i with
      | some (.opening input relPath) =>
          if fails then some (s.answer i (.refused (.fs "EIO")))
          else if id ∈ s.usedIds then none
          else some ({ s with
            disk := s.disk.truncate (tempPath cfg id)
            usedIds := id :: s.usedIds }.goOn i (.inserting input relPath id))
      | _ => none
  | .inserted i now =>
      match s.calls i with
      | some (.inserting input relPath id) => some (createEnd cfg s i input relPath id now)
      | _ => none
  | .append i uploadId deviceId offset declared =>
      match s.calls i with
      | some _ => none
      | none => match appendCheck s uploadId deviceId offset declared with
          | .error (e, details) => some (s.refuse i e details)
          | .ok row => some (s.goOn i (.appending row))
  | .openedTemp i fails =>
      match s.calls i with
      | some (.appending row) =>
          match s.disk.names row.temp_path, fails with
          | none, _ => some (s.answer i (.refused (.fs "ENOENT")))
          | some _, true => some (s.answer i (.refused (.fs "EIO")))
          | some inode, false => some (s.goOn i (.writing row inode row.received_bytes false false))
      | _ => none
  | .chunk i data written fails =>
      match s.calls i with
      | some (.writing row inode received overflow false) =>
          if data = [] then some s
          else if overflow ∨ received + data.length > row.total_bytes then
            some (s.goOn i (.writing row inode received true false))
          else
            let s := s.setDisk (s.disk.write inode received (data.take written))
            if fails then some (s.goOn i (.writing row inode received overflow true))
            else some (s.goOn i (.writing row inode (received + data.length) overflow false))
      | _ => none
  | .closed i broken now =>
      match s.calls i with
      | some (.writing row _ received overflow threw) =>
          some (appendEnd s i row received overflow (threw || broken) now)
      | _ => none
  | .abort i uploadId deviceId =>
      match s.calls i with
      | some _ => none
      | none => match require s uploadId deviceId with
          | .error e => some (s.refuse i e [])
          | .ok row =>
              if row.status = .complete then
                some (s.refuse i ⟨.badRequest, "This upload has already finished."⟩ [])
              else some (s.goOn i (.removing row))
  | .removed i fails =>
      match s.calls i with
      | some (.removing row) =>
          some ((s.setDisk (if fails then s.disk else s.disk.remove row.temp_path)).goOn i
            (.aborting row))
      | some (.sweeping cutoff (path :: rest) count) =>
          some ((s.setDisk (if fails then s.disk else s.disk.remove path)).goOn i
            (.sweeping cutoff rest count))
      | _ => none
  | .aborted i now =>
      match s.calls i with
      | some (.aborting row) => some (abortEnd s i row now)
      | _ => none
  | .sweep i now olderThan =>
      match s.calls i with
      | some _ => none
      | none =>
          let cutoff := now - olderThan
          let rows := s.uploads.rows.filter fun r => r.status = .active && r.updated_at < cutoff
          if rows = [] then some (s.answer i (.swept 0))
          else some (s.goOn i (.sweeping cutoff (rows.map (·.temp_path)) rows.length))
  | .swept i now =>
      match s.calls i with
      | some (.sweeping cutoff [] count) => some (sweepEnd s i cutoff count now)
      | _ => none
  | .madeDir i fails =>
      match s.calls i with
      | some (.making row destination) =>
          if fails then some (s.answer i (.refused (.fs "EIO")))
          else some (s.goOn i (.reserving row destination 1))
      | _ => none
  | .reserved i fails =>
      match s.calls i with
      | some (.reserving row destination counter) =>
          let path := candidate destination counter
          if fails then some (s.answer i (.refused (.fs "EIO")))
          else if (s.disk.names path).isSome then
            if counter + 1 < MAX_CANDIDATES then
              some (s.goOn i (.reserving row destination (counter + 1)))
            else some (s.refuse i ⟨.badRequest,
              "Too many files with this name already exist in that folder."⟩ [])
          else some ((s.setDisk (s.disk.createNew path)).goOn i (.renaming row path))
      | _ => none
  | .renamed i fails =>
      match s.calls i with
      | some (.renaming row finalPath) =>
          match s.disk.names row.temp_path, fails with
          | some inode, false =>
              some ({ s with
                disk := s.disk.rename row.temp_path finalPath
                published := ⟨finalPath, inode, s.disk.bytes inode⟩ :: s.published }.goOn i
                  (.recording row finalPath))
          | _, _ => some (s.goOn i (.cleaning finalPath))
      | _ => none
  | .recorded i now =>
      match s.calls i with
      | some (.recording row finalPath) => some (finalizeEnd s i row finalPath now)
      | _ => none
  | .cleaned i fails =>
      match s.calls i with
      | some (.cleaning finalPath) =>
          some ((s.setDisk (if fails then s.disk else s.disk.remove finalPath)).answer i
            (.refused (.fs "EIO")))
      | _ => none
  | .get i uploadId deviceId =>
      match s.calls i with
      | some _ => none
      | none => match require s uploadId deviceId with
          | .error e => some (s.refuse i e [])
          | .ok row => some (s.answer i (.session (toDto row)))
  | .operate store =>
      some { s with
        store := store
        uploads := s.uploads.delete fun r =>
          (store.devices.get r.device_id).isNone || (store.shared_folders.get r.folder_id).isNone }
  | .restart =>
      some { s with calls := fun _ => none, disk := s.disk.removeAll (inTempDir cfg) }

/-! ### What a step does -/

namespace Call

/-- The temp files the call may still remove or rename. -/
def tempPaths : Call → List JsString
  | .appending row | .writing row .. | .removing row | .aborting row | .resolving row
  | .making row _ | .reserving row .. | .renaming row _ | .recording row _ => [row.temp_path]
  | .sweeping _ rest _ => rest
  | .creating .. | .opening .. | .inserting .. | .cleaning _ => []

/-- The name the call has reserved and not yet published. -/
def reserved : Call → Option JsString
  | .renaming _ finalPath | .cleaning finalPath => some finalPath
  | _ => none

/-- The id the call is about to insert a row under. -/
def newId : Call → Option JsString
  | .inserting _ _ id => some id
  | _ => none

end Call

/-- How the call of slot `i` goes on: with temp paths of rows or its own, and with no
reservation and no id but its own. -/
structure Follows (s t : UploadState) (i : ℕ) (c : Call) : Prop where
  temp : ∀ p ∈ c.tempPaths, (∃ id row, t.uploads.get id = some row ∧ row.temp_path = p) ∨
    ∃ c0, s.calls i = some c0 ∧ p ∈ c0.tempPaths
  reserved : ∀ f, c.reserved = some f → ∃ c0, s.calls i = some c0 ∧ c0.reserved = some f
  newId : c.newId = none

/-- Every call in flight after a step was in flight before, or goes on from there. -/
def CallsFollow (s t : UploadState) : Prop :=
  ∀ i c, t.calls i = some c → s.calls i = some c ∨ Follows s t i c

/-- The row a new session starts with. -/
def newRow (cfg : UploadConfig) (input : CreateInput) (relPath id : JsString) (now : Time) :
    UploadRow :=
  { id := id, device_id := input.deviceId, folder_id := input.folderId, rel_path := relPath
    total_bytes := input.totalBytes, received_bytes := 0, chunk_size := cfg.chunkSize
    temp_path := tempPath cfg id, status := .active, created_at := now, updated_at := now }

/-- What a step does to the table and the disk. -/
inductive Effect (cfg : UploadConfig) (s : UploadState) (a : Action) (t : UploadState) : Prop
  | quiet (huploads : t.uploads = s.uploads) (hdisk : t.disk = s.disk)
      (hpub : t.published = s.published) (hids : t.usedIds = s.usedIds) (hcalls : CallsFollow s t)
  | created {i : ℕ} {input : CreateInput} {relPath id : JsString} (hid : id ∉ s.usedIds)
      (huploads : t.uploads = s.uploads) (hdisk : t.disk = s.disk.truncate (tempPath cfg id))
      (hpub : t.published = s.published) (hids : t.usedIds = id :: s.usedIds)
      (hcalls : t.calls = Function.update s.calls i (some (.inserting input relPath id)))
  | inserted {i : ℕ} {now : Time} {input : CreateInput} {relPath : JsString} {row : UploadRow}
      (ha : a = .inserted i now) (hcall : s.calls i = some (.inserting input relPath row.id))
      (hrow : row = newRow cfg input relPath row.id now)
      (huploads : s.uploads.insert row = some t.uploads) (hdisk : t.disk = s.disk)
      (hpub : t.published = s.published) (hids : t.usedIds = s.usedIds) (hcalls : CallsFollow s t)
      (hdone : ∀ c, t.calls i = some c → c.newId = none)
  | wrote {i : ℕ} {data : List UInt8} {written : ℕ} {fails : Bool} {row : UploadRow}
      {inode received : ℕ} {overflow : Bool} (ha : a = .chunk i data written fails)
      (hcall : s.calls i = some (.writing row inode received overflow false))
      (hdata : data ≠ []) (hfits : ¬ (overflow ∨ received + data.length > row.total_bytes))
      (huploads : t.uploads = s.uploads)
      (hdisk : t.disk = s.disk.write inode received (data.take written))
      (hpub : t.published = s.published) (hids : t.usedIds = s.usedIds) (hcalls : CallsFollow s t)
  | persisted {i : ℕ} {broken : Bool} {now : Time} {row : UploadRow} {inode received : ℕ}
      {overflow threw : Bool} (ha : a = .closed i broken now)
      (hcall : s.calls i = some (.writing row inode received overflow threw))
      (hne : received ≠ row.received_bytes)
      (huploads : t.uploads = s.uploads.updateKey row.id fun r =>
        { r with received_bytes := received, updated_at := now })
      (hdisk : t.disk = s.disk) (hpub : t.published = s.published)
      (hids : t.usedIds = s.usedIds) (hcalls : CallsFollow s t)
  | removed {i : ℕ} {c : Call} {p : JsString} (hcall : s.calls i = some c) (hp : p ∈ c.tempPaths)
      (huploads : t.uploads = s.uploads) (hdisk : t.disk = s.disk.remove p)
      (hpub : t.published = s.published) (hids : t.usedIds = s.usedIds) (hcalls : CallsFollow s t)
      (ha : a = .removed i false)
      (hnext : (∃ row, c = .removing row ∧ t.calls i = some (.aborting row)) ∨
        ∃ cutoff rest count, c = .sweeping cutoff (p :: rest) count ∧
          t.calls i = some (.sweeping cutoff rest count))
  | aborted {i : ℕ} {now : Time} {row : UploadRow} (ha : a = .aborted i now)
      (hcall : s.calls i = some (.aborting row))
      (huploads : t.uploads = s.uploads.updateKey row.id fun r =>
        { r with status := .aborted, updated_at := now })
      (hdisk : t.disk = s.disk) (hpub : t.published = s.published)
      (hids : t.usedIds = s.usedIds) (hcalls : CallsFollow s t)
  | swept {cutoff now : Time}
      (huploads : t.uploads = s.uploads.update
        (fun r => r.status = .active && r.updated_at < cutoff) fun r =>
          { r with status := .aborted, updated_at := now })
      (hdisk : t.disk = s.disk) (hpub : t.published = s.published)
      (hids : t.usedIds = s.usedIds) (hcalls : CallsFollow s t)
  | reserved {i : ℕ} {row : UploadRow} {destination : JsString} {counter : ℕ}
      (ha : a = .reserved i false) (hcall : s.calls i = some (.reserving row destination counter))
      (hfree : s.disk.names (candidate destination counter) = none)
      (huploads : t.uploads = s.uploads)
      (hdisk : t.disk = s.disk.createNew (candidate destination counter))
      (hpub : t.published = s.published) (hids : t.usedIds = s.usedIds)
      (hcalls : t.calls = Function.update s.calls i
        (some (.renaming row (candidate destination counter))))
  | published {i : ℕ} {row : UploadRow} {finalPath : JsString} {inode : ℕ}
      (ha : a = .renamed i false) (hcall : s.calls i = some (.renaming row finalPath))
      (hname : s.disk.names row.temp_path = some inode) (huploads : t.uploads = s.uploads)
      (hdisk : t.disk = s.disk.rename row.temp_path finalPath)
      (hpub : t.published = ⟨finalPath, inode, s.disk.bytes inode⟩ :: s.published)
      (hids : t.usedIds = s.usedIds)
      (hcalls : t.calls = Function.update s.calls i (some (.recording row finalPath)))
  | recorded {i : ℕ} {now : Time} {row : UploadRow} {finalPath : JsString}
      (ha : a = .recorded i now) (hcall : s.calls i = some (.recording row finalPath))
      (huploads : t.uploads = s.uploads.updateKey row.id fun r => { r with
        status := .complete
        rel_path := finalRel row.rel_path finalPath
        received_bytes := r.total_bytes
        updated_at := now })
      (hdisk : t.disk = s.disk) (hpub : t.published = s.published)
      (hids : t.usedIds = s.usedIds) (hcalls : CallsFollow s t)
  | cleaned {i : ℕ} {finalPath : JsString} (hcall : s.calls i = some (.cleaning finalPath))
      (huploads : t.uploads = s.uploads) (hdisk : t.disk = s.disk.remove finalPath)
      (hpub : t.published = s.published) (hids : t.usedIds = s.usedIds)
      (hcalls : t.calls = Function.update s.calls i none)
  | operated {p : UploadRow → Bool} (huploads : t.uploads = s.uploads.delete p)
      (hdisk : t.disk = s.disk) (hpub : t.published = s.published)
      (hids : t.usedIds = s.usedIds) (hcalls : t.calls = s.calls)
  | restarted (huploads : t.uploads = s.uploads) (hdisk : t.disk = s.disk.removeAll (inTempDir cfg))
      (hpub : t.published = s.published) (hids : t.usedIds = s.usedIds)
      (hcalls : ∀ i, t.calls i = none) (ha : a = .restart)

section Step

variable {cfg : UploadConfig} {s t : UploadState} {a : Action}

lemma callsFollow_update {i : ℕ} {o : Option Call} (h : t.calls = Function.update s.calls i o)
    (ho : ∀ c, o = some c → Follows s t i c) : CallsFollow s t := by
  intro j c hc
  rw [h, Function.update_apply] at hc
  split_ifs at hc with hj
  · subst hj
    exact .inr (ho c hc)
  · exact .inl hc

lemma callsFollow_settle {i : ℕ} (h : t.calls = Function.update s.calls i none) :
    CallsFollow s t :=
  callsFollow_update h fun _ ho => nomatch ho

/-- A call goes on with no reservation and no new id. -/
lemma follows_of_temp {i : ℕ} {c : Call} (hr : c.reserved = none) (hi : c.newId = none)
    (ht : ∀ p ∈ c.tempPaths, (∃ id row, t.uploads.get id = some row ∧ row.temp_path = p) ∨
      ∃ c0, s.calls i = some c0 ∧ p ∈ c0.tempPaths) : Follows s t i c :=
  ⟨ht, fun f hf => by simp [hr] at hf, hi⟩

/-- A step of slot `i` alone that leaves the table and the disk. -/
lemma quiet_goOn {i : ℕ} {c : Call} (hc : Follows s (s.goOn i c) i c) :
    Effect cfg s a (s.goOn i c) := by
  refine .quiet rfl rfl rfl rfl (callsFollow_update rfl fun c' hc' => ?_)
  rw [← Option.some.inj hc']
  exact hc

lemma quiet_answer {i : ℕ} {ans : Answer} : Effect cfg s a (s.answer i ans) :=
  .quiet rfl rfl rfl rfl (callsFollow_settle rfl)

lemma require_eq_ok {uploadId deviceId : JsString} {row : UploadRow}
    (h : require s uploadId deviceId = .ok row) : s.uploads.get uploadId = some row := by
  rw [require] at h
  cases hg : s.uploads.get uploadId with
  | none => simp [hg] at h
  | some r =>
      simp only [hg] at h
      split_ifs at h
      exact congrArg some (Except.ok.inj h)

/-- The end of a call: it settles, or goes on to `finalize` a row of the table. -/
structure Ends (s t : UploadState) (i : ℕ) : Prop where
  uploads : t.uploads = s.uploads
  disk : t.disk = s.disk
  published : t.published = s.published
  usedIds : t.usedIds = s.usedIds
  calls : t.calls = Function.update s.calls i none ∨
    ∃ id row, s.uploads.get id = some row ∧
      t.calls = Function.update s.calls i (some (.resolving row))

lemma ends_answer (s : UploadState) (i : ℕ) (ans : Answer) : Ends s (s.answer i ans) i :=
  ⟨rfl, rfl, rfl, rfl, .inl rfl⟩

lemma ends_finalize {s : UploadState} {i : ℕ} {id : JsString} {row : UploadRow}
    (hrow : s.uploads.get id = some row) : Ends s (finalize s i row) i := by
  rw [finalize]
  split
  · exact ends_answer s i _
  · exact ⟨rfl, rfl, rfl, rfl, .inr ⟨id, row, hrow, rfl⟩⟩

lemma ends_answerRow (s : UploadState) (i : ℕ) (id : JsString) : Ends s (answerRow s i id) i := by
  rw [answerRow]
  split
  · exact ends_answer s i _
  · exact ends_answer s i _

/-- The part of `append` after its write to the table. -/
lemma ends_append (s : UploadState) (i : ℕ) (row : UploadRow) (received : ℕ)
    (overflow threw : Bool) :
    Ends s (if threw then s.answer i (.refused (.fs "EPIPE"))
      else if overflow then s.refuse i tooLong (progressOf received row)
      else match require s row.id row.device_id with
        | .error e => s.refuse i e []
        | .ok updated =>
            if updated.received_bytes ≥ updated.total_bytes then finalize s i updated
            else s.answer i (.session (toDto updated))) i := by
  split_ifs
  · exact ends_answer s i _
  · exact ends_answer s i _
  · split
    · exact ends_answer s i _
    case h_2 updated hreq =>
      split_ifs
      · exact ends_finalize (require_eq_ok hreq)
      · exact ends_answer s i _

/-- A call that ends from a state with the calls of `s`. -/
lemma Ends.callsFollow {s' : UploadState} {i : ℕ} (h : Ends s' t i) (hc : s'.calls = s.calls) :
    CallsFollow s t := by
  rcases h.calls with hcalls | ⟨id, row, hrow, hcalls⟩
  · exact callsFollow_settle (hc ▸ hcalls)
  · refine callsFollow_update (hc ▸ hcalls) fun c hc' => ?_
    obtain rfl := Option.some.inj hc'
    refine follows_of_temp rfl rfl fun p hp => .inl ⟨id, row, by rw [h.uploads, hrow], ?_⟩
    simpa [Call.tempPaths, eq_comm] using hp

/-- A call that keeps the row it holds. -/
lemma follows_of_call {i : ℕ} {c c0 : Call} (hcall : s.calls i = some c0)
    (ht : c.tempPaths ⊆ c0.tempPaths) (hr : c.reserved = none ∨ c.reserved = c0.reserved)
    (hi : c.newId = none) : Follows s t i c where
  temp p hp := .inr ⟨c0, hcall, ht hp⟩
  reserved f hf := by
    rcases hr with hr | hr
    · simp [hr] at hf
    · exact ⟨c0, hcall, hr ▸ hf⟩
  newId := hi

/-- A call that has just read its row. -/
lemma follows_of_row {i : ℕ} {c : Call} {id : JsString} {row : UploadRow}
    (hrow : t.uploads.get id = some row) (ht : c.tempPaths = [row.temp_path])
    (hr : c.reserved = none) (hi : c.newId = none) : Follows s t i c :=
  follows_of_temp hr hi fun p hp => .inl ⟨id, row, hrow, by simpa [ht, eq_comm] using hp⟩

lemma appendCheck_eq_ok {uploadId deviceId : JsString} {offset : ℕ} {declared : Option ℕ}
    {row : UploadRow} (h : appendCheck s uploadId deviceId offset declared = .ok row) :
    s.uploads.get uploadId = some row ∧ row.status = .active ∧ offset = row.received_bytes := by
  rw [appendCheck] at h
  split at h
  · cases h
  case h_2 r hreq =>
    split_ifs at h with h1 h2 h3
    obtain rfl := Except.ok.inj h
    exact ⟨require_eq_ok hreq, not_not.mp h1, not_not.mp h2⟩

lemma inserted_effect {i : ℕ} {now : Time} {input : CreateInput} {relPath id : JsString}
    (hcall : s.calls i = some (.inserting input relPath id)) :
    Effect cfg s (.inserted i now) (createEnd cfg s i input relPath id now) := by
  rw [createEnd]
  by_cases hgone : (s.store.devices.get input.deviceId).isNone
      || (s.store.shared_folders.get input.folderId).isNone
  · rw [if_pos hgone]
    exact quiet_answer
  · rw [if_neg hgone]
    split
    · exact quiet_answer
    case h_2 uploads hins =>
      have hends (t : UploadState) (ht : Ends (s.setUploads uploads) t i) :
          Effect cfg s (.inserted i now) t := by
        refine .inserted rfl hcall rfl (by rw [hins, ht.uploads]; rfl) ht.disk ht.published
          ht.usedIds (ht.callsFollow rfl) fun c hc => ?_
        rcases ht.calls with hcalls | ⟨id', row, -, hcalls⟩
        · simp [hcalls] at hc
        · rw [hcalls, Function.update_self] at hc
          rw [← Option.some.inj hc]
          rfl
      split_ifs
      · exact hends _ (ends_finalize ((Table.get_insert hins id).trans (if_pos rfl)))
      · exact hends _ (ends_answer _ i _)

lemma closed_effect {i : ℕ} {broken : Bool} {now : Time} {row : UploadRow} {inode received : ℕ}
    {overflow threw : Bool}
    (hcall : s.calls i = some (.writing row inode received overflow threw)) :
    Effect cfg s (.closed i broken now)
      (appendEnd s i row received overflow (threw || broken) now) := by
  rw [appendEnd]
  by_cases hne : received ≠ row.received_bytes
  · rw [if_pos hne]
    have hends := ends_append (persistReceived s row.id received now) i row received overflow
      (threw || broken)
    exact .persisted rfl hcall hne hends.uploads hends.disk hends.published hends.usedIds
      (hends.callsFollow rfl)
  · rw [if_neg hne]
    have hends := ends_append s i row received overflow (threw || broken)
    exact .quiet hends.uploads hends.disk hends.published hends.usedIds (hends.callsFollow rfl)

lemma chunk_effect {i : ℕ} {data : List UInt8} {written : ℕ} {fails : Bool} {row : UploadRow}
    {inode received : ℕ} {overflow : Bool}
    (hcall : s.calls i = some (.writing row inode received overflow false))
    (h : step cfg s (.chunk i data written fails) = some t) :
    Effect cfg s (.chunk i data written fails) t := by
  have hsame (received' : ℕ) (overflow' threw' : Bool) (t : UploadState) :
      Follows s t i (.writing row inode received' overflow' threw') :=
    follows_of_call hcall (List.Subset.refl _) (.inl rfl) rfl
  rw [step, hcall] at h
  simp only at h
  split_ifs at h with hdata hfits
  · obtain rfl := Option.some.inj h
    exact .quiet rfl rfl rfl rfl fun j c hc => .inl hc
  · obtain rfl := Option.some.inj h
    exact quiet_goOn (hsame _ _ _ _)
  all_goals
    obtain rfl := Option.some.inj h
    refine .wrote rfl hcall hdata hfits rfl rfl rfl rfl (callsFollow_update rfl fun c hc => ?_)
    obtain rfl := Option.some.inj hc
    exact hsame _ _ _ _

lemma removed_effect {i : ℕ} {fails : Bool} {c c' : Call} {p : JsString}
    (hcall : s.calls i = some c) (hp : p ∈ c.tempPaths) (ht : c'.tempPaths ⊆ c.tempPaths)
    (hr : c'.reserved = none) (hi : c'.newId = none)
    (hnext : (∃ row, c = .removing row ∧ c' = .aborting row) ∨
      ∃ cutoff rest count, c = .sweeping cutoff (p :: rest) count ∧
        c' = .sweeping cutoff rest count) :
    Effect cfg s (.removed i fails)
      ((s.setDisk (if fails then s.disk else s.disk.remove p)).goOn i c') := by
  have hcalls (t : UploadState) (h : t.calls = Function.update s.calls i (some c')) :
      CallsFollow s t := by
    refine callsFollow_update h fun c'' hc'' => ?_
    obtain rfl := Option.some.inj hc''
    exact follows_of_call hcall ht (.inl hr) hi
  cases fails with
  | true => exact .quiet rfl rfl rfl rfl (hcalls _ rfl)
  | false =>
      refine .removed hcall hp rfl rfl rfl rfl (hcalls _ rfl) rfl ?_
      rcases hnext with ⟨row, hc, rfl⟩ | ⟨cutoff, rest, count, hc, rfl⟩
      · exact .inl ⟨row, hc, Function.update_self _ _ _⟩
      · exact .inr ⟨cutoff, rest, count, hc, Function.update_self _ _ _⟩

lemma renamed_effect {i : ℕ} {fails : Bool} {row : UploadRow} {finalPath : JsString}
    (hcall : s.calls i = some (.renaming row finalPath))
    (h : step cfg s (.renamed i fails) = some t) : Effect cfg s (.renamed i fails) t := by
  rw [step, hcall] at h
  simp only at h
  split at h
  case h_1 inode hname =>
    obtain rfl := Option.some.inj h
    exact .published rfl hcall hname rfl rfl rfl rfl rfl
  case h_2 =>
    obtain rfl := Option.some.inj h
    exact quiet_goOn (follows_of_call hcall (List.nil_subset _) (.inr rfl) rfl)

lemma reserved_effect {i : ℕ} {fails : Bool} {row : UploadRow} {destination : JsString}
    {counter : ℕ} (hcall : s.calls i = some (.reserving row destination counter))
    (h : step cfg s (.reserved i fails) = some t) : Effect cfg s (.reserved i fails) t := by
  rw [step, hcall] at h
  simp only at h
  split_ifs at h with hfails htaken hcount
  · obtain rfl := Option.some.inj h
    exact quiet_answer
  · obtain rfl := Option.some.inj h
    exact quiet_goOn (follows_of_call hcall (List.Subset.refl _) (.inl rfl) rfl)
  · obtain rfl := Option.some.inj h
    exact quiet_answer
  · obtain rfl := Option.some.inj h
    obtain rfl : fails = false := by simpa using hfails
    exact .reserved rfl hcall (by simpa using htaken) rfl rfl rfl rfl rfl

/-- **Everything a step can do.** -/
theorem step_effect (h : step cfg s a = some t) : Effect cfg s a t := by
  cases a with
  | create i input =>
      rw [step] at h
      split at h
      case h_1 => cases h
      case h_2 hfree =>
        split at h
        · obtain rfl := Option.some.inj h
          exact quiet_answer
        · obtain rfl := Option.some.inj h
          exact quiet_goOn (follows_of_temp rfl rfl (by simp [Call.tempPaths]))
  | resolved i r =>
      simp only [step] at h
      split at h
      case h_1 => obtain rfl := Option.some.inj h; exact quiet_answer
      case h_2 hcall _ =>
        obtain rfl := Option.some.inj h
        exact quiet_goOn (follows_of_temp rfl rfl (by simp [Call.tempPaths]))
      case h_3 => obtain rfl := Option.some.inj h; exact quiet_answer
      case h_4 row destination hcall =>
        obtain rfl := Option.some.inj h
        exact quiet_goOn (follows_of_call hcall (List.Subset.refl _) (.inl rfl) rfl)
      case h_5 => cases h
  | opened i id fails =>
      rw [step] at h
      split at h
      case h_2 => cases h
      case h_1 input relPath hcall =>
        split_ifs at h with hfails hid
        · obtain rfl := Option.some.inj h
          exact quiet_answer
        · obtain rfl := Option.some.inj h
          exact .created hid rfl rfl rfl rfl rfl
  | inserted i now =>
      rw [step] at h
      split at h
      case h_2 => cases h
      case h_1 input relPath id hcall =>
        obtain rfl := Option.some.inj h
        exact inserted_effect hcall
  | append i uploadId deviceId offset declared =>
      rw [step] at h
      split at h
      case h_1 => cases h
      case h_2 hfree =>
        split at h
        · obtain rfl := Option.some.inj h
          exact quiet_answer
        case h_2 row hcheck =>
          obtain rfl := Option.some.inj h
          exact quiet_goOn (follows_of_row (appendCheck_eq_ok hcheck).1 rfl rfl rfl)
  | openedTemp i fails =>
      rw [step] at h
      split at h
      case h_2 => cases h
      case h_1 row hcall =>
        split at h
        · obtain rfl := Option.some.inj h
          exact quiet_answer
        · obtain rfl := Option.some.inj h
          exact quiet_answer
        · obtain rfl := Option.some.inj h
          exact quiet_goOn (follows_of_call hcall (List.Subset.refl _) (.inl rfl) rfl)
  | chunk i data written fails =>
      have h' := h
      rw [step] at h
      split at h
      case h_2 => cases h
      case h_1 row inode received overflow hcall => exact chunk_effect hcall h'
  | closed i broken now =>
      rw [step] at h
      split at h
      case h_2 => cases h
      case h_1 row inode received overflow threw hcall =>
        obtain rfl := Option.some.inj h
        exact closed_effect hcall
  | abort i uploadId deviceId =>
      rw [step] at h
      split at h
      case h_1 => cases h
      case h_2 hfree =>
        split at h
        · obtain rfl := Option.some.inj h
          exact quiet_answer
        case h_2 row hreq =>
          split_ifs at h
          · obtain rfl := Option.some.inj h
            exact quiet_answer
          · obtain rfl := Option.some.inj h
            exact quiet_goOn (follows_of_row (require_eq_ok hreq) rfl rfl rfl)
  | removed i fails =>
      rw [step] at h
      split at h
      case h_1 row hcall =>
        obtain rfl := Option.some.inj h
        exact removed_effect hcall (by simp [Call.tempPaths]) (List.Subset.refl _) rfl rfl
          (.inl ⟨row, rfl, rfl⟩)
      case h_2 cutoff path rest count hcall =>
        obtain rfl := Option.some.inj h
        exact removed_effect hcall (by simp [Call.tempPaths])
          (by simp [Call.tempPaths]) rfl rfl (.inr ⟨cutoff, rest, count, rfl, rfl⟩)
      case h_3 => cases h
  | aborted i now =>
      rw [step] at h
      split at h
      case h_2 => cases h
      case h_1 row hcall =>
        obtain rfl := Option.some.inj h
        have hends := ends_answerRow (s.setUploads (s.uploads.updateKey row.id fun r =>
          { r with status := .aborted, updated_at := now })) i row.id
        exact .aborted rfl hcall hends.uploads hends.disk hends.published hends.usedIds
          (hends.callsFollow rfl)
  | sweep i now olderThan =>
      rw [step] at h
      split at h
      case h_1 => cases h
      case h_2 hfree =>
        simp only at h
        split_ifs at h
        · obtain rfl := Option.some.inj h
          exact quiet_answer
        · obtain rfl := Option.some.inj h
          refine quiet_goOn (follows_of_temp rfl rfl fun p hp => .inl ?_)
          obtain ⟨row, hrow, rfl⟩ := List.mem_map.mp hp
          exact ⟨row.id, row, Table.get_of_mem (List.mem_filter.mp hrow).1, rfl⟩
  | swept i now =>
      rw [step] at h
      split at h
      case h_2 => cases h
      case h_1 cutoff count hcall =>
        obtain rfl := Option.some.inj h
        exact .swept rfl rfl rfl rfl (callsFollow_settle rfl)
  | madeDir i fails =>
      rw [step] at h
      split at h
      case h_2 => cases h
      case h_1 row destination hcall =>
        split_ifs at h
        · obtain rfl := Option.some.inj h
          exact quiet_answer
        · obtain rfl := Option.some.inj h
          exact quiet_goOn (follows_of_call hcall (List.Subset.refl _) (.inl rfl) rfl)
  | reserved i fails =>
      have h' := h
      rw [step] at h
      split at h
      case h_2 => cases h
      case h_1 row destination counter hcall => exact reserved_effect hcall h'
  | renamed i fails =>
      have h' := h
      rw [step] at h
      split at h
      case h_2 => cases h
      case h_1 row finalPath hcall => exact renamed_effect hcall h'
  | recorded i now =>
      rw [step] at h
      split at h
      case h_2 => cases h
      case h_1 row finalPath hcall =>
        obtain rfl := Option.some.inj h
        have hends := ends_answerRow (s.setUploads (s.uploads.updateKey row.id fun r => { r with
          status := .complete
          rel_path := finalRel row.rel_path finalPath
          received_bytes := r.total_bytes
          updated_at := now })) i row.id
        exact .recorded rfl hcall hends.uploads hends.disk hends.published hends.usedIds
          (hends.callsFollow rfl)
  | cleaned i fails =>
      rw [step] at h
      split at h
      case h_2 => cases h
      case h_1 finalPath hcall =>
        obtain rfl := Option.some.inj h
        cases fails with
        | true => exact .quiet rfl rfl rfl rfl (callsFollow_settle rfl)
        | false => exact .cleaned hcall rfl rfl rfl rfl rfl
  | get i uploadId deviceId =>
      rw [step] at h
      split at h
      case h_1 => cases h
      case h_2 hfree =>
        split at h
        · obtain rfl := Option.some.inj h
          exact quiet_answer
        · obtain rfl := Option.some.inj h
          exact quiet_answer
  | operate store =>
      obtain rfl := Option.some.inj h
      exact .operated rfl rfl rfl rfl rfl
  | restart =>
      obtain rfl := Option.some.inj h
      exact .restarted rfl rfl rfl rfl (fun _ => rfl) rfl

end Step

end LocalCast.Uploads
