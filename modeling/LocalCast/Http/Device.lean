import LocalCast.Auth.Credentials
import LocalCast.Http.Range
import LocalCast.Library.Resolver
import LocalCast.Uploads.Sessions

/-!
`http/routes/device.ts`: the routes a paired device calls on the library, with `resolveById`
of the resolver and the creation of an upload. What the request parsers and the cursor codecs
make of a request is what a `DeviceRequest` carries.

* `LibraryState`: the tables, the index, and the disk as a request finds it.
* `DeviceRequest`, `Reply`, `answer`: what a device may ask about the library, and what it
  is told.
-/

namespace LocalCast.Http

open JsString Contract Db Auth Library Uploads

/-! ### The state -/

/-- The full-text index: the rows that match a query, best first. Whether a row matches is a
matter of its own text; its rank may depend on all rows. -/
structure FullText where
  search : List FileRow → JsString → List FileRow
  isMatch : JsString → FileRow → Bool
  search_perm : ∀ rows query, (search rows query).Perm (rows.filter (isMatch query))

/-- What the routes use of the platform and of the configuration. -/
structure Services where
  runtime : Runtime
  caseMap : CaseMap
  fullText : FullText
  uploads : UploadConfig

structure LibraryState where
  store : AuthStore
  files : Table FileRow
  disk : WindowsTree

/-! ### Answers -/

/-- `Folder`, without the descriptive `kind`. -/
structure FolderView where
  id : JsString
  label : JsString
  mode : AccessMode
  writable : Bool
  available : Bool
  fileCount : Option ℕ
  totalBytes : Option ℕ
  lastIndexedAt : Option Time
deriving DecidableEq

/-- `Entry`, without what follows from the name. -/
structure FileEntry where
  id : JsString
  folderId : JsString
  path : JsString
  name : JsString
  isDir : Bool
  size : Option ℕ
  mtime : Option ℕ
deriving DecidableEq

/-- The body of an error, with its status and the `Content-Range` header set before. -/
structure ErrorReply where
  status : ℕ
  code : ErrorCode
  message : String
  detail : List (String × ℕ)
  contentRange : Option JsString
deriving DecidableEq

structure ListingCursor where
  isDir : Bool
  name : JsString
deriving DecidableEq

inductive Reply where
  | folders (folders : List FolderView)
  | entries (folder : FolderView) (path : JsString) (entries : List FileEntry)
      (nextCursor : Option ListingCursor)
  | results (results : List FileEntry) (nextOffset : Option ℕ)
  | metadata (file : ResolvedFile)
  | content (file : ResolvedFile) (response : Response)
  | playback (fileId ticket : JsString) (expiresAt : Time)
  | session (folderId relPath : JsString) (totalBytes : ℕ)
  | failed (error : ErrorReply)
deriving DecidableEq

/-- `errorHandler`. -/
def errorReply (e : ApiException) : ErrorReply := ⟨e.status, e.code, e.message, [], none⟩

def internalError : ErrorReply := ⟨500, .internal, "Internal server error", [], none⟩

def failureReply : Library.Failure → ErrorReply
  | .api e => errorReply e
  | .fs _ => internalError

/-! ### Requests -/

inductive DeviceRequest where
  | folders
  | entries (folderId path : JsString) (cursor : Option ListingCursor) (limit : ℕ)
  | search (q : JsString) (folderId : Option JsString) (offset limit : ℕ)
  | metadata (fileId : JsString)
  | content (fileId : JsString) (req : ContentRequest)
  | playbackUrl (fileId : JsString) (now : Time)
  | createUpload (folderId relativePath : JsString) (totalBytes : ℕ)

/-- `resolveById`. -/
def resolveById (cm : CaseMap) (s : LibraryState) (fileId : JsString) :
    Except Library.Failure ResolvedFile :=
  match s.files.get fileId with
  | none => .error (.api notFound)
  | some row => resolve s.disk cm s.store row.folder_id row.rel_path

def rowToEntry (row : FileRow) : FileEntry :=
  { id := row.id, folderId := row.folder_id, path := row.rel_path, name := row.name
    isDir := row.is_dir, size := if row.is_dir then none else row.size, mtime := row.mtime }

def folderView (st : AuthStore) (deviceId : JsString) (row : FolderRow) : FolderView :=
  { id := row.id, label := row.label, mode := modeFor st deviceId row.id
    writable := row.writable, available := row.available, fileCount := row.file_count
    totalBytes := row.total_bytes, lastIndexedAt := row.last_indexed_at }

/-- `normaliseListingPath`. -/
def normaliseListingPath (input : JsString) : JsString :=
  join [47] ((segments isSlash input).filter fun s => s ≠ js ".")

/-- The order of a listing: directories first, then by name. -/
def listsBefore (a b : FileRow) : Bool :=
  (a.is_dir && !b.is_dir) || (a.is_dir == b.is_dir && toText a.name ≤ toText b.name)

/-- The row comes after the cursor. -/
def afterCursor (cursor : Option ListingCursor) (row : FileRow) : Bool :=
  match cursor with
  | none => true
  | some c => (!row.is_dir && c.isDir) || (row.is_dir == c.isDir && toText c.name < toText row.name)

/-- The rows of `GET /folders/:id/entries`, one more than asked for. -/
def listing (files : Table FileRow) (folderId parentPath : JsString)
    (cursor : Option ListingCursor) (limit : ℕ) : List FileRow :=
  let rows := files.rows.filter fun row => row.folder_id = folderId && row.parent_path = parentPath
  ((rows.filter (afterCursor cursor)).mergeSort listsBefore).take (limit + 1)

/-- `toFtsQuery`. -/
def toFtsQuery (input : JsString) : Option JsString :=
  let tokens := (segments isSpace input).map fun t => trim (t.filter fun c => c ≠ 34 && c ≠ 42)
  let tokens := tokens.filter fun t => t ≠ []
  if tokens = [] then none else some (join [32] (tokens.map fun t => 34 :: (t ++ [34, 42])))

/-- The rows of `GET /search`, one more than asked for. -/
def found (ft : FullText) (files : Table FileRow) (scope : List JsString) (query : JsString)
    (offset limit : ℕ) : List FileRow :=
  (((ft.search files.rows query).filter fun row => scope.contains row.folder_id).drop offset).take
    (limit + 1)

/-- `GET /files/:id/content` once the id has resolved. -/
def content (st : AuthStore) (deviceId folderId : JsString) (file : ServedFile)
    (req : ContentRequest) : Except Refusal Response :=
  match assertCan st deviceId folderId .list with
  | .error e => .error ⟨e, none⟩
  | .ok () =>
      let wantsDownload := req.method ≠ .head ∧ (req.download ∨ req.range = none)
      match assertCan st deviceId folderId (if wantsDownload then .download else .stream) with
      | .error e => .error ⟨e, none⟩
      | .ok () => serveFile req file
          { mode := modeFor st deviceId folderId
            disposition := if req.download then .attachment else .inline }

def servedFile (file : ResolvedFile) : ServedFile :=
  ⟨file.size, file.mtimeMs, file.isDir, file.name⟩

/-- A resolved file the device may use, or the error it is told. -/
def onFile (sv : Services) (s : LibraryState) (deviceId fileId : JsString) (op : Operation)
    (f : ResolvedFile → Reply) : Reply :=
  match resolveById sv.caseMap s fileId with
  | .error e => .failed (failureReply e)
  | .ok file =>
      match assertCan s.store deviceId file.folderId op with
      | .error e => .failed (errorReply e)
      | .ok () => f file

/-- What an authenticated device is answered. -/
def answer (sv : Services) (s : LibraryState) (deviceId : JsString) : DeviceRequest → Reply
  | .folders => .folders <| (visibleFolders s.store deviceId).filterMap fun id =>
      (s.store.shared_folders.get id).map (folderView s.store deviceId)
  | .entries folderId path cursor limit =>
      match assertCan s.store deviceId folderId .list with
      | .error e => .failed (errorReply e)
      | .ok () =>
          match getFolder s.store folderId with
          | .error e => .failed (errorReply e)
          | .ok folder =>
              let parentPath := normaliseListingPath path
              let rows := listing s.files folderId parentPath cursor limit
              let page := rows.take limit
              .entries (folderView s.store deviceId folder) parentPath (page.map rowToEntry)
                (if limit < rows.length then page.getLast?.map fun r => ⟨r.is_dir, r.name⟩
                  else none)
  | .search q folderId offset limit =>
      let visible := visibleFolders s.store deviceId
      -- narrowing to a folder the device cannot see finds nothing, and is no error
      let scope := match folderId with
        | none | some [] => visible
        | some folderId => visible.filter fun id => id = folderId
      if scope = [] then .results [] none
      else match toFtsQuery q with
        | none => .results [] none
        | some query =>
            let rows := found sv.fullText s.files scope query offset limit
            .results ((rows.take limit).map rowToEntry)
              (if limit < rows.length then some (offset + limit) else none)
  | .metadata fileId => onFile sv s deviceId fileId .list .metadata
  | .content fileId req =>
      match resolveById sv.caseMap s fileId with
      | .error e => .failed (failureReply e)
      | .ok file =>
          match content s.store deviceId file.folderId (servedFile file) req with
          | .error r => .failed { errorReply r.error with contentRange := r.contentRange }
          | .ok response => .content file response
  | .playbackUrl fileId now => onFile sv s deviceId fileId .stream fun _ =>
      match s.store.getDevice deviceId with
      | none => .failed (errorReply ⟨.unauthenticated, "Unknown device"⟩)
      | some row =>
          let (ticket, expiresAt) :=
            issuePlaybackTicket sv.runtime row fileId PLAYBACK_TICKET_TTL_MS now
          .playback fileId ticket expiresAt
  | .createUpload folderId relativePath totalBytes =>
      let input : CreateInput := ⟨deviceId, folderId, relativePath, totalBytes⟩
      match createCheck sv.uploads (.init s.store .empty) input with
      | .error (e, detail) => .failed { errorReply e with detail := detail }
      | .ok relPath =>
          match resolveWritable s.disk sv.caseMap s.store folderId relPath with
          | .error e => .failed (failureReply e)
          | .ok _ => .session folderId relPath totalBytes

end LocalCast.Http
