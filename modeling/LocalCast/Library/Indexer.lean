import LocalCast.Events.Bus
import LocalCast.Foundations.Descent
import LocalCast.Library.Resolver

/-!
`library/indexer.ts`: one pass of the indexer over a shared folder, with what the disk answers
as the actions it takes.

* `runIndex`, `walk`, `reconcile` and their helpers: the functions of the source, cut at their
  awaits. `step` is one turn of the pass, or the operator removing the folder meanwhile.
* `unread` keeps the directories that could not be read on the way.
* `walkDir_paths`, `walkDir_deeper`: what reading a directory adds, as children of its path.
* `applyBatch_spec`: a batch loses no row, and of the rows not yet seen drops those it meets.
-/

namespace LocalCast.Library

open JsString Db Events

/-! ### Listings -/

/-- A name in a directory. -/
abbrev EntryName := Component (47 : CodeUnit)

/-- The paths of a folder, relative to its root. -/
def relPaths : Descent JsString EntryName := separated 47

inductive DirentType where
  | file | directory | symbolicLink | other
deriving DecidableEq

structure Dirent where
  name : EntryName
  type : DirentType

/-- What `readdir` lists, each entry with what `fs.stat` of it answers later. -/
structure Listing where
  entries : List (Dirent × Except Errno Stat)
  distinct : (entries.map fun e => e.1.name).Nodup

structure WalkedEntry where
  relPath : JsString
  parentPath : JsString
  name : JsString
  isDir : Bool
  size : Option ℕ
  mtime : Option ℕ
deriving DecidableEq

/-! ### The source -/

/-- The dependencies of the indexer that a pass reads, with `fileIdFor`. -/
structure IndexerDeps where
  cm : CaseMap
  fileIdFor : JsString → JsString → JsString
  maxDepth : Option ℕ
  batchSize : Option ℕ

structure IndexResult where
  folderId : JsString
  available : Bool
  fileCount : ℕ
  totalBytes : ℕ
  inserted : ℕ
  updated : ℕ
  removed : ℕ
deriving DecidableEq

/-- What a pass is rejected with: an error of the disk, or a violated constraint. -/
inductive IndexError where
  | disk (code : Errno)
  | constraint
deriving DecidableEq

/-- `SKIP_DIRS`. -/
def SKIP_DIRS : List JsString :=
  ["$RECYCLE.BIN", "SYSTEM VOLUME INFORMATION", "$WINDOWS.~BT", "$WINDOWS.~WS", "RECYCLER",
    ".GIT"].map js

/-- `shouldSkipEntry`. -/
def shouldSkipEntry (cm : CaseMap) (name : JsString) : Bool :=
  SKIP_DIRS.contains (cm.toUpperCase name) || (js "~$").isPrefixOf name
    || cm.toLowerCase name = js "thumbs.db" || cm.toLowerCase name = js "desktop.ini"

/-- A directory of the queue. -/
structure QueuedDir where
  rel : JsString
  depth : ℕ
deriving DecidableEq

/-- The body of the loop over a listing: what it pushes to `out`. -/
def walkEntry (cm : CaseMap) (current : QueuedDir) (entry : Dirent × Except Errno Stat) :
    Option WalkedEntry :=
  let (dirent, stat) := entry
  let walked := fun isDir size mtime =>
    ({ relPath := relPaths.child current.rel dirent.name, parentPath := current.rel,
       name := dirent.name.val, isDir, size, mtime } : WalkedEntry)
  if shouldSkipEntry cm dirent.name.val then none
  else
    match dirent.type with
    | .symbolicLink | .other => none
    | .directory => some (walked true none (stat.toOption.map Stat.mtimeMs))
    | .file =>
        match stat with
        | .error _ => none
        | .ok stat => some (walked false (some stat.size) (some stat.mtimeMs))

/-- What reading a directory pushes to `out`. -/
def walkDir (cm : CaseMap) (current : QueuedDir) (listing : Listing) : List WalkedEntry :=
  listing.entries.filterMap (walkEntry cm current)

/-- What reading a directory pushes to the queue, the last on top. -/
def deeper (deps : IndexerDeps) (current : QueuedDir) (walked : List WalkedEntry) :
    List QueuedDir :=
  if current.depth + 1 < deps.maxDepth.getD 32 then
    ((walked.filter WalkedEntry.isDir).map fun e => ⟨e.relPath, current.depth + 1⟩).reverse
  else []

/-- The counters of `reconcile`. -/
structure Tally where
  inserted : ℕ
  updated : ℕ
  fileCount : ℕ
  totalBytes : ℕ
deriving DecidableEq

/-- Where a pass stands: before its `fs.stat`, in `walk` with the queue as a stack, in
`reconcile` with the entries still to apply and the rows not yet seen, or over. -/
inductive Phase where
  | opening
  | walking (queue : List QueuedDir) (out : List WalkedEntry)
  | reconciling (walked : List WalkedEntry) (existing : List FileRow) (tally : Tally)
  | settled (answer : Except IndexError IndexResult)

/-- The tables, and a pass over `folder` as it was selected. -/
structure IndexState where
  files : Table FileRow
  shared_folders : Table FolderRow
  folder : FolderRow
  started : Time
  phase : Phase
  published : List ServerEvent
  unread : List JsString

/-- What the disk answers, a turn of the pass, or `DELETE FROM shared_folders` elsewhere. -/
inductive IndexAction where
  | stat (answer : Except Errno Stat)
  | readdir (answer : Except Errno Listing)
  | reconcile
  | batch
  | finish
  | removeFolder

def IndexState.settled (st : IndexState) : Prop := ∃ answer, st.phase = .settled answer

/-- `runIndex` up to its first await; `none` where the folder is unknown. -/
def runIndex (files : Table FileRow) (shared_folders : Table FolderRow) (folderId : JsString)
    (started : Time) : Option IndexState :=
  (shared_folders.get folderId).map fun folder =>
    { files, shared_folders, folder, started, phase := .opening, published := [], unread := [] }

/-- `unavailableResult`. -/
def unavailableResult (folder : FolderRow) : IndexResult :=
  { folderId := folder.id, available := false, fileCount := folder.file_count.getD 0,
    totalBytes := folder.total_bytes.getD 0, inserted := 0, updated := 0, removed := 0 }

/-- `markUnavailable`. -/
def markUnavailable (st : IndexState) : IndexState :=
  { st with
    shared_folders := st.shared_folders.updateKey st.folder.id fun f => { f with available := false }
    published := st.published ++ [.folder st.folder.id false st.folder.last_indexed_at] }

/-- The errors that make `runIndex` mark a folder unavailable. -/
def isUnavailable (code : Errno) : Bool :=
  code = .ENOENT || code = .ENOTDIR || code = .EPERM || code = .EACCES

/-- The errors of a directory that cannot be read, its contents being there. -/
def isUnreadable (code : Errno) : Bool :=
  code = .EPERM || code = .EACCES || code = Errno.EIO || code = .ENOENT

/-- The errors that `walk` passes over. -/
def isSwallowed (code : Errno) : Bool :=
  code = .EPERM || code = .EACCES || code = .ENOENT

/-- The handler of `runIndex` around `fs.stat` and `walk`. -/
def caught (st : IndexState) (code : Errno) : IndexState :=
  if isUnavailable code then
    { markUnavailable st with phase := .settled (.ok (unavailableResult st.folder)) }
  else { st with phase := .settled (.error (.disk code)) }

/-- A directory that could not be read is kept in `unread`. -/
def noteUnread (st : IndexState) (rel : JsString) (code : Errno) : IndexState :=
  if isUnreadable code then { st with unread := rel :: st.unread } else st

/-- The rows of the table, the rows not yet seen, and the counters, within a batch. -/
structure Progress where
  files : Table FileRow
  existing : List FileRow
  tally : Tally

/-- `INSERT INTO files`, under the primary key, `UNIQUE (folder_id, rel_path)` and the foreign
key to `shared_folders`. -/
def insertFile (st : IndexState) (files : Table FileRow) (row : FileRow) :
    Option (Table FileRow) :=
  if (st.shared_folders.get row.folder_id).isNone
      || files.rows.any fun r => r.folder_id = row.folder_id && r.rel_path = row.rel_path then none
  else files.insert row

/-- What `UPDATE files` writes to a row. -/
def updateFile (entry : WalkedEntry) (row : FileRow) : FileRow :=
  { row with
    parent_path := entry.parentPath
    name := entry.name
    is_dir := entry.isDir
    size := entry.size
    mtime := entry.mtime }

/-- The body of the loop of `applyBatch`; `none` where a constraint is violated. -/
def applyEntry (deps : IndexerDeps) (st : IndexState) (p : Progress) (entry : WalkedEntry) :
    Option Progress :=
  let tally :=
    if entry.isDir then p.tally
    else { p.tally with
      fileCount := p.tally.fileCount + 1
      totalBytes := p.tally.totalBytes + entry.size.getD 0 }
  let id := deps.fileIdFor st.folder.id entry.relPath
  let existing := p.existing.filter fun r => r.rel_path ≠ entry.relPath
  match p.existing.find? fun r => r.rel_path = entry.relPath with
  | some prior =>
      if prior.is_dir = entry.isDir ∧ prior.size = entry.size ∧ prior.mtime = entry.mtime then
        some { files := p.files, existing, tally }
      else
        some
          { files := p.files.updateKey id (updateFile entry)
            existing
            tally := { tally with updated := tally.updated + 1 } }
  | none =>
      (insertFile st p.files
        { id, folder_id := st.folder.id, rel_path := entry.relPath,
          parent_path := entry.parentPath, name := entry.name, is_dir := entry.isDir,
          size := entry.size, mtime := entry.mtime }).map fun files =>
        { files, existing, tally := { tally with inserted := tally.inserted + 1 } }

/-- `applyBatch`. -/
def applyBatch (deps : IndexerDeps) (st : IndexState) (p : Progress) (batch : List WalkedEntry) :
    Option Progress :=
  batch.foldlM (applyEntry deps st) p

/-- `finish`, and what `runIndex` does after it. -/
def finish (st : IndexState) (existing : List FileRow) (tally : Tally) : IndexState :=
  { st with
    files := st.files.delete fun r => existing.any fun e => e.id = r.id
    shared_folders := st.shared_folders.updateKey st.folder.id fun f =>
      { f with
        available := true
        last_indexed_at := some st.started
        file_count := some tally.fileCount
        total_bytes := some tally.totalBytes }
    phase := .settled (.ok
      { folderId := st.folder.id, available := true, fileCount := tally.fileCount,
        totalBytes := tally.totalBytes, inserted := tally.inserted, updated := tally.updated,
        removed := existing.length })
    published := st.published ++ [.folder st.folder.id true (some st.started)] }

/-- `DELETE FROM shared_folders`, which takes the rows of the folder along. -/
def removeFolder (st : IndexState) : IndexState :=
  { st with
    files := st.files.delete fun r => r.folder_id = st.folder.id
    shared_folders := st.shared_folders.delete fun f => f.id = st.folder.id }

/-- One turn of the pass. While `shouldPause` answers true it takes none. -/
def indexStep (deps : IndexerDeps) (st : IndexState) (a : IndexAction) : Option IndexState :=
  match st.phase, a with
  | .settled _, _ => none
  | _, .removeFolder => some (removeFolder st)
  | .opening, .stat (.ok stat) =>
      if stat.isDirectory then some { st with phase := .walking [⟨relPaths.root, 0⟩] [] }
      else some (caught st .ENOENT)
  | .opening, .stat (.error code) => some (caught (noteUnread st relPaths.root code) code)
  | .walking (current :: queue) out, .readdir (.error code) =>
      let st := noteUnread st current.rel code
      if isSwallowed code then some { st with phase := .walking queue out }
      else some (caught st code)
  | .walking (current :: queue) out, .readdir (.ok listing) =>
      let walked := walkDir deps.cm current listing
      some { st with
        phase := .walking (deeper deps current walked ++ queue) (out ++ walked) }
  | .walking [] out, .reconcile =>
      some { st with
        phase := .reconciling out (st.files.rows.filter fun r => r.folder_id = st.folder.id)
          ⟨0, 0, 0, 0⟩ }
  | .reconciling (e :: walked) existing tally, .batch =>
      let size := deps.batchSize.getD 500
      match applyBatch deps st ⟨st.files, existing, tally⟩ ((e :: walked).take size) with
      | some p =>
          some { st with
            files := p.files
            phase := .reconciling ((e :: walked).drop size) p.existing p.tally }
      | none => some { st with phase := .settled (.error .constraint) }
  | .reconciling [] existing tally, .finish => some (finish st existing tally)
  | _, _ => none

/-! ### Reading a directory -/

lemma relPath_of_walkEntry {cm : CaseMap} {current : QueuedDir}
    {entry : Dirent × Except Errno Stat} {w : WalkedEntry}
    (h : walkEntry cm current entry = some w) :
    w.relPath = relPaths.child current.rel entry.1.name := by
  obtain ⟨dirent, stat⟩ := entry
  simp only [walkEntry] at h
  split_ifs at h
  split at h
  · cases h
  · cases h
  · cases h
    rfl
  · split at h
    · cases h
    · cases h
      rfl

/-- What reading a directory finds are children of its path, under names of the listing. -/
lemma walkDir_paths (cm : CaseMap) (current : QueuedDir) (listing : Listing) :
    ∃ names : List EntryName, names.Nodup ∧
      (walkDir cm current listing).map WalkedEntry.relPath
        = names.map (relPaths.child current.rel) := by
  have hsub : ∀ entries : List (Dirent × Except Errno Stat), ∃ names : List EntryName,
      names.Sublist (entries.map fun e => e.1.name) ∧
        (entries.filterMap (walkEntry cm current)).map WalkedEntry.relPath
          = names.map (relPaths.child current.rel) := by
    intro entries
    induction entries with
    | nil => exact ⟨[], List.Sublist.refl _, rfl⟩
    | cons e entries ih =>
        obtain ⟨names, hs, hn⟩ := ih
        cases he : walkEntry cm current e with
        | none => exact ⟨names, hs.cons _, by rw [List.filterMap_cons_none he, hn]⟩
        | some w =>
            refine ⟨e.1.name :: names, hs.cons_cons _, ?_⟩
            rw [List.filterMap_cons_some he, List.map_cons, List.map_cons, hn,
              relPath_of_walkEntry he]
  obtain ⟨names, hs, hn⟩ := hsub listing.entries
  exact ⟨names, listing.distinct.sublist hs, hn⟩

/-- What reading a directory queues is some of what it finds. -/
lemma deeper_paths (deps : IndexerDeps) (current : QueuedDir) (walked : List WalkedEntry) :
    ((deeper deps current walked).map QueuedDir.rel).reverse.Sublist
      (walked.map WalkedEntry.relPath) := by
  rw [deeper]
  split_ifs
  · rw [List.map_reverse, List.reverse_reverse, List.map_map]
    exact List.filter_sublist.map _
  · exact List.nil_sublist _

/-- Reading a directory keeps the frontier of the walk. -/
lemma frontier_walkDir {deps : IndexerDeps} {current : QueuedDir} {queue : List QueuedDir}
    {out : List WalkedEntry} {unread : List JsString} (listing : Listing)
    (h : relPaths.Frontier ((current :: queue).map QueuedDir.rel)
      (out.map WalkedEntry.relPath) unread) :
    relPaths.Frontier
      ((deeper deps current (walkDir deps.cm current listing) ++ queue).map QueuedDir.rel)
      ((out ++ walkDir deps.cm current listing).map WalkedEntry.relPath) unread := by
  obtain ⟨names, hnd, hn⟩ := walkDir_paths deps.cm current listing
  have hs := deeper_paths deps current (walkDir deps.cm current listing)
  rw [hn] at hs
  obtain ⟨names', hs', hn'⟩ := List.sublist_map_iff.mp hs
  rw [List.map_append, List.map_append, hn]
  refine (h.read hs'.subset (hnd.sublist hs')).perm ?_
  rw [← hn']
  exact (List.reverse_perm _).symm.append_right _

/-! ### The rows of the table -/

/-- The folder and the path of the row with a given id. -/
def placeOf (files : Table FileRow) (id : JsString) : Option (JsString × JsString) :=
  (files.get id).map fun r => (r.folder_id, r.rel_path)

lemma placeOf_of_mem {files : Table FileRow} {r : FileRow} (h : r ∈ files.rows) :
    placeOf files r.id = some (r.folder_id, r.rel_path) := by
  rw [placeOf, show files.get r.id = some r from Table.get_of_mem h]
  rfl

lemma exists_of_placeOf {files : Table FileRow} {id folder p : JsString}
    (h : placeOf files id = some (folder, p)) :
    ∃ r ∈ files.rows, r.id = id ∧ r.folder_id = folder ∧ r.rel_path = p := by
  obtain ⟨r, hr, he⟩ := Option.map_eq_some_iff.mp h
  obtain ⟨hmem, hid⟩ := Table.get_eq_some_iff.mp hr
  exact ⟨r, hmem, hid, congrArg Prod.fst he, congrArg Prod.snd he⟩

lemma placeOf_updateKey {files : Table FileRow} {k : JsString} {f : FileRow → FileRow}
    {hf : ∀ r, Keyed.key r = k → Keyed.key (f r) = Keyed.key r}
    (hplace : ∀ r, ((f r).folder_id, (f r).rel_path) = (r.folder_id, r.rel_path))
    (id : JsString) : placeOf (files.updateKey k f hf) id = placeOf files id := by
  rw [placeOf, placeOf, Table.get_updateKey]
  split_ifs
  · rw [Option.map_map]
    exact congrArg (Option.map · _) (funext hplace)
  · rfl

lemma placeOf_insertFile {st : IndexState} {files files' : Table FileRow} {row : FileRow}
    (h : insertFile st files row = some files') (id : JsString) :
    placeOf files' id
        = if id = row.id then some (row.folder_id, row.rel_path) else placeOf files id := by
  rw [insertFile] at h
  split_ifs at h
  rw [placeOf, Table.get_insert h]
  by_cases hid : id = row.id <;> simp [hid, placeOf]

lemma placeOf_of_insertFile {st : IndexState} {files files' : Table FileRow} {row : FileRow}
    (h : insertFile st files row = some files') : placeOf files row.id = none := by
  rw [insertFile] at h
  split_ifs at h
  rw [placeOf, show files.get row.id = none from Table.get_of_insert h]
  rfl

/-! ### A batch -/

/-- What applying the entries at `paths` does to the rows: none is lost or moved, new ones are
at these paths, and those at these paths are no longer unseen. -/
structure Applied (p q : Progress) (paths : List JsString) : Prop where
  kept : ∀ id x, placeOf p.files id = some x → placeOf q.files id = some x
  added : ∀ id x, placeOf q.files id = some x → placeOf p.files id = some x ∨ x.2 ∈ paths
  unseen : ∀ e, e ∈ q.existing ↔ e ∈ p.existing ∧ e.rel_path ∉ paths

lemma applyEntry_spec {deps : IndexerDeps} {st : IndexState} {p q : Progress}
    {entry : WalkedEntry} (h : applyEntry deps st p entry = some q) :
    Applied p q [entry.relPath] := by
  have hunseen : ∀ e, e ∈ (p.existing.filter fun r => r.rel_path ≠ entry.relPath)
      ↔ e ∈ p.existing ∧ e.rel_path ∉ [entry.relPath] := by
    intro e
    simp [List.mem_filter]
  cases hprior : p.existing.find? fun r => r.rel_path = entry.relPath with
  | none =>
      simp only [applyEntry, hprior] at h
      obtain ⟨files, hins, rfl⟩ := Option.map_eq_some_iff.mp h
      refine ⟨fun id x hx => ?_, fun id x hx => ?_, hunseen⟩
      · rw [placeOf_insertFile hins]
        split_ifs with hid
        · rw [hid, placeOf_of_insertFile hins] at hx
          cases hx
        · exact hx
      · rw [placeOf_insertFile hins] at hx
        split_ifs at hx with hid
        · cases hx
          exact .inr (List.mem_singleton.mpr rfl)
        · exact .inl hx
  | some prior =>
      simp only [applyEntry, hprior] at h
      by_cases hsame : prior.is_dir = entry.isDir ∧ prior.size = entry.size
          ∧ prior.mtime = entry.mtime
      · rw [if_pos hsame] at h
        cases h
        exact ⟨fun _ _ hx => hx, fun _ _ hx => .inl hx, hunseen⟩
      · rw [if_neg hsame] at h
        cases h
        have hplace : ∀ id, placeOf (p.files.updateKey (deps.fileIdFor st.folder.id entry.relPath)
            (updateFile entry)) id = placeOf p.files id := placeOf_updateKey fun _ => rfl
        exact ⟨fun id x hx => (hplace id).trans hx, fun id x hx => .inl ((hplace id).symm.trans hx),
          hunseen⟩

lemma applyBatch_spec {deps : IndexerDeps} {st : IndexState} {p q : Progress}
    {batch : List WalkedEntry} (h : applyBatch deps st p batch = some q) :
    Applied p q (batch.map WalkedEntry.relPath) := by
  induction batch generalizing p with
  | nil =>
      cases h
      exact ⟨fun _ _ hx => hx, fun _ _ hx => .inl hx, by simp⟩
  | cons entry batch ih =>
      rw [applyBatch, List.foldlM_cons] at h
      obtain ⟨m, hm, hq⟩ := Option.bind_eq_some_iff.mp h
      have h1 := applyEntry_spec hm
      have h2 := ih hq
      refine ⟨fun id x hx => h2.kept id x (h1.kept id x hx), fun id x hx => ?_, fun e => ?_⟩
      · rcases h2.added id x hx with hx | hx
        · exact (h1.added id x hx).imp_right fun hp => by simp [List.mem_singleton.mp hp]
        · exact .inr (List.mem_cons_of_mem _ hx)
      · rw [h2.unseen, h1.unseen, List.mem_singleton, List.map_cons, List.mem_cons, not_or,
          and_assoc]

end LocalCast.Library
