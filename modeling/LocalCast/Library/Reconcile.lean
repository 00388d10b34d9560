import LocalCast.Foundations.Runs
import LocalCast.Library.Indexer
import LocalCast.Library.MediaTypes

/-!
`Indexer.reconcile` of `library/indexer.ts` on the whole rows of the table `files`, with the
derived columns, and `fileIdFor` of `library/resolver.ts`.

* `IndexedRow`, `FileWrite`: a row of the table, and a statement that writes one.
* `ReconcileState`, `reconcileStep`: a pass between its awaits, with any pattern of pausing.
* `applyBatch_forget`: without the derived columns, a batch is one of `Library.Indexer`.
* `Sound`, `Placed`, `CollisionFree`: what the table, the walk and the digest promise.
* `rowOf`, `writeOf`: what an entry makes of the row that has its path, and the statement for it.
* `Done`, `done_applyEntry`: the entries applied so far decide what the table holds.
* `Exact`, `reconcile_exact_iff`: a pass ends as a comparison of the two sets of paths says,
  exactly where every file walked has a kind.
* `constructor_rejected`: a file for which there is none.
-/

namespace LocalCast.Library

open JsString Db Runs

/-! ### The source -/

/-- `fileIdFor`, over the digest in hexadecimal. -/
def fileIdFor (sha256 : JsString → JsString) (folderId relPath : JsString) : JsString :=
  (sha256 (folderId ++ 0 :: relPath)).take 32

/-- The dependencies of an indexer whose ids are those of the source. -/
def indexerDeps (cm : CaseMap) (sha256 : JsString → JsString) (maxDepth batchSize : Option ℕ) :
    IndexerDeps :=
  ⟨cm, fileIdFor sha256, maxDepth, batchSize⟩

/-- A row of `files` with all its columns. -/
structure IndexedRow extends FileRow where
  ext : Option JsString
  media_kind : MediaKind
  printable : Bool
  browser_playable : Bool
  indexed_at : Time
deriving DecidableEq

instance : Keyed IndexedRow JsString := ⟨fun r => r.id⟩

/-- A statement of a pass that writes a row, with the id of the row. -/
inductive FileWrite where
  | insert (id : JsString)
  | update (id : JsString)
  | remove (id : JsString)
deriving DecidableEq

/-- The id a statement is about. -/
def FileWrite.id : FileWrite → JsString
  | .insert id | .update id | .remove id => id

/-- What a pass has done within a batch. -/
structure ReconcileProgress where
  files : Table IndexedRow
  existing : List IndexedRow
  tally : Tally
  writes : List FileWrite

/-- Where a pass stands: with the entries still to apply and the rows not yet seen, or over. -/
inductive ReconcilePhase where
  | reconciling (walked : List WalkedEntry) (existing : List IndexedRow) (tally : Tally)
  | settled (answer : Except IndexError IndexResult)
deriving DecidableEq

/-- The tables during a pass over the folder `folderId`, and what it has written. -/
structure ReconcileState where
  files : Table IndexedRow
  shared_folders : Table FolderRow
  folderId : JsString
  started : Time
  phase : ReconcilePhase
  writes : List FileWrite

/-- A turn in which `shouldPause` answers true, a batch, and the last transaction. -/
inductive ReconcileAction where
  | pause
  | batch
  | finish
deriving DecidableEq

/-- The rows of a folder. -/
def folderRows (files : Table IndexedRow) (folderId : JsString) : List IndexedRow :=
  files.rows.filter fun r => r.folder_id = folderId

/-- `reconcile` up to its first batch. -/
def beginReconcile (files : Table IndexedRow) (shared_folders : Table FolderRow)
    (folderId : JsString) (started : Time) (walked : List WalkedEntry) : ReconcileState :=
  { files, shared_folders, folderId, started
    phase := .reconciling walked (folderRows files folderId) ⟨0, 0, 0, 0⟩
    writes := [] }

/-- The row that `INSERT INTO files` is given; none where a column that may not be null is. -/
def insertRow (deps : IndexerDeps) (folderId : JsString) (started : Time) (entry : WalkedEntry) :
    Option IndexedRow :=
  let d := derive deps.cm entry.isDir entry.name
  d.media_kind.map fun kind =>
    { id := deps.fileIdFor folderId entry.relPath
      folder_id := folderId
      rel_path := entry.relPath
      parent_path := entry.parentPath
      name := entry.name
      is_dir := entry.isDir
      size := entry.size
      mtime := entry.mtime
      ext := d.ext
      media_kind := kind
      printable := d.printable
      browser_playable := d.browser_playable
      indexed_at := started }

/-- `INSERT INTO files`, under the foreign key, the primary key and `UNIQUE`. -/
def insertIndexed (shared_folders : Table FolderRow) (files : Table IndexedRow)
    (row : IndexedRow) : Option (Table IndexedRow) :=
  if (shared_folders.get row.folder_id).isNone
      || files.rows.any fun r => r.folder_id = row.folder_id && r.rel_path = row.rel_path then none
  else files.insert row

/-- What `UPDATE files` writes to a row: all columns but the id, the folder and the path. -/
def updateRow (new : IndexedRow) (row : IndexedRow) : IndexedRow :=
  { new with id := row.id, folder_id := row.folder_id, rel_path := row.rel_path }

/-- `UPDATE files ... WHERE id = ?`, which checks nothing where no row has the id. -/
def updateIndexed (files : Table IndexedRow) (id : JsString) (new : Option IndexedRow) :
    Option (Table IndexedRow) :=
  if (files.get id).isNone then some files
  else new.map fun new => files.updateKey id (updateRow new)

/-- A row has the attributes that `reconcile` compares. -/
def sameStat (prior : IndexedRow) (entry : WalkedEntry) : Bool :=
  prior.is_dir = entry.isDir && prior.size = entry.size && prior.mtime = entry.mtime

/-- The counters after an entry was met. -/
def Tally.meet (tally : Tally) (entry : WalkedEntry) : Tally :=
  if entry.isDir then tally
  else { tally with
    fileCount := tally.fileCount + 1
    totalBytes := tally.totalBytes + entry.size.getD 0 }

/-- The body of the loop of `applyBatch`; none where a constraint is violated. -/
def reconcileEntry (deps : IndexerDeps) (st : ReconcileState) (p : ReconcileProgress)
    (entry : WalkedEntry) : Option ReconcileProgress :=
  let tally := p.tally.meet entry
  let id := deps.fileIdFor st.folderId entry.relPath
  let existing := p.existing.filter fun r => r.rel_path ≠ entry.relPath
  match p.existing.find? fun r => r.rel_path = entry.relPath with
  | some prior =>
      if sameStat prior entry then some { p with existing, tally }
      else
        (updateIndexed p.files id (insertRow deps st.folderId st.started entry)).map fun files =>
          { files
            existing
            tally := { tally with updated := tally.updated + 1 }
            writes := p.writes ++ [.update id] }
  | none =>
      (insertRow deps st.folderId st.started entry).bind fun new =>
        (insertIndexed st.shared_folders p.files new).map fun files =>
          { files, existing
            tally := { tally with inserted := tally.inserted + 1 }
            writes := p.writes ++ [.insert id] }

/-- `applyBatch`. -/
def reconcileBatch (deps : IndexerDeps) (st : ReconcileState) (p : ReconcileProgress)
    (batch : List WalkedEntry) : Option ReconcileProgress :=
  batch.foldlM (reconcileEntry deps st) p

/-- What `UPDATE shared_folders` of `finish` writes. -/
def storeCounts (started : Time) (tally : Tally) (f : FolderRow) : FolderRow :=
  { f with
    available := true
    last_indexed_at := some started
    file_count := some tally.fileCount
    total_bytes := some tally.totalBytes }

/-- `finish`. -/
def finishReconcile (st : ReconcileState) (existing : List IndexedRow) (tally : Tally) :
    ReconcileState :=
  { st with
    files := st.files.delete fun r => existing.any fun e => e.id = r.id
    shared_folders := st.shared_folders.updateKey st.folderId (storeCounts st.started tally)
    phase := .settled (.ok
      { folderId := st.folderId, available := true, fileCount := tally.fileCount,
        totalBytes := tally.totalBytes, inserted := tally.inserted, updated := tally.updated,
        removed := existing.length })
    writes := st.writes ++ existing.map fun e => .remove e.id }

/-- One turn of `reconcile`. A transaction that violates a constraint leaves the tables as they
were, and the pass is rejected. -/
def reconcileStep (deps : IndexerDeps) (st : ReconcileState) (a : ReconcileAction) :
    Option ReconcileState :=
  match st.phase, a with
  | .reconciling (_ :: _) _ _, .pause => some st
  | .reconciling (e :: walked) existing tally, .batch =>
      let size := deps.batchSize.getD 500
      match reconcileBatch deps st ⟨st.files, existing, tally, st.writes⟩
          ((e :: walked).take size) with
      | some p =>
          some { st with
            files := p.files
            phase := .reconciling ((e :: walked).drop size) p.existing p.tally
            writes := p.writes }
      | none => some { st with phase := .settled (.error .constraint) }
  | .reconciling [] existing tally, .finish => some (finishReconcile st existing tally)
  | _, _ => none

/-! ### The pass without the derived columns -/

section Forget

/-- The table without the derived columns. -/
def forget (files : Table IndexedRow) : Table FileRow :=
  ⟨files.rows.map IndexedRow.toFileRow, by
    rw [List.map_map]
    exact files.nodup⟩

/-- The same of what a pass has done. -/
def ReconcileProgress.forget (p : ReconcileProgress) : Progress :=
  ⟨Library.forget p.files, p.existing.map IndexedRow.toFileRow, p.tally⟩

lemma forget_updateKey (files : Table IndexedRow) (id : JsString) {new : IndexedRow}
    {e : WalkedEntry} {deps : IndexerDeps} {folderId : JsString} {started : Time}
    (h : insertRow deps folderId started e = some new) :
    forget (files.updateKey id (updateRow new)) = (forget files).updateKey id (updateFile e) := by
  obtain ⟨kind, -, rfl⟩ := Option.map_eq_some_iff.mp h
  simp only [forget, Table.updateKey, Table.update, List.map_map, Table.mk.injEq]
  refine List.map_congr_left fun r _ => ?_
  change IndexedRow.toFileRow (if decide (r.id = id) = true then _ else r) =
    if decide (r.id = id) = true then _ else r.toFileRow
  split_ifs <;> rfl

lemma forget_insert {files files' : Table IndexedRow} {new : IndexedRow}
    (h : files.insert new = some files') :
    (forget files).insert new.toFileRow = some (forget files') := by
  have hkeys : (forget files).rows.map Keyed.key = files.rows.map Keyed.key := by
    simp only [forget, List.map_map]
    rfl
  rw [Table.insert] at h ⊢
  split_ifs at h with hfree
  cases h
  rw [dif_neg (show ¬Keyed.key new.toFileRow ∈ (forget files).rows.map Keyed.key from
    hkeys ▸ hfree)]
  simp [forget]

lemma get_forget {files : Table IndexedRow} {id : JsString} :
    (forget files).get id = (files.get id).map IndexedRow.toFileRow := by
  rw [Table.get, forget, List.find?_map]
  rfl

lemma insertFile_forget {st : ReconcileState} {ist : IndexState} {files files' : Table IndexedRow}
    {new : IndexedRow} (hshared : ist.shared_folders = st.shared_folders)
    (h : insertIndexed st.shared_folders files new = some files') :
    insertFile ist (forget files) new.toFileRow = some (forget files') := by
  have hany : ((forget files).rows.any fun r =>
      r.folder_id = new.folder_id && r.rel_path = new.rel_path) =
        files.rows.any fun r => r.folder_id = new.folder_id && r.rel_path = new.rel_path := by
    rw [forget, List.any_map]
    rfl
  rw [insertIndexed] at h
  rw [insertFile, hshared, hany]
  split_ifs at h ⊢
  exact forget_insert h

/-- Without the derived columns, an entry that is met does what it does in `applyEntry`. -/
lemma applyEntry_forget {deps : IndexerDeps} {st : ReconcileState} {ist : IndexState}
    {p q : ReconcileProgress} {e : WalkedEntry} (hfolder : ist.folder.id = st.folderId)
    (hshared : ist.shared_folders = st.shared_folders)
    (h : reconcileEntry deps st p e = some q) :
    applyEntry deps ist p.forget e = some q.forget := by
  have hfind : (p.existing.map IndexedRow.toFileRow).find? (fun r => r.rel_path = e.relPath) =
      (p.existing.find? fun r => r.rel_path = e.relPath).map IndexedRow.toFileRow := by
    rw [List.find?_map]
    rfl
  have hfilter : (p.existing.map IndexedRow.toFileRow).filter (fun r => r.rel_path ≠ e.relPath) =
      (p.existing.filter fun r => r.rel_path ≠ e.relPath).map IndexedRow.toFileRow := by
    rw [List.filter_map]
    rfl
  simp only [reconcileEntry] at h
  simp only [applyEntry, ReconcileProgress.forget, hfind, hfilter, hfolder]
  cases hprior : p.existing.find? fun r => r.rel_path = e.relPath with
  | some prior =>
      rw [hprior] at h
      dsimp only [Option.map_some] at h ⊢
      by_cases hsame : sameStat prior e = true
      · rw [if_pos hsame] at h
        cases h
        rw [if_pos (by simpa [sameStat, and_assoc] using hsame)]
        rfl
      · rw [if_neg hsame] at h
        obtain ⟨files, hfiles, rfl⟩ := Option.map_eq_some_iff.mp h
        rw [if_neg (by simpa [sameStat, and_assoc] using hsame)]
        rw [updateIndexed] at hfiles
        split_ifs at hfiles with hnone
        · -- no row has the id: nothing is written in either table
          cases hfiles
          rw [Table.updateKey_of_get_none (get_forget.trans (by simpa using hnone))]
          rfl
        · obtain ⟨new, hnew, rfl⟩ := Option.map_eq_some_iff.mp hfiles
          rw [← forget_updateKey _ _ hnew]
          rfl
  | none =>
      rw [hprior] at h
      dsimp only [Option.map_none] at h ⊢
      obtain ⟨new, hnew, h⟩ := Option.bind_eq_some_iff.mp h
      obtain ⟨files, hfiles, rfl⟩ := Option.map_eq_some_iff.mp h
      have hinsert := insertFile_forget hshared hfiles
      obtain ⟨kind, -, rfl⟩ := Option.map_eq_some_iff.mp hnew
      rw [hinsert]
      rfl

/-- **The pass refines the one of the indexer**: without the derived columns, a batch that goes
through does what it does in `applyBatch`. -/
lemma applyBatch_forget {deps : IndexerDeps} {st : ReconcileState} {ist : IndexState}
    {p q : ReconcileProgress} {batch : List WalkedEntry} (hfolder : ist.folder.id = st.folderId)
    (hshared : ist.shared_folders = st.shared_folders)
    (h : reconcileBatch deps st p batch = some q) :
    applyBatch deps ist p.forget batch = some q.forget := by
  induction batch generalizing p with
  | nil =>
      cases h
      rfl
  | cons e batch ih =>
      rw [reconcileBatch, List.foldlM_cons] at h
      obtain ⟨m, hm, hq⟩ := Option.bind_eq_some_iff.mp h
      rw [applyBatch, List.foldlM_cons, applyEntry_forget hfolder hshared hm]
      exact ih hq

end Forget

/-! ### What the table, the walk and the digest promise -/

/-- The derived columns of a row. -/
def IndexedRow.derived (r : IndexedRow) : Derived :=
  ⟨r.ext, some r.media_kind, r.printable, r.browser_playable⟩

/-- A path is the one of a name in the directory at `parentPath`. -/
def Placed (relPath parentPath name : JsString) : Prop :=
  ∃ n : EntryName, n.val = name ∧ relPath = relPaths.child parentPath n

/-- Ids are those of the folder and the path, the derived columns are those of the name, and the
path ends in the name. -/
structure Sound (deps : IndexerDeps) (files : Table IndexedRow) : Prop where
  ids : ∀ r ∈ files.rows, r.id = deps.fileIdFor r.folder_id r.rel_path
  derived : ∀ r ∈ files.rows, r.derived = derive deps.cm r.is_dir r.name
  placed : ∀ r ∈ files.rows, Placed r.rel_path r.parent_path r.name

/-- No two of the places have the same id. -/
def CollisionFree (deps : IndexerDeps) (places : List (JsString × JsString)) : Prop :=
  ∀ p ∈ places, ∀ q ∈ places, deps.fileIdFor p.1 p.2 = deps.fileIdFor q.1 q.2 → p = q

/-- The folder and the path of every row and of every entry walked. -/
def places (files : Table IndexedRow) (folderId : JsString) (walked : List WalkedEntry) :
    List (JsString × JsString) :=
  (files.rows.map fun r => (r.folder_id, r.rel_path)) ++ walked.map fun e => (folderId, e.relPath)

/-- What a pass over the folder starts from. -/
structure Reconcilable (deps : IndexerDeps) (files : Table IndexedRow) (folderId : JsString)
    (walked : List WalkedEntry) : Prop where
  sound : Sound deps files
  placed : ∀ e ∈ walked, Placed e.relPath e.parentPath e.name
  distinct : (walked.map WalkedEntry.relPath).Nodup
  collisionFree : CollisionFree deps (places files folderId walked)

/-- A path has one parent and one name. -/
lemma placed_unique {relPath parent parent' name name' : JsString}
    (h : Placed relPath parent name) (h' : Placed relPath parent' name') :
    parent = parent' ∧ name = name' := by
  obtain ⟨n, rfl, rfl⟩ := h
  obtain ⟨n', rfl, hpath⟩ := h'
  change joinPath 47 parent n = joinPath 47 parent' n' at hpath
  rw [joinPath, joinPath] at hpath
  split_ifs at hpath with hp hp'
  · exact ⟨hp.trans hp'.symm, hpath⟩
  · exact absurd (by simp [hpath]) n.prop.2
  · exact absurd (by simp [← hpath]) n'.prop.2
  · exact cut_last n.prop.2 n'.prop.2 hpath

lemma placed_iff {relPath parent name : JsString} : Placed relPath parent name ↔
    name ≠ [] ∧ 47 ∉ name ∧ relPath = if parent = [] then name else parent ++ 47 :: name := by
  constructor
  · rintro ⟨n, rfl, rfl⟩
    exact ⟨n.prop.1, n.prop.2, rfl⟩
  · rintro ⟨hne, hsep, rfl⟩
    exact ⟨⟨name, hne, hsep⟩, rfl, rfl⟩

instance {relPath parent name : JsString} : Decidable (Placed relPath parent name) :=
  decidable_of_iff _ placed_iff.symm

/-- What the walk finds in a directory is placed there. -/
lemma placed_of_walkDir {cm : CaseMap} {current : QueuedDir} {listing : Listing}
    {w : WalkedEntry} (h : w ∈ walkDir cm current listing) :
    Placed w.relPath w.parentPath w.name := by
  obtain ⟨⟨dirent, stat⟩, -, hw⟩ := List.mem_filterMap.mp h
  refine ⟨dirent.name, ?_, relPath_of_walkEntry hw ▸ ?_⟩
  all_goals
    simp only [walkEntry] at hw
    split_ifs at hw
    split at hw <;> try cases hw
    · rfl
    · split at hw <;> cases hw
      rfl

/-! ### What an entry makes of its row -/

section Entry

variable (deps : IndexerDeps) (folderId : JsString) (started : Time) (before : Table IndexedRow)

/-- The id of an entry. -/
def idOf (e : WalkedEntry) : JsString := deps.fileIdFor folderId e.relPath

/-- The row of an entry after the pass; none where a column that may not be null is. -/
def rowOf (e : WalkedEntry) : Option IndexedRow :=
  match before.get (idOf deps folderId e) with
  | some prior =>
      if sameStat prior e then some prior
      else (insertRow deps folderId started e).map fun new => updateRow new prior
  | none => insertRow deps folderId started e

/-- The statement a pass runs for an entry. -/
def writeOf (e : WalkedEntry) : Option FileWrite :=
  match before.get (idOf deps folderId e) with
  | some prior => if sameStat prior e then none else some (.update (idOf deps folderId e))
  | none => some (.insert (idOf deps folderId e))

/-- The counters once the entries `es` were met. -/
def tallyOf (es : List WalkedEntry) : Tally where
  inserted := es.countP fun e => (before.get (idOf deps folderId e)).isNone
  updated := es.countP fun e => (before.get (idOf deps folderId e)).any fun r => !sameStat r e
  fileCount := es.countP fun e => !e.isDir
  totalBytes := ((es.filter fun e => !e.isDir).map fun e => e.size.getD 0).sum

/-- The rows of the folder that no entry of `es` has the path of. -/
def unseenBy (es : List WalkedEntry) : List IndexedRow :=
  (folderRows before folderId).filter fun r => r.rel_path ∉ es.map WalkedEntry.relPath

/-- What a pass has done once the entries `es` were met. -/
structure Done (es : List WalkedEntry) (p : ReconcileProgress) : Prop where
  applied : ∀ e ∈ es, p.files.get (idOf deps folderId e) = rowOf deps folderId started before e
  kept : ∀ id, (∀ e ∈ es, idOf deps folderId e ≠ id) → p.files.get id = before.get id
  existing : p.existing = unseenBy folderId before es
  tally : p.tally = tallyOf deps folderId before es
  writes : p.writes = es.filterMap (writeOf deps folderId before)

end Entry

section Reconcilable

variable {deps : IndexerDeps} {folderId : JsString} {started : Time} {before : Table IndexedRow}
  {walked : List WalkedEntry} {e : WalkedEntry}

/-- The row with the id of an entry is the one that has its path. -/
lemma Reconcilable.get_idOf (h : Reconcilable deps before folderId walked) (he : e ∈ walked)
    {r : IndexedRow} : before.get (idOf deps folderId e) = some r ↔
      r ∈ before.rows ∧ r.folder_id = folderId ∧ r.rel_path = e.relPath := by
  constructor
  · intro hr
    obtain ⟨hmem, hid⟩ := Table.get_eq_some_iff.mp hr
    have hids := h.sound.ids r hmem
    have hplace := h.collisionFree (r.folder_id, r.rel_path)
      (List.mem_append_left _ (List.mem_map_of_mem hmem)) (folderId, e.relPath)
      (List.mem_append_right _ (List.mem_map_of_mem he)) (hids.symm.trans hid)
    exact ⟨hmem, congrArg Prod.fst hplace, congrArg Prod.snd hplace⟩
  · rintro ⟨hmem, rfl, hpath⟩
    refine Table.get_eq_some_iff.mpr ⟨hmem, ?_⟩
    rw [idOf, ← hpath]
    exact h.sound.ids r hmem

/-- Two entries with the same id have the same path. -/
lemma Reconcilable.relPath_of_idOf (h : Reconcilable deps before folderId walked)
    (he : e ∈ walked) {e' : WalkedEntry} (he' : e' ∈ walked)
    (hid : idOf deps folderId e = idOf deps folderId e') : e.relPath = e'.relPath :=
  congrArg Prod.snd (h.collisionFree (folderId, e.relPath)
    (List.mem_append_right _ (List.mem_map_of_mem he)) (folderId, e'.relPath)
    (List.mem_append_right _ (List.mem_map_of_mem he')) hid)

/-- A row is inserted or rewritten exactly where there is a kind for it. -/
lemma isSome_insertRow_iff :
    (insertRow deps folderId started e).isSome ↔ isDescribed deps.cm e.isDir e.name = true := by
  rw [← isSome_media_kind_iff, insertRow, Option.isSome_map]

/-- What `INSERT` or `UPDATE` writes. -/
lemma insertRow_eq {new : IndexedRow} (h : insertRow deps folderId started e = some new) :
    new.id = idOf deps folderId e ∧ new.folder_id = folderId ∧ new.rel_path = e.relPath ∧
      new.parent_path = e.parentPath ∧ new.name = e.name ∧ new.is_dir = e.isDir ∧
      new.size = e.size ∧ new.mtime = e.mtime ∧ new.derived = derive deps.cm e.isDir e.name := by
  obtain ⟨kind, hkind, rfl⟩ := Option.map_eq_some_iff.mp h
  refine ⟨rfl, rfl, rfl, rfl, rfl, rfl, rfl, rfl, ?_⟩
  rw [IndexedRow.derived, ← hkind]

/-- A row has the path and the attributes of an entry, and the columns derived from them. -/
structure Describes (deps : IndexerDeps) (folderId : JsString) (e : WalkedEntry)
    (r : IndexedRow) : Prop where
  id : r.id = deps.fileIdFor folderId e.relPath
  folder_id : r.folder_id = folderId
  rel_path : r.rel_path = e.relPath
  parent_path : r.parent_path = e.parentPath
  name : r.name = e.name
  is_dir : r.is_dir = e.isDir
  size : r.size = e.size
  mtime : r.mtime = e.mtime
  derived : r.derived = derive deps.cm e.isDir e.name

lemma sameStat_iff {r : IndexedRow} :
    sameStat r e = true ↔ r.is_dir = e.isDir ∧ r.size = e.size ∧ r.mtime = e.mtime := by
  simp [sameStat, and_assoc]

lemma Describes.sameStat {r : IndexedRow} (h : Describes deps folderId e r) :
    sameStat r e = true :=
  sameStat_iff.mpr ⟨h.is_dir, h.size, h.mtime⟩

/-- The row of an entry describes it. -/
lemma Reconcilable.describes (h : Reconcilable deps before folderId walked) (he : e ∈ walked)
    {r : IndexedRow} (hr : rowOf deps folderId started before e = some r) :
    Describes deps folderId e r := by
  rw [rowOf] at hr
  cases hprior : before.get (idOf deps folderId e) with
  | none =>
      rw [hprior] at hr
      obtain ⟨h1, h2, h3, h4, h5, h6, h7, h8, h9⟩ := insertRow_eq hr
      exact ⟨h1, h2, h3, h4, h5, h6, h7, h8, h9⟩
  | some prior =>
      obtain ⟨hmem, hfolder, hpath⟩ := (h.get_idOf he).mp hprior
      have hid : prior.id = idOf deps folderId e := (Table.get_eq_some_iff.mp hprior).2
      rw [hprior] at hr
      dsimp only at hr
      split_ifs at hr with hsame
      · cases hr
        obtain ⟨hdir, hsize, hmtime⟩ := sameStat_iff.mp hsame
        obtain ⟨hparent, hname⟩ :=
          placed_unique (hpath ▸ h.sound.placed r hmem) (h.placed e he)
        refine ⟨hid, hfolder, hpath, hparent, hname, hdir, hsize, hmtime, ?_⟩
        rw [h.sound.derived r hmem, hdir, hname]
      · obtain ⟨new, hnew, rfl⟩ := Option.map_eq_some_iff.mp hr
        obtain ⟨-, -, -, h4, h5, h6, h7, h8, h9⟩ := insertRow_eq hnew
        exact ⟨hid, hfolder, hpath, h4, h5, h6, h7, h8, h9⟩

/-- An entry has a row exactly where there is a kind for it. -/
lemma Reconcilable.isSome_rowOf_iff (h : Reconcilable deps before folderId walked)
    (he : e ∈ walked) : (rowOf deps folderId started before e).isSome ↔
      isDescribed deps.cm e.isDir e.name = true := by
  have hinsert : (insertRow deps folderId started e).isSome ↔
      isDescribed deps.cm e.isDir e.name = true := isSome_insertRow_iff
  rw [← hinsert]
  cases hprior : before.get (idOf deps folderId e) with
  | none => simp only [rowOf, hprior]
  | some prior =>
      by_cases hsame : sameStat prior e = true
      · have hrow : rowOf deps folderId started before e = some prior := by
          simp only [rowOf, hprior, hsame, if_true]
        have hderived := (h.describes he hrow).derived
        have hkind : (derive deps.cm e.isDir e.name).media_kind.isSome := by
          rw [← hderived]
          rfl
        rw [hrow]
        exact iff_of_true rfl (hinsert.mpr (isSome_media_kind_iff.mp hkind))
      · simp only [rowOf, hprior, hsame, if_false, Option.isSome_map, Bool.false_eq_true]

/-! ### A batch -/

lemma get_updateRow (files : Table IndexedRow) (new : IndexedRow) (k k' : JsString) :
    (files.updateKey k (updateRow new)).get k' =
      if k' = k then (files.get k').map (updateRow new) else files.get k' :=
  Table.get_updateKey ..

variable {st : ReconcileState} {es : List WalkedEntry} {p : ReconcileProgress}

/-- The tables of a pass that has met nothing. -/
lemma done_nil : Done deps folderId started before []
    ⟨before, folderRows before folderId, ⟨0, 0, 0, 0⟩, []⟩ where
  applied e he := absurd he List.not_mem_nil
  kept _ _ := rfl
  existing := by simp [unseenBy]
  tally := by simp [tallyOf]
  writes := rfl

/-- The row not yet seen that has the path of a new entry is the one with its id. -/
lemma Reconcilable.find_unseenBy (h : Reconcilable deps before folderId walked) (he : e ∈ walked)
    (hnew : e.relPath ∉ es.map WalkedEntry.relPath) :
    (unseenBy folderId before es).find? (fun r => r.rel_path = e.relPath) =
      before.get (idOf deps folderId e) := by
  have hmem {r : IndexedRow} (hr : r ∈ unseenBy folderId before es) :
      r ∈ before.rows ∧ r.folder_id = folderId := by
    simpa [folderRows] using (List.mem_filter.mp hr).1
  cases hprior : before.get (idOf deps folderId e) with
  | none =>
      refine List.find?_eq_none.mpr fun r hr hpath => ?_
      obtain ⟨hrows, hfolder⟩ := hmem hr
      have hget := (h.get_idOf he).mpr ⟨hrows, hfolder, of_decide_eq_true hpath⟩
      rw [hprior] at hget
      cases hget
  | some prior =>
      obtain ⟨hrows, hfolder, hpath⟩ := (h.get_idOf he).mp hprior
      have hunseen : prior ∈ unseenBy folderId before es := by
        refine List.mem_filter.mpr ⟨List.mem_filter.mpr ⟨hrows, by simp [hfolder]⟩, ?_⟩
        rw [decide_eq_true_iff, hpath]
        exact hnew
      have hsome : ((unseenBy folderId before es).find? fun r => r.rel_path = e.relPath).isSome :=
        List.find?_isSome.mpr ⟨prior, hunseen, by simp [hpath]⟩
      obtain ⟨r, hr⟩ := Option.isSome_iff_exists.mp hsome
      obtain ⟨hrows', hfolder'⟩ := hmem (List.mem_of_find?_eq_some hr)
      have hpath' : r.rel_path = e.relPath := by simpa using List.find?_some hr
      rw [hr, ← hprior]
      exact ((h.get_idOf he).mpr ⟨hrows', hfolder', hpath'⟩).symm

/-- An entry that was met before the table knew its path leaves its mark in the counters. -/
lemma tallyOf_append (deps : IndexerDeps) (folderId : JsString) (before : Table IndexedRow)
    (es : List WalkedEntry) (e : WalkedEntry) : tallyOf deps folderId before (es ++ [e]) =
      let met := (tallyOf deps folderId before es).meet e
      match before.get (idOf deps folderId e) with
      | some prior => if sameStat prior e then met else { met with updated := met.updated + 1 }
      | none => { met with inserted := met.inserted + 1 } := by
  cases hprior : before.get (idOf deps folderId e) with
  | none => cases hdir : e.isDir <;> simp [tallyOf, Tally.meet, hprior, hdir]
  | some prior =>
      cases hsame : sameStat prior e <;> cases hdir : e.isDir <;>
        simp [tallyOf, Tally.meet, hprior, hdir, hsame]

lemma unseenBy_append (es : List WalkedEntry) (e : WalkedEntry) :
    unseenBy folderId before (es ++ [e]) =
      (unseenBy folderId before es).filter fun r => r.rel_path ≠ e.relPath := by
  rw [unseenBy, unseenBy, List.filter_filter]
  refine List.filter_congr fun r _ => ?_
  rw [List.map_append]
  by_cases hr : r.rel_path = e.relPath <;> simp [hr]

/-- A row that the pass has reached is the one of an entry, or an old one. -/
lemma Done.mem_rows (h : Done deps folderId started before es p) {r : IndexedRow}
    (hr : r ∈ p.files.rows) :
    (∃ d ∈ es, rowOf deps folderId started before d = some r) ∨ r ∈ before.rows := by
  have hget : p.files.get r.id = some r := Table.get_of_mem hr
  by_cases hid : ∃ d ∈ es, idOf deps folderId d = r.id
  · obtain ⟨d, hd, hid⟩ := hid
    rw [← hid, h.applied d hd] at hget
    exact .inl ⟨d, hd, hget⟩
  · rw [h.kept r.id (fun d hd hne => hid ⟨d, hd, hne⟩)] at hget
    exact .inr (Table.get_eq_some_iff.mp hget).1

/-- What the table holds once the row of one more entry is `new`. -/
lemma Done.push (h : Done deps folderId started before es p)
    (hrec : Reconcilable deps before folderId walked) (hes : ∀ d ∈ es, d ∈ walked)
    (he : e ∈ walked) (hnew : e.relPath ∉ es.map WalkedEntry.relPath) {files : Table IndexedRow}
    {tally : Tally} {writes : List FileWrite}
    (hself : files.get (idOf deps folderId e) = rowOf deps folderId started before e)
    (hothers : ∀ id, id ≠ idOf deps folderId e → files.get id = p.files.get id)
    (htally : tally = tallyOf deps folderId before (es ++ [e]))
    (hwrites : writes = p.writes ++ (writeOf deps folderId before e).toList) :
    Done deps folderId started before (es ++ [e])
      ⟨files, p.existing.filter fun r => r.rel_path ≠ e.relPath, tally, writes⟩ where
  applied d hd := by
    rcases List.mem_append.mp hd with hd | hd
    · have hne : idOf deps folderId d ≠ idOf deps folderId e := by
        intro hid
        refine hnew ?_
        rw [← hrec.relPath_of_idOf (hes d hd) he hid]
        exact List.mem_map_of_mem hd
      exact (hothers _ hne).trans (h.applied d hd)
    · rw [List.mem_singleton.mp hd]
      exact hself
  kept id hid := by
    have hne : id ≠ idOf deps folderId e := (hid e (by simp)).symm
    exact (hothers id hne).trans (h.kept id fun d hd => hid d (List.mem_append_left _ hd))
  existing := by
    rw [unseenBy_append, h.existing]
  tally := htally
  writes := by
    rw [hwrites, h.writes, List.filterMap_append]
    cases hw : writeOf deps folderId before e <;> simp [hw]

variable (hst : st.folderId = folderId ∧ st.started = started ∧
  (st.shared_folders.get folderId).isSome)

include hst

/-- **One entry**: where there is a kind for it, it is met. -/
lemma done_reconcileEntry (hrec : Reconcilable deps before folderId walked)
    (h : Done deps folderId started before es p) (hes : ∀ d ∈ es, d ∈ walked) (he : e ∈ walked)
    (hnew : e.relPath ∉ es.map WalkedEntry.relPath)
    (hdesc : isDescribed deps.cm e.isDir e.name = true) :
    ∃ p', reconcileEntry deps st p e = some p' ∧
      Done deps folderId started before (es ++ [e]) p' := by
  obtain ⟨hfolder, hstarted, hshared⟩ := hst
  have hprior : p.existing.find? (fun r => r.rel_path = e.relPath) =
      before.get (idOf deps folderId e) := by
    rw [h.existing]
    exact hrec.find_unseenBy he hnew
  have hunmet : p.files.get (idOf deps folderId e) = before.get (idOf deps folderId e) := by
    refine h.kept _ fun d hd hid => hnew ?_
    rw [← hrec.relPath_of_idOf (hes d hd) he hid]
    exact List.mem_map_of_mem hd
  have hsome : (insertRow deps folderId started e).isSome := isSome_insertRow_iff.mpr hdesc
  obtain ⟨new, hrow⟩ := Option.isSome_iff_exists.mp hsome
  have hid : deps.fileIdFor folderId e.relPath = idOf deps folderId e := rfl
  have htally := tallyOf_append deps folderId before es e
  rw [← h.tally] at htally
  cases hget : before.get (idOf deps folderId e) with
  | some prior =>
      rw [hget] at htally hprior hunmet
      dsimp only at htally
      by_cases hsame : sameStat prior e = true
      · rw [if_pos hsame] at htally
        refine ⟨⟨p.files, p.existing.filter fun r => r.rel_path ≠ e.relPath, p.tally.meet e,
          p.writes⟩, ?_, ?_⟩
        · simp only [reconcileEntry, hprior, hsame, if_true]
        refine h.push hrec hes he hnew ?_ (fun _ _ => rfl) htally.symm ?_
        · simp only [hunmet, rowOf, hget, hsame, if_true]
        · simp [writeOf, hget, hsame]
      · rw [if_neg hsame] at htally
        refine ⟨⟨p.files.updateKey (idOf deps folderId e) (updateRow new),
          p.existing.filter fun r => r.rel_path ≠ e.relPath,
          { p.tally.meet e with updated := (p.tally.meet e).updated + 1 },
          p.writes ++ [.update (idOf deps folderId e)]⟩, ?_, ?_⟩
        · simp only [reconcileEntry, hprior, hsame, hfolder, hstarted, hrow, updateIndexed, hid,
            hunmet, Option.isNone_some, Bool.false_eq_true, if_false, Option.map_some]
        refine h.push hrec hes he hnew ?_ (fun id hne => ?_) htally.symm ?_
        · rw [get_updateRow, if_pos rfl, hunmet]
          simp [rowOf, hget, hsame, hrow]
        · rw [get_updateRow, if_neg hne]
        · simp [writeOf, hget, hsame]
  | none =>
      rw [hget] at htally hprior hunmet
      dsimp only at htally
      obtain ⟨hnewid, hnewfolder, hnewpath, -⟩ := insertRow_eq hrow
      have hfree : (p.files.rows.any fun r =>
          r.folder_id = new.folder_id && r.rel_path = new.rel_path) = false := by
        refine Bool.eq_false_iff.mpr fun hany => ?_
        obtain ⟨r, hr, hplace⟩ := List.any_eq_true.mp hany
        rw [hnewfolder, hnewpath, Bool.and_eq_true, decide_eq_true_iff, decide_eq_true_iff]
          at hplace
        rcases h.mem_rows hr with ⟨d, hd, hrowd⟩ | hr
        · refine hnew ?_
          rw [← hplace.2, (hrec.describes (hes d hd) hrowd).rel_path]
          exact List.mem_map_of_mem hd
        · have := (hrec.get_idOf he).mpr ⟨hr, hplace.1, hplace.2⟩
          rw [hget] at this
          cases this
      have hkey : Keyed.key new = idOf deps folderId e := hnewid
      have hpk : p.files.get (Keyed.key new) = none := hkey ▸ hunmet
      obtain ⟨files, hins⟩ := Option.ne_none_iff_exists'.mp fun hnone =>
        Table.insert_eq_none_iff.mp hnone hpk
      have hinsert : insertIndexed st.shared_folders p.files new = some files := by
        rw [insertIndexed, hfree, hnewfolder, Option.isNone_eq_false_iff.mpr hshared]
        exact hins
      refine ⟨⟨files, p.existing.filter fun r => r.rel_path ≠ e.relPath,
        { p.tally.meet e with inserted := (p.tally.meet e).inserted + 1 },
        p.writes ++ [.insert (idOf deps folderId e)]⟩, ?_, ?_⟩
      · simp only [reconcileEntry, hprior, hfolder, hstarted, hrow, hid, hinsert,
          Option.bind_some, Option.map_some]
      refine h.push hrec hes he hnew ?_ (fun id hne => ?_) htally.symm ?_
      · rw [Table.get_insert hins, hkey, if_pos rfl]
        simp only [rowOf, hget, hrow]
      · rw [Table.get_insert hins, hkey, if_neg hne]
      · simp [writeOf, hget]

/-- Where there is none, a constraint is violated. -/
lemma reconcileEntry_eq_none (hrec : Reconcilable deps before folderId walked)
    (h : Done deps folderId started before es p) (hes : ∀ d ∈ es, d ∈ walked) (he : e ∈ walked)
    (hnew : e.relPath ∉ es.map WalkedEntry.relPath)
    (hdesc : isDescribed deps.cm e.isDir e.name = false) : reconcileEntry deps st p e = none := by
  obtain ⟨hfolder, hstarted, -⟩ := hst
  have hprior : p.existing.find? (fun r => r.rel_path = e.relPath) =
      before.get (idOf deps folderId e) := by
    rw [h.existing]
    exact hrec.find_unseenBy he hnew
  have hunmet : p.files.get (idOf deps folderId e) = before.get (idOf deps folderId e) := by
    refine h.kept _ fun d hd hid => hnew ?_
    rw [← hrec.relPath_of_idOf (hes d hd) he hid]
    exact List.mem_map_of_mem hd
  have hrow : insertRow deps folderId started e = none := by
    rw [← Option.not_isSome_iff_eq_none, isSome_insertRow_iff]
    simp [hdesc]
  have hid : deps.fileIdFor folderId e.relPath = idOf deps folderId e := rfl
  cases hget : before.get (idOf deps folderId e) with
  | none =>
      rw [hget] at hprior
      simp only [reconcileEntry, hprior, hfolder, hstarted, hrow, Option.bind_none]
  | some prior =>
      rw [hget] at hprior hunmet
      have hsame : sameStat prior e = false := by
        refine Bool.eq_false_iff.mpr fun hsame => ?_
        have hsome : (rowOf deps folderId started before e).isSome := by
          simp [rowOf, hget, hsame]
        rw [hrec.isSome_rowOf_iff he, hdesc] at hsome
        cases hsome
      simp only [reconcileEntry, hprior, hsame, hfolder, hstarted, hrow, updateIndexed, hid, hunmet,
        Option.isNone_some, Bool.false_eq_true, if_false, Option.map_none]

/-- **A batch**: where there is a kind for each of its entries, they are met. -/
lemma done_reconcileBatch (hrec : Reconcilable deps before folderId walked)
    (h : Done deps folderId started before es p) {batch rest : List WalkedEntry}
    (hwalked : walked = es ++ (batch ++ rest)) :
    (∃ p', reconcileBatch deps st p batch = some p' ∧
      Done deps folderId started before (es ++ batch) p' ∧
      ∀ e ∈ batch, isDescribed deps.cm e.isDir e.name = true) ∨
    (reconcileBatch deps st p batch = none ∧
      ∃ e ∈ batch, isDescribed deps.cm e.isDir e.name = false) := by
  induction batch generalizing es p with
  | nil =>
      refine .inl ⟨p, rfl, ?_, by simp⟩
      rwa [List.append_nil]
  | cons e batch ih =>
      have hes : ∀ d ∈ es, d ∈ walked := fun d hd => by simp [hwalked, hd]
      have he : e ∈ walked := by simp [hwalked]
      have hnew : e.relPath ∉ es.map WalkedEntry.relPath := by
        have hdistinct := hrec.distinct
        rw [hwalked, List.map_append] at hdistinct
        intro hmem
        exact (List.disjoint_of_nodup_append hdistinct) hmem (by simp)
      cases hdesc : isDescribed deps.cm e.isDir e.name with
      | false =>
          refine .inr ⟨?_, e, by simp, hdesc⟩
          rw [reconcileBatch, List.foldlM_cons,
            reconcileEntry_eq_none hst hrec h hes he hnew hdesc]
          rfl
      | true =>
          obtain ⟨p', hp', hdone⟩ := done_reconcileEntry hst hrec h hes he hnew hdesc
          have hfold : reconcileBatch deps st p (e :: batch) = reconcileBatch deps st p' batch := by
            rw [reconcileBatch, List.foldlM_cons, hp']
            rfl
          rw [hfold]
          rcases ih hdone (by simpa using hwalked) with ⟨q, hq, hdone', hall⟩ | ⟨hnone, d, hd, hbad⟩
          · refine .inl ⟨q, hq, ?_, List.forall_mem_cons.mpr ⟨hdesc, hall⟩⟩
            simpa using hdone'
          · exact .inr ⟨hnone, d, List.mem_cons_of_mem _ hd, hbad⟩

end Reconcilable

/-! ### A pass -/

/-- The condition: every file walked has a kind. -/
def allDescribed (cm : CaseMap) (walked : List WalkedEntry) : Bool :=
  walked.all fun e => isDescribed cm e.isDir e.name

/-- Where a pass that began with `before` stands. -/
inductive Pass (deps : IndexerDeps) (folderId : JsString) (started : Time)
    (before : Table IndexedRow) (walked : List WalkedEntry) : ReconcileState → Prop
  | reconciling {st : ReconcileState} (es rest : List WalkedEntry) (existing : List IndexedRow)
      (tally : Tally) (hphase : st.phase = .reconciling rest existing tally)
      (hwalked : walked = es ++ rest)
      (hst : st.folderId = folderId ∧ st.started = started ∧
        (st.shared_folders.get folderId).isSome)
      (hdone : Done deps folderId started before es ⟨st.files, existing, tally, st.writes⟩)
      (hdesc : ∀ e ∈ es, isDescribed deps.cm e.isDir e.name = true) :
      Pass deps folderId started before walked st
  | finished {st : ReconcileState} (existing : List IndexedRow) (tally : Tally)
      (hst : st.folderId = folderId ∧ st.started = started ∧
        (st.shared_folders.get folderId).isSome)
      (hdone : Done deps folderId started before walked
        ⟨st.files, existing, tally, st.writes⟩)
      (hdesc : ∀ e ∈ walked, isDescribed deps.cm e.isDir e.name = true) :
      Pass deps folderId started before walked (finishReconcile st existing tally)
  | rejected {st : ReconcileState} (hphase : st.phase = .settled (.error .constraint))
      (hdesc : ∃ e ∈ walked, isDescribed deps.cm e.isDir e.name = false) :
      Pass deps folderId started before walked st

section Pass

variable {deps : IndexerDeps} {folderId : JsString} {started : Time} {before : Table IndexedRow}
  {folders : Table FolderRow} {walked : List WalkedEntry} {s t : ReconcileState}

lemma pass_begin (hfolder : (folders.get folderId).isSome) :
    Pass deps folderId started before walked
      (beginReconcile before folders folderId started walked) :=
  .reconciling [] walked _ _ rfl rfl ⟨rfl, rfl, hfolder⟩ done_nil (by simp)

/-- What one turn keeps. -/
lemma pass_step {a : ReconcileAction} (hrec : Reconcilable deps before folderId walked)
    (h : Pass deps folderId started before walked s) (hstep : reconcileStep deps s a = some t) :
    Pass deps folderId started before walked t := by
  cases h with
  | finished existing tally => cases a <;> simp [reconcileStep, finishReconcile] at hstep
  | rejected hphase => cases a <;> simp [reconcileStep, hphase] at hstep
  | reconciling es rest existing tally hphase hwalked hst hdone hdesc =>
      cases rest with
      | nil =>
          cases a <;> simp only [reconcileStep, hphase, reduceCtorEq] at hstep
          cases hstep
          rw [List.append_nil] at hwalked
          subst hwalked
          exact .finished existing tally hst hdone hdesc
      | cons e rest =>
          cases a with
          | pause =>
              simp only [reconcileStep, hphase] at hstep
              cases hstep
              exact .reconciling es (e :: rest) existing tally hphase hwalked hst hdone hdesc
          | finish =>
              simp only [reconcileStep, hphase] at hstep
              cases hstep
          | batch =>
              simp only [reconcileStep, hphase] at hstep
              have hsplit := (List.take_append_drop (deps.batchSize.getD 500) (e :: rest)).symm
              have hsplit' : walked = es ++ ((e :: rest).take (deps.batchSize.getD 500) ++
                  (e :: rest).drop (deps.batchSize.getD 500)) := hsplit ▸ hwalked
              rcases done_reconcileBatch hst hrec hdone hsplit' with
                ⟨p, hp, hdone', hall⟩ | ⟨hnone, d, hd, hbad⟩
              · rw [hp] at hstep
                cases hstep
                refine .reconciling _ _ _ _ rfl ?_ hst hdone' fun d hd => ?_
                · rw [List.append_assoc, ← hsplit]
                  exact hwalked
                · exact (List.mem_append.mp hd).elim (hdesc d) (hall d)
              · rw [hnone] at hstep
                cases hstep
                refine .rejected rfl ⟨d, ?_, hbad⟩
                rw [hwalked]
                exact List.mem_append_right _ (List.mem_of_mem_take hd)

/-- A pass can always go on to its end, however often it pauses. -/
lemma exists_settled (hsize : 1 ≤ deps.batchSize.getD 500) (s : ReconcileState) :
    ∃ as t, Run (Steps (reconcileStep deps)) s as t ∧ ∃ answer, t.phase = .settled answer := by
  obtain ⟨files, folders, folderId, started, phase, writes⟩ := s
  cases phase with
  | settled answer => exact ⟨[], _, .nil _, answer, rfl⟩
  | reconciling rest existing tally =>
      induction hn : rest.length using Nat.strong_induction_on
        generalizing rest files existing tally writes with
      | _ n ih =>
          cases rest with
          | nil => exact ⟨[.finish], _, .single rfl, _, rfl⟩
          | cons e rest =>
              cases hbatch : reconcileBatch deps
                  ⟨files, folders, folderId, started, .reconciling (e :: rest) existing tally,
                    writes⟩ ⟨files, existing, tally, writes⟩
                  ((e :: rest).take (deps.batchSize.getD 500)) with
              | none =>
                  refine ⟨[.batch], ⟨files, folders, folderId, started,
                    .settled (.error .constraint), writes⟩, .single ?_, _, rfl⟩
                  simp only [Steps, reconcileStep, hbatch]
              | some p =>
                  have hlt : ((e :: rest).drop (deps.batchSize.getD 500)).length < n := by
                    rw [← hn, List.length_drop, List.length_cons]
                    omega
                  obtain ⟨as, t, hrun, ht⟩ := ih _ hlt p.files p.writes
                    ((e :: rest).drop (deps.batchSize.getD 500)) p.existing p.tally rfl
                  refine ⟨.batch :: as, t, .cons ?_ hrun, ht⟩
                  simp only [Steps, reconcileStep, hbatch]

end Pass

/-! ### The set specification -/

section Exact

variable {deps : IndexerDeps} {folderId : JsString} {started : Time} {before : Table IndexedRow}
  {folders : Table FolderRow} {walked : List WalkedEntry} {t : ReconcileState}

/-- A row of the folder has the path of an entry. -/
def hasPath (folderId : JsString) (e : WalkedEntry) (r : IndexedRow) : Bool :=
  r.folder_id = folderId && r.rel_path = e.relPath

/-- What a pass reports, by comparison of the rows before it with the entries walked. -/
def expected (before : Table IndexedRow) (folderId : JsString) (walked : List WalkedEntry) :
    IndexResult where
  folderId := folderId
  available := true
  fileCount := walked.countP fun e => !e.isDir
  totalBytes := ((walked.filter fun e => !e.isDir).map fun e => e.size.getD 0).sum
  inserted := walked.countP fun e => !before.rows.any (hasPath folderId e)
  updated := walked.countP fun e => before.rows.any fun r => hasPath folderId e r && !sameStat r e
  removed := before.rows.countP fun r =>
    r.folder_id = folderId && r.rel_path ∉ walked.map WalkedEntry.relPath

/-- A pass that began with the rows `before` ended as a comparison of these with the entries
walked says. -/
structure Exact (deps : IndexerDeps) (before : Table IndexedRow) (folderId : JsString)
    (walked : List WalkedEntry) (t : ReconcileState) : Prop where
  walked_rows : ∀ e ∈ walked, ∃ r ∈ t.files.rows, Describes deps folderId e r
  only_walked : ∀ r ∈ t.files.rows, r.folder_id = folderId →
    ∃ e ∈ walked, Describes deps folderId e r
  unchanged : ∀ r ∈ before.rows, ∀ e ∈ walked, hasPath folderId e r = true →
    sameStat r e = true → r ∈ t.files.rows ∧ ∀ w ∈ t.writes, w.id ≠ r.id
  surviving : ∀ r ∈ before.rows, ∀ e ∈ walked, hasPath folderId e r = true →
    ∃ r' ∈ t.files.rows, r'.id = r.id ∧ hasPath folderId e r' = true
  others : ∀ r, r.folder_id ≠ folderId → (r ∈ t.files.rows ↔ r ∈ before.rows)
  others_unwritten : ∀ r ∈ before.rows, r.folder_id ≠ folderId → ∀ w ∈ t.writes, w.id ≠ r.id
  answer : t.phase = .settled (.ok (expected before folderId walked))
  stored : (t.shared_folders.get folderId).map (fun f => (f.file_count, f.total_bytes)) =
    some (some (expected before folderId walked).fileCount,
      some (expected before folderId walked).totalBytes)
  again : ∀ started as u, Run (Steps (reconcileStep deps))
    (beginReconcile t.files t.shared_folders folderId started walked) as u → u.writes = []

lemma hasPath_iff {e : WalkedEntry} {r : IndexedRow} :
    hasPath folderId e r = true ↔ r.folder_id = folderId ∧ r.rel_path = e.relPath := by
  simp [hasPath]

lemma mem_unseenBy {r : IndexedRow} : r ∈ unseenBy folderId before walked ↔
    r ∈ before.rows ∧ r.folder_id = folderId ∧ r.rel_path ∉ walked.map WalkedEntry.relPath := by
  rw [unseenBy, folderRows, List.mem_filter, List.mem_filter, decide_eq_true_iff,
    decide_eq_true_iff, and_assoc]

/-- The counters of a pass that has met every entry. -/
lemma Reconcilable.tallyOf_eq (h : Reconcilable deps before folderId walked) :
    tallyOf deps folderId before walked =
      let r := expected before folderId walked
      ⟨r.inserted, r.updated, r.fileCount, r.totalBytes⟩ := by
  have hnew : ∀ e ∈ walked, (before.get (idOf deps folderId e)).isNone =
      !before.rows.any (hasPath folderId e) := by
    intro e he
    cases hget : before.get (idOf deps folderId e) with
    | some r =>
        obtain ⟨hmem, hplace⟩ := (h.get_idOf he).mp hget
        have hany : before.rows.any (hasPath folderId e) = true :=
          List.any_eq_true.mpr ⟨r, hmem, hasPath_iff.mpr hplace⟩
        simp [hany]
    | none =>
        have hany : before.rows.any (hasPath folderId e) = false := by
          refine Bool.eq_false_iff.mpr fun hany => ?_
          obtain ⟨r, hmem, hplace⟩ := List.any_eq_true.mp hany
          have := (h.get_idOf he).mpr ⟨hmem, hasPath_iff.mp hplace⟩
          rw [hget] at this
          cases this
        simp [hany]
  have hchanged : ∀ e ∈ walked,
      ((before.get (idOf deps folderId e)).any fun r => !sameStat r e) =
        before.rows.any fun r => hasPath folderId e r && !sameStat r e := by
    intro e he
    rw [Bool.eq_iff_iff, Option.any_eq_true, List.any_eq_true]
    constructor
    · rintro ⟨r, hr, hsame⟩
      obtain ⟨hmem, hplace⟩ := (h.get_idOf he).mp hr
      exact ⟨r, hmem, by rw [hasPath_iff.mpr hplace, hsame]; rfl⟩
    · rintro ⟨r, hmem, hr⟩
      rw [Bool.and_eq_true] at hr
      exact ⟨r, (h.get_idOf he).mpr ⟨hmem, hasPath_iff.mp hr.1⟩, hr.2⟩
  simp only [tallyOf, expected, Tally.mk.injEq, and_true]
  exact ⟨List.countP_congr fun e he => by rw [hnew e he],
    List.countP_congr fun e he => by rw [hchanged e he]⟩

/-- The rows that no entry has the path of are as many as the pass reports. -/
lemma length_unseenBy :
    (unseenBy folderId before walked).length = (expected before folderId walked).removed := by
  rw [unseenBy, folderRows, List.filter_filter, ← List.countP_eq_length_filter]
  refine List.countP_congr fun r _ => ?_
  rw [Bool.and_comm]

/-! ### The end of a pass -/

lemma phase_finish (st : ReconcileState) (existing : List IndexedRow) (tally : Tally) :
    (finishReconcile st existing tally).phase = .settled (.ok
      ⟨st.folderId, true, tally.fileCount, tally.totalBytes, tally.inserted, tally.updated,
        existing.length⟩) :=
  rfl

lemma folder_finish (st : ReconcileState) (existing : List IndexedRow) (tally : Tally)
    (id : JsString) : (finishReconcile st existing tally).shared_folders.get id =
      if id = st.folderId then (st.shared_folders.get id).map (storeCounts st.started tally)
      else st.shared_folders.get id :=
  Table.get_updateKey _ _ (storeCounts st.started tally) (fun _ _ => rfl) _

/-- The rows after a pass that met every entry: those of the entries, and those of other
folders. -/
lemma mem_finish {st : ReconcileState} {existing : List IndexedRow} {tally : Tally}
    {r : IndexedRow} (h : Reconcilable deps before folderId walked)
    (hdone : Done deps folderId started before walked
      ⟨st.files, existing, tally, st.writes⟩) :
    r ∈ (finishReconcile st existing tally).files.rows ↔
      (∃ e ∈ walked, rowOf deps folderId started before e = some r) ∨
        r ∈ before.rows ∧ r.folder_id ≠ folderId := by
  have hexisting : existing = unseenBy folderId before walked := hdone.existing
  have hkept : r ∈ (finishReconcile st existing tally).files.rows ↔
      r ∈ st.files.rows ∧ ∀ x ∈ existing, x.id ≠ r.id := by
    simp [finishReconcile, Table.delete, List.mem_filter]
  have hrow {e : WalkedEntry} (he : e ∈ walked)
      (hr : rowOf deps folderId started before e = some r) : r ∈ st.files.rows :=
    (Table.get_eq_some_iff.mp ((hdone.applied e he).trans hr)).1
  rw [hkept, hexisting]
  constructor
  · rintro ⟨hr, hseen⟩
    rcases hdone.mem_rows hr with hrow | hmem
    · exact .inl hrow
    · by_cases hfolder : r.folder_id = folderId
      · have hpath : r.rel_path ∈ walked.map WalkedEntry.relPath := by
          by_contra hpath
          exact hseen r (mem_unseenBy.mpr ⟨hmem, hfolder, hpath⟩) rfl
        obtain ⟨e, he, hpath⟩ := List.mem_map.mp hpath
        have hget := (h.get_idOf he).mpr ⟨hmem, hfolder, hpath.symm⟩
        have hid : r.id = idOf deps folderId e := (Table.get_eq_some_iff.mp hget).2
        have hself : st.files.get r.id = some r := Table.get_of_mem hr
        rw [hid, hdone.applied e he] at hself
        exact .inl ⟨e, he, hself⟩
      · exact .inr ⟨hmem, hfolder⟩
  · rintro (⟨e, he, hr⟩ | ⟨hmem, hfolder⟩)
    · refine ⟨hrow he hr, fun x hx hid => ?_⟩
      obtain ⟨hmem, hfolder, hpath⟩ := mem_unseenBy.mp hx
      have hidOf : x.id = idOf deps folderId e := hid.trans (h.describes he hr).id
      have hget : before.get (idOf deps folderId e) = some x :=
        Table.get_eq_some_iff.mpr ⟨hmem, hidOf⟩
      rw [((h.get_idOf he).mp hget).2.2] at hpath
      exact hpath (List.mem_map_of_mem he)
    · have hself : before.get r.id = some r := Table.get_of_mem hmem
      refine ⟨?_, fun x hx hid => ?_⟩
      · refine (Table.get_eq_some_iff.mp ((hdone.kept r.id fun e he hid => ?_).trans hself)).1
        exact hfolder ((h.get_idOf he).mp (hid ▸ hself)).2.1
      · obtain ⟨hmem', hfolder', -⟩ := mem_unseenBy.mp hx
        exact hfolder (Table.eq_of_key hmem' hmem hid ▸ hfolder')

/-- The table after a pass is one a pass over the same entries may start from. -/
lemma reconcilable_finish {st : ReconcileState} {existing : List IndexedRow} {tally : Tally}
    (h : Reconcilable deps before folderId walked)
    (hdone : Done deps folderId started before walked
      ⟨st.files, existing, tally, st.writes⟩) :
    Reconcilable deps (finishReconcile st existing tally).files folderId walked := by
  have hrows {r : IndexedRow} (hr : r ∈ (finishReconcile st existing tally).files.rows) :
      (∃ e ∈ walked, Describes deps folderId e r) ∨ r ∈ before.rows := by
    rcases (mem_finish h hdone).mp hr with ⟨e, he, hrow⟩ | ⟨hmem, -⟩
    · exact .inl ⟨e, he, h.describes he hrow⟩
    · exact .inr hmem
  refine ⟨⟨fun r hr => ?_, fun r hr => ?_, fun r hr => ?_⟩, h.placed, h.distinct, ?_⟩
  · rcases hrows hr with ⟨e, -, hd⟩ | hmem
    · rw [hd.id, hd.folder_id, hd.rel_path]
    · exact h.sound.ids r hmem
  · rcases hrows hr with ⟨e, -, hd⟩ | hmem
    · rw [hd.derived, hd.is_dir, hd.name]
    · exact h.sound.derived r hmem
  · rcases hrows hr with ⟨e, he, hd⟩ | hmem
    · rw [hd.rel_path, hd.parent_path, hd.name]
      exact h.placed e he
    · exact h.sound.placed r hmem
  · have hplaces : ∀ p ∈ places (finishReconcile st existing tally).files folderId walked,
        p ∈ places before folderId walked := by
      intro p hp
      rcases List.mem_append.mp hp with hp | hp
      · obtain ⟨r, hr, rfl⟩ := List.mem_map.mp hp
        rcases hrows hr with ⟨e, he, hd⟩ | hmem
        · rw [hd.folder_id, hd.rel_path]
          exact List.mem_append_right _ (List.mem_map_of_mem he)
        · exact List.mem_append_left _ (List.mem_map_of_mem hmem)
      · exact List.mem_append_right _ hp
    exact fun p hp q hq => h.collisionFree p (hplaces p hp) q (hplaces q hq)

/-- A pass over a table that agrees with the walk writes no row. -/
lemma writes_eq_nil {u : ReconcileState} (h : Reconcilable deps before folderId walked)
    (hwalked : ∀ e ∈ walked, ∃ r ∈ before.rows, Describes deps folderId e r)
    (honly : ∀ r ∈ before.rows, r.folder_id = folderId → ∃ e ∈ walked, Describes deps folderId e r)
    (hdesc : allDescribed deps.cm walked = true)
    (hpass : Pass deps folderId started before walked u) : u.writes = [] := by
  have hnone : ∀ e ∈ walked, writeOf deps folderId before e = none := by
    intro e he
    obtain ⟨r, hr, hd⟩ := hwalked e he
    have hget := (h.get_idOf he).mpr ⟨hr, hd.folder_id, hd.rel_path⟩
    simp only [writeOf, hget, hd.sameStat, if_true]
  cases hpass with
  | reconciling es rest existing tally hphase hsplit hst hdone hes =>
      have hwrites : u.writes = _ := hdone.writes
      rw [hwrites]
      exact List.filterMap_eq_nil_iff.mpr fun e he => hnone e (by simp [hsplit, he])
  | @finished st existing tally hst hdone =>
      have hwrites : st.writes = _ := hdone.writes
      have hexisting : existing = _ := hdone.existing
      have hunseen : unseenBy folderId before walked = [] := by
        refine List.eq_nil_iff_forall_not_mem.mpr fun r hr => ?_
        obtain ⟨hmem, hfolder, hpath⟩ := mem_unseenBy.mp hr
        obtain ⟨e, he, hd⟩ := honly r hmem hfolder
        exact hpath (hd.rel_path ▸ List.mem_map_of_mem he)
      change st.writes ++ existing.map _ = []
      rw [hwrites, hexisting, hunseen, List.map_nil, List.append_nil]
      exact List.filterMap_eq_nil_iff.mpr hnone
  | rejected hphase hbad =>
      obtain ⟨e, he, hbad⟩ := hbad
      have := List.all_eq_true.mp hdesc e he
      rw [hbad] at this
      cases this

/-- A pass that met every entry is exact. -/
lemma exact_finish {st : ReconcileState} {existing : List IndexedRow} {tally : Tally}
    (h : Reconcilable deps before folderId walked)
    (hst : st.folderId = folderId ∧ st.started = started ∧
      (st.shared_folders.get folderId).isSome)
    (hdone : Done deps folderId started before walked ⟨st.files, existing, tally, st.writes⟩)
    (hdesc : ∀ e ∈ walked, isDescribed deps.cm e.isDir e.name = true) :
    Exact deps before folderId walked (finishReconcile st existing tally) := by
  have hall : allDescribed deps.cm walked = true := List.all_eq_true.mpr hdesc
  have hexisting : existing = unseenBy folderId before walked := hdone.existing
  have hwrites : (finishReconcile st existing tally).writes =
      walked.filterMap (writeOf deps folderId before) ++
        (unseenBy folderId before walked).map fun x => .remove x.id := by
    have hw : st.writes = _ := hdone.writes
    rw [← hexisting, ← hw]
    rfl
  have htally : tally = _ := hdone.tally.trans h.tallyOf_eq
  have hrow {e : WalkedEntry} (he : e ∈ walked) :
      ∃ r ∈ (finishReconcile st existing tally).files.rows,
        rowOf deps folderId started before e = some r ∧ Describes deps folderId e r := by
    obtain ⟨r, hr⟩ := Option.isSome_iff_exists.mp ((h.isSome_rowOf_iff he).mpr (hdesc e he))
    exact ⟨r, (mem_finish h hdone).mpr (.inl ⟨e, he, hr⟩), hr, h.describes he hr⟩
  -- a statement is about an entry that was new or changed, or about a row that is gone
  have hwritten {w : FileWrite} (hw : w ∈ (finishReconcile st existing tally).writes) :
      (∃ e ∈ walked, w.id = idOf deps folderId e ∧
        ∀ r, before.get (idOf deps folderId e) = some r → sameStat r e = false) ∨
      ∃ x ∈ unseenBy folderId before walked, w.id = x.id := by
    rw [hwrites] at hw
    rcases List.mem_append.mp hw with hw | hw
    · obtain ⟨e, he, hw⟩ := List.mem_filterMap.mp hw
      refine .inl ⟨e, he, ?_⟩
      rw [writeOf] at hw
      cases hget : before.get (idOf deps folderId e) with
      | none =>
          rw [hget] at hw
          cases hw
          exact ⟨rfl, fun r hr => by cases hr⟩
      | some prior =>
          rw [hget] at hw
          dsimp only at hw
          split_ifs at hw with hsame
          cases hw
          refine ⟨rfl, fun r hr => ?_⟩
          cases hr
          exact Bool.eq_false_iff.mpr hsame
    · obtain ⟨x, hx, rfl⟩ := List.mem_map.mp hw
      exact .inr ⟨x, hx, rfl⟩
  have hwalked : ∀ e ∈ walked, ∃ r ∈ (finishReconcile st existing tally).files.rows,
      Describes deps folderId e r := fun e he =>
    let ⟨r, hmem, _, hd⟩ := hrow he
    ⟨r, hmem, hd⟩
  have honly : ∀ r ∈ (finishReconcile st existing tally).files.rows, r.folder_id = folderId →
      ∃ e ∈ walked, Describes deps folderId e r := by
    intro r hr hfolder
    rcases (mem_finish h hdone).mp hr with ⟨e, he, hr⟩ | ⟨-, hne⟩
    · exact ⟨e, he, h.describes he hr⟩
    · exact absurd hfolder hne
  refine ⟨hwalked, honly, fun r hr e he hplace hsame => ?_, fun r hr e he hplace => ?_,
    fun r hfolder => ?_, fun r hr hfolder w hw hid => ?_, ?_, ?_, fun started as u hrun => ?_⟩
  · obtain ⟨hfolder, hpath⟩ := hasPath_iff.mp hplace
    have hget := (h.get_idOf he).mpr ⟨hr, hfolder, hpath⟩
    refine ⟨(mem_finish h hdone).mpr (.inl ⟨e, he, ?_⟩), fun w hw hid => ?_⟩
    · simp only [rowOf, hget, hsame, if_true]
    · have hrid : r.id = idOf deps folderId e := (Table.get_eq_some_iff.mp hget).2
      rcases hwritten hw with ⟨d, hd, hwid, hchanged⟩ | ⟨x, hx, hwid⟩
      · rw [← hwid, hid, hrid, hget] at hchanged
        have hpaths := h.relPath_of_idOf he hd (hrid.symm.trans (hid.symm.trans hwid))
        have hde : d = e := List.inj_on_of_nodup_map h.distinct hd he hpaths.symm
        have := hchanged r rfl
        rw [hde, hsame] at this
        cases this
      · obtain ⟨hmem, -, hunseen⟩ := mem_unseenBy.mp hx
        rw [Table.eq_of_key hmem hr (hwid.symm.trans hid), hpath] at hunseen
        exact hunseen (List.mem_map_of_mem he)
  · obtain ⟨hfolder, hpath⟩ := hasPath_iff.mp hplace
    have hget := (h.get_idOf he).mpr ⟨hr, hfolder, hpath⟩
    obtain ⟨r', hmem, -, hd⟩ := hrow he
    have hrid : r.id = idOf deps folderId e := (Table.get_eq_some_iff.mp hget).2
    exact ⟨r', hmem, hd.id.trans hrid.symm, hasPath_iff.mpr ⟨hd.folder_id, hd.rel_path⟩⟩
  · rw [mem_finish h hdone]
    constructor
    · rintro (⟨e, he, hr⟩ | ⟨hmem, -⟩)
      · exact absurd (h.describes he hr).folder_id hfolder
      · exact hmem
    · exact fun hmem => .inr ⟨hmem, hfolder⟩
  · have hself : before.get r.id = some r := Table.get_of_mem hr
    rcases hwritten hw with ⟨e, he, hwid, -⟩ | ⟨x, hx, hwid⟩
    · rw [← hid, hwid] at hself
      exact hfolder ((h.get_idOf he).mp hself).2.1
    · obtain ⟨hmem, hxfolder, -⟩ := mem_unseenBy.mp hx
      rw [Table.eq_of_key hmem hr (hwid.symm.trans hid)] at hxfolder
      exact hfolder hxfolder
  · rw [phase_finish, htally, hexisting, length_unseenBy, hst.1]
    rfl
  · obtain ⟨f, hf⟩ := Option.isSome_iff_exists.mp hst.2.2
    rw [folder_finish, if_pos hst.1.symm, hf, htally]
    rfl
  · have hfolder' : ((finishReconcile st existing tally).shared_folders.get folderId).isSome := by
      rw [folder_finish]
      split_ifs
      · rw [Option.isSome_map]
        exact hst.2.2
      · exact hst.2.2
    have hrec' := reconcilable_finish h hdone
    have hpass := hrun.invariant (I := Pass deps folderId started _ walked)
      (fun _ _ _ hp hstep => pass_step hrec' hp hstep) (pass_begin hfolder')
    exact writes_eq_nil hrec' hwalked honly hall hpass

/-- **A pass is exact where every file has a kind**: for any rows whose ids, derived columns and
names are those the index writes, any walk with distinct paths, any size of the batches and any
pattern of pausing, a pass over the folder can go on to its end, and there it is exact if and only
if no file walked has the name of an inherited property for an extension. -/
theorem reconcile_exact_iff {cm : CaseMap} {sha256 : JsString → JsString}
    {maxDepth batchSize : Option ℕ}
    (h : Reconcilable (indexerDeps cm sha256 maxDepth batchSize) before folderId walked)
    (hfolder : (folders.get folderId).isSome) (hsize : 1 ≤ batchSize.getD 500) :
    (∀ as s, Run (Steps (reconcileStep (indexerDeps cm sha256 maxDepth batchSize)))
      (beginReconcile before folders folderId started walked) as s →
        ∃ bs t, Run (Steps (reconcileStep (indexerDeps cm sha256 maxDepth batchSize))) s bs t ∧
          ∃ answer, t.phase = .settled answer) ∧
    ∀ as t answer, Run (Steps (reconcileStep (indexerDeps cm sha256 maxDepth batchSize)))
      (beginReconcile before folders folderId started walked) as t →
        t.phase = .settled answer →
          (Exact (indexerDeps cm sha256 maxDepth batchSize) before folderId walked t ↔
            allDescribed cm walked = true) := by
  refine ⟨fun as s _ => exists_settled hsize s, fun as t answer hrun ht => ?_⟩
  have hpass := hrun.invariant
    (I := Pass (indexerDeps cm sha256 maxDepth batchSize) folderId started before walked)
    (fun _ _ _ hp hstep => pass_step h hp hstep) (pass_begin hfolder)
  cases hpass with
  | reconciling es rest existing tally hphase =>
      rw [hphase] at ht
      cases ht
  | finished existing tally hst hdone hdesc =>
      exact iff_of_true (exact_finish h hst hdone hdesc) (List.all_eq_true.mpr hdesc)
  | rejected hphase hbad =>
      refine iff_of_false (fun hexact => ?_) fun hall => ?_
      · have hanswer := hexact.answer
        rw [hphase] at hanswer
        cases hanswer
      · obtain ⟨e, he, hbad⟩ := hbad
        exact Bool.false_ne_true (hbad.symm.trans (List.all_eq_true.mp hall e he))

end Exact

/-! ### Two libraries -/

section Library

/-- The digests of the places below. -/
def sampleSha256 (s : JsString) : JsString :=
  if s = js "f1" ++ 0 :: js "a.mp4" then
    js "a9bf601fabf4c5d49018ae27ac1eafcdd20651c5f149f1671b668332684ffa00"
  else if s = js "f1" ++ 0 :: js "b.txt" then
    js "3d1bec6039a1a3834cccca35d8c22131831e484d54c51762699352a81c1c0054"
  else if s = js "f1" ++ 0 :: js "d" then
    js "23f2a0346fcdede82d8181cb20ccd190fced10a26419b885f0936d475261b7f7"
  else if s = js "f2" ++ 0 :: js "a.mp4" then
    js "90f8cbf7541271588d21324a8c043b2653afec64de5cd997ea8f28094ed45a5e"
  else if s = js "f1" ++ 0 :: js "a.constructor" then
    js "385cd74683b8e745aba7048f44c65ef0d246efcc787119916291e4297ce725ed"
  else []

/-- An indexer that writes two rows at a time. -/
def sampleDeps : IndexerDeps := indexerDeps ⟨lower, upper⟩ sampleSha256 none (some 2)

/-- A folder that has never been indexed. -/
def sampleFolder : FolderRow :=
  ⟨js "f1", js "/films", js "Films", false, true, true, true, none, none, none, 1⟩

/-- The row that the index has for a file. -/
def sampleRow (folderId name : JsString) (size : ℕ) (kind : MediaKind) (playable : Bool)
    (ext : JsString) : IndexedRow where
  id := fileIdFor sampleSha256 folderId name
  folder_id := folderId
  rel_path := name
  parent_path := []
  name := name
  is_dir := false
  size := some size
  mtime := some 7
  ext := some ext
  media_kind := kind
  printable := false
  browser_playable := playable
  indexed_at := 1

/-- A film that has grown since, a note that is gone, and a film of another folder. -/
def sampleRows : Table IndexedRow where
  rows := [sampleRow (js "f1") (js "a.mp4") 5 .video true (js "mp4"),
    sampleRow (js "f1") (js "b.txt") 3 .document false (js "txt"),
    sampleRow (js "f2") (js "a.mp4") 5 .video true (js "mp4")]
  nodup := by decide

/-- The film and a directory. -/
def sampleWalk : List WalkedEntry :=
  [⟨js "a.mp4", [], js "a.mp4", false, some 6, some 8⟩, ⟨js "d", [], js "d", true, none, some 8⟩]

lemma reconcilable_sample : Reconcilable sampleDeps sampleRows (js "f1") sampleWalk where
  sound := ⟨by decide, by decide, by decide⟩
  placed := by decide
  distinct := by decide
  collisionFree := by
    rw [CollisionFree]
    decide

/-- A pass that pauses twice updates the film, inserts the directory and removes the note. -/
theorem reconcile_exact_sample : ∃ t,
    Run (Steps (reconcileStep sampleDeps))
      (beginReconcile sampleRows ⟨[sampleFolder], by decide⟩ (js "f1") 9 sampleWalk)
      [.pause, .pause, .batch, .finish] t ∧
    t.writes.length = 3 ∧ Exact sampleDeps sampleRows (js "f1") sampleWalk t := by
  obtain ⟨t, hrun, ht⟩ := exists_run_of_exec (reconcileStep sampleDeps)
    (beginReconcile sampleRows ⟨[sampleFolder], by decide⟩ (js "f1") 9 sampleWalk)
    [.pause, .pause, .batch, .finish]
    (fun t => t.phase = .settled (.ok ⟨js "f1", true, 1, 6, 1, 1, 1⟩) && t.writes.length = 3)
    (by decide)
  rw [Bool.and_eq_true, decide_eq_true_iff, decide_eq_true_iff] at ht
  refine ⟨t, hrun, ht.2, ?_⟩
  exact ((reconcile_exact_iff reconcilable_sample (by decide) (by decide)).2 _ t _ hrun
    ht.1).mpr (by decide)

/-- **A name that rejects the pass**: for `a.constructor` the index finds a property that every
object has, and no kind; the insert violates a constraint, and the folder stays as it was. -/
theorem constructor_rejected : ∃ t,
    Reconcilable sampleDeps sampleRows (js "f1")
      [⟨js "a.constructor", [], js "a.constructor", false, some 6, some 8⟩] ∧
    Run (Steps (reconcileStep sampleDeps))
      (beginReconcile sampleRows ⟨[sampleFolder], by decide⟩ (js "f1") 9
        [⟨js "a.constructor", [], js "a.constructor", false, some 6, some 8⟩]) [.batch] t ∧
    t.phase = .settled (.error .constraint) ∧
    ¬Exact sampleDeps sampleRows (js "f1")
      [⟨js "a.constructor", [], js "a.constructor", false, some 6, some 8⟩] t := by
  obtain ⟨t, hrun, ht⟩ := exists_run_of_exec (reconcileStep sampleDeps)
    (beginReconcile sampleRows ⟨[sampleFolder], by decide⟩ (js "f1") 9
      [⟨js "a.constructor", [], js "a.constructor", false, some 6, some 8⟩]) [.batch]
    (fun t => t.phase = .settled (.error .constraint)) (by decide)
  have ht := of_decide_eq_true ht
  refine ⟨t, ⟨reconcilable_sample.sound, by decide, by decide, ?_⟩, hrun, ht,
    fun h => ?_⟩
  · rw [CollisionFree]
    decide
  · have hanswer := h.answer
    rw [ht] at hanswer
    cases hanswer

end Library

end LocalCast.Library
