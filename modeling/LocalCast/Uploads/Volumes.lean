import LocalCast.Uploads.Lifecycle

/-!
A `finalize` that fails: the tail of an upload in `modules/uploads/sessions.ts` and
`reserveFreeName` of `modules/uploads/paths.ts`, with an outcome for every operation of the file
system, and directories on volumes.

* `Faults`: what the file system refuses while one call lasts.
* `reserveFreeName`, `finalizeOn`, `appendNothing`: the functions of the source. A rename between
  two volumes is always refused.
* `Reserves`, `reserveFreeName_spec`: the name that is reserved, where one is.
* `Retryable`: the upload is published, or nothing has changed and a later append of no bytes
  publishes it.
* `retryable_iff`: this holds exactly where the temp file and the destination are on one volume
  and no reservation is left behind.
* `finalizeOn_run`: the call is a run of the system of `Uploads.Sessions`.
* `other_volume_stuck`: an upload to another drive.
-/

namespace LocalCast.Uploads

open JsString Contract Db Library Runs UploadState

/-! ### The source -/

/-- `dirname`, with the separator at its end. -/
def dirname (p : JsString) : JsString := (splitLast (fun c => c = 47 || c = 92) p).1

/-- What the file system refuses while a call of `finalize` lasts: `resolveWritable`, `mkdir`,
`open 'wx'` of a candidate for another reason than that the name is taken, the `close` of the
reservation, `rename`, and `rm` of the reservation. -/
structure Faults where
  resolve : Option Failure
  mkdir : Bool
  opening : ℕ → Bool
  closing : Bool
  rename : Bool
  rm : Bool

/-- Nothing is refused. -/
def Faults.clear : Faults := ⟨none, false, fun _ => false, false, false, false⟩

def tooMany : ApiException :=
  ⟨.badRequest, "Too many files with this name already exist in that folder."⟩

/-- The loop of `reserveFreeName`, from `counter` on. -/
def reserveFrom (faults : Faults) (disk : Disk JsString) (absPath : JsString) :
    ℕ → ℕ → Disk JsString × Except Failure JsString
  | 0, _ => (disk, .error (.api tooMany []))
  | fuel + 1, counter =>
      let path := candidate absPath counter
      if faults.opening counter then (disk, .error (.fs "EIO"))
      else if (disk.names path).isSome then reserveFrom faults disk absPath fuel (counter + 1)
      else if faults.closing then (disk.createNew path, .error (.fs "EIO"))
      else (disk.createNew path, .ok path)

/-- `reserveFreeName`. -/
def reserveFreeName (faults : Faults) (disk : Disk JsString) (absPath : JsString) :
    Disk JsString × Except Failure JsString :=
  reserveFrom faults disk absPath (MAX_CANDIDATES - 1) 1

/-- The row of a published upload. -/
def publishedRow (row : UploadRow) (finalPath : JsString) (now : Time) (r : UploadRow) :
    UploadRow :=
  { r with
    status := .complete
    rel_path := finalRel row.rel_path finalPath
    received_bytes := r.total_bytes
    updated_at := now }

/-- `finalize`, with `destination` what `resolveWritable` answers. Every candidate lies in the
directory of the destination. -/
def finalizeOn (volume : JsString → ℕ) (faults : Faults) (s : UploadState) (row : UploadRow)
    (destination : JsString) (now : Time) : UploadState × Except Failure UploadSession :=
  match writableFolder s.store row.folder_id, faults.resolve with
  | .error e, _ => (s, .error (.api e []))
  | .ok _, some failure => (s, .error failure)
  | .ok _, none =>
      if faults.mkdir then (s, .error (.fs "EIO"))
      else
        match reserveFreeName faults s.disk destination with
        | (disk, .error e) => (s.setDisk disk, .error e)
        | (disk, .ok finalPath) =>
            if faults.rename ∨ (disk.names row.temp_path).isNone
                ∨ volume (dirname row.temp_path) ≠ volume (dirname destination) then
              (s.setDisk (if faults.rm then disk else disk.remove finalPath), .error (.fs "EIO"))
            else
              let s := (s.setDisk (disk.rename row.temp_path finalPath)).setUploads
                (s.uploads.updateKey row.id (publishedRow row finalPath now))
              match s.uploads.get row.id with
              | none => (s, .error (.api unknownSession []))
              | some updated => (s, .ok (toDto updated))

/-- `append` of no bytes at `offset`. -/
def appendNothing (volume : JsString → ℕ) (faults : Faults) (s : UploadState)
    (uploadId deviceId : JsString) (offset : ℕ) (destination : JsString) (now : Time) :
    UploadState × Except Failure UploadSession :=
  match appendCheck s uploadId deviceId offset (some 0) with
  | .error (e, details) => (s, .error (.api e details))
  | .ok row =>
      if (s.disk.names row.temp_path).isNone then (s, .error (.fs "ENOENT"))
      else
        match require s uploadId deviceId with
        | .error e => (s, .error (.api e []))
        | .ok updated =>
            if updated.received_bytes ≥ updated.total_bytes then
              finalizeOn volume faults s updated destination now
            else (s, .ok (toDto updated))

/-! ### The law -/

/-- A session that has all its bytes, in a folder that takes uploads. -/
structure Full (s : UploadState) (row : UploadRow) : Prop where
  stored : s.uploads.get row.id = some row
  active : row.status = .active
  received : row.received_bytes = row.total_bytes
  temp : (s.disk.names row.temp_path).isSome
  writable : (writableFolder s.store row.folder_id).isOk = true

/-- The temp file of the session has become a new file, and its row says so. -/
structure PublishedAs (s t : UploadState) (row : UploadRow) (finalPath : JsString) : Prop where
  free : s.disk.names finalPath = none
  content : t.disk.content finalPath = s.disk.content row.temp_path
  temp : t.disk.names row.temp_path = none
  others : ∀ p, p ≠ finalPath → p ≠ row.temp_path → t.disk.content p = s.disk.content p
  row : ∃ now, t.uploads.get row.id = some (publishedRow row finalPath now row)

/-- The files and the sessions are what they were. -/
structure Unchanged (s t : UploadState) : Prop where
  uploads : t.uploads = s.uploads
  files : ∀ p, t.disk.content p = s.disk.content p

/-- A disk on which a call may publish: the temp file is what it was, and one of the names to try
is free. -/
structure Cleared (s : UploadState) (row : UploadRow) (destination : JsString)
    (disk : Disk JsString) : Prop where
  temp : disk.content row.temp_path = s.disk.content row.temp_path
  free : ∃ k, 1 ≤ k ∧ k < MAX_CANDIDATES ∧ disk.names (candidate destination k) = none

/-- The upload was published, or nothing has changed and a later append of no bytes publishes
it once the cause is gone. -/
def Retryable (volume : JsString → ℕ) (s t : UploadState) (row : UploadRow)
    (destination : JsString) : Prop :=
  (∃ finalPath, PublishedAs s t row finalPath) ∨
    Unchanged s t ∧ ∀ disk now, Cleared t row destination disk →
      ∃ finalPath, PublishedAs (t.setDisk disk)
        (appendNothing volume .clear (t.setDisk disk) row.id row.device_id row.total_bytes
          destination now).1 row finalPath

/-- The name tried at `k` is the one `reserveFreeName` creates: it is free, those before it are
taken, and no attempt up to it is refused. -/
structure Reserves (faults : Faults) (disk : Disk JsString) (absPath : JsString)
    (start k : ℕ) : Prop where
  le : start ≤ k
  opened : ∀ j, start ≤ j → j ≤ k → faults.opening j = false
  taken : ∀ j, start ≤ j → j < k → (disk.names (candidate absPath j)).isSome
  free : disk.names (candidate absPath k) = none

/-- A name that is reserved is closed, and given back where the rename is refused. -/
def leavesNothing (faults : Faults) (disk : Disk JsString) (destination : JsString) : Prop :=
  faults.resolve = none → faults.mkdir = false →
    (∃ k < MAX_CANDIDATES, Reserves faults disk destination 1 k) →
      faults.closing = false ∧ (faults.rename = true → faults.rm = false)

/-! ### The reservation -/

section Reserve

variable {faults : Faults} {disk : Disk JsString} {absPath : JsString} {fuel start k : ℕ}

/-- Where no name is reserved, the disk is as it was. -/
lemma reserveFrom_of_none (h : ∀ k < start + fuel, ¬Reserves faults disk absPath start k) :
    ∃ e, reserveFrom faults disk absPath fuel start = (disk, .error e) := by
  induction fuel generalizing start with
  | zero => exact ⟨_, rfl⟩
  | succ fuel ih =>
      rw [reserveFrom]
      split_ifs with hopen htaken hclose
      · exact ⟨_, rfl⟩
      · refine ih fun k hk hres => h k (by omega) ?_
        refine ⟨by have := hres.le; omega, fun j hj hjk => ?_, fun j hj hjk => ?_, hres.free⟩
        · rcases hj.eq_or_lt with rfl | hlt
          · simpa using hopen
          · exact hres.opened j hlt hjk
        · rcases hj.eq_or_lt with rfl | hlt
          · exact htaken
          · exact hres.taken j hlt hjk
      all_goals
        refine absurd ⟨le_rfl, fun j hj hjk => ?_, fun j hj hjk => ?_, ?_⟩
          (h start (by omega))
        · obtain rfl : j = start := by omega
          simpa using hopen
        · omega
        · simpa using htaken

/-- Where one is, its file is created. -/
lemma reserveFrom_of_reserves (h : Reserves faults disk absPath start k)
    (hk : k < start + fuel) :
    reserveFrom faults disk absPath fuel start =
      (disk.createNew (candidate absPath k),
        if faults.closing then .error (.fs "EIO") else .ok (candidate absPath k)) := by
  induction fuel generalizing start with
  | zero => exact absurd h.le (by omega)
  | succ fuel ih =>
      rw [reserveFrom]
      rw [if_neg (by simp [h.opened start le_rfl h.le])]
      rcases h.le.eq_or_lt with rfl | hlt
      · rw [if_neg (by simp [h.free])]
        split_ifs <;> rfl
      · rw [if_pos (h.taken start le_rfl hlt)]
        refine ih ⟨hlt, fun j hj => h.opened j (by omega), fun j hj => h.taken j (by omega),
          h.free⟩ (by omega)

/-- On a disk with a free name, nothing being refused, a name is reserved. -/
lemma exists_reserves (hk : 1 ≤ k) (hfree : disk.names (candidate absPath k) = none) :
    ∃ j ≤ k, Reserves .clear disk absPath 1 j := by
  classical
  have hex : ∃ j, 1 ≤ j ∧ disk.names (candidate absPath j) = none := ⟨k, hk, hfree⟩
  obtain ⟨hle, hname⟩ := Nat.find_spec hex
  refine ⟨Nat.find hex, Nat.find_min' hex ⟨hk, hfree⟩, hle, fun _ _ _ => rfl, fun j hj hlt => ?_,
    hname⟩
  have hmin := Nat.find_min hex hlt
  rw [Option.isSome_iff_ne_none]
  exact fun hnone => hmin ⟨hj, hnone⟩

end Reserve

/-! ### One call of `finalize` -/

section Finalize

variable {volume : JsString → ℕ} {faults : Faults} {s : UploadState} {row : UploadRow}
  {destination : JsString} {now : Time} {k : ℕ}

/-- Where no name is reserved, nothing changes. -/
lemma finalizeOn_of_none (h : ¬(faults.resolve = none ∧ faults.mkdir = false ∧
      ∃ k < MAX_CANDIDATES, Reserves faults s.disk destination 1 k)) :
    (finalizeOn volume faults s row destination now).1 = s := by
  rw [finalizeOn]
  cases hfolder : writableFolder s.store row.folder_id with
  | error e => rfl
  | ok folder =>
      cases hresolve : faults.resolve with
      | some failure => rfl
      | none =>
          dsimp only
          by_cases hmkdir : faults.mkdir = true
          · rw [if_pos hmkdir]
          · rw [if_neg hmkdir]
            have hnone : ∀ k < 1 + (MAX_CANDIDATES - 1),
                ¬Reserves faults s.disk destination 1 k := fun k hk hres =>
              h ⟨hresolve, by simpa using hmkdir, k, by simpa [MAX_CANDIDATES] using hk, hres⟩
            obtain ⟨e, he⟩ := reserveFrom_of_none hnone
            rw [reserveFreeName, he]
            rfl

variable (hfull : Full s row) (hresolve : faults.resolve = none) (hmkdir : faults.mkdir = false)
  (hk : k < MAX_CANDIDATES) (hres : Reserves faults s.disk destination 1 k)

include hfull hresolve hmkdir hk hres

/-- What the reservation leads to. -/
lemma finalizeOn_of_reserves : (finalizeOn volume faults s row destination now).1 =
    if faults.closing then s.setDisk (s.disk.createNew (candidate destination k))
    else if faults.rename ∨ volume (dirname row.temp_path) ≠ volume (dirname destination) then
      s.setDisk (if faults.rm then s.disk.createNew (candidate destination k)
        else (s.disk.createNew (candidate destination k)).remove (candidate destination k))
    else (s.setDisk ((s.disk.createNew (candidate destination k)).rename row.temp_path
      (candidate destination k))).setUploads
        (s.uploads.updateKey row.id (publishedRow row (candidate destination k) now)) := by
  have htemp : row.temp_path ≠ candidate destination k := by
    intro heq
    have hsome := hfull.temp
    rw [heq, hres.free] at hsome
    cases hsome
  have hname :
      ((s.disk.createNew (candidate destination k)).names row.temp_path).isNone = false := by
    rw [Disk.names_createNew, if_neg htemp]
    exact Option.isNone_eq_false_iff.mpr hfull.temp
  rw [finalizeOn, hresolve]
  cases hfolder : writableFolder s.store row.folder_id with
  | error e =>
      have hok := hfull.writable
      rw [hfolder] at hok
      cases hok
  | ok folder =>
      rw [reserveFreeName, reserveFrom_of_reserves hres (by simpa [MAX_CANDIDATES] using hk)]
      simp only [hmkdir, Bool.false_eq_true, if_false]
      by_cases hclosing : faults.closing = true
      · simp only [hclosing, if_true]
      · simp only [hclosing, Bool.false_eq_true, if_false, hname, false_or]
        by_cases hrename : faults.rename = true ∨
            volume (dirname row.temp_path) ≠ volume (dirname destination)
        · rw [if_pos hrename, if_pos hrename]
        · rw [if_neg hrename, if_neg hrename]
          split <;> rfl

/-- The upload is published where the reservation is closed and the rename is not refused. -/
lemma publishedAs_finalizeOn (hclosing : faults.closing = false) (hrename : faults.rename = false)
    (hvolume : volume (dirname row.temp_path) = volume (dirname destination)) :
    PublishedAs s (finalizeOn volume faults s row destination now).1 row
      (candidate destination k) := by
  have htemp : row.temp_path ≠ candidate destination k := by
    intro heq
    have hsome := hfull.temp
    rw [heq, hres.free] at hsome
    cases hsome
  rw [finalizeOn_of_reserves hfull hresolve hmkdir hk hres, if_neg (by simp [hclosing]),
    if_neg (by simp [hrename, hvolume])]
  refine ⟨hres.free, ?_, ?_, fun p hp hp' => ?_, now, ?_⟩
  · exact (Disk.content_rename_self _).trans (Disk.content_createNew _ htemp)
  · exact (Disk.names_rename ..).trans (by rw [if_neg htemp, if_pos rfl])
  · exact (Disk.content_rename _ hp hp').trans (Disk.content_createNew _ hp)
  · have hget := Table.get_updateKey s.uploads row.id
      (publishedRow row (candidate destination k) now) (fun _ _ => rfl) row.id
    rw [if_pos rfl, hfull.stored] at hget
    exact hget

end Finalize

/-! ### Trying again -/

section Retry

variable {volume : JsString → ℕ} {faults : Faults} {s t : UploadState} {row : UploadRow}
  {destination : JsString} {now : Time}

/-- Between two volumes no upload is ever published. -/
lemma uploads_finalizeOn
    (hvolume : volume (dirname row.temp_path) ≠ volume (dirname destination)) :
    (finalizeOn volume faults s row destination now).1.uploads = s.uploads := by
  rw [finalizeOn]
  split
  · rfl
  · rfl
  · split_ifs
    · rfl
    all_goals
      split
      · rfl
      · rw [if_pos (.inr (.inr hvolume))]
        rfl

/-- A row that is active is not the one of a published upload. -/
lemma not_publishedAs (hfull : Full s row) (huploads : t.uploads = s.uploads)
    (finalPath : JsString) : ¬PublishedAs s t row finalPath := by
  intro h
  obtain ⟨now, hrow⟩ := h.row
  rw [huploads, hfull.stored] at hrow
  have hstatus := congrArg UploadRow.status (Option.some.inj hrow)
  rw [hfull.active] at hstatus
  cases hstatus

/-- A session that was not published has all its bytes again, on any disk with its temp file. -/
lemma Full.again (hfull : Full s row) {disk : Disk JsString}
    (hcontent : disk.content row.temp_path = s.disk.content row.temp_path) :
    Full (s.setDisk disk) row where
  stored := hfull.stored
  active := hfull.active
  received := hfull.received
  temp := by
    have hsome : (disk.content row.temp_path).isSome := by
      rw [hcontent, Disk.content, Option.isSome_map]
      exact hfull.temp
    rwa [Disk.content, Option.isSome_map] at hsome
  writable := hfull.writable

/-- An append of no bytes to a session that has all of them is a call of `finalize`. -/
lemma appendNothing_eq (hfull : Full s row) :
    appendNothing volume faults s row.id row.device_id row.total_bytes destination now =
      finalizeOn volume faults s row destination now := by
  have hrequire : require s row.id row.device_id = .ok row := by
    rw [require, hfull.stored]
    exact if_pos rfl
  have hcheck : appendCheck s row.id row.device_id row.total_bytes (some 0) = .ok row := by
    simp [appendCheck, hrequire, hfull.active, hfull.received]
  have htemp : (s.disk.names row.temp_path).isNone = false :=
    Option.isNone_eq_false_iff.mpr hfull.temp
  simp [appendNothing, hcheck, hrequire, htemp, hfull.received]

/-- On one volume a call that nothing refuses publishes, where a name is free. -/
lemma publishes_again (hfull : Full s row) {disk : Disk JsString}
    (hvolume : volume (dirname row.temp_path) = volume (dirname destination))
    (hclear : Cleared s row destination disk) :
    ∃ finalPath, PublishedAs (s.setDisk disk) (appendNothing volume .clear (s.setDisk disk) row.id
      row.device_id row.total_bytes destination now).1 row finalPath := by
  have hfull' := hfull.again hclear.temp
  obtain ⟨k, hle, hlt, hfree⟩ := hclear.free
  obtain ⟨j, hj, hres⟩ := exists_reserves hle hfree
  rw [appendNothing_eq hfull']
  exact ⟨_, publishedAs_finalizeOn hfull' rfl rfl (hj.trans_lt hlt) hres rfl rfl hvolume⟩

/-- The second name tried is another than the first. -/
lemma candidate_two_ne (absPath : JsString) : candidate absPath 2 ≠ candidate absPath 1 := by
  intro h
  have hlength := congrArg List.length h
  have hsplit : (splitLast (fun c => c = 47 || c = 92) absPath).1.length +
      (splitLast (fun c => c = 47 || c = 92) absPath).2.length = absPath.length := by
    have := congrArg List.length
      (List.takeWhile_append_dropWhile (p := fun c : CodeUnit => !(c = 47 || c = 92))
        (l := absPath.reverse))
    simp only [splitLast, List.length_append, List.length_reverse] at this ⊢
    omega
  have hext (base : JsString) :
      base.length ≤ (splitExt base).1.length + (splitExt base).2.length := by
    rw [splitExt]
    split_ifs
    · simp only [List.length_take, List.length_cons, List.length_reverse]
      omega
    · simp
  have hmark : (js (" (" ++ toString 2 ++ ")")).length = 4 := by decide
  have := hext (splitLast (fun c => c = 47 || c = 92) absPath).2
  simp only [candidate, List.length_append, hmark, if_true, OfNat.ofNat_ne_one, if_false] at hlength
  omega

/-- The cause can go: there is a disk with the temp file and a free name. -/
lemma exists_cleared (s : UploadState) (row : UploadRow) (destination : JsString) :
    ∃ disk, Cleared s row destination disk := by
  obtain ⟨k, hle, hlt, hne⟩ : ∃ k, 1 ≤ k ∧ k < MAX_CANDIDATES ∧
      candidate destination k ≠ row.temp_path := by
    by_cases h : candidate destination 1 = row.temp_path
    · exact ⟨2, by decide, by decide, h ▸ candidate_two_ne destination⟩
    · exact ⟨1, by decide, by decide, h⟩
  refine ⟨s.disk.remove (candidate destination k), Disk.content_remove _ hne.symm, k, hle, hlt, ?_⟩
  rw [Disk.names_remove, if_pos rfl]

/-- A reservation that is left behind is a new file. -/
lemma not_unchanged {path : JsString} (hfree : s.disk.names path = none)
    (hdisk : t.disk = s.disk.createNew path) : ¬Unchanged s t := by
  intro h
  have hcontent := h.files path
  rw [hdisk, Disk.content, Disk.content, Disk.names_createNew, if_pos rfl, hfree] at hcontent
  cases hcontent

/-- A reservation that is given back leaves the files as they were. -/
lemma content_remove_createNew {disk : Disk JsString} {path : JsString}
    (hfree : disk.names path = none) (p : JsString) :
    ((disk.createNew path).remove path).content p = disk.content p := by
  by_cases hp : p = path
  · rw [hp, Disk.content, Disk.names_remove, if_pos rfl, Disk.content, hfree]
    rfl
  · rw [Disk.content_remove _ hp, Disk.content_createNew _ hp]

lemma store_finalizeOn : (finalizeOn volume faults s row destination now).1.store = s.store := by
  rw [finalizeOn]
  split
  · rfl
  · rfl
  · by_cases hmkdir : faults.mkdir = true
    · rw [if_pos hmkdir]
    · rw [if_neg hmkdir]
      split
      · rfl
      · split_ifs
        · rfl
        · rfl
        · dsimp only
          split <;> rfl

/-- A session whose files and row are what they were has all its bytes. -/
lemma Full.of_unchanged (hfull : Full s row) (hstore : t.store = s.store) (h : Unchanged s t) :
    Full t row where
  stored := h.uploads ▸ hfull.stored
  active := hfull.active
  received := hfull.received
  temp := (hfull.again (h.files row.temp_path)).temp
  writable := hstore ▸ hfull.writable

/-- A reservation that is left behind is neither a publication nor what was there before. -/
lemma not_retryable_of_createNew (hfull : Full s row) {path : JsString}
    (hfree : s.disk.names path = none) :
    ¬Retryable volume s (s.setDisk (s.disk.createNew path)) row destination := by
  have huploads : (s.setDisk (s.disk.createNew path)).uploads = s.uploads := rfl
  have hdisk : (s.setDisk (s.disk.createNew path)).disk = s.disk.createNew path := rfl
  rintro (⟨finalPath, h⟩ | ⟨h, -⟩)
  · exact not_publishedAs hfull huploads finalPath h
  · exact not_unchanged hfree hdisk h

/-- A session that is not published across two volumes is never published. -/
lemma not_retryable_of_volume (hfull : Full s row)
    (hvolume : volume (dirname row.temp_path) ≠ volume (dirname destination)) :
    ¬Retryable volume s (finalizeOn volume faults s row destination now).1 row destination := by
  rintro (⟨finalPath, h⟩ | ⟨hsame, h⟩)
  · exact not_publishedAs hfull (uploads_finalizeOn hvolume) finalPath h
  · obtain ⟨disk, hclear⟩ :=
      exists_cleared (finalizeOn volume faults s row destination now).1 row destination
    obtain ⟨finalPath, hpublished⟩ := h disk now hclear
    have hfull' := (hfull.of_unchanged store_finalizeOn hsame).again hclear.temp
    rw [appendNothing_eq hfull'] at hpublished
    exact not_publishedAs hfull' (uploads_finalizeOn hvolume) finalPath hpublished

/-- **A failed publication can be tried again, on one volume and without litter**: for a session
that has all its bytes and every operation of `finalize` that may be refused, the upload is
published, or the files and the sessions are what they were and an append of no bytes publishes it
once the cause is gone, exactly where the temp file and the destination are on one volume and a
name that was reserved is either published or given back. -/
theorem retryable_iff (hfull : Full s row) :
    Retryable volume s (finalizeOn volume faults s row destination now).1 row destination ↔
      volume (dirname row.temp_path) = volume (dirname destination) ∧
        leavesNothing faults s.disk destination := by
  by_cases hvolume : volume (dirname row.temp_path) = volume (dirname destination)
  · simp only [hvolume, true_and]
    by_cases hreach : faults.resolve = none ∧ faults.mkdir = false ∧
        ∃ k < MAX_CANDIDATES, Reserves faults s.disk destination 1 k
    · obtain ⟨hresolve, hmkdir, k, hk, hres⟩ := hreach
      have hleaves : leavesNothing faults s.disk destination ↔
          faults.closing = false ∧ (faults.rename = true → faults.rm = false) :=
        ⟨fun h => h hresolve hmkdir ⟨k, hk, hres⟩, fun h _ _ _ => h⟩
      have heq : (finalizeOn volume faults s row destination now).1 = _ :=
        finalizeOn_of_reserves hfull hresolve hmkdir hk hres
      have hstuck : ¬Retryable volume s (s.setDisk (s.disk.createNew (candidate destination k)))
          row destination := not_retryable_of_createNew hfull hres.free
      rw [hleaves]
      cases hclosing : faults.closing with
      | true =>
          rw [heq, if_pos hclosing]
          exact iff_of_false hstuck (by simp)
      | false =>
          cases hrename : faults.rename with
          | false =>
              have hpublished : PublishedAs s (finalizeOn volume faults s row destination now).1 row
                  (candidate destination k) :=
                publishedAs_finalizeOn hfull hresolve hmkdir hk hres hclosing hrename hvolume
              exact iff_of_true (.inl ⟨_, hpublished⟩) (by simp)
          | true =>
              rw [heq, if_neg (by simp [hclosing]), if_pos (.inl hrename)]
              cases hrm : faults.rm with
              | true => exact iff_of_false hstuck (by simp)
              | false =>
                  have hcontent := content_remove_createNew hres.free
                  refine iff_of_true (.inr ⟨⟨rfl, hcontent⟩, fun disk now hclear => ?_⟩) (by simp)
                  exact publishes_again (hfull.again (hcontent row.temp_path)) hvolume hclear
    · rw [finalizeOn_of_none hreach]
      refine iff_of_true (.inr ⟨⟨rfl, fun _ => rfl⟩, fun disk now hclear =>
        publishes_again hfull hvolume hclear⟩) fun hresolve hmkdir hres => ?_
      exact absurd ⟨hresolve, hmkdir, hres⟩ hreach
  · exact iff_of_false (not_retryable_of_volume hfull hvolume) fun h => hvolume h.1

end Retry

/-! ### The call as a run -/

section Steps

variable (cfg : UploadConfig) {volume : JsString → ℕ} {faults : Faults} {s : UploadState}
  {row : UploadRow} {destination : JsString} {now : Time} {i : ℕ}

/-- The attempt that ends the loop of `reserveFreeName`: it is refused, or the name is free. -/
lemma run_attempt (hclosing : faults.closing = false) (fuel start : ℕ)
    (hcall : s.calls i = some (.reserving row destination start))
    (hends : faults.opening start = true ∨
      (s.disk.names (candidate destination start)).isSome = false) :
    ∃ as t, Run (Steps (step cfg)) s as t ∧
      t.disk = (reserveFrom faults s.disk destination (fuel + 1) start).1 ∧
      t.uploads = s.uploads ∧ t.store = s.store ∧
      ∀ path, (reserveFrom faults s.disk destination (fuel + 1) start).2 = .ok path →
        t.calls i = some (.renaming row path) := by
  by_cases hopen : faults.opening start = true
  · refine ⟨[.reserved i true], s.answer i (.refused (.fs "EIO")), .single ?_, ?_, rfl, rfl, ?_⟩
    · simp [Steps, step, hcall]
    · simp [reserveFrom, hopen, answer]
    · simp [reserveFrom, hopen]
  · have hfree : (s.disk.names (candidate destination start)).isSome = false :=
      hends.resolve_left hopen
    refine ⟨[.reserved i false], (s.setDisk (s.disk.createNew (candidate destination start))).goOn i
      (.renaming row (candidate destination start)), .single ?_, ?_, rfl, rfl, fun path hpath => ?_⟩
    · simp [Steps, step, hcall, hfree]
    · simp [reserveFrom, hopen, hfree, hclosing, setDisk, goOn]
    · simp only [reserveFrom, hopen, hfree, hclosing, Bool.false_eq_true, if_false] at hpath
      cases hpath
      exact Function.update_self ..

/-- The loop of `reserveFreeName`, one attempt a step. -/
lemma run_reserveFrom (hclosing : faults.closing = false) (fuel start : ℕ)
    (hcall : s.calls i = some (.reserving row destination start))
    (hfuel : start + (fuel + 1) = MAX_CANDIDATES) :
    ∃ as t, Run (Steps (step cfg)) s as t ∧
      t.disk = (reserveFrom faults s.disk destination (fuel + 1) start).1 ∧
      t.uploads = s.uploads ∧ t.store = s.store ∧
      ∀ path, (reserveFrom faults s.disk destination (fuel + 1) start).2 = .ok path →
        t.calls i = some (.renaming row path) := by
  induction fuel generalizing s start with
  | zero =>
      by_cases hends : faults.opening start = true ∨
          (s.disk.names (candidate destination start)).isSome = false
      · exact run_attempt cfg hclosing 0 start hcall hends
      · rw [not_or, Bool.not_eq_true, Bool.not_eq_false] at hends
        obtain ⟨hopen, htaken⟩ := hends
        have hlast : ¬start + 1 < MAX_CANDIDATES := by omega
        refine ⟨[.reserved i false], s.refuse i tooMany [], .single ?_, ?_, rfl, rfl, ?_⟩
        · simp [Steps, step, hcall, htaken, hlast, tooMany]
        · simp [reserveFrom, hopen, htaken, refuse, answer]
        · simp [reserveFrom, hopen, htaken]
  | succ fuel ih =>
      by_cases hends : faults.opening start = true ∨
          (s.disk.names (candidate destination start)).isSome = false
      · exact run_attempt cfg hclosing (fuel + 1) start hcall hends
      · rw [not_or, Bool.not_eq_true, Bool.not_eq_false] at hends
        obtain ⟨hopen, htaken⟩ := hends
        have hnext : start + 1 < MAX_CANDIDATES := by omega
        have hcall' : (s.goOn i (.reserving row destination (start + 1))).calls i =
            some (.reserving row destination (start + 1)) := Function.update_self ..
        obtain ⟨as, t, hrun, hdisk, huploads, hstore, hok⟩ := ih (start + 1) hcall' (by omega)
        have hfrom : reserveFrom faults s.disk destination (fuel + 1 + 1) start =
            reserveFrom faults s.disk destination (fuel + 1) (start + 1) := by
          rw [reserveFrom]
          simp only [hopen, htaken, if_true, Bool.false_eq_true, if_false]
        rw [hfrom]
        refine ⟨.reserved i false :: as, t, .cons ?_ hrun, hdisk, huploads, hstore, hok⟩
        simp [Steps, step, hcall, htaken, hnext]

/-- A rename that is refused, and the reservation given back or not. -/
lemma run_refused {path : JsString} (rm : Bool) (hcall : s.calls i = some (.renaming row path)) :
    ∃ as t, Run (Steps (step cfg)) s as t ∧
      t.disk = (if rm then s.disk else s.disk.remove path) ∧ t.uploads = s.uploads ∧
      t.store = s.store := by
  have hcleaning : (s.goOn i (.cleaning path)).calls i = some (.cleaning path) :=
    Function.update_self ..
  have hrenamed : Steps (step cfg) s (.renamed i true) (s.goOn i (.cleaning path)) := by
    simp [Steps, step, hcall]
  refine ⟨[.renamed i true, .cleaned i rm],
    ((s.goOn i (.cleaning path)).setDisk (if rm then s.disk else s.disk.remove path)).answer i
      (.refused (.fs "EIO")), .cons hrenamed (.single ?_), rfl, rfl, rfl⟩
  rw [Steps, step, hcleaning]
  rfl

/-- A rename that goes through, and the row after it. -/
lemma run_renamed (now : Time) {path : JsString} (hcall : s.calls i = some (.renaming row path))
    (htemp : (s.disk.names row.temp_path).isSome) :
    ∃ as t, Run (Steps (step cfg)) s as t ∧ t.disk = s.disk.rename row.temp_path path ∧
      t.uploads = s.uploads.updateKey row.id (publishedRow row path now) ∧
      t.store = s.store := by
  obtain ⟨inode, hinode⟩ := Option.isSome_iff_exists.mp htemp
  let s₂ := { s with
    disk := s.disk.rename row.temp_path path
    published := ⟨path, inode, s.disk.bytes inode⟩ :: s.published }.goOn i (.recording row path)
  have hrenamed : Steps (step cfg) s (.renamed i false) s₂ := by
    simp only [Steps, step, hcall, hinode, s₂]
  have hrecording : s₂.calls i = some (.recording row path) := Function.update_self ..
  have hrecorded : Steps (step cfg) s₂ (.recorded i now) (finalizeEnd s₂ i row path now) := by
    simp only [Steps, step, hrecording]
  have hends := ends_answerRow (s₂.setUploads (s₂.uploads.updateKey row.id
    (publishedRow row path now))) i row.id
  have hstore : (finalizeEnd s₂ i row path now).store = s.store := by
    rw [finalizeEnd, answerRow]
    split <;> rfl
  exact ⟨_, _, .cons hrenamed (.single hrecorded), hends.disk, hends.uploads, hstore⟩

/-- **The call is a run of the service**: a `finalize` whose reservation is closed leaves the
files, the sessions and the library as some run of the system of `Uploads.Sessions` does. -/
theorem finalizeOn_run (hfull : Full s row) (hclosing : faults.closing = false) :
    ∃ as t, Run (Steps (step cfg)) (finalize s i row) as t ∧
      t.disk = (finalizeOn volume faults s row destination now).1.disk ∧
      t.uploads = (finalizeOn volume faults s row destination now).1.uploads ∧
      t.store = s.store := by
  obtain ⟨folder, hfolder⟩ : ∃ folder, writableFolder s.store row.folder_id = .ok folder := by
    have hok := hfull.writable
    cases h : writableFolder s.store row.folder_id with
    | error e =>
        rw [h] at hok
        cases hok
    | ok folder => exact ⟨folder, rfl⟩
  have hstart : finalize s i row = s.goOn i (.resolving row) := by
    rw [finalize, hfolder]
  have hcall : (s.goOn i (.resolving row)).calls i = some (.resolving row) :=
    Function.update_self ..
  rw [hstart, finalizeOn, hfolder]
  cases hresolve : faults.resolve with
  | some failure =>
      refine ⟨[.resolved i (.error failure)],
        (s.goOn i (.resolving row)).answer i (.refused failure), .single ?_, rfl, rfl, rfl⟩
      simp [Steps, step, hcall]
  | none =>
      dsimp only
      have hresolved : Steps (step cfg) (s.goOn i (.resolving row)) (.resolved i (.ok destination))
          ((s.goOn i (.resolving row)).goOn i (.making row destination)) := by
        simp [Steps, step, hcall]
      have hmaking : ((s.goOn i (.resolving row)).goOn i (.making row destination)).calls i =
          some (.making row destination) := Function.update_self ..
      by_cases hmkdir : faults.mkdir = true
      · rw [if_pos hmkdir]
        refine ⟨[.resolved i (.ok destination), .madeDir i true],
          ((s.goOn i (.resolving row)).goOn i (.making row destination)).answer i
            (.refused (.fs "EIO")), .cons hresolved (.single ?_), rfl, rfl, rfl⟩
        simp [Steps, step, hmaking]
      · rw [if_neg hmkdir]
        let s₂ := ((s.goOn i (.resolving row)).goOn i (.making row destination)).goOn i
          (.reserving row destination 1)
        have hmade : Steps (step cfg) ((s.goOn i (.resolving row)).goOn i (.making row destination))
            (.madeDir i false) s₂ := by
          simp [Steps, step, hmaking, s₂]
        have hreserving : s₂.calls i = some (.reserving row destination 1) :=
          Function.update_self ..
        obtain ⟨as, t, hrun, hdisk, huploads, hstore, hok⟩ :=
          run_reserveFrom cfg hclosing 998 1 hreserving rfl
        have hrun' := Run.cons hresolved (.cons hmade hrun)
        have hreserve : reserveFrom faults s₂.disk destination (998 + 1) 1 =
            reserveFreeName faults s.disk destination := rfl
        rw [hreserve] at hdisk hok
        cases hname : reserveFreeName faults s.disk destination with
        | mk disk answer =>
            rw [hname] at hdisk hok
            cases answer with
            | error e => exact ⟨_, t, hrun', hdisk, huploads, hstore⟩
            | ok path =>
                have hrenaming := hok path rfl
                dsimp only
                by_cases hrefused : faults.rename = true ∨
                    (disk.names row.temp_path).isNone = true ∨
                      volume (dirname row.temp_path) ≠ volume (dirname destination)
                · rw [if_pos hrefused]
                  obtain ⟨bs, u, hrun₂, hdisk₂, huploads₂, hstore₂⟩ :=
                    run_refused cfg faults.rm hrenaming
                  exact ⟨_, u, hrun'.append hrun₂, by rw [hdisk₂, hdisk]; rfl,
                    huploads₂.trans huploads, hstore₂.trans hstore⟩
                · rw [if_neg hrefused]
                  have htemp : (t.disk.names row.temp_path).isSome := by
                    rw [hdisk, ← Option.not_isNone]
                    simp only [not_or, Bool.not_eq_true] at hrefused
                    simp [hrefused.2.1]
                  obtain ⟨bs, u, hrun₂, hdisk₂, huploads₂, hstore₂⟩ :=
                    run_renamed cfg now hrenaming htemp
                  refine ⟨_, u, hrun'.append hrun₂, ?_, ?_, hstore₂.trans hstore⟩
                  · rw [hdisk₂, hdisk]
                    split <;> rfl
                  · rw [huploads₂, huploads]
                    split <;> rfl

end Steps

/-! ### Another drive -/

/-- A session with three bytes, all of them received. -/
def fullRow : UploadRow where
  id := js "1"
  device_id := js "d"
  folder_id := js "f"
  rel_path := js "a.jpg"
  total_bytes := 3
  received_bytes := 3
  chunk_size := 8
  temp_path := js "/data/temp/upload-1.part"
  status := .active
  created_at := 1
  updated_at := 2

/-- The server that holds it. -/
def fullState : UploadState :=
  { init plainStore ((Disk.empty.createNew fullRow.temp_path).write 0 0 [1, 2, 3]) with
    uploads := ⟨[fullRow], by decide⟩ }

/-- The system drive, and another one mounted at `/mnt/usb/`. -/
def volumeOf (dir : JsString) : ℕ := if (js "/mnt/usb/").isPrefixOf dir then 1 else 0

lemma full_fullState : Full fullState fullRow where
  stored := rfl
  active := rfl
  received := rfl
  temp := by decide
  writable := by decide

/-- On the system drive, an upload whose rename was refused once can be tried again. -/
theorem retryable_on_one_volume :
    Retryable volumeOf fullState
      (finalizeOn volumeOf { Faults.clear with rename := true } fullState fullRow
        (js "/data/films/a.jpg") 3).1 fullRow (js "/data/films/a.jpg") :=
  (retryable_iff full_fullState).mpr ⟨by decide, fun _ _ _ => ⟨rfl, fun _ => rfl⟩⟩

/-- **An upload to another drive**: with nothing else refused, the rename is, and no later append
publishes the upload. -/
theorem other_volume_stuck :
    ¬Retryable volumeOf fullState
      (finalizeOn volumeOf .clear fullState fullRow (js "/mnt/usb/a.jpg") 3).1 fullRow
      (js "/mnt/usb/a.jpg") :=
  not_retryable_of_volume full_fullState (by decide)

end LocalCast.Uploads
