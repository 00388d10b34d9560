import LocalCast.Http.Device

/-!
A folder a device may not see, against none: the answers over the library with the folder and
over the library without it.

* `without`: the library had the folder never been shared.
* `ResolvesQuietly`: resolving a path of the folder succeeds or answers `Not found`
  (`resolve_quiet_iff`).
* `invisible_iff`: the device is answered alike exactly where the indexed files of the folder
  resolve quietly and the ranking of a search does not depend on them.
* `unavailable_folder_shows`: an unplugged disk shows the folder.
-/

namespace LocalCast.Http

open JsString Contract Db Auth Library Uploads

/-! ### The library without a folder -/

/-- The folder, its grants and its index rows are gone. -/
def LibraryState.without (s : LibraryState) (f : JsString) : LibraryState :=
  { s with store := s.store.deleteFolder f, files := s.files.delete fun r => r.folder_id = f }

section Without

variable {st : AuthStore} {s : LibraryState} {d f g : JsString}

lemma get_folder_without (hg : g ≠ f) :
    (st.deleteFolder f).shared_folders.get g = st.shared_folders.get g := by
  rw [AuthStore.deleteFolder, Table.get_delete]
  cases h : st.shared_folders.get g with
  | none => rfl
  | some row =>
      have hid : row.id = g := Table.key_of_get h
      simp [hid, hg]

lemma get_folder_self : (st.deleteFolder f).shared_folders.get f = none := by
  rw [AuthStore.deleteFolder, Table.get_delete]
  cases h : st.shared_folders.get f with
  | none => rfl
  | some row =>
      have hid : row.id = f := Table.key_of_get h
      simp [hid]

lemma get_grant_without (hg : g ≠ f) :
    (st.deleteFolder f).folder_permissions.get (d, g) = st.folder_permissions.get (d, g) := by
  rw [AuthStore.deleteFolder, Table.get_delete]
  cases h : st.folder_permissions.get (d, g) with
  | none => rfl
  | some row =>
      have hid : row.folder_id = g := congrArg Prod.snd (Table.key_of_get h)
      simp [hid, hg]

/-- The device may see of the library without the folder what it may see of it with. -/
lemma modeFor_without (h : modeFor st d f = .none) (g : JsString) :
    modeFor (st.deleteFolder f) d g = modeFor st d g := by
  by_cases hg : g = f
  · subst hg
    rw [h, modeFor, get_folder_self]
    cases (st.deleteFolder g).folder_permissions.get (d, g) <;> rfl
  · rw [modeFor, get_grant_without hg, get_folder_without hg, modeFor]

lemma assertCan_without (h : modeFor st d f = .none) (g : JsString) (op : Operation) :
    assertCan (st.deleteFolder f) d g op = assertCan st d g op := by
  rw [assertCan, modeFor_without h, assertCan]

lemma assertCan_none (h : modeFor st d f = .none) (op : Operation) :
    assertCan st d f op = .error notFound := by
  rw [assertCan, h]
  rfl

lemma ne_of_assertCan {op : Operation} (h : modeFor st d f = .none)
    (hcan : assertCan st d g op = .ok ()) : g ≠ f := by
  rintro rfl
  rw [assertCan_none h] at hcan
  cases hcan

lemma getFolder_without (hg : g ≠ f) : getFolder (st.deleteFolder f) g = getFolder st g := by
  rw [getFolder, get_folder_without hg, getFolder]

lemma filterMap_delete {α β : Type*} {p : α → Bool} {u v : α → Option β} {l : List α}
    (hkeep : ∀ x ∈ l, p x = false → u x = v x) (hdrop : ∀ x ∈ l, p x = true → v x = none) :
    (l.filter fun x => !p x).filterMap u = l.filterMap v := by
  induction l with
  | nil => rfl
  | cons x l ih =>
      have ih := ih (fun y hy => hkeep y (List.mem_cons_of_mem _ hy))
        (fun y hy => hdrop y (List.mem_cons_of_mem _ hy))
      cases hp : p x with
      | false =>
          have hx := hkeep x List.mem_cons_self hp
          simp [hp, List.filterMap_cons, hx, ih]
      | true =>
          have hx := hdrop x List.mem_cons_self hp
          simp [hp, hx, ih]

/-- A folder a device has a grant for that it can use is one it may see. -/
lemma modeFor_of_grant {p : PermissionRow} {row : FolderRow}
    (hp : p ∈ st.folder_permissions.rows) (hrow : st.shared_folders.get p.folder_id = some row)
    (henabled : row.enabled = true) : modeFor st p.device_id p.folder_id = p.mode := by
  have hget := Table.get_of_mem hp
  rw [key_permission] at hget
  simp [modeFor, hget, hrow, henabled]

lemma visibleFolders_without (h : modeFor st d f = .none) :
    visibleFolders (st.deleteFolder f) d = visibleFolders st d := by
  have hrows : ((st.deleteFolder f).folder_permissions.rows.filterMap fun p =>
        if p.device_id = d ∧ p.mode ≠ .none then
          ((st.deleteFolder f).shared_folders.get p.folder_id).filter FolderRow.enabled
        else none) =
      st.folder_permissions.rows.filterMap fun p =>
        if p.device_id = d ∧ p.mode ≠ .none then
          (st.shared_folders.get p.folder_id).filter FolderRow.enabled
        else none := by
    refine filterMap_delete (fun p hp hne => ?_) (fun p hp heq => ?_)
    · rw [get_folder_without (of_decide_eq_false hne)]
    · -- a grant on the folder itself is closed, or the folder is
      have hf : p.folder_id = f := of_decide_eq_true heq
      split_ifs with hgrant
      · obtain ⟨rfl, hmode⟩ := hgrant
        cases hrow : st.shared_folders.get p.folder_id with
        | none => rfl
        | some row =>
            cases henabled : row.enabled with
            | false => simp [henabled]
            | true =>
                have hsome := modeFor_of_grant hp hrow henabled
                rw [hf, h] at hsome
                exact absurd hsome.symm hmode
      · rfl
  rw [visibleFolders, hrows, visibleFolders]

lemma ne_of_mem_visible (h : modeFor st d f = .none) (hg : g ∈ visibleFolders st d) : g ≠ f := by
  rw [visibleFolders, List.mem_map] at hg
  obtain ⟨row, hrow, rfl⟩ := hg
  rw [List.mem_mergeSort, List.mem_filterMap] at hrow
  obtain ⟨p, hp, hjoin⟩ := hrow
  split_ifs at hjoin with hgrant
  obtain ⟨rfl, hmode⟩ := hgrant
  obtain ⟨hget, henabled⟩ := Option.filter_eq_some_iff.mp hjoin
  have hid : row.id = p.folder_id := Table.key_of_get hget
  rintro rfl
  have hsome := modeFor_of_grant hp hget henabled
  rw [← hid, h] at hsome
  exact hmode hsome.symm

lemma listing_without (hg : g ≠ f) (path : JsString) (cursor : Option ListingCursor) (limit : ℕ) :
    listing (s.without f).files g path cursor limit = listing s.files g path cursor limit := by
  have hrows : ((s.files.rows.filter fun r => !decide (r.folder_id = f)).filter fun row =>
        decide (row.folder_id = g) && decide (row.parent_path = path)) =
      s.files.rows.filter fun row =>
        decide (row.folder_id = g) && decide (row.parent_path = path) := by
    rw [List.filter_filter]
    refine List.filter_congr fun row _ => ?_
    by_cases hrow : row.folder_id = g
    · simp [hrow, hg]
    · simp [hrow]
  rw [listing, listing]
  exact congrArg (fun rows => ((rows.filter (afterCursor cursor)).mergeSort listsBefore).take
    (limit + 1)) hrows

lemma resolve_without (T : WindowsTree) (cm : CaseMap) (hg : g ≠ f) (relPath : JsString) :
    resolve T cm (st.deleteFolder f) g relPath = resolve T cm st g relPath := by
  rw [resolve, getFolder_without hg, resolve]

lemma resolveWritable_without (T : WindowsTree) (cm : CaseMap) (hg : g ≠ f)
    (relPath : JsString) :
    resolveWritable T cm (st.deleteFolder f) g relPath = resolveWritable T cm st g relPath := by
  rw [resolveWritable, writableFolder, getFolder_without hg, resolveWritable, writableFolder]

end Without

/-! ### Paths that resolve quietly -/

/-- What the path really is lies in the folder and can be looked at, or is not there. -/
def QuietTarget (T : WindowsTree) (cm : CaseMap) (rootReal joined : JsString) : Prop :=
  realpathOrDeepest T (withLongPathPrefix joined) = .error (.api notFound) ∨
    ∃ real existed, realpathOrDeepest T (withLongPathPrefix joined) = .ok (real, existed) ∧
      isInsideRoot cm (stripLongPathPrefix rootReal) (stripLongPathPrefix real) ∧
      ∀ e, T.stat (withLongPathPrefix (stripLongPathPrefix real)) = .error e →
        statFailure e = .api notFound

/-- The disk of the folder is there, the path is one the resolver lets through, and the file
system gives no error but that something is not there or may not be looked at. -/
structure ResolvesQuietly (T : WindowsTree) (cm : CaseMap) (folder : FolderRow)
    (relPath : JsString) : Prop where
  available : folder.available
  target : ∃ segs rootReal, sanitiseRelPath cm relPath = .ok segs ∧
    isInsideRoot cm (stripLongPathPrefix folder.path)
      (joinedPath (stripLongPathPrefix folder.path) segs) ∧
    T.realpath (withLongPathPrefix (stripLongPathPrefix folder.path)) = .ok rootReal ∧
    QuietTarget T cm rootReal (joinedPath (stripLongPathPrefix folder.path) segs)

section Quiet

variable {T : WindowsTree} {cm : CaseMap} {st : AuthStore} {folder : FolderRow}
  {f relPath : JsString}

lemma forM_eq_error {α ε : Type} {u : α → Except ε Unit} {xs : List α} {e : ε}
    (h : xs.forM u = .error e) : ∃ x ∈ xs, u x = .error e := by
  induction xs with
  | nil => cases h
  | cons x xs ih =>
      rw [List.forM_eq_forM, List.forM_cons] at h
      cases hx : u x with
      | error e' =>
          rw [hx] at h
          cases h
          exact ⟨x, List.mem_cons_self, hx⟩
      | ok v =>
          rw [hx] at h
          obtain ⟨y, hy, hye⟩ := ih h
          exact ⟨y, List.mem_cons_of_mem _ hy, hye⟩

lemma checkForm_error {form : JsString} {e : ApiException} (h : checkForm cm form = .error e) :
    e.code = .pathEscapesRoot := by
  rw [checkForm] at h
  split_ifs at h
  case neg =>
    obtain ⟨seg, -, hseg⟩ := forM_eq_error h
    rw [Library.checkSegment] at hseg
    split_ifs at hseg <;> exact Except.error.inj hseg ▸ rfl
  all_goals exact Except.error.inj h ▸ rfl

/-- The string checks fail with their own code. -/
lemma sanitise_error {e : ApiException} (h : sanitiseRelPath cm relPath = .error e) :
    e.code = .pathEscapesRoot := by
  rw [sanitiseRelPath] at h
  split_ifs at h
  · exact Except.error.inj h ▸ rfl
  · split at h
    case h_1 e' hforms =>
      obtain rfl := Except.error.inj h
      obtain ⟨form, -, hform⟩ := forM_eq_error hforms
      exact checkForm_error hform
    case h_2 => cases h

/-- Nothing but what a missing file gets. -/
def SaysNothing {α : Type} (r : Except Library.Failure α) : Prop :=
  ∀ e, r = .error e → e = .api notFound

lemma quietTarget_ok {rootReal joined real : JsString} {existed : Bool}
    (h : realpathOrDeepest T (withLongPathPrefix joined) = .ok (real, existed)) :
    QuietTarget T cm rootReal joined ↔
      isInsideRoot cm (stripLongPathPrefix rootReal) (stripLongPathPrefix real) ∧
        ∀ e, T.stat (withLongPathPrefix (stripLongPathPrefix real)) = .error e →
          statFailure e = .api notFound := by
  rw [QuietTarget, h]
  constructor
  · rintro (hnone | ⟨real', existed', heq, hquiet⟩)
    · cases hnone
    · obtain ⟨rfl, rfl⟩ := Prod.mk.inj (Except.ok.inj heq)
      exact hquiet
  · exact fun hquiet => .inr ⟨real, existed, rfl, hquiet⟩

lemma resolvePath_quiet_iff :
    (SaysNothing (resolvePath T cm folder relPath) ∧
        ∀ q, resolvePath T cm folder relPath = .ok q → ∀ e, T.stat q.absPath = .error e →
          statFailure e = .api notFound) ↔
      ∃ segs rootReal, sanitiseRelPath cm relPath = .ok segs ∧
        isInsideRoot cm (stripLongPathPrefix folder.path)
          (joinedPath (stripLongPathPrefix folder.path) segs) ∧
        T.realpath (withLongPathPrefix (stripLongPathPrefix folder.path)) = .ok rootReal ∧
        QuietTarget T cm rootReal (joinedPath (stripLongPathPrefix folder.path) segs) := by
  cases hsegs : sanitiseRelPath cm relPath with
  | error e =>
      have hvalue : resolvePath T cm folder relPath = .error (.api e) := by
        simp only [resolvePath, hsegs]
      have hne : e ≠ notFound := by
        rintro rfl
        cases sanitise_error hsegs
      simp [SaysNothing, hvalue, hne]
  | ok segs =>
      cases hlex : isInsideRoot cm (stripLongPathPrefix folder.path)
          (joinedPath (stripLongPathPrefix folder.path) segs) with
      | false =>
          have hvalue : resolvePath T cm folder relPath =
              .error (.api (escapes "Path is not valid")) := by
            simp [resolvePath, hsegs, hlex]
          simp [SaysNothing, hvalue, hlex, escapes, notFound]
      | true =>
          cases hroot : T.realpath (withLongPathPrefix (stripLongPathPrefix folder.path)) with
          | error e =>
              have hvalue : ∃ failure, resolvePath T cm folder relPath = .error failure ∧
                  failure ≠ .api notFound := by
                cases e <;> simp [resolvePath, hsegs, hlex, hroot, unavailable, notFound]
              obtain ⟨failure, hvalue, hne⟩ := hvalue
              simp [SaysNothing, hvalue, hne]
          | ok rootReal =>
              cases hreal : realpathOrDeepest T (withLongPathPrefix
                  (joinedPath (stripLongPathPrefix folder.path) segs)) with
              | error e =>
                  have hvalue : resolvePath T cm folder relPath = .error e := by
                    simp [resolvePath, hsegs, hlex, hroot, hreal]
                  simp [SaysNothing, hvalue, hlex, QuietTarget, hreal]
              | ok target =>
                  obtain ⟨real, existed⟩ := target
                  cases hin : isInsideRoot cm (stripLongPathPrefix rootReal)
                      (stripLongPathPrefix real) with
                  | false =>
                      have hvalue : resolvePath T cm folder relPath =
                          .error (.api (escapes "Path resolves outside its shared folder")) := by
                        simp [resolvePath, hsegs, hlex, hroot, hreal, hin]
                      simp [SaysNothing, hvalue, quietTarget_ok hreal, hin, escapes, notFound]
                  | true =>
                      have hvalue : resolvePath T cm folder relPath = .ok
                          ⟨withLongPathPrefix (stripLongPathPrefix real), stripLongPathPrefix real,
                            segs⟩ := by
                        simp [resolvePath, hsegs, hlex, hroot, hreal, hin]
                      simp [SaysNothing, hvalue, hlex, quietTarget_ok hreal, hin]

/-- **When resolving says nothing.** -/
lemma resolve_quiet_iff (hfolder : getFolder st f = .ok folder) :
    SaysNothing (resolve T cm st f relPath) ↔ ResolvesQuietly T cm folder relPath := by
  rw [resolve, hfolder]
  dsimp only
  constructor
  · intro h
    cases havailable : folder.available with
    | false =>
        rw [havailable] at h
        have := h _ rfl
        simp [unavailable, notFound] at this
    | true =>
        rw [havailable] at h
        refine ⟨havailable, resolvePath_quiet_iff.mp ⟨fun e he => ?_, fun q hq e he => ?_⟩⟩
        · rw [he] at h
          exact h e rfl
        · rw [hq] at h
          simp only [Bool.not_true, Bool.false_eq_true, if_false, he] at h
          exact h _ rfl
  · rintro ⟨havailable, htarget⟩ e he
    obtain ⟨hpath, hstat⟩ := resolvePath_quiet_iff.mpr htarget
    rw [havailable] at he
    simp only [Bool.not_true, Bool.false_eq_true, if_false] at he
    split at he
    case h_1 e' hfail =>
      obtain rfl := Except.error.inj he
      exact hpath _ hfail
    case h_2 q hq =>
      split at he
      case h_1 e' hfail =>
        obtain rfl := Except.error.inj he
        exact hstat q hq _ hfail
      case h_2 stat hok =>
        split_ifs at he
        exact (Except.error.inj he).symm

end Quiet

/-! ### The answers -/

/-- The rows a query finds in the folders a device may see, best first. -/
def seen (sv : Services) (s : LibraryState) (visible : List JsString) (query : JsString) :
    List FileRow :=
  (sv.fullText.search s.files.rows query).filter fun row => visible.contains row.folder_id

/-- Nothing of the folder shows: its indexed files resolve quietly, if it is enabled, and the
ranking of what the device may see does not depend on them. -/
structure Unnoticed (sv : Services) (s : LibraryState) (d f : JsString) : Prop where
  files : ∀ folder row, getFolder s.store f = .ok folder → s.files.get row.id = some row →
    row.folder_id = f → ResolvesQuietly s.disk sv.caseMap folder row.rel_path
  ranking : ∀ q query, toFtsQuery q = some query →
    seen sv (s.without f) (visibleFolders s.store d) query =
      seen sv s (visibleFolders s.store d) query

section Answers

variable {sv : Services} {s : LibraryState} {d f : JsString}

lemma folderView_without (h : modeFor s.store d f = .none) (row : FolderRow) :
    folderView (s.without f).store d row = folderView s.store d row := by
  simp only [folderView, LibraryState.without, modeFor_without h]

lemma resolve_folderId {T : WindowsTree} {cm : CaseMap} {st : AuthStore} {g relPath : JsString}
    {file : ResolvedFile} (h : resolve T cm st g relPath = .ok file) : file.folderId = g := by
  obtain ⟨folder, -, -, hfolder, -, -, -, -, hid⟩ := resolve_eq_ok h
  rw [hid]
  rw [getFolder] at hfolder
  split at hfolder
  · cases hfolder
  case h_2 row hrow =>
    split_ifs at hfolder
    obtain rfl := Except.ok.inj hfolder
    exact Table.key_of_get hrow

/-- An id is looked up alike, or it is one of the folder's files and resolving it says
nothing. -/
lemma resolveById_without (hquiet : Unnoticed sv s d f) (fileId : JsString) :
    resolveById sv.caseMap (s.without f) fileId = resolveById sv.caseMap s fileId ∨
      resolveById sv.caseMap (s.without f) fileId = .error (.api notFound) ∧
        (resolveById sv.caseMap s fileId = .error (.api notFound) ∨
          ∃ file, resolveById sv.caseMap s fileId = .ok file ∧ file.folderId = f) := by
  have hget : (s.without f).files.get fileId =
      (s.files.get fileId).filter fun r => !decide (r.folder_id = f) := Table.get_delete ..
  cases hrow : s.files.get fileId with
  | none =>
      rw [hrow, Option.filter_none] at hget
      exact .inl (by rw [resolveById, hget, resolveById, hrow])
  | some row =>
      by_cases hf : row.folder_id = f
      · have hgone : (s.without f).files.get fileId = none := by
          simp [hget, hrow, hf]
        refine .inr ⟨by rw [resolveById, hgone], ?_⟩
        have hid : row.id = fileId := Table.key_of_get hrow
        rw [resolveById, hrow]
        dsimp only
        rw [hf]
        cases hres : resolve s.disk sv.caseMap s.store f row.rel_path with
        | ok file => exact .inr ⟨file, rfl, resolve_folderId hres⟩
        | error e =>
            refine .inl (congrArg Except.error ?_)
            cases hfolder : getFolder s.store f with
            | error e' =>
                rw [resolve, hfolder] at hres
                obtain rfl := Except.error.inj hres
                rw [getFolder] at hfolder
                split at hfolder
                · rw [← Except.error.inj hfolder]
                  rfl
                · split_ifs at hfolder
                  rw [← Except.error.inj hfolder]
                  rfl
            | ok folder =>
                have hq := hquiet.files folder row hfolder (hid ▸ hrow) hf
                exact (resolve_quiet_iff hfolder).mpr hq e hres
      · have hkept : (s.without f).files.get fileId = some row := by
          simp [hget, hrow, hf]
        refine .inl ?_
        rw [resolveById, hkept, resolveById, hrow]
        exact resolve_without _ _ hf _

/-- Checked after an id resolved: a device that may not see the folder of the file is told
what it is told of a file that is not there. -/
lemma onFile_without (h : modeFor s.store d f = .none) (hquiet : Unnoticed sv s d f)
    (fileId : JsString) (op : Operation) (u : ResolvedFile → Reply) :
    onFile sv (s.without f) d fileId op u = onFile sv s d fileId op u := by
  rcases resolveById_without hquiet fileId with hsame | ⟨hgone, hnone | ⟨file, hfile, hf⟩⟩
  · rw [onFile, hsame, onFile]
    split
    · rfl
    · rw [LibraryState.without, assertCan_without h]
  · rw [onFile, hgone, onFile, hnone]
  · rw [onFile, hgone, onFile, hfile]
    dsimp only
    rw [hf, assertCan_none h]
    rfl

lemma content_without (h : modeFor s.store d f = .none) (g : JsString) (file : ServedFile)
    (req : ContentRequest) :
    content (s.without f).store d g file req = content s.store d g file req := by
  simp only [content, LibraryState.without, assertCan_without h, modeFor_without h]

lemma content_none (h : modeFor s.store d f = .none) (file : ServedFile) (req : ContentRequest) :
    content s.store d f file req = .error ⟨notFound, none⟩ := by
  rw [content, assertCan_none h]

lemma createCheck_without {cfg : UploadConfig} {input : CreateInput}
    (h : modeFor s.store input.deviceId f = .none) :
    createCheck cfg (.init (s.without f).store .empty) input =
      createCheck cfg (.init s.store .empty) input := by
  simp only [createCheck, UploadState.init, LibraryState.without, assertCan_without h]
  split_ifs
  · rfl
  · split
    · rfl
    · split
      · rfl
      case h_2 hcan =>
        rw [writableFolder, getFolder_without (ne_of_assertCan h hcan), writableFolder]

lemma ne_of_createCheck {cfg : UploadConfig} {st : AuthStore} {input : CreateInput}
    {relPath : JsString} (h : modeFor st input.deviceId f = .none)
    (hok : createCheck cfg (.init st .empty) input = .ok relPath) : input.folderId ≠ f := by
  rw [createCheck] at hok
  split_ifs at hok
  split at hok
  · cases hok
  · split at hok
    · cases hok
    case h_2 hcan => exact ne_of_assertCan h hcan

lemma found_without (hquiet : Unnoticed sv s d f) {scope : List JsString}
    (hscope : ∀ g ∈ scope, g ∈ visibleFolders s.store d) {q query : JsString}
    (hq : toFtsQuery q = some query) (offset limit : ℕ) :
    found sv.fullText (s.without f).files scope query offset limit =
      found sv.fullText s.files scope query offset limit := by
  have hnarrow (rows : List FileRow) : (rows.filter fun row => scope.contains row.folder_id) =
      (rows.filter fun row => (visibleFolders s.store d).contains row.folder_id).filter
        fun row => scope.contains row.folder_id := by
    rw [List.filter_filter]
    refine List.filter_congr fun row _ => ?_
    by_cases hmem : row.folder_id ∈ scope
    · simp [hmem, hscope _ hmem]
    · simp [hmem]
  have hranking := hquiet.ranking q query hq
  rw [seen, seen] at hranking
  rw [found, hnarrow, hranking, ← hnarrow, found]

lemma answer_without (h : modeFor s.store d f = .none) (hquiet : Unnoticed sv s d f)
    (req : DeviceRequest) : answer sv (s.without f) d req = answer sv s d req := by
  have hvisible : visibleFolders (s.without f).store d = visibleFolders s.store d :=
    visibleFolders_without h
  cases req with
  | folders =>
      rw [answer, answer, hvisible]
      refine congrArg Reply.folders (List.filterMap_congr fun g hg => ?_)
      have hget : (s.store.deleteFolder f).shared_folders.get g = s.store.shared_folders.get g :=
        get_folder_without (ne_of_mem_visible h hg)
      rw [LibraryState.without, hget]
      exact Option.map_congr fun row _ => folderView_without h row
  | entries g path cursor limit =>
      have hcan : assertCan (s.without f).store d g .list = assertCan s.store d g .list :=
        assertCan_without h g .list
      rw [answer, answer, hcan]
      split
      · rfl
      case h_2 hok =>
        have hg := ne_of_assertCan h hok
        have hfolder : getFolder (s.without f).store g = getFolder s.store g :=
          getFolder_without hg
        rw [hfolder]
        split
        · rfl
        · dsimp only
          rw [listing_without hg, folderView_without h]
  | search q folderId offset limit =>
      simp only [answer, hvisible]
      split_ifs
      · rfl
      · split
        · rfl
        case h_2 query hq =>
          rw [found_without hquiet _ hq]
          intro g hg
          split at hg
          · exact hg
          · exact hg
          · exact (List.mem_filter.mp hg).1
  | metadata fileId => exact onFile_without h hquiet fileId .list _
  | content fileId req =>
      rw [answer, answer]
      rcases resolveById_without hquiet fileId with hsame | ⟨hgone, hnone | ⟨file, hfile, hf⟩⟩
      · rw [hsame]
        split
        · rfl
        · rw [content_without h]
      · rw [hgone, hnone]
      · rw [hgone, hfile]
        dsimp only
        rw [hf, content_none h]
        rfl
  | playbackUrl fileId now => exact onFile_without h hquiet fileId .stream _
  | createUpload g relativePath totalBytes =>
      rw [answer, answer]
      dsimp only
      rw [createCheck_without h]
      split
      · rfl
      case h_2 relPath hok =>
        have hg : g ≠ f := ne_of_createCheck h hok
        have hres : resolveWritable s.disk sv.caseMap (s.store.deleteFolder f) g relPath =
            resolveWritable s.disk sv.caseMap s.store g relPath :=
          resolveWritable_without s.disk sv.caseMap hg relPath
        rw [LibraryState.without, hres]

/-- Two searches answered alike, position by position, find the same rows. -/
lemma seen_of_answers (hsame : ∀ req, answer sv (s.without f) d req = answer sv s d req)
    (h : modeFor s.store d f = .none) {q query : JsString} (hq : toFtsQuery q = some query) :
    seen sv (s.without f) (visibleFolders s.store d) query =
      seen sv s (visibleFolders s.store d) query := by
  by_cases hnone : visibleFolders s.store d = []
  · simp [seen, hnone]
  have hmem {files : Table FileRow} {visible : List JsString} {row : FileRow}
      (hrow : row ∈ (sv.fullText.search files.rows query).filter fun row =>
        visible.contains row.folder_id) : row ∈ files.rows :=
    (List.mem_filter.mp ((sv.fullText.search_perm files.rows query).subset
      (List.mem_filter.mp hrow).1)).1
  refine List.ext_getElem? fun k => ?_
  have hpage := hsame (.search q none k 1)
  have hvisible : visibleFolders (s.without f).store d = visibleFolders s.store d :=
    visibleFolders_without h
  simp only [answer, hvisible, hnone, if_false, hq, Reply.results.injEq] at hpage
  have hfirst := congrArg List.head? hpage.1
  simp only [found, List.head?_map, List.head?_take, List.head?_drop, one_ne_zero, if_false,
    Nat.reduceAdd, OfNat.ofNat_ne_zero] at hfirst
  rw [seen, seen]
  -- one row at each position, and a row is known by its id
  cases hrow : ((sv.fullText.search s.files.rows query).filter fun row =>
      (visibleFolders s.store d).contains row.folder_id)[k]? with
  | none =>
      rw [hrow, Option.map_none, Option.map_eq_none_iff] at hfirst
      exact hfirst
  | some row =>
      rw [hrow, Option.map_some, Option.map_eq_some_iff] at hfirst
      obtain ⟨row', hrow', hentry⟩ := hfirst
      have hin' : row' ∈ s.files.rows :=
        (List.mem_filter.mp (hmem (List.mem_of_getElem? hrow'))).1
      have hin : row ∈ s.files.rows := hmem (List.mem_of_getElem? hrow)
      have hid : row'.id = row.id := congrArg FileEntry.id hentry
      rw [hrow', Table.eq_of_key hin' hin hid]

end Answers

/-- **A folder the device may not see, against none**: every answer is the same exactly where
nothing of the folder shows. -/
theorem invisible_iff (sv : Services) {s : LibraryState} {d f : JsString}
    (h : modeFor s.store d f = .none) :
    (∀ req, answer sv (s.without f) d req = answer sv s d req) ↔ Unnoticed sv s d f := by
  constructor
  · intro hsame
    refine ⟨fun folder row hfolder hrow hf => ?_, fun q query hq => seen_of_answers hsame h hq⟩
    rw [← resolve_quiet_iff hfolder]
    intro e he
    have hgone : (s.without f).files.get row.id = none := by
      rw [LibraryState.without, Table.get_delete, hrow]
      simp [hf]
    have hreply := hsame (.metadata row.id)
    have hres : resolveById sv.caseMap s row.id = .error e := by
      rw [resolveById, hrow]
      dsimp only
      rw [hf, he]
    simp only [answer, onFile, resolveById, hgone] at hreply
    rw [resolveById] at hres
    rw [hres] at hreply
    cases e with
    | fs errno => cases hreply
    | api e =>
        simp only [Reply.failed.injEq, failureReply, errorReply, ErrorReply.mk.injEq] at hreply
        have hcode : notFound.code = e.code := hreply.2.1
        have hmessage : notFound.message = e.message := hreply.2.2.1
        cases e
        cases hcode
        cases hmessage
        rfl
  · exact fun hquiet req => answer_without h hquiet req

/-! ### Concrete libraries -/

/-- A full-text index that finds names containing the first unit of the query's first word. -/
def plainFullText : FullText where
  search rows query := rows.filter fun row => row.name.contains (query.getD 1 0)
  isMatch query row := row.name.contains (query.getD 1 0)
  search_perm _ _ := .refl _

def plainServices : Services where
  runtime := plainRuntime
  caseMap := asciiCase
  fullText := plainFullText
  uploads := ⟨js "C:\\t", 92, 1048576, 1073741824⟩

/-- The folder `f`, `C:\m`, with one indexed file; the device `d` has no grant. -/
def hiddenLibrary (available : Bool) : LibraryState where
  store :=
    { devices := .empty, pairing_tokens := .empty, folder_permissions := .empty
      shared_folders := ⟨[⟨js "f", js "C:\\m", js "M", true, true, available, true, none, none,
        none, 0⟩], by simp⟩ }
  files := ⟨[⟨js "x", js "f", js "d/a.txt", js "d", js "a.txt", false, some 3, some 0⟩], by simp⟩
  disk := plainTree

theorem invisible_iff_hidden : modeFor (hiddenLibrary true).store (js "d") (js "f") = .none ∧
    ((∀ req, answer plainServices ((hiddenLibrary true).without (js "f")) (js "d") req =
        answer plainServices (hiddenLibrary true) (js "d") req) ↔
      Unnoticed plainServices (hiddenLibrary true) (js "d") (js "f")) :=
  ⟨by decide, invisible_iff plainServices (by decide)⟩

/-- **An unplugged disk shows the folder**: 503 for a file in it, 404 for one that is not. -/
theorem unavailable_folder_shows :
    modeFor (hiddenLibrary false).store (js "d") (js "f") = .none ∧
      answer plainServices (hiddenLibrary false) (js "d") (.metadata (js "x")) =
        .failed ⟨503, .folderUnavailable, "This folder is not available", [], none⟩ ∧
      answer plainServices ((hiddenLibrary false).without (js "f")) (js "d") (.metadata (js "x")) =
        .failed ⟨404, .notFound, "Not found", [], none⟩ ∧
      ¬ ∀ req, answer plainServices ((hiddenLibrary false).without (js "f")) (js "d") req =
        answer plainServices (hiddenLibrary false) (js "d") req := by
  have hwith : answer plainServices (hiddenLibrary false) (js "d") (.metadata (js "x")) =
      .failed ⟨503, .folderUnavailable, "This folder is not available", [], none⟩ := by
    decide
  have hwithout : answer plainServices ((hiddenLibrary false).without (js "f")) (js "d")
      (.metadata (js "x")) = .failed ⟨404, .notFound, "Not found", [], none⟩ := by
    decide
  refine ⟨by decide, hwith, hwithout, fun hsame => ?_⟩
  have heq := hsame (.metadata (js "x"))
  rw [hwith, hwithout] at heq
  cases heq

end LocalCast.Http
