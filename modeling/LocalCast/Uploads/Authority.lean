import LocalCast.Uploads.Calls

/-!
Who may publish: the right to upload at the moment a file lands.

* `publishes`, `published_iff`: the steps that publish, and for whom.
* `Authority`: the grant permits uploading, and the folder is enabled, available, writable.
* `authorityStands`: the grant still permits uploading when `finalize` begins, which it does
  not check, and no operator takes a right away between its check and its `rename`.
* `published_with_authority`: along every run whose steps meet it, files land with authority.
* `withdrawn_grant_publishes`: without it, an upload lands after its grant was withdrawn.
-/

namespace LocalCast.Uploads

open JsString Contract Db Auth Library Runs UploadState

/-- The session whose file the step publishes: a `rename` that finds its temp file. -/
def publishes (s : UploadState) : Action → Option UploadRow
  | .renamed i false =>
      match s.calls i with
      | some (.renaming row _) => if (s.disk.names row.temp_path).isSome then some row else none
      | _ => none
  | _ => none

/-- The right to upload into a folder, and a folder that takes uploads. -/
structure Authority (st : AuthStore) (deviceId folderId : JsString) : Prop where
  mode : can (modeFor st deviceId folderId) .upload = true
  folder : ∃ f, st.shared_folders.get folderId = some f ∧ f.enabled = true ∧ f.available = true ∧
    f.writable = true

/-- The row of a call in `finalize` whose file may still be published. -/
def Call.landing : Call → Option UploadRow
  | .resolving row | .making row _ | .reserving row .. | .renaming row _ => some row
  | _ => none

/-- The grant permits uploading where `finalize` begins. -/
def grantStands (s : UploadState) : Action → Bool
  | .closed i broken _ =>
      match s.calls i with
      | some (.writing row _ received overflow threw) =>
          overflow || threw || broken || (s.uploads.get row.id).all fun r =>
            (if received ≠ row.received_bytes then received else r.received_bytes) < r.total_bytes
              || can (modeFor s.store r.device_id r.folder_id) .upload
      | _ => true
  | .inserted i _ =>
      match s.calls i with
      | some (.inserting input _ _) =>
          input.totalBytes ≠ 0 || can (modeFor s.store input.deviceId input.folderId) .upload
      | _ => true
  | _ => true

/-- The grant permits uploading where `finalize` begins, and the operator takes no right away
from an upload that is about to land. -/
def authorityStands (s : UploadState) (a : Action) : Prop :=
  grantStands s a = true ∧ ∀ store, a = .operate store → ∀ i c row, s.calls i = some c →
    c.landing = some row → Authority s.store row.device_id row.folder_id →
    Authority store row.device_id row.folder_id

section Authority

variable {cfg : UploadConfig} {s t : UploadState} {a : Action}

/-- **The steps that publish.** -/
theorem published_iff (h : step cfg s a = some t) {f : Published} :
    t.published = f :: s.published ↔ ∃ i row, a = .renamed i false ∧
      s.calls i = some (.renaming row f.path) ∧ s.disk.names row.temp_path = some f.inode ∧
      f.bytes = s.disk.bytes f.inode := by
  constructor
  · intro hpub
    have hne : t.published ≠ s.published := by simp [hpub]
    cases step_effect h with
    | quiet _ _ hp | created _ _ _ hp | inserted _ _ _ _ _ hp | wrote _ _ _ _ _ _ hp
    | persisted _ _ _ _ _ hp | removed _ _ _ _ hp | aborted _ _ _ _ hp | swept _ _ hp
    | reserved _ _ _ _ _ hp | recorded _ _ _ _ hp | cleaned _ _ _ hp | operated _ _ hp
    | restarted _ _ hp => exact absurd hp hne
    | @published i row finalPath inode ha hcall hname _ _ hp =>
        obtain rfl := (List.cons.inj (hp.symm.trans hpub)).1
        exact ⟨i, row, ha, hcall, hname, rfl⟩
  · rintro ⟨i, row, rfl, hcall, hname, hbytes⟩
    rw [step, hcall] at h
    simp only [hname] at h
    obtain rfl := Option.some.inj h
    obtain ⟨path, inode, bytes⟩ := f
    obtain rfl : bytes = s.disk.bytes inode := hbytes
    rfl

lemma publishes_eq_some {row : UploadRow} : publishes s a = some row ↔ ∃ i finalPath x,
    a = .renamed i false ∧ s.calls i = some (.renaming row finalPath) ∧
      s.disk.names row.temp_path = some x := by
  constructor
  · intro h
    unfold publishes at h
    split at h
    case h_2 => cases h
    case h_1 i =>
      split at h
      case h_2 => cases h
      case h_1 row' finalPath hcall =>
        split_ifs at h with hname
        obtain rfl := Option.some.inj h
        obtain ⟨x, hx⟩ := Option.isSome_iff_exists.mp hname
        exact ⟨i, finalPath, x, rfl, hcall, hx⟩
  · rintro ⟨i, finalPath, x, rfl, hcall, hx⟩
    simp [publishes, hcall, hx]

lemma writableFolder_eq_ok {st : AuthStore} {folderId : JsString} {f : FolderRow}
    (h : writableFolder st folderId = .ok f) : st.shared_folders.get folderId = some f ∧
      f.enabled = true ∧ f.available = true ∧ f.writable = true := by
  rw [writableFolder, getFolder] at h
  cases hf : st.shared_folders.get folderId with
  | none => simp [hf, bind, Except.bind] at h
  | some folder =>
      simp only [hf] at h
      by_cases hen : folder.enabled = true
      · simp only [hen, if_true, bind, Except.bind] at h
        split_ifs at h with hw ha
        obtain rfl := Except.ok.inj h
        exact ⟨rfl, hen, by simpa using ha, by simpa using hw⟩
      · simp [hen, bind, Except.bind] at h

/-- `finalize` begins with authority: it checks the folder, and the grant stands. -/
lemma authority_of_resolvesFrom (hg : grantStands s a = true) {i : ℕ} {row : UploadRow}
    {folder : FolderRow} (hfrom : ResolvesFrom s a i row)
    (hfull : row.total_bytes ≤ row.received_bytes)
    (hfolder : writableFolder s.store row.folder_id = .ok folder) :
    Authority s.store row.device_id row.folder_id := by
  refine ⟨?_, folder, writableFolder_eq_ok hfolder⟩
  cases hfrom with
  | @append now row' r inode received ha hcall hid hrow heq =>
      subst ha
      simp only [grantStands, hcall, hid, hrow, Option.all_some, Bool.false_or, Bool.or_eq_true,
        decide_eq_true_eq] at hg
      by_cases hne : received ≠ row'.received_bytes
      · rw [if_pos hne] at heq hg
        subst heq
        exact hg.resolve_left hfull.not_gt
      · rw [if_neg hne] at heq hg
        subst heq
        exact hg.resolve_left hfull.not_gt
  | create ha hcall hempty hdevice hfolder =>
      subst ha
      simp only [grantStands, hcall, hempty, ne_eq, not_true_eq_false, decide_false,
        Bool.false_or] at hg
      rw [hdevice, hfolder]
      exact hg

/-- What is about to land has the right to. -/
def LandsWithAuthority (s : UploadState) : Prop :=
  ∀ i c row, s.calls i = some c → c.landing = some row →
    Authority s.store row.device_id row.folder_id

lemma store_finalize {i : ℕ} {row : UploadRow} : (finalize s i row).store = s.store := by
  rw [finalize]
  split <;> rfl

lemma store_answerRow {i : ℕ} {id : JsString} : (answerRow s i id).store = s.store := by
  rw [answerRow]
  split <;> rfl

lemma store_appendEnd {i : ℕ} {row : UploadRow} {received : ℕ} {overflow threw : Bool}
    {now : Time} : (appendEnd s i row received overflow threw now).store = s.store := by
  have hpersisted : (if received ≠ row.received_bytes then persistReceived s row.id received now
      else s).store = s.store := by
    split_ifs <;> rfl
  rw [appendEnd]
  refine Eq.trans ?_ hpersisted
  split_ifs
  all_goals first
    | rfl
    | split
      · rfl
      · split_ifs
        · exact store_finalize
        · rfl

lemma store_createEnd {i : ℕ} {input : CreateInput} {relPath id : JsString} {now : Time} :
    (createEnd cfg s i input relPath id now).store = s.store := by
  rw [createEnd]
  split_ifs
  · rfl
  · split
    · rfl
    · exact store_finalize
  · split <;> rfl

/-- Only the operator changes devices, grants and folders. -/
lemma store_step (h : step cfg s a = some t) : t.store = s.store ∨ a = .operate t.store := by
  cases a with
  | operate store =>
      obtain rfl := Option.some.inj h
      exact .inr rfl
  | _ =>
      refine .inl ?_
      simp only [step] at h
      repeat' split at h
      all_goals first
        | cases h; done
        | obtain rfl := Option.some.inj h
          first
            | rfl
            | exact store_appendEnd
            | exact store_createEnd
            | exact store_answerRow

lemma landsWithAuthority_step (hs : LandsWithAuthority s) (hg : authorityStands s a)
    (h : step cfg s a = some t) : LandsWithAuthority t := by
  intro i c row hcall hc
  have hold {c0 : Call} (hcall0 : s.calls i = some c0) (hc0 : c0.landing = some row) :
      Authority t.store row.device_id row.folder_id := by
    have hrow := hs i c0 row hcall0 hc0
    rcases store_step h with hstore | ha
    · rwa [hstore]
    · exact hg.2 t.store ha i c0 row hcall0 hc0 hrow
  cases call_step h hcall with
  | kept hcall0 => exact hold hcall0 hc
  | creating | opening | inserting | appending | opened | stayed | wrote | removing | aborting
  | sweeping | swept | recording | cleaning => cases hc
  | resolving hrow hfull hstore hfolder hfrom =>
      obtain rfl := Option.some.inj hc
      rw [hstore]
      exact authority_of_resolvesFrom hg.1 hfrom hfull hfolder
  | making hcall0 | reserving hcall0 | nextName hcall0 | took hcall0 =>
      obtain rfl := Option.some.inj hc
      exact hold hcall0 rfl

end Authority

/-- Runs in which authority stands where the code relies on it. -/
abbrev AuthorityRun (cfg : UploadConfig) := Run (Guarded authorityStands (step cfg))

/-- **Files land with authority** along every run in which the grant stands when `finalize`
begins and no right is taken away from what is about to land. -/
theorem published_with_authority {cfg : UploadConfig} {store : AuthStore} {disk : Disk JsString}
    {as : List Action} {s t : UploadState} {a : Action} {f : Published}
    (hrun : AuthorityRun cfg (init store disk) as s) (h : step cfg s a = some t)
    (hpub : t.published = f :: s.published) : ∃ i row, s.calls i = some (.renaming row f.path) ∧
      Authority s.store row.device_id row.folder_id := by
  have hinv : LandsWithAuthority s := hrun.invariant (I := LandsWithAuthority)
    (fun u b v hu hstep => landsWithAuthority_step hu hstep.1 hstep.2) fun i c row hcall => by
      simp [init] at hcall
  obtain ⟨i, row, -, hcall, -⟩ := (published_iff h).mp hpub
  exact ⟨i, row, hcall, hinv i _ row hcall rfl⟩

/-! ### Concrete runs -/

/-- The library after the operator closed the folder `f` for the device `d`. -/
def closedStore : AuthStore :=
  { plainStore with folder_permissions := ⟨[⟨js "d", js "f", .none⟩], by decide⟩ }

/-- Three bytes are sent in one chunk, up to the `rename`. -/
def sentToRename (before : List Action) : List Action :=
  createThree ++ before ++ [.append 0 (js "1") (js "d") 0 (some 3), .openedTemp 0 false,
    .chunk 0 [1, 2, 3] 3 false, .closed 0 false 2] ++ (finish 0).take 3

/-- What the witness and the counterexample read off the state before the `rename`. -/
def renames (s : UploadState) (path : JsString) (mode : AccessMode) : Bool :=
  (match s.calls 0 with
    | some (.renaming row finalPath) =>
        finalPath = path && (s.disk.names row.temp_path).isSome && row.device_id = js "d" &&
          row.folder_id = js "f"
    | _ => false) &&
    modeFor s.store (js "d") (js "f") = mode

lemma of_renames {s : UploadState} {path : JsString} {mode : AccessMode}
    (h : renames s path mode = true) : modeFor s.store (js "d") (js "f") = mode ∧
      ∃ row x t, s.calls 0 = some (.renaming row path) ∧ row.device_id = js "d" ∧
        row.folder_id = js "f" ∧ step plainConfig s (.renamed 0 false) = some t ∧
        t.published = ⟨path, x, s.disk.bytes x⟩ :: s.published := by
  rw [renames, Bool.and_eq_true, decide_eq_true_eq] at h
  refine ⟨h.2, ?_⟩
  have h := h.1
  split at h
  case h_2 => cases h
  case h_1 row finalPath hcall =>
    simp only [Bool.and_eq_true, decide_eq_true_eq] at h
    obtain ⟨⟨⟨rfl, hname⟩, hdevice⟩, hfolder⟩ := h
    obtain ⟨x, hx⟩ := Option.isSome_iff_exists.mp hname
    let t : UploadState := { s with
      disk := s.disk.rename row.temp_path finalPath
      published := ⟨finalPath, x, s.disk.bytes x⟩ :: s.published }
    refine ⟨row, x, t.goOn 0 (.recording row finalPath), hcall, hdevice, hfolder, ?_, rfl⟩
    rw [step, hcall]
    simp only [hx]
    rfl

theorem published_with_authority_sent : ∃ s t f,
    AuthorityRun plainConfig (init plainStore .empty) (sentToRename []) s ∧
      step plainConfig s (.renamed 0 false) = some t ∧ t.published = f :: s.published ∧
      ∃ i row, s.calls i = some (.renaming row f.path) ∧
        Authority s.store row.device_id row.folder_id := by
  -- no operator acts in this run, so that the decidable half of the condition is enough
  obtain ⟨s, hrun, hs⟩ := exists_guarded_run_of_exec
    (fun s a => grantStands s a = true ∧ (match a with | .operate _ => false | _ => true) = true)
    (step plainConfig) (init plainStore .empty) (sentToRename [])
    (fun s => renames s (js "/m/a.jpg") .full) (by decide +kernel)
  have hrun' : AuthorityRun plainConfig (init plainStore .empty) (sentToRename []) s := by
    refine hrun.mono fun u a v hstep => ⟨⟨hstep.1.1, ?_⟩, hstep.2⟩
    rintro store rfl
    cases hstep.1.2
  obtain ⟨-, row, x, t, -, -, -, ht, hpub⟩ := of_renames hs
  exact ⟨s, t, _, hrun', ht, hpub, published_with_authority hrun' ht hpub⟩

/-- **A withdrawn grant publishes**: the operator closes the folder for the device after its
session was created, and the upload still lands there. -/
theorem withdrawn_grant_publishes : ∃ s t f,
    Run (Steps (step plainConfig)) (init plainStore .empty) (sentToRename [.operate closedStore]) s ∧
      step plainConfig s (.renamed 0 false) = some t ∧ t.published = f :: s.published ∧
      ∃ row, s.calls 0 = some (.renaming row f.path) ∧
        modeFor s.store row.device_id row.folder_id = .none ∧
        ¬ Authority s.store row.device_id row.folder_id := by
  obtain ⟨s, hrun, hs⟩ := exists_run_of_exec (step plainConfig) (init plainStore .empty)
    (sentToRename [.operate closedStore]) (fun s => renames s (js "/m/a.jpg") .none)
    (by decide +kernel)
  obtain ⟨hmode, row, x, t, hcall, hdevice, hfolder, ht, hpub⟩ := of_renames hs
  refine ⟨s, t, _, hrun, ht, hpub, row, hcall, hdevice ▸ hfolder ▸ hmode, fun hauth => ?_⟩
  have hcan := hauth.mode
  rw [hdevice, hfolder, hmode] at hcan
  cases hcan

end LocalCast.Uploads
