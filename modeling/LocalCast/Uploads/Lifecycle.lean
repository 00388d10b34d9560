import LocalCast.Uploads.Sessions

/-!
The life of an upload session under overlapping calls.

* `landsSettled`: what a call writes when it resumes still fits the row and the files it
  finds: a chunk goes into no published file, a count into an active row, `complete` over no
  aborted row and `aborted` over no complete one.
* `settled_uploads_stay`: along every run whose steps meet it, complete and aborted rows
  never change status or count, complete rows are full, and published bytes stay.
* `late_append_breaks`: without it, an append that overlaps the completion of its session
  changes the published file and the complete row.
-/

namespace LocalCast.Uploads

open JsString Contract Db Auth Library Runs UploadState

/-- A chunk that is written rather than skipped or discarded. -/
def writes (row : UploadRow) (received : ℕ) (overflow : Bool) (data : List UInt8) : Bool :=
  data ≠ [] && ¬ (overflow ∨ received + data.length > row.total_bytes)

/-- What the step writes fits what it finds; and no name is reserved in the server's own temp
directory. -/
def landsSettled (cfg : UploadConfig) (s : UploadState) : Action → Bool
  | .chunk i data _ _ =>
      match s.calls i with
      | some (.writing row inode received overflow false) =>
          !writes row received overflow data || s.published.all fun f => f.inode ≠ inode
      | _ => true
  | .closed i _ _ =>
      match s.calls i with
      | some (.writing row _ received _ _) =>
          received = row.received_bytes || (s.uploads.get row.id).all fun r =>
            r.status = .active || r.received_bytes = received
      | _ => true
  | .aborted i _ =>
      match s.calls i with
      | some (.aborting row) => (s.uploads.get row.id).all fun r => r.status ≠ .complete
      | _ => true
  | .recorded i _ =>
      match s.calls i with
      | some (.recording row _) => (s.uploads.get row.id).all fun r => r.status ≠ .aborted
      | _ => true
  | .reserved i _ =>
      match s.calls i with
      | some (.reserving _ destination counter) => !inTempDir cfg (candidate destination counter)
      | _ => true
  | _ => true

/-- The law between two states of a run. -/
structure SettledLaw (s t : UploadState) : Prop where
  frozen : ∀ id row row', s.uploads.get id = some row → row.status ≠ .active →
    t.uploads.get id = some row' →
    row'.status = row.status ∧ row'.received_bytes = row.received_bytes
  full : ∀ id row, s.uploads.get id = some row → row.status = .complete →
    row.received_bytes = row.total_bytes
  kept : ∀ f ∈ s.published, t.disk.content f.path = some f.bytes

/-! ### The invariant -/

/-- Ids are drawn once. -/
structure IdsOk (s : UploadState) : Prop where
  known : ∀ id row, s.uploads.get id = some row → id ∈ s.usedIds
  newIds : ∀ i c id, s.calls i = some c → c.newId = some id →
    id ∈ s.usedIds ∧ s.uploads.get id = none
  newApart : ∀ i j c c' id, s.calls i = some c → s.calls j = some c' → c.newId = some id →
    c'.newId = some id → i = j

/-- Rows and the ids of rows about to be inserted. -/
structure RowsOk (cfg : UploadConfig) (s : UploadState) : Prop where
  known : ∀ id row, s.uploads.get id = some row → id ∈ s.usedIds
  temp : ∀ id row, s.uploads.get id = some row → inTempDir cfg row.temp_path = true
  full : ∀ id row, s.uploads.get id = some row → row.status = .complete →
    row.received_bytes = row.total_bytes
  newIds : ∀ i c id, s.calls i = some c → c.newId = some id →
    id ∈ s.usedIds ∧ s.uploads.get id = none
  newApart : ∀ i j c c' id, s.calls i = some c → s.calls j = some c' → c.newId = some id →
    c'.newId = some id → i = j

/-- Files: what is published, and what is reserved to be. -/
structure FilesOk (cfg : UploadConfig) (s : UploadState) : Prop where
  temp : ∀ i c, s.calls i = some c → ∀ p ∈ c.tempPaths, inTempDir cfg p = true
  reserved : ∀ i c f, s.calls i = some c → c.reserved = some f → inTempDir cfg f = false ∧
    s.disk.names f ≠ none ∧ ∀ g ∈ s.published, g.path ≠ f
  apart : ∀ i j c c' f, s.calls i = some c → s.calls j = some c' → c.reserved = some f →
    c'.reserved = some f → i = j
  published : ∀ f ∈ s.published, inTempDir cfg f.path = false ∧
    s.disk.names f.path = some f.inode ∧ s.disk.content f.path = some f.bytes

lemma RowsOk.ids {cfg : UploadConfig} {s : UploadState} (h : RowsOk cfg s) : IdsOk s :=
  ⟨h.known, h.newIds, h.newApart⟩

lemma idsOk_init (store : AuthStore) (disk : Disk JsString) : IdsOk (init store disk) := by
  constructor <;> simp [init]

lemma rowsOk_init (cfg : UploadConfig) (store : AuthStore) (disk : Disk JsString) :
    RowsOk cfg (init store disk) := by
  constructor <;> simp [init]

lemma filesOk_init (cfg : UploadConfig) (store : AuthStore) (disk : Disk JsString) :
    FilesOk cfg (init store disk) := by
  constructor <;> simp [init]

lemma inTempDir_tempPath (cfg : UploadConfig) (id : JsString) :
    inTempDir cfg (tempPath cfg id) = true := by
  rw [inTempDir, List.isPrefixOf_iff_prefix, tempPath]
  exact ⟨js "upload-" ++ id ++ js ".part", by simp⟩

section Law

variable {cfg : UploadConfig} {s t : UploadState} {a : Action}

lemma ne_of_inTempDir {p q : JsString} (hp : inTempDir cfg p = true)
    (hq : inTempDir cfg q = false) : q ≠ p := by
  rintro rfl
  simp [hp] at hq

/-- A row a step leaves: one it found with the same id, as it was or rewritten, or one just
inserted. -/
inductive RowChange (cfg : UploadConfig) (s : UploadState) (a : Action) (id : JsString)
    (row' : UploadRow) : Prop
  | kept (hrow : s.uploads.get id = some row')
  | inserted {i : ℕ} {now : Time} {input : CreateInput} {relPath : JsString}
      (ha : a = .inserted i now) (hcall : s.calls i = some (.inserting input relPath id))
      (hrow' : row' = newRow cfg input relPath id now)
  | persisted {i : ℕ} {broken : Bool} {now : Time} {row r : UploadRow} {inode received : ℕ}
      {overflow threw : Bool} (ha : a = .closed i broken now)
      (hcall : s.calls i = some (.writing row inode received overflow threw))
      (hne : received ≠ row.received_bytes) (hid : id = row.id) (hrow : s.uploads.get id = some r)
      (hrow' : row' = { r with received_bytes := received, updated_at := now })
  | aborted {i : ℕ} {now : Time} {row r : UploadRow} (ha : a = .aborted i now)
      (hcall : s.calls i = some (.aborting row)) (hid : id = row.id)
      (hrow : s.uploads.get id = some r)
      (hrow' : row' = { r with status := .aborted, updated_at := now })
  | swept {now : Time} {r : UploadRow} (hrow : s.uploads.get id = some r)
      (hactive : r.status = .active)
      (hrow' : row' = { r with status := .aborted, updated_at := now })
  | recorded {i : ℕ} {now : Time} {row r : UploadRow} {finalPath : JsString}
      (ha : a = .recorded i now) (hcall : s.calls i = some (.recording row finalPath))
      (hid : id = row.id) (hrow : s.uploads.get id = some r)
      (hrow' : row' = { r with
        status := .complete
        rel_path := finalRel row.rel_path finalPath
        received_bytes := r.total_bytes
        updated_at := now })

lemma row_step (h : step cfg s a = some t) {id : JsString} {row' : UploadRow}
    (hrow' : t.uploads.get id = some row') : RowChange cfg s a id row' := by
  cases step_effect h with
  | quiet huploads | created _ huploads | wrote _ _ _ _ huploads | removed _ _ huploads
  | reserved _ _ _ huploads | published _ _ _ huploads | cleaned _ huploads
  | restarted huploads =>
      exact .kept (huploads ▸ hrow')
  | @inserted i now input relPath row ha hcall hrow huploads =>
      rw [Table.get_insert huploads] at hrow'
      split_ifs at hrow' with hid
      · obtain rfl := Option.some.inj hrow'
        obtain rfl : row.id = id := hid.symm
        exact .inserted ha hcall hrow
      · exact .kept hrow'
  | persisted ha hcall hne huploads =>
      rw [huploads] at hrow'
      obtain ⟨r, hr, rfl | ⟨hid, hr'⟩⟩ := Table.of_get_updateKey hrow'
      · exact .kept hr
      · exact .persisted ha hcall hne hid hr hr'
  | aborted ha hcall huploads =>
      rw [huploads] at hrow'
      obtain ⟨r, hr, rfl | ⟨hid, hr'⟩⟩ := Table.of_get_updateKey hrow'
      · exact .kept hr
      · exact .aborted ha hcall hid hr hr'
  | swept huploads =>
      rw [huploads] at hrow'
      obtain ⟨r, hr, rfl | ⟨hp, hr'⟩⟩ := Table.of_get_update hrow'
      · exact .kept hr
      · rw [Bool.and_eq_true, decide_eq_true_eq] at hp
        exact .swept hr hp.1 hr'
  | recorded ha hcall huploads =>
      rw [huploads] at hrow'
      obtain ⟨r, hr, rfl | ⟨hid, hr'⟩⟩ := Table.of_get_updateKey hrow'
      · exact .kept hr
      · exact .recorded ha hcall hid hr hr'
  | operated huploads =>
      rw [huploads, Table.get_delete, Option.filter_eq_some_iff] at hrow'
      exact .kept hrow'.1

/-- Ids that were drawn stay drawn. -/
lemma usedIds_step (h : step cfg s a = some t) : s.usedIds ⊆ t.usedIds := by
  cases step_effect h with
  | created _ _ _ _ hids => simp [hids]
  | quiet _ _ _ hids | inserted _ _ _ _ _ _ hids | wrote _ _ _ _ _ _ _ hids | removed _ _ _ _ _ hids
  | persisted _ _ _ _ _ _ hids | aborted _ _ _ _ _ hids | swept _ _ _ hids
  | reserved _ _ _ _ _ _ hids | published _ _ _ _ _ _ hids | recorded _ _ _ _ _ hids
  | cleaned _ _ _ _ hids | operated _ _ _ hids | restarted _ _ _ hids => simp [hids]

/-- The ids about to be inserted after a step: those before it, but for the one just
inserted, and the one just drawn. -/
lemma newId_step (hs : IdsOk s) (h : step cfg s a = some t) {i : ℕ} {c : Call}
    {id : JsString} (hcall : t.calls i = some c) (hid : c.newId = some id) :
    (s.calls i = some c ∧ t.uploads.get id = none) ∨
      (id ∉ s.usedIds ∧ id ∈ t.usedIds ∧ t.uploads = s.uploads ∧
        ∃ c0, t.calls = Function.update s.calls i (some c0)) := by
  have hgone (hc : s.calls i = some c) (hkeep : t.uploads = s.uploads) :
      (s.calls i = some c ∧ t.uploads.get id = none) :=
    ⟨hc, hkeep ▸ (hs.newIds i c id hc hid).2⟩
  have hfollow (hcalls : CallsFollow s t) : s.calls i = some c := by
    rcases hcalls i c hcall with hc | hf
    · exact hc
    · simp [hf.newId] at hid
  have hnone (hc : s.calls i = some c)
      (hget : ∀ row', t.uploads.get id = some row' → ∃ row, s.uploads.get id = some row) :
      t.uploads.get id = none := by
    cases hr : t.uploads.get id with
    | none => rfl
    | some row' =>
        obtain ⟨row, hrow⟩ := hget row' hr
        simp [(hs.newIds i c id hc hid).2] at hrow
  cases step_effect h with
  | quiet huploads _ _ _ hcalls | wrote _ _ _ _ huploads _ _ _ hcalls
  | removed _ _ huploads _ _ _ hcalls => exact .inl (hgone (hfollow hcalls) huploads)
  | @created j input relPath id' hfresh huploads hdisk hpub hids hcalls =>
      rw [hcalls, Function.update_apply] at hcall
      split_ifs at hcall with hj
      · subst hj
        obtain rfl := Option.some.inj hcall
        obtain rfl : id' = id := Option.some.inj hid
        exact .inr ⟨hfresh, by simp [hids], huploads, _, hcalls⟩
      · exact .inl (hgone hcall huploads)
  | @inserted j now input relPath row ha hcallj hrow huploads hdisk hpub hids hcalls hdone =>
      have hc := hfollow hcalls
      refine .inl ⟨hc, ?_⟩
      rw [Table.get_insert huploads, if_neg, (hs.newIds i c id hc hid).2]
      rintro rfl
      obtain rfl := hs.newApart i j c _ _ hc hcallj hid rfl
      simp [hdone c hcall] at hid
  | persisted _ _ _ huploads _ _ _ hcalls | aborted _ _ huploads _ _ _ hcalls
  | recorded _ _ huploads _ _ _ hcalls =>
      refine .inl ⟨hfollow hcalls, hnone (hfollow hcalls) fun row' hr => ?_⟩
      rw [huploads] at hr
      obtain ⟨r, hr, -⟩ := Table.of_get_updateKey hr
      exact ⟨r, hr⟩
  | swept huploads _ _ _ hcalls =>
      refine .inl ⟨hfollow hcalls, hnone (hfollow hcalls) fun row' hr => ?_⟩
      rw [huploads] at hr
      obtain ⟨r, hr, -⟩ := Table.of_get_update hr
      exact ⟨r, hr⟩
  | @reserved j row destination counter _ _ _ huploads _ _ _ hcalls
  | @published j row finalPath inode _ _ _ huploads _ _ _ hcalls =>
      rw [hcalls, Function.update_apply] at hcall
      split_ifs at hcall
      · obtain rfl := Option.some.inj hcall
        cases hid
      · exact .inl (hgone hcall huploads)
  | cleaned _ huploads _ _ _ hcalls =>
      exact .inl (hgone (hfollow (callsFollow_settle hcalls)) huploads)
  | operated huploads _ _ _ hcalls =>
      have hc : s.calls i = some c := hcalls ▸ hcall
      refine .inl ⟨hc, hnone hc fun row' hr => ?_⟩
      rw [huploads, Table.get_delete, Option.filter_eq_some_iff] at hr
      exact ⟨row', hr.1⟩
  | restarted _ _ _ _ hcalls => simp [hcalls] at hcall

/-- Under the condition, a row is rewritten in keeping with what it was: settled rows keep
status and count, and what becomes complete is full. -/
lemma settled_row_step (hg : landsSettled cfg s a) (h : step cfg s a = some t) {id : JsString}
    {row row' : UploadRow} (hnew : ∀ i c, s.calls i = some c → c.newId ≠ some id)
    (hrow : s.uploads.get id = some row) (hsettled : row.status ≠ .active)
    (hfull : row.status = .complete → row.received_bytes = row.total_bytes)
    (hrow' : t.uploads.get id = some row') :
    row'.status = row.status ∧ row'.received_bytes = row.received_bytes := by
  cases row_step h hrow' with
  | kept hr =>
      obtain rfl := Option.some.inj (hrow.symm.trans hr)
      exact ⟨rfl, rfl⟩
  | inserted ha hcall => exact absurd rfl (hnew _ _ hcall)
  | persisted ha hcall hne hid hr hr' =>
      obtain rfl := Option.some.inj (hrow.symm.trans hr)
      subst ha hid hr'
      simp only [landsSettled, hcall, hne, hr, Option.all_some, hsettled, decide_false,
        Bool.false_or, decide_eq_true_eq] at hg
      exact ⟨rfl, hg.symm⟩
  | aborted ha hcall hid hr hr' =>
      obtain rfl := Option.some.inj (hrow.symm.trans hr)
      subst ha hid hr'
      simp only [landsSettled, hcall, hr, Option.all_some, decide_eq_true_eq] at hg
      refine ⟨?_, rfl⟩
      cases hst : row.status with
      | active => exact absurd hst hsettled
      | complete => exact absurd hst hg
      | aborted => rfl
  | swept hr hactive =>
      obtain rfl := Option.some.inj (hrow.symm.trans hr)
      exact absurd hactive hsettled
  | recorded ha hcall hid hr hr' =>
      obtain rfl := Option.some.inj (hrow.symm.trans hr)
      subst ha hid hr'
      simp only [landsSettled, hcall, hr, Option.all_some, decide_eq_true_eq] at hg
      have hst : row.status = .complete := by
        cases hst : row.status with
        | active => exact absurd hst hsettled
        | complete => rfl
        | aborted => exact absurd hst hg
      exact ⟨hst.symm, (hfull hst).symm⟩

lemma idsOk_step (hs : IdsOk s) (h : step cfg s a = some t) : IdsOk t where
  known id row' hrow' := by
    refine usedIds_step h ?_
    cases row_step h hrow' with
    | kept hrow | persisted _ _ _ _ hrow | aborted _ _ _ hrow | swept hrow
    | recorded _ _ _ hrow => exact hs.known id _ hrow
    | inserted ha hcall => exact (hs.newIds _ _ id hcall rfl).1
  newIds i c id hcall hid := by
    rcases newId_step hs h hcall hid with ⟨hc, hnone⟩ | ⟨hfresh, hused, hsame, -⟩
    · exact ⟨usedIds_step h (hs.newIds i c id hc hid).1, hnone⟩
    · refine ⟨hused, ?_⟩
      cases hr : t.uploads.get id with
      | none => rfl
      | some row => exact absurd (hs.known id row (hsame ▸ hr)) hfresh
  newApart i j c c' id hcall hcall' hid hid' := by
    rcases newId_step hs h hcall hid with ⟨hc, -⟩ | ⟨hfresh, -, -, c0, hcalls⟩ <;>
      rcases newId_step hs h hcall' hid' with ⟨hc', -⟩ | ⟨hfresh', -, -, c0', hcalls'⟩
    · exact hs.newApart i j c c' id hc hc' hid hid'
    · exact absurd (hs.newIds i c id hc hid).1 hfresh'
    · exact absurd (hs.newIds j c' id hc' hid').1 hfresh
    · -- one step draws one id, in one slot: the other slot held the id before
      by_contra hij
      rw [hcalls', Function.update_of_ne hij] at hcall
      exact hfresh (hs.newIds i c id hcall hid).1

lemma rowsOk_step (hs : RowsOk cfg s) (hg : landsSettled cfg s a) (h : step cfg s a = some t) :
    RowsOk cfg t where
  known := (idsOk_step hs.ids h).known
  temp id row' hrow' := by
    cases row_step h hrow' with
    | kept hrow => exact hs.temp id _ hrow
    | inserted _ _ hr' => exact hr' ▸ inTempDir_tempPath cfg id
    | persisted _ _ _ _ hrow hr' | aborted _ _ _ hrow hr' | swept hrow _ hr'
    | recorded _ _ _ hrow hr' =>
        have htemp := hs.temp id _ hrow
        rwa [hr']
  full id row' hrow' hcomplete := by
    cases row_step h hrow' with
    | kept hrow => exact hs.full id _ hrow hcomplete
    | inserted _ _ hr' => simp [hr', newRow] at hcomplete
    | @persisted i broken now row r inode received overflow threw ha hcall hne hid hrow hr' =>
        have hst : r.status = .complete := by rw [hr'] at hcomplete; exact hcomplete
        have hkeep := settled_row_step hg h (fun j c hc hnew => ?_) hrow (by simp [hst])
          (hs.full id r hrow) hrow'
        · rw [hkeep.2, hs.full id r hrow hst, hr']
        · simp [(hs.newIds j c id hc hnew).2] at hrow
    | aborted _ _ _ hrow hr' => simp [hr'] at hcomplete
    | swept hrow _ hr' => simp [hr'] at hcomplete
    | recorded _ _ _ hrow hr' => rw [hr']
  newIds := (idsOk_step hs.ids h).newIds
  newApart := (idsOk_step hs.ids h).newApart

/-! ### Files -/

/-- What a step does to a name outside the temp directory: it keeps file and bytes, unless it
is the name a call publishes or gives back, or the file a chunk is written to. -/
lemma names_step (htemp : ∀ i c, s.calls i = some c → ∀ p ∈ c.tempPaths, inTempDir cfg p = true)
    (h : step cfg s a = some t) {q : JsString} {x : ℕ} (hq : inTempDir cfg q = false) (hx : s.disk.names q = some x) :
    (∃ i c, s.calls i = some c ∧ c.reserved = some q ∧
        (∀ c', t.calls i = some c' → c'.reserved ≠ some q)) ∨
      t.disk.names q = some x ∧ (t.disk.content q = s.disk.content q ∨
        ∃ i data written fails row received overflow, a = .chunk i data written fails ∧
          s.calls i = some (.writing row x received overflow false) ∧
          writes row received overflow data = true) := by
  cases step_effect h with
  | quiet _ hdisk | inserted _ _ _ _ hdisk | persisted _ _ _ _ hdisk | aborted _ _ _ hdisk
  | swept _ hdisk | recorded _ _ _ hdisk | operated _ hdisk =>
      exact .inr ⟨by rw [hdisk, hx], .inl (by rw [hdisk])⟩
  | @created i input relPath id hid _ hdisk =>
      have hne := ne_of_inTempDir (inTempDir_tempPath cfg id) hq
      exact .inr ⟨by rw [hdisk, Disk.names_truncate_of_ne _ _ _ hne, hx],
        .inl (by rw [hdisk, Disk.content_truncate _ hne])⟩
  | @wrote i data written fails row inode received overflow ha hcall hdata hfits _ hdisk =>
      refine .inr ⟨by rw [hdisk, Disk.names_write, hx], ?_⟩
      by_cases hxi : x = inode
      · exact .inr ⟨i, data, written, fails, row, received, overflow, ha, hxi ▸ hcall,
          by simpa [writes, hdata] using hfits⟩
      · refine .inl ?_
        rw [hdisk, Disk.content_write]
        rw [hx]
        exact fun hsome => hxi (Option.some.inj hsome)
  | @removed i c p hcall hp _ hdisk =>
      have hne := ne_of_inTempDir (htemp i c hcall p hp) hq
      exact .inr ⟨by rw [hdisk, Disk.names_remove, if_neg hne, hx],
        .inl (by rw [hdisk, Disk.content_remove _ hne])⟩
  | @reserved i row destination counter ha hcall hfree _ hdisk =>
      have hne : q ≠ candidate destination counter := fun hqc => by simp [← hqc, hx] at hfree
      exact .inr ⟨by rw [hdisk, Disk.names_createNew, if_neg hne, hx],
        .inl (by rw [hdisk, Disk.content_createNew _ hne])⟩
  | @published i row finalPath inode ha hcall hname _ hdisk _ _ hcalls =>
      by_cases hqf : q = finalPath
      · subst hqf
        refine .inl ⟨i, _, hcall, rfl, fun c' hc' => ?_⟩
        rw [hcalls, Function.update_self] at hc'
        obtain rfl := Option.some.inj hc'
        simp [Call.reserved]
      · have hne := ne_of_inTempDir (htemp i _ hcall row.temp_path (by simp [Call.tempPaths])) hq
        exact .inr ⟨by rw [hdisk, Disk.names_rename, if_neg hqf, if_neg hne, hx],
          .inl (by rw [hdisk, Disk.content_rename _ hqf hne])⟩
  | @cleaned i finalPath hcall _ hdisk _ _ hcalls =>
      by_cases hqf : q = finalPath
      · subst hqf
        refine .inl ⟨i, _, hcall, rfl, fun c' hc' => ?_⟩
        simp [hcalls] at hc'
      · exact .inr ⟨by rw [hdisk, Disk.names_remove, if_neg hqf, hx],
          .inl (by rw [hdisk, Disk.content_remove _ hqf])⟩
  | restarted _ hdisk =>
      exact .inr ⟨by rw [hdisk, Disk.names_removeAll, if_neg (by simp [hq]), hx],
        .inl (by rw [hdisk, Disk.content_removeAll _ _ hq])⟩

/-- A call after one slot changed is the one put there, or one of another slot. -/
lemma of_update {i j : ℕ} {o : Option Call} {c : Call}
    (hcalls : t.calls = Function.update s.calls i o) (hcall : t.calls j = some c) :
    (j = i ∧ o = some c) ∨ s.calls j = some c := by
  rw [hcalls, Function.update_apply] at hcall
  split_ifs at hcall with hj
  · exact .inl ⟨hj, hcall⟩
  · exact .inr hcall

/-- The temp paths a call holds after a step are of rows, or were held before. -/
lemma temp_step (h : step cfg s a = some t) {i : ℕ} {c : Call} (hcall : t.calls i = some c)
    {p : JsString} (hp : p ∈ c.tempPaths) :
    (∃ id row, t.uploads.get id = some row ∧ row.temp_path = p) ∨
      ∃ c0, s.calls i = some c0 ∧ p ∈ c0.tempPaths := by
  have hfollow (hcalls : CallsFollow s t) : (∃ id row, t.uploads.get id = some row ∧
      row.temp_path = p) ∨ ∃ c0, s.calls i = some c0 ∧ p ∈ c0.tempPaths := by
    rcases hcalls i c hcall with hc | hf
    · exact .inr ⟨c, hc, hp⟩
    · exact hf.temp p hp
  cases step_effect h with
  | quiet _ _ _ _ hcalls | inserted _ _ _ _ _ _ _ hcalls | wrote _ _ _ _ _ _ _ _ hcalls
  | persisted _ _ _ _ _ _ _ hcalls | removed _ _ _ _ _ _ hcalls | aborted _ _ _ _ _ _ hcalls
  | swept _ _ _ _ hcalls | recorded _ _ _ _ _ _ hcalls => exact hfollow hcalls
  | cleaned _ _ _ _ _ hcalls => exact hfollow (callsFollow_settle hcalls)
  | operated _ _ _ _ hcalls => exact .inr ⟨c, hcalls ▸ hcall, hp⟩
  | restarted _ _ _ _ hcalls => simp [hcalls] at hcall
  | created _ _ _ _ _ hcalls =>
      rcases of_update hcalls hcall with ⟨-, hc⟩ | hc
      · obtain rfl := Option.some.inj hc
        simp [Call.tempPaths] at hp
      · exact .inr ⟨c, hc, hp⟩
  | reserved _ hcalli _ _ _ _ _ hcalls =>
      rcases of_update hcalls hcall with ⟨rfl, hc⟩ | hc
      · obtain rfl := Option.some.inj hc
        exact .inr ⟨_, hcalli, hp⟩
      · exact .inr ⟨c, hc, hp⟩
  | published _ hcalli _ _ _ _ _ hcalls =>
      rcases of_update hcalls hcall with ⟨rfl, hc⟩ | hc
      · obtain rfl := Option.some.inj hc
        exact .inr ⟨_, hcalli, hp⟩
      · exact .inr ⟨c, hc, hp⟩

/-- A name reserved after a step was reserved before in the same slot, or is one that was
free and is taken now. -/
lemma reserved_step (h : step cfg s a = some t) {i : ℕ} {c : Call} {f : JsString}
    (hcall : t.calls i = some c) (hf : c.reserved = some f) :
    (∃ c0, s.calls i = some c0 ∧ c0.reserved = some f) ∨
      (∃ row destination counter, a = .reserved i false ∧
        s.calls i = some (.reserving row destination counter) ∧
        f = candidate destination counter ∧ s.disk.names f = none ∧
        t.disk = s.disk.createNew f ∧ t.published = s.published) := by
  have hfollow (hcalls : CallsFollow s t) : ∃ c0, s.calls i = some c0 ∧ c0.reserved = some f := by
    rcases hcalls i c hcall with hc | hfollows
    · exact ⟨c, hc, hf⟩
    · exact hfollows.reserved f hf
  cases step_effect h with
  | quiet _ _ _ _ hcalls | inserted _ _ _ _ _ _ _ hcalls | wrote _ _ _ _ _ _ _ _ hcalls
  | persisted _ _ _ _ _ _ _ hcalls | removed _ _ _ _ _ _ hcalls | aborted _ _ _ _ _ _ hcalls
  | swept _ _ _ _ hcalls | recorded _ _ _ _ _ _ hcalls => exact .inl (hfollow hcalls)
  | cleaned _ _ _ _ _ hcalls => exact .inl (hfollow (callsFollow_settle hcalls))
  | operated _ _ _ _ hcalls => exact .inl ⟨c, hcalls ▸ hcall, hf⟩
  | restarted _ _ _ _ hcalls => simp [hcalls] at hcall
  | created _ _ _ _ _ hcalls | published _ _ _ _ _ _ _ hcalls =>
      rcases of_update hcalls hcall with ⟨-, hc⟩ | hc
      · obtain rfl := Option.some.inj hc
        simp [Call.reserved] at hf
      · exact .inl ⟨c, hc, hf⟩
  | @reserved j row destination counter ha hcallj hfree _ hdisk hpub _ hcalls =>
      rcases of_update hcalls hcall with ⟨rfl, hc⟩ | hc
      · obtain rfl := Option.some.inj hc
        obtain rfl : candidate destination counter = f := Option.some.inj hf
        exact .inr ⟨row, destination, counter, ha, hcallj, rfl, hfree, hdisk, hpub⟩
      · exact .inl ⟨c, hc, hf⟩

/-- A published file was published before, or has just been, from the slot that had its name
reserved. -/
lemma published_step (h : step cfg s a = some t) {g : Published} (hg : g ∈ t.published) :
    g ∈ s.published ∨ ∃ i row, s.calls i = some (.renaming row g.path) ∧
      t.calls i = some (.recording row g.path) ∧ s.disk.names row.temp_path = some g.inode ∧
      t.disk.names g.path = some g.inode ∧ t.disk.content g.path = some g.bytes := by
  cases step_effect h with
  | quiet _ _ hpub | created _ _ _ hpub | inserted _ _ _ _ _ hpub | wrote _ _ _ _ _ _ hpub
  | persisted _ _ _ _ _ hpub | removed _ _ _ _ hpub | aborted _ _ _ _ hpub | swept _ _ hpub
  | reserved _ _ _ _ _ hpub | recorded _ _ _ _ hpub | cleaned _ _ _ hpub | operated _ _ hpub
  | restarted _ _ hpub => exact .inl (hpub ▸ hg)
  | @published i row finalPath inode ha hcall hname _ hdisk hpub _ hcalls =>
      rw [hpub, List.mem_cons] at hg
      rcases hg with rfl | hg
      · refine .inr ⟨i, row, hcall, by simp [hcalls], hname, ?_, ?_⟩
        · rw [hdisk, Disk.names_rename, if_pos rfl, hname]
        · rw [hdisk, Disk.content_rename_self, Disk.content, hname]
          rfl
      · exact .inl hg

/-- A name reserved in a slot is not given up by another slot's step. -/
lemma reserved_kept (htemp : ∀ i c, s.calls i = some c → ∀ p ∈ c.tempPaths, inTempDir cfg p = true)
    (hapart : ∀ i j c c' f, s.calls i = some c → s.calls j = some c' → c.reserved = some f →
      c'.reserved = some f → i = j) (h : step cfg s a = some t) {i : ℕ} {c c0 : Call}
    {f : JsString} {x : ℕ} (hcall0 : s.calls i = some c0) (hf0 : c0.reserved = some f)
    (hout : inTempDir cfg f = false) (hx : s.disk.names f = some x)
    (hcall : t.calls i = some c) (hf : c.reserved = some f) : t.disk.names f = some x := by
  rcases names_step htemp h hout hx with ⟨j, c1, hcall1, hf1, hgone⟩ | ⟨hx', -⟩
  · obtain rfl := hapart i j c0 c1 f hcall0 hcall1 hf0 hf1
    exact absurd hf (hgone c hcall)
  · exact hx'

/-- No two slots reserve one name. -/
lemma apart_step (htaken : ∀ i c f, s.calls i = some c → c.reserved = some f →
      s.disk.names f ≠ none)
    (hapart : ∀ i j c c' f, s.calls i = some c → s.calls j = some c' → c.reserved = some f →
      c'.reserved = some f → i = j) (h : step cfg s a = some t) {i j : ℕ} {c c' : Call}
    {f : JsString} (hcall : t.calls i = some c) (hcall' : t.calls j = some c')
    (hf : c.reserved = some f) (hf' : c'.reserved = some f) : i = j := by
  rcases reserved_step h hcall hf with ⟨c0, hcall0, hf0⟩ | ⟨-, -, -, ha, -, -, hfree, -⟩ <;>
    rcases reserved_step h hcall' hf' with ⟨c1, hcall1, hf1⟩ | ⟨-, -, -, ha', -, -, hfree', -⟩
  · exact hapart i j c0 c1 f hcall0 hcall1 hf0 hf1
  · exact absurd hfree' (htaken i c0 f hcall0 hf0)
  · exact absurd hfree (htaken j c1 f hcall1 hf1)
  · rw [ha] at ha'
    exact (Action.reserved.inj ha').1

lemma filesOk_step (hr : RowsOk cfg t) (hs : FilesOk cfg s) (hg : landsSettled cfg s a)
    (h : step cfg s a = some t) : FilesOk cfg t where
  temp i c hcall p hp := by
    rcases temp_step h hcall hp with ⟨id, row, hrow, rfl⟩ | ⟨c0, hcall0, hp0⟩
    · exact hr.temp id row hrow
    · exact hs.temp i c0 hcall0 p hp0
  reserved i c f hcall hf := by
    rcases reserved_step h hcall hf with ⟨c0, hcall0, hf0⟩ |
      ⟨row, destination, counter, rfl, hcall0, rfl, hfree, hdisk, hpub⟩
    · obtain ⟨htemp, hname, hne⟩ := hs.reserved i c0 f hcall0 hf0
      obtain ⟨x, hx⟩ := Option.ne_none_iff_exists'.mp hname
      have hkept := reserved_kept hs.temp hs.apart h hcall0 hf0 htemp hx hcall hf
      refine ⟨htemp, by simp [hkept], fun g hgp hgf => ?_⟩
      rcases published_step h hgp with hold | ⟨j, row, hcallj, hcallj', -⟩
      · exact hne g hold hgf
      · obtain rfl := hs.apart i j c0 _ f hcall0 hcallj hf0 (by simp [Call.reserved, hgf])
        obtain rfl := Option.some.inj (hcall.symm.trans hcallj')
        simp [Call.reserved] at hf
    · refine ⟨by simpa [landsSettled, hcall0] using hg, ?_, fun g hgp hgf => ?_⟩
      · simp [hdisk, Disk.names_createNew]
      · obtain ⟨-, hname, -⟩ := hs.published g (hpub ▸ hgp)
        simp [hgf, hfree] at hname
  apart i j c c' f hcall hcall' hf hf' :=
    apart_step (fun i c f hc hf => (hs.reserved i c f hc hf).2.1) hs.apart h hcall hcall' hf hf'
  published g hgp := by
    rcases published_step h hgp with hold | ⟨j, row, hcallj, -, -, hname, hcontent⟩
    · obtain ⟨htemp, hname, hcontent⟩ := hs.published g hold
      refine ⟨htemp, ?_⟩
      rcases names_step hs.temp h htemp hname with ⟨i, c, hcall, hf, -⟩ | ⟨hname', hsame | hwrote⟩
      · exact absurd rfl ((hs.reserved i c g.path hcall hf).2.2 g hold)
      · exact ⟨hname', hsame.trans hcontent⟩
      · -- the condition keeps chunks out of published files
        obtain ⟨i, data, written, fails, row, received, overflow, rfl, hcall, hwrites⟩ := hwrote
        simp only [landsSettled, hcall, hwrites, Bool.not_true, Bool.false_or, List.all_eq_true,
          decide_eq_true_eq] at hg
        exact absurd rfl (hg g hold)
    · exact ⟨(hs.reserved j _ g.path hcallj rfl).1, hname, hcontent⟩

end Law

/-! ### The law -/

section Law

variable {cfg : UploadConfig} {s t : UploadState} {a : Action}

/-- The row under `id` is settled with this status and count, or gone for good. -/
def Settled (id : JsString) (status : UploadStatus) (count : ℕ) (s : UploadState) : Prop :=
  id ∈ s.usedIds ∧ (∀ i c, s.calls i = some c → c.newId ≠ some id) ∧
    ∀ row, s.uploads.get id = some row → row.status = status ∧ row.received_bytes = count

lemma settled_step (hs : RowsOk cfg s) (hg : landsSettled cfg s a) (h : step cfg s a = some t)
    {id : JsString} {status : UploadStatus} {count : ℕ} (hstatus : status ≠ .active)
    (hset : Settled id status count s) : Settled id status count t := by
  obtain ⟨hused, hnew, hrow⟩ := hset
  refine ⟨usedIds_step h hused, fun i c hcall hid => ?_, fun row' hrow' => ?_⟩
  · rcases newId_step hs.ids h hcall hid with ⟨hc, -⟩ | ⟨hfresh, -⟩
    · exact hnew i c hc hid
    · exact hfresh hused
  · cases hr : s.uploads.get id with
    | none =>
        cases row_step h hrow' with
        | kept hr' | persisted _ _ _ _ hr' | aborted _ _ _ hr' | swept hr' | recorded _ _ _ hr' =>
            simp [hr] at hr'
        | inserted ha hcall => exact absurd rfl (hnew _ _ hcall)
    | some row =>
        obtain ⟨hst, hcount⟩ := hrow row hr
        have hkeep := settled_row_step hg h hnew hr (hst ▸ hstatus) (hs.full id row hr) hrow'
        exact ⟨hkeep.1.trans hst, hkeep.2.trans hcount⟩

end Law

/-- Runs whose steps fit what they find. -/
abbrev SettledRun (cfg : UploadConfig) :=
  Run (Guarded (fun s a => landsSettled cfg s a) (step cfg))

lemma ok_run {cfg : UploadConfig} {s t : UploadState} {as : List Action}
    (h : SettledRun cfg s as t) (hs : RowsOk cfg s ∧ FilesOk cfg s) :
    RowsOk cfg t ∧ FilesOk cfg t := by
  refine h.invariant (I := fun u => RowsOk cfg u ∧ FilesOk cfg u) (fun u a v hu hstep => ?_) hs
  have hrows := rowsOk_step hu.1 hstep.1 hstep.2
  exact ⟨hrows, filesOk_step hrows hu.2 hstep.1 hstep.2⟩

lemma published_run {cfg : UploadConfig} {s t : UploadState} {as : List Action}
    (h : SettledRun cfg s as t) : s.published ⊆ t.published := by
  refine h.invariant (I := fun u => s.published ⊆ u.published) (fun u a v hu hstep f hf => ?_)
    (List.Subset.refl _)
  cases step_effect hstep.2 with
  | quiet _ _ hpub | created _ _ _ hpub | inserted _ _ _ _ _ hpub | wrote _ _ _ _ _ _ hpub
  | persisted _ _ _ _ _ hpub | removed _ _ _ _ hpub | aborted _ _ _ _ hpub | swept _ _ hpub
  | reserved _ _ _ _ _ hpub | recorded _ _ _ _ hpub | cleaned _ _ _ hpub | operated _ _ hpub
  | restarted _ _ hpub => exact hpub ▸ hu hf
  | published _ _ _ _ _ hpub => exact hpub ▸ List.mem_cons_of_mem _ (hu hf)

/-- **Settled uploads stay** along every run whose steps fit what they find. -/
theorem settled_uploads_stay {cfg : UploadConfig} {store : AuthStore} {disk : Disk JsString}
    {as bs : List Action} {s t : UploadState} (hs : SettledRun cfg (init store disk) as s)
    (ht : SettledRun cfg s bs t) : SettledLaw s t := by
  have hok := ok_run hs ⟨rowsOk_init cfg store disk, filesOk_init cfg store disk⟩
  have hok' := ok_run ht hok
  refine ⟨fun id row row' hrow hstatus hrow' => ?_, hok.1.full, fun f hf => ?_⟩
  · have hset : Settled id row.status row.received_bytes s := by
      refine ⟨hok.1.known id row hrow, fun i c hc hid => ?_, fun r hr => ?_⟩
      · simp [(hok.1.newIds i c id hc hid).2] at hrow
      · obtain rfl := Option.some.inj (hrow.symm.trans hr)
        exact ⟨rfl, rfl⟩
    have hrun : RowsOk cfg t ∧ Settled id row.status row.received_bytes t := by
      refine ht.invariant (I := fun u => RowsOk cfg u ∧ Settled id row.status row.received_bytes u)
        (fun u a v hu hstep => ?_) ⟨hok.1, hset⟩
      exact ⟨rowsOk_step hu.1 hstep.1 hstep.2,
        settled_step hu.1 hstep.1 hstep.2 hstatus hu.2⟩
    exact hrun.2.2.2 row' hrow'
  · exact (hok'.2.published f (published_run ht hf)).2.2

/-! ### Concrete runs -/

def plainConfig : UploadConfig := ⟨js "/tmp", 47, 8, 100⟩

/-- A library with one writable folder `f`, granted to the device `d`. -/
def plainStore : AuthStore where
  devices := ⟨[⟨js "d", js "u", js "phone", js "ios", .active, 1, none, none, none, 0⟩], by decide⟩
  pairing_tokens := .empty
  folder_permissions := ⟨[⟨js "d", js "f", .full⟩], by decide⟩
  shared_folders := ⟨[⟨js "f", js "/m", js "M", true, true, true, true, none, none, none, 0⟩],
    by decide⟩

/-- A session of three bytes is created, in slot 0. -/
def createThree : List Action :=
  [.create 0 ⟨js "d", js "f", js "a.jpg", 3⟩, .resolved 0 (.ok (js "/m/a.jpg")),
    .opened 0 (js "1") false, .inserted 0 1]

/-- The tail of `finalize` in slot `i`. -/
def finish (i : ℕ) : List Action :=
  [.resolved i (.ok (js "/m/a.jpg")), .madeDir i false, .reserved i false, .renamed i false,
    .recorded i 9]

/-- Three bytes are sent in one chunk, and the file is published. -/
def sentOnce : List Action :=
  createThree ++ [.append 0 (js "1") (js "d") 0 (some 3), .openedTemp 0 false,
    .chunk 0 [1, 2, 3] 3 false, .closed 0 false 2] ++ finish 0

/-- Two appends at offset 0 overlap: the second writes two bytes after the first has published
the file, and breaks off. -/
def sentTwice : List Action :=
  createThree ++ [.append 0 (js "1") (js "d") 0 (some 3), .append 1 (js "1") (js "d") 0 (some 3),
    .openedTemp 0 false, .openedTemp 1 false, .chunk 0 [1, 2, 3] 3 false, .closed 0 false 2] ++
    finish 0 ++ [.chunk 1 [7, 7] 2 false, .closed 1 true 10]

theorem settled_uploads_stay_sentOnce : ∃ s,
    SettledRun plainConfig (init plainStore .empty) sentOnce s ∧
      s.published = [⟨js "/m/a.jpg", 0, [1, 2, 3]⟩] ∧ SettledLaw s s := by
  obtain ⟨s, hrun, hs⟩ := exists_guarded_run_of_exec
    (fun s a => landsSettled plainConfig s a) (step plainConfig) (init plainStore .empty) sentOnce
    (fun s => s.published = [⟨js "/m/a.jpg", 0, [1, 2, 3]⟩]) (by decide +kernel)
  exact ⟨s, hrun, of_decide_eq_true hs, settled_uploads_stay hrun (.nil s)⟩

/-- **A late append breaks a finished upload**: its row counts two of three bytes again, and
the published file is overwritten. -/
theorem late_append_breaks : ∃ s,
    Run (Steps (step plainConfig)) (init plainStore .empty) sentTwice s ∧
      (∃ row, s.uploads.get (js "1") = some row ∧ row.status = .complete ∧
        row.received_bytes = 2 ∧ row.total_bytes = 3) ∧
      s.published = [⟨js "/m/a.jpg", 0, [1, 2, 3]⟩] ∧
      s.disk.content (js "/m/a.jpg") = some [7, 7, 3] ∧ ¬ SettledLaw s s := by
  obtain ⟨s, hrun, hs⟩ := exists_run_of_exec (step plainConfig) (init plainStore .empty) sentTwice
    (fun s => ((s.uploads.get (js "1")).any fun row => row.status = .complete &&
        row.received_bytes = 2 && row.total_bytes = 3) &&
      s.published = [⟨js "/m/a.jpg", 0, [1, 2, 3]⟩] &&
      s.disk.content (js "/m/a.jpg") = some [7, 7, 3]) (by decide +kernel)
  simp only [Bool.and_eq_true, decide_eq_true_eq, Option.any_eq_true] at hs
  obtain ⟨⟨⟨row, hrow, ⟨hstatus, hcount⟩, htotal⟩, hpub⟩, hcontent⟩ := hs
  refine ⟨s, hrun, ⟨row, hrow, hstatus, hcount, htotal⟩, hpub, hcontent, fun hlaw => ?_⟩
  have hfull := hlaw.full _ row hrow hstatus
  omega

end LocalCast.Uploads
