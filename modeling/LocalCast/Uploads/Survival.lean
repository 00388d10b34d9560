import LocalCast.Uploads.Calls

/-!
What is left of active upload sessions when files are removed, renamed, and the server is
restarted.

* `Counted`, `counted_run`: along every run whose writes are whole, the count of an active
  session is within its file.
* `filesStay`: no restart finds an active session, and neither a sweep nor a late append
  touches a session the other has dealt with.
* `active_sessions_survive`: along every run whose steps meet it, an active session has its
  file, or the call that just took it is about to write the row; appends go on where the
  server says they stand.
* `restart_loses_session`: a restart leaves an active row without its file, and the append
  at the offset it reports fails.
-/

namespace LocalCast.Uploads

open JsString Contract Db Auth Library Runs UploadState

/-! ### Counts -/

/-- A write that does not fail writes all its bytes. -/
def writesWhole : Action → Bool
  | .chunk _ data written fails => fails || data.length ≤ written
  | _ => true

/-- Counts stay within the files they count. -/
structure Counted (owner : ℕ → Option JsString) (s : UploadState) : Prop where
  row : ∀ id row x, s.uploads.get id = some row → row.status = .active → owner x = some id →
    row.received_bytes ≤ (s.disk.bytes x).length
  appending : ∀ i row x, s.calls i = some (.appending row) → owner x = some row.id →
    row.received_bytes ≤ (s.disk.bytes x).length
  handle : ∀ i row inode received overflow threw,
    s.calls i = some (.writing row inode received overflow threw) →
    received ≤ (s.disk.bytes inode).length

lemma counted_init (store : AuthStore) (disk : Disk JsString) :
    Counted (fun _ => none) (init store disk) := by
  constructor <;> simp [init]

section Counted

variable {cfg : UploadConfig} {s t : UploadState} {a : Action} {owner owner' : ℕ → Option JsString}

/-- Files of sessions never get shorter. -/
lemma length_step (hs : Owned cfg owner s) (h : step cfg s a = some t) {x : ℕ} {id : JsString}
    (hx : owner x = some id) : (s.disk.bytes x).length ≤ (t.disk.bytes x).length := by
  rcases bytes_step hs h hx with hsame | ⟨_, _, _, _, _, _, _, _, _, _, hbytes⟩
  · rw [hsame]
  · rw [hbytes, Disk.length_writeAt]
    exact le_max_left _ _

lemma counted_step (hs : Owned cfg owner s) (hc : Counted owner s) (hg : writesWhole a = true)
    (h : step cfg s a = some t) (ho : OwnerStep cfg s t owner owner') : Counted owner' t := by
  -- a session that was there owned its file already
  have hback {x : ℕ} {id : JsString} (hid : id ∈ s.usedIds) (hx : owner' x = some id) :
      owner x = some id := by
    rcases ho.back x id hx with hx0 | ⟨-, hfresh, -⟩
    · exact hx0
    · exact absurd hid hfresh
  have hhandle : ∀ i row inode received overflow threw,
      t.calls i = some (.writing row inode received overflow threw) →
      received ≤ (t.disk.bytes inode).length := by
    intro i row inode received overflow threw hcall
    cases call_step h hcall with
    | kept hcall0 | stayed hcall0 =>
        have hlen := length_step hs h (hs.handle i row inode _ _ _ hcall0)
        exact (hc.handle i row inode _ _ _ hcall0).trans hlen
    | opened hcall0 hname =>
        obtain ⟨hid, htemp⟩ := hs.held i _ row hcall0 rfl
        have hown := hs.own row.id inode hid (htemp ▸ hname)
        exact (hc.appending i row inode hcall0 hown).trans (length_step hs h hown)
    | @wrote data written _ _ received _ ha hcall0 hwrites hdisk =>
        have hwhole : data.length ≤ written := by
          subst ha
          simpa [writesWhole] using hg
        have hbytes : t.disk.bytes inode =
            Disk.writeAt (s.disk.bytes inode) received (data.take written) := by
          rw [hdisk]
          exact Function.update_self _ _ _
        rw [hbytes, Disk.length_writeAt, List.length_take, min_eq_right hwhole]
        exact le_max_right _ _
  refine ⟨fun id row' x hrow' hopen hx => ?_, fun i row x hcall hx => ?_, hhandle⟩
  · cases row_step h hrow' with
    | kept hrow =>
        have hx0 := hback (hs.ids.known id _ hrow) hx
        exact (hc.row id _ x hrow hopen hx0).trans (length_step hs h hx0)
    | inserted _ _ hr' =>
        rw [hr']
        exact Nat.zero_le _
    | @persisted i broken now row r inode received overflow threw ha hcall hne hid hrow hr' =>
        have hx0 := hback (hs.ids.known id _ hrow) hx
        have howner := hs.handle i row inode _ _ _ hcall
        obtain rfl := hs.inj x inode id hx0 (hid ▸ howner)
        rw [hr']
        exact (hc.handle i row x _ _ _ hcall).trans (length_step hs h hx0)
    | aborted _ _ _ _ hr' | swept _ _ hr' | recorded _ _ _ _ hr' => simp [hr'] at hopen
  · cases call_step h hcall with
    | kept hcall0 =>
        have hx0 := hback (hs.held i _ row hcall0 rfl).1 hx
        exact (hc.appending i row x hcall0 hx0).trans (length_step hs h hx0)
    | appending hrow hactive =>
        have hx0 := hback (hs.ids.known _ _ hrow) hx
        exact (hc.row _ row x hrow hactive hx0).trans (length_step hs h hx0)

end Counted

/-! ### Settling calls -/

namespace Action

/-- The slot the action is about. -/
def slot : Action → Option ℕ
  | .create i _ | .resolved i _ | .opened i .. | .inserted i _ | .append i .. | .openedTemp i _
  | .chunk i .. | .closed i .. | .abort i .. | .removed i _ | .aborted i _ | .sweep i ..
  | .swept i _ | .madeDir i _ | .reserved i _ | .renamed i _ | .recorded i _ | .cleaned i _
  | .get i .. => some i
  | .operate _ | .restart => none

end Action

/-- The call has taken the file of the session, or is about to, and will write its row. -/
def Call.settles (row : UploadRow) : Call → Prop
  | .aborting r | .recording r _ => r.id = row.id
  | .sweeping cutoff _ _ => row.updated_at < cutoff
  | _ => False

/-- A call in flight is about to write the row. -/
def Settling (s : UploadState) (row : UploadRow) : Prop :=
  ∃ i c, s.calls i = some c ∧ c.settles row

section Settling

variable {cfg : UploadConfig} {s t : UploadState} {a : Action}

lemma finalize_frame {i j : ℕ} {row : UploadRow} (hij : i ≠ j) :
    (finalize s j row).calls i = s.calls i := by
  rw [finalize]
  split <;> exact Function.update_of_ne hij _ _

lemma answerRow_frame {i j : ℕ} {id : JsString} (hij : i ≠ j) :
    (answerRow s j id).calls i = s.calls i := by
  rw [answerRow]
  split <;> exact Function.update_of_ne hij _ _

lemma appendEnd_frame {i j : ℕ} {row : UploadRow} {received : ℕ} {overflow threw : Bool}
    {now : Time} (hij : i ≠ j) :
    (appendEnd s j row received overflow threw now).calls i = s.calls i := by
  have hpersisted : (if received ≠ row.received_bytes then persistReceived s row.id received now
      else s).calls i = s.calls i := by
    split_ifs <;> rfl
  rw [appendEnd]
  refine Eq.trans ?_ hpersisted
  split_ifs
  all_goals first
    | exact Function.update_of_ne hij _ _
    | split
      · exact Function.update_of_ne hij _ _
      · split_ifs
        · exact finalize_frame hij
        · exact Function.update_of_ne hij _ _

lemma createEnd_frame {i j : ℕ} {input : CreateInput} {relPath id : JsString} {now : Time}
    (hij : i ≠ j) : (createEnd cfg s j input relPath id now).calls i = s.calls i := by
  rw [createEnd]
  split_ifs
  · exact Function.update_of_ne hij _ _
  · split
    · exact Function.update_of_ne hij _ _
    · exact finalize_frame hij
  · split <;> exact Function.update_of_ne hij _ _

/-- A step of one slot leaves the calls of the others. -/
lemma calls_frame (h : step cfg s a = some t) {i : ℕ} (hi : a.slot ≠ some i)
    (hr : a ≠ .restart) : t.calls i = s.calls i := by
  cases a with
  | restart => exact absurd rfl hr
  | operate store =>
      obtain rfl := Option.some.inj h
      rfl
  | _ j =>
      have hij : i ≠ j := fun hij => hi (congrArg some hij.symm)
      simp only [step] at h
      repeat' split at h
      all_goals first
        | cases h; done
        | obtain rfl := Option.some.inj h
          first
            | rfl
            | exact Function.update_of_ne hij _ _
            | exact appendEnd_frame hij
            | exact createEnd_frame hij
            | exact answerRow_frame hij

/-- How a settling call goes on: it waits, or writes its row, or the server stops. -/
inductive SettleChange (s : UploadState) (a : Action) (t : UploadState) (i : ℕ) : Call → Prop
  | waits {c : Call} (hcall : t.calls i = some c) : SettleChange s a t i c
  | stopped {c : Call} (ha : a = .restart) : SettleChange s a t i c
  | aborted {r : UploadRow} {now : Time} (ha : a = .aborted i now) :
      SettleChange s a t i (.aborting r)
  | recorded {r : UploadRow} {f : JsString} {now : Time} (ha : a = .recorded i now) :
      SettleChange s a t i (.recording r f)
  | next {cutoff : Time} {p : JsString} {rest : List JsString} {count : ℕ}
      (hcall : t.calls i = some (.sweeping cutoff rest count)) :
      SettleChange s a t i (.sweeping cutoff (p :: rest) count)
  | swept {cutoff : Time} {count : ℕ} {now : Time} (ha : a = .swept i now) :
      SettleChange s a t i (.sweeping cutoff [] count)

lemma settles_step (h : step cfg s a = some t) {i : ℕ} {c : Call} (hcall : s.calls i = some c)
    {row : UploadRow} (hc : c.settles row) : SettleChange s a t i c := by
  by_cases hr : a = .restart
  · exact .stopped hr
  by_cases hi : a.slot = some i
  · -- the call's own next step, and no other action is enabled at its slot
    cases a with
    | operate store => cases hi
    | restart => cases hi
    | _ j =>
        obtain rfl := Option.some.inj hi
        cases c with
        | aborting r =>
            simp only [step, hcall] at h
            first
              | cases h; done
              | exact .aborted rfl
        | recording r f =>
            simp only [step, hcall] at h
            first
              | cases h; done
              | exact .recorded rfl
        | sweeping cutoff rest count =>
            cases rest with
            | nil =>
                simp only [step, hcall] at h
                first
                  | cases h; done
                  | exact .swept rfl
            | cons p rest =>
                simp only [step, hcall] at h
                first
                  | cases h; done
                  | obtain rfl := Option.some.inj h
                    exact .next (Function.update_self _ _ _)
        | _ => cases hc
  · exact .waits ((calls_frame h hi hr).trans hcall)

lemma aborted_row {i : ℕ} {now : Time} {row r : UploadRow}
    (h : step cfg s (.aborted i now) = some t) (hcall : s.calls i = some (.aborting row))
    (hr : t.uploads.get row.id = some r) : r.status = .aborted := by
  rw [step, hcall] at h
  obtain rfl := Option.some.inj h
  rw [abortEnd, (ends_answerRow _ _ _).uploads] at hr
  simp only [setUploads] at hr
  obtain ⟨r0, -, rfl⟩ := Table.of_get_updateKey_self hr
  rfl

lemma recorded_row {i : ℕ} {now : Time} {row r : UploadRow} {f : JsString}
    (h : step cfg s (.recorded i now) = some t) (hcall : s.calls i = some (.recording row f))
    (hr : t.uploads.get row.id = some r) : r.status = .complete := by
  rw [step, hcall] at h
  obtain rfl := Option.some.inj h
  rw [finalizeEnd, (ends_answerRow _ _ _).uploads] at hr
  simp only [setUploads] at hr
  obtain ⟨r0, -, rfl⟩ := Table.of_get_updateKey_self hr
  rfl

lemma swept_row {i : ℕ} {now cutoff : Time} {count : ℕ} {id : JsString} {r : UploadRow}
    (h : step cfg s (.swept i now) = some t)
    (hcall : s.calls i = some (.sweeping cutoff [] count)) (hr : s.uploads.get id = some r)
    (hr' : t.uploads.get id = some r) (hactive : r.status = .active) : ¬ r.updated_at < cutoff := by
  intro hlt
  rw [step, hcall] at h
  obtain rfl := Option.some.inj h
  have hget := Table.get_update s.uploads (fun r => r.status = .active && r.updated_at < cutoff)
    (fun r => { r with status := .aborted, updated_at := now }) (fun _ _ => rfl) id
  rw [hr] at hget
  have hrow := hget.symm.trans hr'
  simp only [hactive, hlt, decide_true, Bool.and_self, if_true, Option.map_some] at hrow
  have hstatus := congrArg UploadRow.status (Option.some.inj hrow)
  simp [hactive] at hstatus

/-- How a name is lost: its file is removed or renamed by the call of its session, or the
reservation under it is given back, or the server stops. -/
inductive NameLoss (s : UploadState) (a : Action) (t : UploadState) (p : JsString) : Prop
  | aborting {i : ℕ} {row : UploadRow} (ha : a = .removed i false)
      (hcall : s.calls i = some (.removing row)) (hp : row.temp_path = p) (hnext : t.calls i = some (.aborting row))
  | sweeping {i : ℕ} {cutoff : Time} {rest : List JsString} {count : ℕ} (ha : a = .removed i false)
      (hcall : s.calls i = some (.sweeping cutoff (p :: rest) count))
      (hnext : t.calls i = some (.sweeping cutoff rest count))
  | published {i : ℕ} {row : UploadRow} {finalPath : JsString} (ha : a = .renamed i false)
      (hcall : s.calls i = some (.renaming row finalPath)) (hp : row.temp_path = p)
      (hnext : t.calls i = some (.recording row finalPath))
  | cleaned {i : ℕ} (hcall : s.calls i = some (.cleaning p))
  | stopped (ha : a = .restart)

lemma name_lost (h : step cfg s a = some t) {p : JsString} {x : ℕ} (hx : s.disk.names p = some x)
    (hlost : t.disk.names p = none) : NameLoss s a t p := by
  have hkept (hdisk : t.disk.names p = s.disk.names p) : NameLoss s a t p := by
    simp [hdisk, hx] at hlost
  cases step_effect h with
  | quiet _ hdisk | inserted _ _ _ _ hdisk | persisted _ _ _ _ hdisk | aborted _ _ _ hdisk
  | swept _ hdisk | recorded _ _ _ hdisk | operated _ hdisk => exact hkept (by rw [hdisk])
  | wrote _ _ _ _ _ hdisk => exact hkept (by rw [hdisk, Disk.names_write])
  | @created i input relPath id hid _ hdisk =>
      by_cases hp : p = tempPath cfg id
      · obtain ⟨y, hy, -⟩ := s.disk.exists_truncate (tempPath cfg id)
        rw [hdisk, hp, hy] at hlost
        cases hlost
      · exact hkept (by rw [hdisk, Disk.names_truncate_of_ne _ _ _ hp])
  | @removed i c q hcall hq _ hdisk _ _ _ ha hnext =>
      by_cases hp : p = q
      · subst hp
        rcases hnext with ⟨row, rfl, hnext⟩ | ⟨cutoff, rest, count, rfl, hnext⟩
        · exact .aborting ha hcall (by simpa [Call.tempPaths, eq_comm] using hq) hnext
        · exact .sweeping ha hcall hnext
      · exact hkept (by rw [hdisk, Disk.names_remove, if_neg hp])
  | @reserved i row destination counter _ _ hfree _ hdisk =>
      have hp : p ≠ candidate destination counter := fun hp => by simp [← hp, hx] at hfree
      exact hkept (by rw [hdisk, Disk.names_createNew, if_neg hp])
  | @published i row finalPath inode ha hcall hname _ hdisk _ _ hcalls =>
      by_cases hp : row.temp_path = p
      · exact .published ha hcall hp (by simp [hcalls])
      · rw [hdisk, Disk.names_rename, if_neg (Ne.symm hp)] at hlost
        split_ifs at hlost
        · simp [hname] at hlost
        · simp [hx] at hlost
  | @cleaned i finalPath hcall _ hdisk =>
      by_cases hp : p = finalPath
      · exact .cleaned (hp ▸ hcall)
      · exact hkept (by rw [hdisk, Disk.names_remove, if_neg hp])
  | restarted _ _ _ _ _ ha => exact .stopped ha

end Settling

/-! ### Survival -/

/-- No restart finds an active session; a sweep removes no file an append has touched since
it listed the session; and no append ends on an active session whose file is gone. -/
def filesStay (cfg : UploadConfig) (s : UploadState) (a : Action) : Bool :=
  reservesOutside cfg s a && writesWhole a &&
    match a with
    | .restart => s.uploads.rows.all fun r => r.status ≠ .active
    | .removed i _ =>
        match s.calls i with
        | some (.sweeping cutoff (path :: _) _) => s.uploads.rows.all fun r =>
            r.temp_path ≠ path || r.status ≠ .active || r.updated_at < cutoff
        | _ => true
    | .closed i _ _ =>
        match s.calls i with
        | some (.writing row _ received _ _) => received = row.received_bytes ||
            (s.uploads.get row.id).all fun r =>
              r.status ≠ .active || (s.disk.names r.temp_path).isSome
        | _ => true
    | _ => true

/-- Active sessions have their file, or a call that is about to write the row. -/
structure Present (cfg : UploadConfig) (s : UploadState) : Prop where
  row : ∀ id row, s.uploads.get id = some row → row.status = .active →
    (s.disk.names row.temp_path).isSome ∨ Settling s row
  new : ∀ i input relPath id, s.calls i = some (.inserting input relPath id) →
    (s.disk.names (tempPath cfg id)).isSome

section Present

variable {cfg : UploadConfig} {s t : UploadState} {a : Action} {owner : ℕ → Option JsString}

/-- The file of a session goes with a call that settles the session. -/
lemma present_of_lost (hs : Owned cfg owner s) (hg : filesStay cfg s a = true)
    {id : JsString} {row : UploadRow} (hrow : s.uploads.get id = some row)
    (hactive : row.status = .active) (hloss : NameLoss s a t (tempPath cfg id)) :
    Settling t row := by
  have hid : row.id = id := Table.key_of_get hrow
  cases hloss with
  | @aborting i r ha hcall hp hnext =>
      refine ⟨i, _, hnext, ?_⟩
      have htemp := (hs.held i _ r hcall rfl).2
      exact (tempPath_injective cfg (htemp.symm.trans hp)).trans hid.symm
  | @sweeping i cutoff rest count ha hcall hnext =>
      refine ⟨i, _, hnext, ?_⟩
      subst ha
      simp only [filesStay, hcall, Bool.and_eq_true, List.all_eq_true] at hg
      have hr := hg.2 row (Table.get_eq_some_iff.mp hrow).1
      simpa [hs.row id row hrow, hactive, Call.settles] using hr
  | @published i r finalPath ha hcall hp hnext =>
      refine ⟨i, _, hnext, ?_⟩
      have htemp := (hs.held i _ r hcall rfl).2
      exact (tempPath_injective cfg (htemp.symm.trans hp)).trans hid.symm
  | @cleaned i hcall =>
      have hout := (hs.reserved i _ _ hcall rfl).1
      simp [inTempDir_tempPath] at hout
  | stopped ha =>
      subst ha
      simp only [filesStay, Bool.and_eq_true, List.all_eq_true] at hg
      have hr := hg.2 row (Table.get_eq_some_iff.mp hrow).1
      simp [hactive] at hr

lemma present_row_step {owner' : ℕ → Option JsString} (hs : Owned cfg owner s)
    (ht : Owned cfg owner' t) (hp : Present cfg s) (hg : filesStay cfg s a = true)
    (h : step cfg s a = some t) {id : JsString} {row' : UploadRow}
    (hrow' : t.uploads.get id = some row') (hactive : row'.status = .active) :
    (t.disk.names row'.temp_path).isSome ∨ Settling t row' := by
  have hid : row'.id = id := Table.key_of_get hrow'
  have htemp' := ht.row id row' hrow'
  cases hname' : t.disk.names row'.temp_path with
  | some x => exact .inl rfl
  | none =>
      refine .inr ?_
      rw [htemp'] at hname'
      have hcleaned {i : ℕ} (hcall : s.calls i = some (.cleaning (tempPath cfg id))) : False := by
        have hout := (hs.reserved i _ _ hcall rfl).1
        simp [inTempDir_tempPath] at hout
      have hactive' {r : UploadRow} (hrow : s.uploads.get id = some r) (ha : a = .restart) :
          r.status ≠ .active := by
        subst ha
        simp only [filesStay, Bool.and_eq_true, List.all_eq_true] at hg
        simpa using hg.2 r (Table.get_eq_some_iff.mp hrow).1
      cases hname : s.disk.names (tempPath cfg id) with
      | some x =>
          have hloss := name_lost h hname hname'
          cases row_step h hrow' with
          | kept hrow => exact present_of_lost hs hg hrow hactive hloss
          | inserted ha | persisted ha =>
              -- the step that takes a name away is not one that writes such a row
              subst ha
              cases hloss with
              | aborting ha | sweeping ha | published ha | stopped ha => cases ha
              | cleaned hcall => exact (hcleaned hcall).elim
          | aborted _ _ _ _ hr' | swept _ _ hr' | recorded _ _ _ _ hr' =>
              rw [hr'] at hactive
              cases hactive
      | none =>
          cases row_step h hrow' with
          | kept hrow =>
              rcases hp.row id row' hrow hactive with hsome | ⟨i, c, hcall, hc⟩
              · simp [htemp', hname] at hsome
              · cases settles_step h hcall hc with
                | waits hcall' => exact ⟨i, c, hcall', hc⟩
                | stopped ha => exact absurd hactive (hactive' hrow ha)
                | aborted ha =>
                    subst ha
                    have hstatus := aborted_row h hcall ((hc.trans hid).symm ▸ hrow')
                    simp [hactive] at hstatus
                | recorded ha =>
                    subst ha
                    have hstatus := recorded_row h hcall ((hc.trans hid).symm ▸ hrow')
                    simp [hactive] at hstatus
                | next hcall' => exact ⟨i, _, hcall', hc⟩
                | swept ha =>
                    subst ha
                    exact absurd hc (swept_row h hcall hrow hrow' hactive)
          | inserted _ hcall =>
              have hsome := hp.new _ _ _ id hcall
              simp [hname] at hsome
          | persisted ha hcall hne hidr hrow hr' =>
              subst ha
              rw [hr'] at hactive
              simp only [filesStay, hcall, hne, decide_false, Bool.false_or, Bool.and_eq_true,
                ← hidr, hrow, Option.all_some, Bool.or_eq_true, decide_eq_true_eq] at hg
              have hsome := hg.2.resolve_left (not_not_intro hactive)
              simp [hs.row id _ hrow, hname] at hsome
          | aborted _ _ _ _ hr' | swept _ _ hr' | recorded _ _ _ _ hr' =>
              rw [hr'] at hactive
              cases hactive

lemma present_new_step (hs : Owned cfg owner s) (hp : Present cfg s)
    (h : step cfg s a = some t) {i : ℕ} {input : CreateInput} {relPath id : JsString}
    (hcall : t.calls i = some (.inserting input relPath id)) :
    (t.disk.names (tempPath cfg id)).isSome := by
  cases call_step h hcall with
  | inserting _ _ _ _ hdisk =>
      obtain ⟨x, hx, -⟩ := s.disk.exists_truncate (tempPath cfg id)
      simp [hdisk, hx]
  | kept hcall0 =>
      obtain ⟨x, hx⟩ := Option.isSome_iff_exists.mp (hp.new i input relPath id hcall0)
      cases hname' : t.disk.names (tempPath cfg id) with
      | some y => rfl
      | none =>
          -- no call may remove or rename the file of a session that has no row yet
          have hother {j : ℕ} {c : Call} (hcallj : s.calls j = some c)
              (hmem : tempPath cfg id ∈ c.tempPaths) : False := by
            obtain ⟨id', -, hid', hnew⟩ := hs.temp j c _ hcallj hmem
            obtain rfl := tempPath_injective cfg hid'
            exact hnew i _ hcall0 rfl
          cases name_lost h hx hname' with
          | aborting _ hcallj htemp | published _ hcallj htemp =>
              exact (hother hcallj (by simp [Call.tempPaths, htemp])).elim
          | sweeping _ hcallj => exact (hother hcallj List.mem_cons_self).elim
          | cleaned hcallj =>
              have hout := (hs.reserved _ _ _ hcallj rfl).1
              simp [inTempDir_tempPath] at hout
          | stopped ha =>
              subst ha
              obtain rfl := Option.some.inj h
              cases hcall

lemma present_init (cfg : UploadConfig) (store : AuthStore) (disk : Disk JsString) :
    Present cfg (init store disk) := by
  constructor <;> simp [init]

end Present

/-- The law of a state: the file of an active session holds what its row counts; it is there,
or a call in flight is about to write the row; and where it is there, an append at the offset
the server reports goes on to write. -/
structure SurvivalLaw (cfg : UploadConfig) (s : UploadState) : Prop where
  bytes : ∀ id row x, s.uploads.get id = some row → row.status = .active →
    s.disk.names row.temp_path = some x → row.received_bytes ≤ (s.disk.bytes x).length
  present : ∀ id row, s.uploads.get id = some row → row.status = .active →
    (s.disk.names row.temp_path).isSome ∨ Settling s row
  appends : ∀ id row i, s.uploads.get id = some row → row.status = .active →
    ¬ Settling s row → s.calls i = none → ∃ t u x,
      step cfg s (.append i id row.device_id row.received_bytes none) = some t ∧
        step cfg t (.openedTemp i false) = some u ∧
        u.calls i = some (.writing row x row.received_bytes false false)

/-- Runs in which files stay with active sessions. -/
abbrev SurvivalRun (cfg : UploadConfig) :=
  Run (Guarded (fun s a => filesStay cfg s a) (step cfg))

/-- **Active sessions survive** along every run in which no restart finds one and no sweep
crosses an append. -/
theorem active_sessions_survive {cfg : UploadConfig} {store : AuthStore} {disk : Disk JsString}
    {as : List Action} {s : UploadState} (hrun : SurvivalRun cfg (init store disk) as s) :
    SurvivalLaw cfg s := by
  obtain ⟨owner, hs, hc, hp⟩ : ∃ owner, Owned cfg owner s ∧ Counted owner s ∧ Present cfg s := by
    refine hrun.invariant
      (I := fun u => ∃ owner, Owned cfg owner u ∧ Counted owner u ∧ Present cfg u) ?_
      ⟨_, owned_init cfg store disk, counted_init store disk, present_init cfg store disk⟩
    rintro u a v ⟨owner, hs, hc, hp⟩ ⟨hg, h⟩
    have hg' := hg
    simp only [filesStay, Bool.and_eq_true] at hg'
    obtain ⟨owner', ho⟩ := exists_ownerStep hs h
    have ht := owned_step hs hg'.1.1 h ho
    exact ⟨owner', ht, counted_step hs hc hg'.1.2 h ho,
      ⟨fun id row' hrow' hactive => present_row_step hs ht hp hg h hrow' hactive,
        fun i input relPath id hcall => present_new_step hs hp h hcall⟩⟩
  refine ⟨fun id row x hrow hactive hx => ?_, hp.row, fun id row i hrow hactive hfree hi => ?_⟩
  · have hown := hs.own id x (hs.ids.known id row hrow) (hs.row id row hrow ▸ hx)
    exact hc.row id row x hrow hactive hown
  · obtain ⟨x, hx⟩ := Option.isSome_iff_exists.mp
      ((hp.row id row hrow hactive).resolve_right hfree)
    have happend : step cfg s (.append i id row.device_id row.received_bytes none) =
        some (s.goOn i (.appending row)) := by
      simp [step, hi, appendCheck, require, hrow, hactive]
    have hopen : step cfg (s.goOn i (.appending row)) (.openedTemp i false) =
        some ((s.goOn i (.appending row)).goOn i
          (.writing row x row.received_bytes false false)) := by
      simp [step, goOn, hx]
    exact ⟨_, _, x, happend, hopen, Function.update_self _ _ _⟩

/-! ### Concrete runs -/

/-- Two of three bytes arrive before the connection drops. -/
def dropped : List Action :=
  createThree ++ [.append 0 (js "1") (js "d") 0 (some 3), .openedTemp 0 false,
    .chunk 0 [1, 2] 2 false, .closed 0 true 2]

/-- Session `1` is active with two bytes, its file `content`. -/
def standsAtTwo (s : UploadState) (content : Option (List UInt8)) : Bool :=
  (s.uploads.get (js "1")).any (fun row => row.status = .active && row.received_bytes = 2 &&
    s.disk.content row.temp_path = content) && (s.calls 0).isNone

theorem active_sessions_survive_dropped : ∃ s,
    SurvivalRun plainConfig (init plainStore .empty) dropped s ∧
      standsAtTwo s (some [1, 2]) = true ∧ SurvivalLaw plainConfig s := by
  obtain ⟨s, hrun, hs⟩ := exists_guarded_run_of_exec
    (fun s a => filesStay plainConfig s a) (step plainConfig) (init plainStore .empty) dropped
    (fun s => standsAtTwo s (some [1, 2])) (by decide +kernel)
  exact ⟨s, hrun, hs, active_sessions_survive hrun⟩

/-- **A restart loses a session**: its row stays active with two bytes, its file is gone, and
the append at offset 2 fails for want of it. -/
theorem restart_loses_session : ∃ s,
    Run (Steps (step plainConfig)) (init plainStore .empty) (dropped ++ [.restart]) s ∧
      standsAtTwo s none = true ∧ ¬ SurvivalLaw plainConfig s ∧
      ∃ u, Run (Steps (step plainConfig)) s
        [.append 0 (js "1") (js "d") 2 (some 1), .openedTemp 0 false] u ∧
        u.answers.head? = some (.refused (.fs "ENOENT")) := by
  obtain ⟨s, hrun, hs⟩ := exists_run_of_exec (step plainConfig) (init plainStore .empty)
    (dropped ++ [.restart]) (fun s => standsAtTwo s none && (exec (step plainConfig) s
      [.append 0 (js "1") (js "d") 2 (some 1), .openedTemp 0 false]).any fun u =>
        u.answers.head? = some (.refused (.fs "ENOENT"))) (by decide +kernel)
  rw [Bool.and_eq_true] at hs
  obtain ⟨u, hrun', hu⟩ := exists_run_of_exec _ _ _ _ hs.2
  refine ⟨s, hrun, hs.1, fun hlaw => ?_, u, hrun', of_decide_eq_true hu⟩
  -- nothing is in flight after a restart, so that no call is about to write the row
  obtain ⟨v, -, hlast⟩ := hrun.split
  have hidle : ∀ i, s.calls i = none := by
    cases hlast with
    | cons h h' =>
        cases h'
        obtain rfl := Option.some.inj h
        exact fun i => rfl
  have hrow := hs.1
  simp only [standsAtTwo, Bool.and_eq_true, Option.any_eq_true, decide_eq_true_eq] at hrow
  obtain ⟨⟨row, hget, ⟨hactive, -⟩, hgone⟩, -⟩ := hrow
  rcases hlaw.present _ row hget hactive with hname | ⟨i, c, hcall, -⟩
  · rw [Disk.content, Option.map_eq_none_iff] at hgone
    simp [hgone] at hname
  · simp [hidle i] at hcall

end LocalCast.Uploads
