import LocalCast.Uploads.Lifecycle

/-!
How the calls of the upload service go on, and which file belongs to which session.

* `CallChange`, `call_step`: every call in flight after a step, with what it came from.
* `reservesOutside`: no name is reserved in the server's own temp directory.
* `Owned`: files belong to sessions. `owner` names the session a file was opened for; the
  temp file and every handle of a session are its one file.
* `owned_step`, `owned_run`: along every run that reserves no name in the temp directory.
-/

namespace LocalCast.Uploads

open JsString Contract Db Auth Library Runs UploadState

/-! ### Calls -/

/-- Where `finalize` is called from with `row`: an append that is through with its body, and
wrote its count where it has one, or the creation of an empty file. -/
inductive ResolvesFrom (s : UploadState) (a : Action) (i : ℕ) (row : UploadRow) : Prop
  | append {now : Time} {row' r : UploadRow} {inode received : ℕ} (ha : a = .closed i false now)
      (hcall : s.calls i = some (.writing row' inode received false false))
      (hid : row'.id = row.id) (hrow : s.uploads.get row.id = some r)
      (heq : row = if received ≠ row'.received_bytes then
        { r with received_bytes := received, updated_at := now } else r)
  | create {now : Time} {input : CreateInput} {relPath : JsString} (ha : a = .inserted i now)
      (hcall : s.calls i = some (.inserting input relPath row.id)) (hempty : input.totalBytes = 0)
      (hdevice : row.device_id = input.deviceId) (hfolder : row.folder_id = input.folderId)

/-- How the call of slot `i` came to be what it is after the step. -/
inductive CallChange (cfg : UploadConfig) (s : UploadState) (a : Action) (t : UploadState)
    (i : ℕ) : Call → Prop
  | kept {c : Call} (hcall : s.calls i = some c) : CallChange cfg s a t i c
  | creating (input : CreateInput) (relPath : JsString) :
      CallChange cfg s a t i (.creating input relPath)
  | opening {input : CreateInput} {relPath : JsString}
      (hcall : s.calls i = some (.creating input relPath)) :
      CallChange cfg s a t i (.opening input relPath)
  | inserting {input : CreateInput} {relPath id : JsString} (ha : a = .opened i id false)
      (hcall : s.calls i = some (.opening input relPath)) (hid : id ∉ s.usedIds)
      (hused : t.usedIds = id :: s.usedIds) (hdisk : t.disk = s.disk.truncate (tempPath cfg id)) :
      CallChange cfg s a t i (.inserting input relPath id)
  | appending {row : UploadRow} (hrow : s.uploads.get row.id = some row)
      (hactive : row.status = .active) : CallChange cfg s a t i (.appending row)
  | opened {row : UploadRow} {inode : ℕ} (hcall : s.calls i = some (.appending row))
      (hname : s.disk.names row.temp_path = some inode) :
      CallChange cfg s a t i (.writing row inode row.received_bytes false false)
  | stayed {row : UploadRow} {inode received : ℕ} {overflow overflow' threw threw' : Bool}
      (hcall : s.calls i = some (.writing row inode received overflow threw)) :
      CallChange cfg s a t i (.writing row inode received overflow' threw')
  | wrote {data : List UInt8} {written : ℕ} {row : UploadRow} {inode received : ℕ}
      {overflow : Bool} (ha : a = .chunk i data written false)
      (hcall : s.calls i = some (.writing row inode received overflow false))
      (hwrites : writes row received overflow data = true)
      (hdisk : t.disk = s.disk.write inode received (data.take written)) :
      CallChange cfg s a t i (.writing row inode (received + data.length) overflow false)
  | removing {row : UploadRow} (hrow : s.uploads.get row.id = some row) :
      CallChange cfg s a t i (.removing row)
  | aborting {row : UploadRow} (hcall : s.calls i = some (.removing row)) :
      CallChange cfg s a t i (.aborting row)
  | sweeping {cutoff : Time} {rest : List JsString} {count : ℕ}
      (hrest : ∀ p ∈ rest, ∃ row, s.uploads.get row.id = some row ∧ row.temp_path = p) :
      CallChange cfg s a t i (.sweeping cutoff rest count)
  | swept {cutoff : Time} {path : JsString} {rest : List JsString} {count : ℕ}
      (hcall : s.calls i = some (.sweeping cutoff (path :: rest) count)) :
      CallChange cfg s a t i (.sweeping cutoff rest count)
  | resolving {row : UploadRow} {folder : FolderRow} (hrow : t.uploads.get row.id = some row)
      (hfull : row.total_bytes ≤ row.received_bytes) (hstore : t.store = s.store)
      (hfolder : writableFolder s.store row.folder_id = .ok folder)
      (hfrom : ResolvesFrom s a i row) :
      CallChange cfg s a t i (.resolving row)
  | making {row : UploadRow} {destination : JsString}
      (hcall : s.calls i = some (.resolving row)) :
      CallChange cfg s a t i (.making row destination)
  | reserving {row : UploadRow} {destination : JsString}
      (hcall : s.calls i = some (.making row destination)) :
      CallChange cfg s a t i (.reserving row destination 1)
  | nextName {row : UploadRow} {destination : JsString} {counter : ℕ}
      (hcall : s.calls i = some (.reserving row destination counter)) :
      CallChange cfg s a t i (.reserving row destination (counter + 1))
  | took {row : UploadRow} {destination : JsString} {counter : ℕ}
      (hcall : s.calls i = some (.reserving row destination counter)) :
      CallChange cfg s a t i (.renaming row (candidate destination counter))
  | recording {row : UploadRow} {finalPath : JsString} {inode : ℕ} (ha : a = .renamed i false)
      (hcall : s.calls i = some (.renaming row finalPath))
      (hname : s.disk.names row.temp_path = some inode)
      (hpub : t.published = ⟨finalPath, inode, s.disk.bytes inode⟩ :: s.published) :
      CallChange cfg s a t i (.recording row finalPath)
  | cleaning {row : UploadRow} {finalPath : JsString}
      (hcall : s.calls i = some (.renaming row finalPath)) :
      CallChange cfg s a t i (.cleaning finalPath)

section Step

variable {cfg : UploadConfig} {s t : UploadState} {a : Action} {i : ℕ} {c : Call}

/-- The slots a step leaves alone keep their calls. -/
lemma callChange_update {j : ℕ} {o : Option Call} (hcalls : t.calls = Function.update s.calls j o)
    (ho : ∀ c', o = some c' → CallChange cfg s a t j c') (hcall : t.calls i = some c) :
    CallChange cfg s a t i c := by
  rcases of_update hcalls hcall with ⟨rfl, hc⟩ | hc
  · exact ho c hc
  · exact .kept hc

lemma callChange_answer {s' : UploadState} {j : ℕ} {ans : Answer}
    (hcall : (s'.answer j ans).calls i = some c) (hs' : s'.calls = s.calls) :
    CallChange cfg s a t i c := by
  simp only [answer, hs'] at hcall
  rw [Function.update_apply] at hcall
  split_ifs at hcall
  exact .kept hcall

lemma finalize_calls {s' : UploadState} {j : ℕ} {row : UploadRow}
    (hcall : (finalize s' j row).calls i = some c) (hs' : s'.calls = s.calls) :
    s.calls i = some c ∨
      i = j ∧ c = .resolving row ∧ ∃ folder, writableFolder s'.store row.folder_id = .ok folder := by
  rw [finalize] at hcall
  split at hcall
  · simp only [refuse, answer, hs'] at hcall
    rw [Function.update_apply] at hcall
    split_ifs at hcall
    exact .inl hcall
  case h_2 folder hfolder =>
    simp only [goOn, hs'] at hcall
    rw [Function.update_apply] at hcall
    split_ifs at hcall with hj
    · exact .inr ⟨hj, (Option.some.inj hcall).symm, folder, hfolder⟩
    · exact .inl hcall

lemma appendEnd_calls {j : ℕ} {row : UploadRow} {inode received : ℕ} {overflow threw broken : Bool}
    {now : Time} (hcallj : s.calls j = some (.writing row inode received overflow threw))
    (hcall : (appendEnd s j row received overflow (threw || broken) now).calls i = some c) :
    CallChange cfg s (.closed j broken now)
      (appendEnd s j row received overflow (threw || broken) now) i c := by
  -- the state after the write to the table, if there is one
  obtain ⟨s', hs', hstore, hcalls, hget⟩ : ∃ s', s' = (if received ≠ row.received_bytes then
      persistReceived s row.id received now else s) ∧ s'.store = s.store ∧ s'.calls = s.calls ∧
      ∀ r', s'.uploads.get row.id = some r' → ∃ r, s.uploads.get row.id = some r ∧
        r' = if received ≠ row.received_bytes then
          { r with received_bytes := received, updated_at := now } else r := by
    refine ⟨_, rfl, ?_⟩
    split_ifs with hne
    · refine ⟨rfl, rfl, fun r' hr' => ?_⟩
      have hget := Table.get_updateKey s.uploads row.id
        (fun r => { r with received_bytes := received, updated_at := now }) (fun _ _ => rfl) row.id
      obtain ⟨r, hr, rfl⟩ := Option.map_eq_some_iff.mp ((if_pos rfl ▸ hget).symm.trans hr')
      exact ⟨r, hr, rfl⟩
    · exact ⟨rfl, rfl, fun r' hr' => ⟨r', hr', rfl⟩⟩
  rw [appendEnd] at hcall ⊢
  rw [← hs'] at hcall ⊢
  by_cases hthrew : (threw || broken) = true
  · rw [if_pos hthrew] at hcall
    exact callChange_answer hcall hcalls
  rw [if_neg hthrew] at hcall ⊢
  by_cases hover : overflow = true
  · rw [if_pos hover] at hcall
    exact callChange_answer hcall hcalls
  rw [if_neg hover] at hcall ⊢
  obtain ⟨rfl, rfl, rfl⟩ : overflow = false ∧ threw = false ∧ broken = false := by
    simpa [and_assoc] using And.intro hover hthrew
  split at hcall
  · exact callChange_answer hcall hcalls
  case h_2 updated hreq =>
    by_cases hfull : updated.received_bytes ≥ updated.total_bytes
    · rw [if_pos hfull] at hcall
      rcases finalize_calls hcall hcalls with hc | ⟨rfl, rfl, folder, hfolder⟩
      · exact .kept hc
      · have hupd := require_eq_ok hreq
        have hid : row.id = updated.id := (Table.key_of_get hupd).symm
        obtain ⟨r, hr, heq⟩ := hget updated hupd
        have hends := ends_finalize (i := i) hupd
        have hfolder' : writableFolder s.store updated.folder_id = .ok folder := hstore ▸ hfolder
        refine .resolving ?_ hfull ?_ hfolder'
          (.append rfl hcallj hid (hid ▸ hr) heq)
        · rw [if_pos hfull, hends.uploads, ← hid, hupd]
        · rw [if_pos hfull, finalize]
          split <;> exact hstore
    · rw [if_neg hfull] at hcall
      exact callChange_answer hcall hcalls

lemma createEnd_calls {j : ℕ} {input : CreateInput} {relPath id : JsString} {now : Time}
    (hcallj : s.calls j = some (.inserting input relPath id))
    (hcall : (createEnd cfg s j input relPath id now).calls i = some c) :
    CallChange cfg s (.inserted j now) (createEnd cfg s j input relPath id now) i c := by
  rw [createEnd] at hcall ⊢
  by_cases hgone : (s.store.devices.get input.deviceId).isNone
      || (s.store.shared_folders.get input.folderId).isNone
  · rw [if_pos hgone] at hcall
    exact callChange_answer hcall rfl
  rw [if_neg hgone] at hcall ⊢
  split at hcall
  case h_1 => exact callChange_answer hcall rfl
  case h_2 uploads hins =>
    simp only
    by_cases hempty : input.totalBytes = 0
    · rw [if_pos hempty] at hcall ⊢
      rcases finalize_calls (s := s) hcall rfl with hc | ⟨rfl, rfl, folder, hfolder⟩
      · exact .kept hc
      · have hget := (Table.get_insert hins id).trans (if_pos rfl)
        refine .resolving ?_ hempty.le ?_ hfolder
          (.create rfl hcallj hempty rfl rfl)
        · rw [(ends_finalize (s := s.setUploads uploads) hget).uploads]
          exact hget
        · rw [finalize]
          split <;> rfl
    · rw [if_neg hempty] at hcall
      exact callChange_answer hcall rfl

lemma goOn_calls {s' : UploadState} {j : ℕ} {c' : Call} (hcall : (s'.goOn j c').calls i = some c)
    (hs' : s'.calls = s.calls) (hnew : CallChange cfg s a t j c') : CallChange cfg s a t i c := by
  simp only [goOn, hs'] at hcall
  rw [Function.update_apply] at hcall
  split_ifs at hcall with hj
  · subst hj
    obtain rfl := Option.some.inj hcall
    exact hnew
  · exact .kept hcall

/-- **Where every call in flight comes from.** -/
theorem call_step (h : step cfg s a = some t) (hcall : t.calls i = some c) :
    CallChange cfg s a t i c := by
  have hsame {u : UploadState} (hu : some u = some t) : u.calls i = some c := by
    rw [Option.some.inj hu, hcall]
  cases a with
  | create j input =>
      rw [step] at h
      split at h
      case h_1 => cases h
      case h_2 =>
        split at h
        · exact callChange_answer (hsame h) rfl
        case h_2 relPath _ => exact goOn_calls (hsame h) rfl (.creating input relPath)
  | resolved j r =>
      simp only [step] at h
      split at h
      case h_1 => exact callChange_answer (hsame h) rfl
      case h_2 _ _ hcallj => exact goOn_calls (hsame h) rfl (.opening hcallj)
      case h_3 => exact callChange_answer (hsame h) rfl
      case h_4 row destination hcallj => exact goOn_calls (hsame h) rfl (.making hcallj)
      case h_5 => cases h
  | opened j id fails =>
      rw [step] at h
      split at h
      case h_2 => cases h
      case h_1 input relPath hcallj =>
        split_ifs at h with hfails hid
        · exact callChange_answer (hsame h) rfl
        · obtain rfl : fails = false := by simpa using hfails
          obtain rfl := Option.some.inj h
          exact callChange_update rfl
            (fun c' hc' => Option.some.inj hc' ▸ .inserting rfl hcallj hid rfl rfl) hcall
  | inserted j now =>
      rw [step] at h
      split at h
      case h_2 => cases h
      case h_1 input relPath id hcallj =>
        obtain rfl := Option.some.inj h
        exact createEnd_calls hcallj hcall
  | append j uploadId deviceId offset declared =>
      rw [step] at h
      split at h
      case h_1 => cases h
      case h_2 =>
        split at h
        · exact callChange_answer (hsame h) rfl
        case h_2 row hcheck =>
          obtain ⟨hrow, hactive, -⟩ := appendCheck_eq_ok hcheck
          have hid : uploadId = row.id := (Table.key_of_get hrow).symm
          exact goOn_calls (hsame h) rfl (.appending (hid ▸ hrow) hactive)
  | openedTemp j fails =>
      rw [step] at h
      split at h
      case h_2 => cases h
      case h_1 row hcallj =>
        split at h
        · exact callChange_answer (hsame h) rfl
        · exact callChange_answer (hsame h) rfl
        case h_3 inode _ hname => exact goOn_calls (hsame h) rfl (.opened hcallj hname)
  | chunk j data written fails =>
      rw [step] at h
      split at h
      case h_2 => cases h
      case h_1 row inode received overflow hcallj =>
        simp only at h
        split_ifs at h with hdata hfits
        · exact .kept (hsame h)
        · exact goOn_calls (hsame h) rfl (.stayed hcallj)
        · exact goOn_calls (hsame h) rfl (.stayed hcallj)
        case neg hfails =>
          obtain rfl : fails = false := by simpa using hfails
          obtain rfl := Option.some.inj h
          have hwrites : writes row received overflow data = true := by
            simpa [writes, hdata] using hfits
          exact goOn_calls hcall rfl (.wrote rfl hcallj hwrites rfl)
  | closed j broken now =>
      rw [step] at h
      split at h
      case h_2 => cases h
      case h_1 row inode received overflow threw hcallj =>
        obtain rfl := Option.some.inj h
        exact appendEnd_calls hcallj hcall
  | abort j uploadId deviceId =>
      rw [step] at h
      split at h
      case h_1 => cases h
      case h_2 =>
        split at h
        · exact callChange_answer (hsame h) rfl
        case h_2 row hreq =>
          split_ifs at h
          · exact callChange_answer (hsame h) rfl
          · have hrow := require_eq_ok hreq
            have hid : uploadId = row.id := (Table.key_of_get hrow).symm
            exact goOn_calls (hsame h) rfl (.removing (hid ▸ hrow))
  | removed j fails =>
      rw [step] at h
      split at h
      case h_1 row hcallj => exact goOn_calls (hsame h) rfl (.aborting hcallj)
      case h_2 cutoff path rest count hcallj => exact goOn_calls (hsame h) rfl (.swept hcallj)
      case h_3 => cases h
  | aborted j now =>
      rw [step] at h
      split at h
      case h_2 => cases h
      case h_1 row _ =>
        obtain rfl := Option.some.inj h
        rw [abortEnd, answerRow] at hcall
        split at hcall <;> exact callChange_answer hcall rfl
  | sweep j now olderThan =>
      rw [step] at h
      split at h
      case h_1 => cases h
      case h_2 =>
        simp only at h
        split_ifs at h
        · exact callChange_answer (hsame h) rfl
        · refine goOn_calls (hsame h) rfl (.sweeping fun p hp => ?_)
          obtain ⟨row, hrow, rfl⟩ := List.mem_map.mp hp
          exact ⟨row, Table.get_of_mem (List.mem_filter.mp hrow).1, rfl⟩
  | swept j now =>
      rw [step] at h
      split at h
      case h_2 => cases h
      case h_1 => exact callChange_answer (hsame h) rfl
  | madeDir j fails =>
      rw [step] at h
      split at h
      case h_2 => cases h
      case h_1 row destination hcallj =>
        split_ifs at h
        · exact callChange_answer (hsame h) rfl
        · exact goOn_calls (hsame h) rfl (.reserving hcallj)
  | reserved j fails =>
      rw [step] at h
      split at h
      case h_2 => cases h
      case h_1 row destination counter hcallj =>
        simp only at h
        split_ifs at h
        · exact callChange_answer (hsame h) rfl
        · exact goOn_calls (hsame h) rfl (.nextName hcallj)
        · exact callChange_answer (hsame h) rfl
        · exact goOn_calls (hsame h) rfl (.took hcallj)
  | renamed j fails =>
      rw [step] at h
      split at h
      case h_2 => cases h
      case h_1 row finalPath hcallj =>
        split at h
        case h_1 inode hname =>
          obtain rfl := Option.some.inj h
          exact goOn_calls hcall rfl (.recording rfl hcallj hname rfl)
        case h_2 => exact goOn_calls (hsame h) rfl (.cleaning hcallj)
  | recorded j now =>
      rw [step] at h
      split at h
      case h_2 => cases h
      case h_1 row finalPath _ =>
        obtain rfl := Option.some.inj h
        rw [finalizeEnd, answerRow] at hcall
        split at hcall <;> exact callChange_answer hcall rfl
  | cleaned j fails =>
      rw [step] at h
      split at h
      case h_2 => cases h
      case h_1 => exact callChange_answer (hsame h) rfl
  | get j uploadId deviceId =>
      rw [step] at h
      split at h
      case h_1 => cases h
      case h_2 => split at h <;> exact callChange_answer (hsame h) rfl
  | operate store =>
      obtain rfl := Option.some.inj h
      exact .kept hcall
  | restart =>
      obtain rfl := Option.some.inj h
      cases hcall

end Step

/-! ### Files of sessions -/

namespace Call

/-- The row the call was handed, or read. -/
def row : Call → Option UploadRow
  | .appending row | .writing row .. | .removing row | .aborting row | .resolving row
  | .making row _ | .reserving row .. | .renaming row _ | .recording row _ => some row
  | .creating .. | .opening .. | .inserting .. | .sweeping .. | .cleaning _ => none

lemma temp_path_mem {c : Call} {r : UploadRow} (h : c.row = some r) : r.temp_path ∈ c.tempPaths := by
  cases c <;> simp_all [row, tempPaths]

end Call

/-- No name is reserved in the server's own temp directory. -/
def reservesOutside (cfg : UploadConfig) (s : UploadState) : Action → Bool
  | .reserved i _ =>
      match s.calls i with
      | some (.reserving _ destination counter) => !inTempDir cfg (candidate destination counter)
      | _ => true
  | _ => true

/-- Files belong to sessions: `owner` names the session a file was opened for. -/
structure Owned (cfg : UploadConfig) (owner : ℕ → Option JsString) (s : UploadState) : Prop where
  ids : IdsOk s
  row : ∀ id row, s.uploads.get id = some row → row.temp_path = tempPath cfg id
  held : ∀ i c row, s.calls i = some c → c.row = some row →
    row.id ∈ s.usedIds ∧ row.temp_path = tempPath cfg row.id
  temp : ∀ i c p, s.calls i = some c → p ∈ c.tempPaths → ∃ id ∈ s.usedIds, p = tempPath cfg id ∧
    ∀ j c', s.calls j = some c' → c'.newId ≠ some id
  own : ∀ id x, id ∈ s.usedIds → s.disk.names (tempPath cfg id) = some x → owner x = some id
  handle : ∀ i row inode received overflow threw,
    s.calls i = some (.writing row inode received overflow threw) → owner inode = some row.id
  inj : ∀ x y id, owner x = some id → owner y = some id → x = y
  bound : ∀ x id, owner x = some id → x < s.disk.next ∧ id ∈ s.usedIds
  name : ∀ p x id, s.disk.names p = some x → owner x = some id →
    p = tempPath cfg id ∨ ∃ f ∈ s.published, f.path = p
  reserved : ∀ i c f, s.calls i = some c → c.reserved = some f → inTempDir cfg f = false ∧
    ∃ x, s.disk.names f = some x ∧ owner x = none
  apart : ∀ i j c c' f, s.calls i = some c → s.calls j = some c' → c.reserved = some f →
    c'.reserved = some f → i = j
  published : ∀ f ∈ s.published, inTempDir cfg f.path = false ∧
    s.disk.names f.path = some f.inode ∧ ∃ id, owner f.inode = some id

lemma owned_init (cfg : UploadConfig) (store : AuthStore) (disk : Disk JsString) :
    Owned cfg (fun _ => none) (init store disk) := by
  constructor <;> simp [init]
  exact idsOk_init store disk

lemma tempPath_injective (cfg : UploadConfig) : Function.Injective (tempPath cfg) := by
  intro id id' h
  simpa [tempPath] using h

section Owned

variable {cfg : UploadConfig} {s t : UploadState} {a : Action} {owner : ℕ → Option JsString}

/-- A name after a step: it was there, or it is the new temp file, a reservation, or what is
published. -/
inductive NameChange (cfg : UploadConfig) (s : UploadState) (a : Action) (t : UploadState)
    (p : JsString) (x : ℕ) : Prop
  | kept (h : s.disk.names p = some x)
  | created {id : JsString} (hp : p = tempPath cfg id) (hid : id ∉ s.usedIds)
      (hids : t.usedIds = id :: s.usedIds) (hdisk : t.disk = s.disk.truncate (tempPath cfg id))
  | reserved {i : ℕ} {row : UploadRow} {destination : JsString} {counter : ℕ}
      (ha : a = .reserved i false) (hcall : s.calls i = some (.reserving row destination counter))
      (hp : p = candidate destination counter) (hfree : s.disk.names p = none)
      (hx : x = s.disk.next) (hcalls : t.calls = Function.update s.calls i (some (.renaming row p)))
  | published {i : ℕ} {row : UploadRow} (ha : a = .renamed i false)
      (hcall : s.calls i = some (.renaming row p)) (hname : s.disk.names row.temp_path = some x)
      (hpub : t.published = ⟨p, x, s.disk.bytes x⟩ :: s.published)

lemma name_step (h : step cfg s a = some t) {p : JsString} {x : ℕ}
    (hx : t.disk.names p = some x) : NameChange cfg s a t p x := by
  cases step_effect h with
  | quiet _ hdisk | inserted _ _ _ _ hdisk | persisted _ _ _ _ hdisk | aborted _ _ _ hdisk
  | swept _ hdisk | recorded _ _ _ hdisk | operated _ hdisk => exact .kept (hdisk ▸ hx)
  | @created i input relPath id hid _ hdisk _ hids =>
      by_cases hp : p = tempPath cfg id
      · exact .created hp hid hids hdisk
      · rw [hdisk, Disk.names_truncate_of_ne _ _ _ hp] at hx
        exact .kept hx
  | wrote _ _ _ _ _ hdisk =>
      rw [hdisk, Disk.names_write] at hx
      exact .kept hx
  | removed _ _ _ hdisk =>
      rw [hdisk, Disk.names_remove] at hx
      split_ifs at hx
      exact .kept hx
  | reserved ha hcall hfree _ hdisk _ _ hcalls =>
      rw [hdisk, Disk.names_createNew] at hx
      split_ifs at hx with hp
      · subst hp
        exact .reserved ha hcall rfl hfree (Option.some.inj hx).symm hcalls
      · exact .kept hx
  | @published i row finalPath inode ha hcall hname _ hdisk hpub =>
      rw [hdisk, Disk.names_rename] at hx
      split_ifs at hx with hp hq
      · subst hp
        obtain rfl := Option.some.inj (hname.symm.trans hx)
        exact .published ha hcall hname hpub
      · exact .kept hx
  | cleaned _ _ hdisk =>
      rw [hdisk, Disk.names_remove] at hx
      split_ifs at hx
      exact .kept hx
  | restarted _ hdisk =>
      rw [hdisk, Disk.names_removeAll] at hx
      split_ifs at hx
      exact .kept hx

lemma Owned.of_tempPath (hs : Owned cfg owner s) {id id' : JsString} {x : ℕ}
    (hname : s.disk.names (tempPath cfg id) = some x) (hx : owner x = some id') : id' = id := by
  rcases hs.name _ x id' hname hx with hp | ⟨f, hf, hp⟩
  · exact (tempPath_injective cfg hp).symm
  · have hout := (hs.published f hf).1
    simp [hp, inTempDir_tempPath] at hout

/-- What happens to the bytes of a session's file: nothing, or one write through a handle. -/
lemma bytes_step (hs : Owned cfg owner s) (h : step cfg s a = some t) {x : ℕ} {id : JsString}
    (hx : owner x = some id) : t.disk.bytes x = s.disk.bytes x ∨
      ∃ i data written fails row received overflow, a = .chunk i data written fails ∧
        s.calls i = some (.writing row x received overflow false) ∧
        writes row received overflow data = true ∧
        t.disk.bytes x = Disk.writeAt (s.disk.bytes x) received (data.take written) := by
  have hlt := (hs.bound x id hx).1
  cases step_effect h with
  | quiet _ hdisk | inserted _ _ _ _ hdisk | persisted _ _ _ _ hdisk | aborted _ _ _ hdisk
  | swept _ hdisk | recorded _ _ _ hdisk | operated _ hdisk | removed _ _ _ hdisk
  | published _ _ _ _ hdisk | cleaned _ _ hdisk | restarted _ hdisk =>
      exact .inl ((congrArg (Disk.bytes · x) hdisk).trans rfl)
  | @created i input relPath id' hid _ hdisk =>
      refine .inl ?_
      rw [hdisk, Disk.truncate]
      split
      · exact Function.update_of_ne hlt.ne _ _
      case h_2 y hy =>
        refine Function.update_of_ne (fun hxy => hid ?_) _ _
        obtain rfl := hs.of_tempPath (hxy ▸ hy) hx
        exact (hs.bound x id hx).2
  | @wrote i data written fails row inode received overflow ha hcall hdata hfits _ hdisk =>
      by_cases hxi : x = inode
      · subst hxi
        refine .inr ⟨i, data, written, fails, row, received, overflow, ha, hcall,
          by simpa [writes, hdata] using hfits, ?_⟩
        rw [hdisk]
        exact Function.update_self _ _ _
      · refine .inl ?_
        rw [hdisk]
        exact Function.update_of_ne hxi _ _
  | reserved _ _ _ _ hdisk =>
      refine .inl ?_
      rw [hdisk]
      exact Function.update_of_ne hlt.ne _ _

/-- The owners after a step: those before it, and the session whose file was just opened. -/
structure OwnerStep (cfg : UploadConfig) (s t : UploadState) (owner owner' : ℕ → Option JsString) :
    Prop where
  mono : ∀ x id, owner x = some id → owner' x = some id
  back : ∀ x id, owner' x = some id → owner x = some id ∨
    (owner x = none ∧ id ∉ s.usedIds ∧ id ∈ t.usedIds ∧
      t.disk.names (tempPath cfg id) = some x ∧ t.disk.bytes x = [])
  new : ∀ id x, id ∉ s.usedIds → id ∈ t.usedIds → t.disk.names (tempPath cfg id) = some x →
    owner' x = some id

lemma exists_ownerStep (hs : Owned cfg owner s) (h : step cfg s a = some t) :
    ∃ owner', OwnerStep cfg s t owner owner' := by
  by_cases hids : t.usedIds = s.usedIds
  · refine ⟨owner, fun x id hx => hx, fun x id hx => .inl hx, fun id x hid hid' => ?_⟩
    exact absurd (hids ▸ hid') hid
  cases step_effect h with
  | quiet _ _ _ hsame | inserted _ _ _ _ _ _ hsame | wrote _ _ _ _ _ _ _ hsame
  | removed _ _ _ _ _ hsame | persisted _ _ _ _ _ _ hsame | aborted _ _ _ _ _ hsame
  | swept _ _ _ hsame | reserved _ _ _ _ _ _ hsame | published _ _ _ _ _ _ hsame
  | recorded _ _ _ _ _ hsame | cleaned _ _ _ _ hsame | operated _ _ _ hsame
  | restarted _ _ _ hsame => exact absurd hsame hids
  | @created i input relPath id hid _ hdisk _ hused =>
      obtain ⟨x, hx, hbytes, hfrom⟩ := s.disk.exists_truncate (tempPath cfg id)
      have hfree : owner x = none := by
        refine Option.eq_none_iff_forall_ne_some.mpr fun id' hid' => ?_
        rcases hfrom with hold | hnext
        · obtain rfl := hs.of_tempPath hold hid'
          exact hid (hs.bound x _ hid').2
        · exact absurd (hs.bound x id' hid').1 (by simp [hnext])
      refine ⟨Function.update owner x (some id), fun y id' hy => ?_, fun y id' hy => ?_,
        fun id' y hnew hused' hy => ?_⟩
      · rw [Function.update_of_ne, hy]
        rintro rfl
        simp [hfree] at hy
      · rw [Function.update_apply] at hy
        split_ifs at hy with hyx
        · obtain rfl := Option.some.inj hy
          exact .inr ⟨hyx ▸ hfree, hid, by simp [hused], by rw [hdisk, hyx, hx],
            by rw [hdisk, hyx, hbytes]⟩
        · exact .inl hy
      · obtain rfl : id' = id := by
          rw [hused, List.mem_cons] at hused'
          exact hused'.resolve_right hnew
        rw [hdisk, hx] at hy
        rw [← Option.some.inj hy, Function.update_self]

lemma next_step (h : step cfg s a = some t) : s.disk.next ≤ t.disk.next := by
  cases step_effect h with
  | quiet _ hdisk | inserted _ _ _ _ hdisk | persisted _ _ _ _ hdisk | aborted _ _ _ hdisk
  | swept _ hdisk | recorded _ _ _ hdisk | operated _ hdisk | removed _ _ _ hdisk
  | published _ _ _ _ hdisk | cleaned _ _ hdisk | restarted _ hdisk | wrote _ _ _ _ _ hdisk =>
      exact ((congrArg Disk.next hdisk).trans rfl).ge
  | created _ _ hdisk =>
      rw [hdisk, Disk.truncate]
      split
      · exact Nat.le_succ _
      · exact le_rfl
  | reserved _ _ _ _ hdisk =>
      rw [hdisk]
      exact Nat.le_succ _

lemma published_mono (h : step cfg s a = some t) : s.published ⊆ t.published := by
  cases step_effect h with
  | quiet _ _ hpub | created _ _ _ hpub | inserted _ _ _ _ _ hpub | wrote _ _ _ _ _ _ hpub
  | persisted _ _ _ _ _ hpub | removed _ _ _ _ hpub | aborted _ _ _ _ hpub | swept _ _ hpub
  | reserved _ _ _ _ _ hpub | recorded _ _ _ _ hpub | cleaned _ _ _ hpub | operated _ _ hpub
  | restarted _ _ hpub => exact hpub ▸ List.Subset.refl _
  | published _ _ _ _ _ hpub => exact hpub ▸ List.subset_cons_self _ _

lemma held_step (hs : Owned cfg owner s) (h : step cfg s a = some t)
    (hrow : ∀ id row, t.uploads.get id = some row → row.temp_path = tempPath cfg id) {i : ℕ}
    {c : Call} {row : UploadRow} (hcall : t.calls i = some c) (hc : c.row = some row) :
    row.id ∈ t.usedIds ∧ row.temp_path = tempPath cfg row.id := by
  have hold {c0 : Call} (hcall0 : s.calls i = some c0) (hc0 : c0.row = some row) :
      row.id ∈ t.usedIds ∧ row.temp_path = tempPath cfg row.id := by
    obtain ⟨hid, htemp⟩ := hs.held i c0 row hcall0 hc0
    exact ⟨usedIds_step h hid, htemp⟩
  cases call_step h hcall with
  | kept hcall0 => exact hold hcall0 hc
  | creating | opening | inserting | sweeping | swept | cleaning => cases hc
  | appending hget | removing hget =>
      obtain rfl := Option.some.inj hc
      exact ⟨usedIds_step h (hs.ids.known _ _ hget), hs.row _ _ hget⟩
  | opened hcall0 | stayed hcall0 | wrote _ hcall0 | aborting hcall0 | making hcall0
  | reserving hcall0 | nextName hcall0 | took hcall0 | recording _ hcall0 =>
      obtain rfl := Option.some.inj hc
      exact hold hcall0 rfl
  | resolving hget =>
      obtain rfl := Option.some.inj hc
      exact ⟨(idsOk_step hs.ids h).known _ _ hget, hrow _ _ hget⟩

/-- **Files stay with their sessions.** -/
theorem owned_step {owner' : ℕ → Option JsString} (hs : Owned cfg owner s)
    (hg : reservesOutside cfg s a = true) (h : step cfg s a = some t)
    (ho : OwnerStep cfg s t owner owner') : Owned cfg owner' t := by
  have htemp : ∀ i c, s.calls i = some c → ∀ p ∈ c.tempPaths, inTempDir cfg p = true := by
    intro i c hcall p hp
    obtain ⟨id, -, rfl, -⟩ := hs.temp i c p hcall hp
    exact inTempDir_tempPath cfg id
  have hrow : ∀ id row, t.uploads.get id = some row → row.temp_path = tempPath cfg id := by
    intro id row' hrow'
    cases row_step h hrow' with
    | kept hrow => exact hs.row id _ hrow
    | inserted _ _ hr' => rw [hr', newRow]
    | persisted _ _ _ _ hrow hr' | aborted _ _ _ hrow hr' | swept hrow _ hr'
    | recorded _ _ _ hrow hr' =>
        have htemp := hs.row id _ hrow
        rwa [hr']
  have houtside {f : JsString} {id : JsString} (hf : inTempDir cfg f = false) :
      f ≠ tempPath cfg id := ne_of_inTempDir (inTempDir_tempPath cfg id) hf
  refine ⟨idsOk_step hs.ids h, hrow, fun i c row hcall hc => held_step hs h hrow hcall hc,
    ?temp, ?own, ?handle, ?inj, ?bound, ?name, ?reserved, ?apart, ?published⟩
  case temp =>
    intro i c p hcall hp
    rcases temp_step h hcall hp with ⟨id, row, hget, rfl⟩ | ⟨c0, hcall0, hp0⟩
    · refine ⟨id, (idsOk_step hs.ids h).known id row hget, hrow id row hget,
        fun j c' hcall' hid' => ?_⟩
      simp [((idsOk_step hs.ids h).newIds j c' id hcall' hid').2] at hget
    · obtain ⟨id, hid, rfl, hnew⟩ := hs.temp i c0 p hcall0 hp0
      refine ⟨id, usedIds_step h hid, rfl, fun j c' hcall' hid' => ?_⟩
      rcases newId_step hs.ids h hcall' hid' with ⟨hc', -⟩ | ⟨hfresh, -⟩
      · exact hnew j c' hc' hid'
      · exact hfresh hid
  case own =>
    intro id x hid hx
    by_cases hold : id ∈ s.usedIds
    · cases name_step h hx with
      | kept hx0 => exact ho.mono x id (hs.own id x hold hx0)
      | created hp hfresh =>
          obtain rfl := tempPath_injective cfg hp
          exact absurd hold hfresh
      | reserved ha hcall hp =>
          subst ha
          simp [reservesOutside, hcall, ← hp, inTempDir_tempPath] at hg
      | published ha hcall =>
          have hout := (hs.reserved _ _ _ hcall rfl).1
          simp [inTempDir_tempPath] at hout
    · exact ho.new id x hold hid hx
  case handle =>
    intro i row inode received overflow threw hcall
    refine ho.mono _ _ ?_
    cases call_step h hcall with
    | kept hcall0 | stayed hcall0 => exact hs.handle i row inode _ _ _ hcall0
    | wrote _ hcall0 => exact hs.handle i row inode _ _ _ hcall0
    | opened hcall0 hname =>
        obtain ⟨hid, htemp⟩ := hs.held i _ row hcall0 rfl
        exact hs.own row.id inode hid (htemp ▸ hname)
  case inj =>
    intro x y id hx hy
    rcases ho.back x id hx with hx0 | ⟨-, hfresh, -, hxn, -⟩ <;>
      rcases ho.back y id hy with hy0 | ⟨-, hfresh', -, hyn, -⟩
    · exact hs.inj x y id hx0 hy0
    · exact absurd (hs.bound x id hx0).2 hfresh'
    · exact absurd (hs.bound y id hy0).2 hfresh
    · exact Option.some.inj (hxn.symm.trans hyn)
  case bound =>
    intro x id hx
    rcases ho.back x id hx with hx0 | ⟨-, -, hid, hxn, -⟩
    · obtain ⟨hlt, hid⟩ := hs.bound x id hx0
      exact ⟨hlt.trans_le (next_step h), usedIds_step h hid⟩
    · exact ⟨t.disk.lt_next _ _ hxn, hid⟩
  case name =>
    intro p x id hx hxo
    rcases ho.back x id hxo with hx0 | ⟨-, -, -, hxn, -⟩
    · cases name_step h hx with
      | kept hx1 =>
          rcases hs.name p x id hx1 hx0 with hp | ⟨f, hf, hp⟩
          · exact .inl hp
          · exact .inr ⟨f, published_mono h hf, hp⟩
      | @created id' hp hfresh hids hdisk =>
          subst hp
          have hnew := ho.new id' x hfresh (by simp [hids]) hx
          exact .inl (congrArg (tempPath cfg) (Option.some.inj (hnew.symm.trans hxo)))
      | reserved _ _ _ _ hxn => exact absurd (hs.bound x id hx0).1 (by simp [hxn])
      | published _ _ _ hpub => exact .inr ⟨_, by rw [hpub]; exact List.mem_cons_self, rfl⟩
    · exact .inl (t.disk.inj _ _ x hx hxn)
  case reserved =>
    have hnone {x : ℕ} {f : JsString} (hf : inTempDir cfg f = false)
        (hx : t.disk.names f = some x) (hx0 : owner x = none) : owner' x = none := by
      refine Option.eq_none_iff_forall_ne_some.mpr fun id hid => ?_
      rcases ho.back x id hid with hold | ⟨-, -, -, hxn, -⟩
      · simp [hx0] at hold
      · exact houtside hf (t.disk.inj _ _ x hx hxn)
    intro i c f hcall hf
    rcases reserved_step h hcall hf with ⟨c0, hcall0, hf0⟩ |
      ⟨row, destination, counter, rfl, hcall0, rfl, hfree, hdisk, hpub⟩
    · obtain ⟨hout, x, hx, hx0⟩ := hs.reserved i c0 f hcall0 hf0
      have hkept := reserved_kept htemp hs.apart h hcall0 hf0 hout hx hcall hf
      exact ⟨hout, x, hkept, hnone hout hkept hx0⟩
    · have hout : inTempDir cfg (candidate destination counter) = false := by
        simpa [reservesOutside, hcall0] using hg
      have hname : t.disk.names (candidate destination counter) = some s.disk.next := by
        simp [hdisk, Disk.names_createNew]
      refine ⟨hout, s.disk.next, hname, hnone hout hname ?_⟩
      exact Option.eq_none_iff_forall_ne_some.mpr fun id hid =>
        absurd (hs.bound _ id hid).1 (lt_irrefl _)
  case apart =>
    intro i j c c' f hcall hcall' hf hf'
    refine apart_step (fun k c f hc hf => ?_) hs.apart h hcall hcall' hf hf'
    obtain ⟨-, x, hx, -⟩ := hs.reserved k c f hc hf
    simp [hx]
  case published =>
    intro g hgp
    rcases published_step h hgp with hold | ⟨j, row, hcallj, -, hname, hname', -⟩
    · obtain ⟨hout, hx, id, hid⟩ := hs.published g hold
      refine ⟨hout, ?_, id, ho.mono _ _ hid⟩
      rcases names_step htemp h hout hx with ⟨i, c, hcall, hf, -⟩ | ⟨hx', -⟩
      · obtain ⟨-, y, hy, hy0⟩ := hs.reserved i c g.path hcall hf
        obtain rfl := Option.some.inj (hx.symm.trans hy)
        simp [hid] at hy0
      · exact hx'
    · obtain ⟨hid, htemp'⟩ := hs.held j _ row hcallj rfl
      exact ⟨(hs.reserved j _ g.path hcallj rfl).1, hname', row.id,
        ho.mono _ _ (hs.own row.id g.inode hid (htemp' ▸ hname))⟩

end Owned

end LocalCast.Uploads
