import LocalCast.Auth.Approval
import LocalCast.Events.Bus

/-!
The permission routes of the operator panel, `http/routes/operator.ts`.

* `applyLoop`, `transaction`: the loop of `applyPermissions` turn by turn, and the rollback of
  what it wrote before it threw.
* `transaction_applyLoop`: together they are the all-or-nothing statement the auth services run.
* `setPermissions`: `PUT /permissions` and the two spellings of `/devices/:id/permissions`.
* `WholesaleLaw`: afterwards the list alone says what the device may do, and a list that names
  an unknown folder changes no grant.
* `wholesale_iff`: the law holds of exactly the lists that leave no open folder out.
-/

namespace LocalCast.Http

open JsString Contract Db Auth Library

/-! ### The transaction -/

/-- The body of `applyPermissions`: the writes made so far, and how the loop ended. -/
def applyLoop (deviceId : JsString) :
    List FolderPermission → AuthStore → AuthStore × Except ApiException Unit
  | [], st => (st, .ok ())
  | p :: permissions, st =>
      match st.shared_folders.get p.folderId with
      | none => (st, .error ⟨.notFound, "Folder not found"⟩)
      | some _ => applyLoop deviceId permissions { st with
          folder_permissions := st.folder_permissions.put ⟨deviceId, p.folderId, p.mode⟩ }

/-- `db.transaction`: a body that throws is rolled back. -/
def transaction (body : AuthStore → AuthStore × Except ApiException Unit) (st : AuthStore) :
    AuthStore × Except ApiException Unit :=
  match body st with
  | (st', .ok ()) => (st', .ok ())
  | (_, .error e) => (st, .error e)

/-! ### The routes -/

/-- `DeviceSummary`. -/
structure DeviceSummary where
  id : JsString
  name : JsString
  platform : JsString
  status : DeviceStatus
  pairingCode : Option JsString
  permissions : List FolderPermission

inductive MatrixReply where
  | permissions (list : List FolderPermission)
  | device (summary : DeviceSummary)

/-- The requests that write grants; a body is what its schema made of it, `none` where the
schema refused. -/
inductive MatrixRequest where
  /-- `PUT /permissions`, the device named in the body. -/
  | put (body : Option (JsString × List FolderPermission))
  /-- `PUT` and `POST /devices/:id/permissions`. -/
  | putDevice (id : JsString) (body : Option (List FolderPermission))
  | postDevice (id : JsString) (body : Option (List FolderPermission))

/-- What a route leaves behind: the tables, its answer, and the event it published. -/
structure MatrixOutcome where
  store : AuthStore
  reply : Except ApiException MatrixReply
  published : Option Events.ServerEvent

/-- `permissionsFor`, in the order of the primary key. -/
def permissionsFor (st : AuthStore) (deviceId : JsString) : List FolderPermission :=
  ((st.folder_permissions.rows.filter fun p => p.device_id = deviceId).map fun p =>
    ⟨p.folder_id, p.mode⟩).insertionSort fun a b => toText a.folderId ≤ toText b.folderId

/-- `deviceSummary`. -/
def deviceSummary (st : AuthStore) (id : JsString) : Except ApiException DeviceSummary :=
  match st.getDevice id with
  | none => .error ⟨.notFound, "Device not found"⟩
  | some row =>
      let token := st.pairing_tokens.find fun t => t.consumed_by_device = some row.id
      .ok { id := row.id, name := row.name, platform := row.platform, status := row.status
            pairingCode := token.map PairingTokenRow.code
            permissions := permissionsFor st row.id }

def malformedBody : ApiException := ⟨.badRequest, "Request did not match the expected shape"⟩

/-- `applyPermissions` and, where it returns, the answer of the route. -/
def applyAndAnswer (st : AuthStore) (deviceId : JsString) (permissions : List FolderPermission)
    (answer : AuthStore → Except ApiException MatrixReply) : MatrixOutcome :=
  match transaction (applyLoop deviceId permissions) st with
  | (st', .ok ()) => ⟨st', answer st', some (.permissions deviceId)⟩
  | (st', .error e) => ⟨st', .error e, none⟩

/-- `setDevicePermissions`: the device is looked up before the body is parsed. -/
def setDevicePermissions (st : AuthStore) (id : JsString)
    (body : Option (List FolderPermission)) : MatrixOutcome :=
  match st.getDevice id, body with
  | none, _ => ⟨st, .error ⟨.notFound, "Device not found"⟩, none⟩
  | some _, none => ⟨st, .error malformedBody, none⟩
  | some _, some permissions =>
      applyAndAnswer st id permissions fun st' => (deviceSummary st' id).map .device

/-- The three routes. -/
def setPermissions (st : AuthStore) : MatrixRequest → MatrixOutcome
  | .put none => ⟨st, .error malformedBody, none⟩
  | .put (some (deviceId, permissions)) =>
      match st.getDevice deviceId with
      | none => ⟨st, .error ⟨.notFound, "Device not found"⟩, none⟩
      | some _ => applyAndAnswer st deviceId permissions fun st' =>
          .ok (.permissions (permissionsFor st' deviceId))
  | .putDevice id body => setDevicePermissions st id body
  | .postDevice id body => setDevicePermissions st id body

/-- The device a request is for and the list it submits. -/
def MatrixRequest.submitted : MatrixRequest → Option (JsString × List FolderPermission)
  | .put body => body
  | .putDevice id body | .postDevice id body => body.map fun permissions => (id, permissions)

/-! ### The transaction is all or nothing -/

section Transaction

variable {st st' : AuthStore} {d : JsString} {permissions : List FolderPermission}

/-- A loop that ends has written every permission in turn, and every folder was there. -/
lemma applyLoop_ok (h : applyLoop d permissions st = (st', .ok ())) :
    applyPermissions st d permissions = .ok st' := by
  induction permissions generalizing st with
  | nil =>
      obtain rfl : st = st' := congrArg Prod.fst h
      rfl
  | cons p permissions ih =>
      rw [applyLoop] at h
      cases hf : st.shared_folders.get p.folderId with
      | none => simp [hf] at h
      | some row =>
          rw [hf] at h
          have hrest := ih h
          rw [applyPermissions] at hrest ⊢
          split_ifs at hrest with hall
          have hcons : (p :: permissions).all fun q =>
              (st.shared_folders.get q.folderId).isSome := by
            rw [List.all_cons, hf]
            exact hall
          rw [if_pos hcons]
          exact hrest

/-- A loop that throws met a folder that is not there. -/
lemma applyLoop_error {e : ApiException} (h : applyLoop d permissions st = (st', .error e)) :
    applyPermissions st d permissions = .error e := by
  induction permissions generalizing st with
  | nil => cases h
  | cons p permissions ih =>
      rw [applyLoop] at h
      cases hf : st.shared_folders.get p.folderId with
      | none =>
          rw [hf] at h
          obtain rfl : _ = e := Except.error.inj (congrArg Prod.snd h)
          have hcons : ¬ ((p :: permissions).all fun q =>
              (st.shared_folders.get q.folderId).isSome) := by simp [hf]
          rw [applyPermissions, if_neg hcons]
      | some row =>
          rw [hf] at h
          have hrest := ih h
          rw [applyPermissions] at hrest ⊢
          split_ifs at hrest with hall
          have hcons : ¬ ((p :: permissions).all fun q =>
              (st.shared_folders.get q.folderId).isSome) := by
            rw [List.all_cons, hf]
            exact hall
          rw [if_neg hcons]
          exact hrest

/-- The loop in its transaction is the statement of the auth services. -/
theorem transaction_applyLoop (st : AuthStore) (d : JsString)
    (permissions : List FolderPermission) :
    transaction (applyLoop d permissions) st =
      match applyPermissions st d permissions with
      | .ok st' => (st', .ok ())
      | .error e => (st, .error e) := by
  rw [transaction]
  rcases h : applyLoop d permissions st with ⟨st', e | ⟨⟨⟩⟩⟩
  · rw [applyLoop_error h]
  · rw [applyLoop_ok h]

end Transaction

/-! ### What a request leaves behind -/

/-- Every folder of the list exists. -/
def AllKnown (st : AuthStore) (permissions : List FolderPermission) : Prop :=
  ∀ p ∈ permissions, st.shared_folders.get p.folderId ≠ none

/-- A list is the whole of what the device may do afterwards, its last entry for a folder
counting; a list with an unknown folder is refused and changes no grant of any device. -/
structure WholesaleLaw (st : AuthStore) (d : JsString) (permissions : List FolderPermission)
    (out : MatrixOutcome) : Prop where
  wholesale : AllKnown st permissions →
    (∃ reply, out.reply = .ok reply) ∧
      ∀ f row, out.store.shared_folders.get f = some row → row.enabled = true →
        modeFor out.store d f = (snapshotMode permissions f).getD .none
  atomic : ¬ AllKnown st permissions →
    (∃ e, out.reply = .error e) ∧
      ∀ d' f, out.store.folder_permissions.get (d', f) = st.folder_permissions.get (d', f)

/-- The list leaves out no folder that is open to the device, or is refused. -/
def LeavesNothingOpen (st : AuthStore) (d : JsString) (permissions : List FolderPermission) :
    Prop :=
  ¬ AllKnown st permissions ∨
    ∀ f, (∀ p ∈ permissions, p.folderId ≠ f) → modeFor st d f = .none

section Requests

variable {st : AuthStore} {d : JsString} {permissions : List FolderPermission}

lemma applyPermissions_of_known (h : AllKnown st permissions) :
    applyPermissions st d permissions = .ok { st with
      folder_permissions := upsertPermissions d permissions st.folder_permissions } := by
  have hall : permissions.all fun p => (st.shared_folders.get p.folderId).isSome := by
    rw [List.all_eq_true]
    exact fun p hp => Option.isSome_iff_ne_none.mpr (h p hp)
  rw [applyPermissions, if_pos hall]

lemma applyPermissions_of_not_known (h : ¬ AllKnown st permissions) :
    applyPermissions st d permissions = .error ⟨.notFound, "Folder not found"⟩ := by
  have hall : ¬ permissions.all fun p => (st.shared_folders.get p.folderId).isSome := by
    rw [List.all_eq_true]
    exact fun hall => h fun p hp => Option.isSome_iff_ne_none.mp (hall p hp)
  rw [applyPermissions, if_neg hall]

/-- A folder a list has no entry for. -/
lemma snapshotMode_eq_none_iff {f : JsString} :
    snapshotMode permissions f = none ↔ ∀ p ∈ permissions, p.folderId ≠ f := by
  induction permissions with
  | nil => simp [snapshotMode]
  | cons p permissions ih =>
      rw [snapshotMode, List.forall_mem_cons, ← ih]
      cases snapshotMode permissions f with
      | none => simp
      | some mode => simp

/-- After the upserts a folder of the list has its last mode, and the others keep theirs. -/
lemma modeFor_upsertPermissions {f : JsString} {row : FolderRow}
    (hrow : st.shared_folders.get f = some row) (henabled : row.enabled = true) :
    modeFor { st with
      folder_permissions := upsertPermissions d permissions st.folder_permissions } d f =
        (snapshotMode permissions f).getD (modeFor st d f) := by
  rw [modeFor, modeFor]
  dsimp only
  rw [get_upsertPermissions, hrow]
  cases snapshotMode permissions f with
  | some mode => simp [henabled]
  | none => rfl

/-- The state of the tables after a request that named an existing device. -/
lemma setPermissions_store {req : MatrixRequest} (hreq : req.submitted = some (d, permissions))
    {device : DeviceRow} (hdev : st.getDevice d = some device) :
    (setPermissions st req).store = (transaction (applyLoop d permissions) st).1 ∧
      ((∃ reply, (setPermissions st req).reply = .ok reply) ↔ AllKnown st permissions) := by
  have hanswer (answer : AuthStore → Except ApiException MatrixReply)
      (hok : ∀ grants, ∃ reply, answer { st with folder_permissions := grants } = .ok reply) :
      (applyAndAnswer st d permissions answer).store
          = (transaction (applyLoop d permissions) st).1 ∧
        ((∃ reply, (applyAndAnswer st d permissions answer).reply = .ok reply) ↔
          AllKnown st permissions) := by
    rw [applyAndAnswer, transaction_applyLoop]
    by_cases hknown : AllKnown st permissions
    · rw [applyPermissions_of_known hknown]
      exact ⟨rfl, iff_of_true (hok _) hknown⟩
    · rw [applyPermissions_of_not_known hknown]
      exact ⟨rfl, iff_of_false (by rintro ⟨reply, h⟩; cases h) hknown⟩
  have hdevice : setDevicePermissions st d (some permissions) =
      applyAndAnswer st d permissions fun st' => (deviceSummary st' d).map .device := by
    simp only [setDevicePermissions, hdev]
  have hsummary (grants : Table PermissionRow) : ∃ reply,
      (deviceSummary { st with folder_permissions := grants } d).map MatrixReply.device
        = .ok reply := by
    have hdev' : ({ st with folder_permissions := grants } : AuthStore).getDevice d
        = some device := hdev
    rw [deviceSummary, hdev']
    exact ⟨_, rfl⟩
  cases req with
  | put body =>
      obtain rfl : body = some (d, permissions) := hreq
      rw [setPermissions, hdev]
      exact hanswer _ fun grants => ⟨_, rfl⟩
  | putDevice id body =>
      obtain ⟨list, rfl, h⟩ := Option.map_eq_some_iff.mp hreq
      obtain ⟨rfl, rfl⟩ := Prod.mk.inj h
      rw [setPermissions, hdevice]
      exact hanswer _ hsummary
  | postDevice id body =>
      obtain ⟨list, rfl, h⟩ := Option.map_eq_some_iff.mp hreq
      obtain ⟨rfl, rfl⟩ := Prod.mk.inj h
      rw [setPermissions, hdevice]
      exact hanswer _ hsummary

/-- Whatever is asked for one device, the grants of the others stay. -/
theorem setPermissions_other {req : MatrixRequest}
    (hreq : req.submitted = some (d, permissions)) {device : DeviceRow}
    (hdev : st.getDevice d = some device) {d' : JsString} (hne : d' ≠ d) (f : JsString) :
    (setPermissions st req).store.folder_permissions.get (d', f)
      = st.folder_permissions.get (d', f) := by
  rw [(setPermissions_store hreq hdev).1, transaction_applyLoop]
  by_cases hknown : AllKnown st permissions
  · rw [applyPermissions_of_known hknown]
    exact get_upsertPermissions_of_ne hne _ _ _
  · rw [applyPermissions_of_not_known hknown]

/-- **A submitted list is the whole truth** of exactly the lists that leave no folder out that
was open to the device before. -/
theorem wholesale_iff {req : MatrixRequest} (hreq : req.submitted = some (d, permissions))
    {device : DeviceRow} (hdev : st.getDevice d = some device) :
    WholesaleLaw st d permissions (setPermissions st req) ↔
      LeavesNothingOpen st d permissions := by
  obtain ⟨hstore, hreply⟩ := setPermissions_store hreq hdev
  rw [transaction_applyLoop] at hstore
  by_cases hknown : AllKnown st permissions
  · rw [applyPermissions_of_known hknown] at hstore
    dsimp only at hstore
    constructor
    · intro hlaw
      refine .inr fun f hf => ?_
      have hnone := snapshotMode_eq_none_iff.mpr hf
      cases hrow : st.shared_folders.get f with
      | none => rw [modeFor, hrow]; split <;> simp_all
      | some row =>
          by_cases henabled : row.enabled = true
          · have hmode := (hlaw.wholesale hknown).2 f row (by rw [hstore]; exact hrow) henabled
            rw [hstore, modeFor_upsertPermissions hrow henabled, hnone] at hmode
            exact hmode
          · rw [modeFor, hrow]
            split <;> simp_all
    · rintro (hno | hopen)
      · exact absurd hknown hno
      · refine ⟨fun _ => ⟨hreply.mpr hknown, fun f row hrow henabled => ?_⟩,
          fun hno => absurd hknown hno⟩
        rw [hstore] at hrow ⊢
        have hrow' : st.shared_folders.get f = some row := hrow
        rw [modeFor_upsertPermissions hrow' henabled]
        cases hmode : snapshotMode permissions f with
        | some mode => rfl
        | none => exact hopen f (snapshotMode_eq_none_iff.mp hmode)
  · rw [applyPermissions_of_not_known hknown] at hstore
    refine iff_of_true ⟨fun h => absurd h hknown, fun _ => ⟨?_, fun d' f => by rw [hstore]⟩⟩
      (.inl hknown)
    cases h : (setPermissions st req).reply with
    | error e => exact ⟨e, rfl⟩
    | ok reply => exact absurd (hreply.mp ⟨reply, h⟩) hknown

end Requests

/-! ### A folder left out -/

def matrixFolder (id : JsString) : FolderRow :=
  { id := id, path := js "C:\\" ++ id, label := id, writable := true, enabled := true
    available := true, auto_index := true, last_indexed_at := none, file_count := none
    total_bytes := none, created_at := 0 }

/-- One device with a grant on one of two folders. -/
def matrixStore : AuthStore where
  devices := ⟨[{ id := js "d", user_id := js "owner", name := js "Phone", platform := js "android"
                 status := .active, token_version := 1, dav_password_hash := none
                 refresh_hash := none, refresh_expires_at := none, created_at := 0 }], by decide⟩
  pairing_tokens := .empty
  folder_permissions := ⟨[⟨js "d", js "films", .full⟩], by decide⟩
  shared_folders := ⟨[matrixFolder (js "films"), matrixFolder (js "music")], by decide⟩

/-- A list that closes the folder that was open is the whole truth. -/
theorem wholesale_closed : WholesaleLaw matrixStore (js "d")
    [⟨js "films", .none⟩, ⟨js "music", .stream⟩]
    (setPermissions matrixStore (.postDevice (js "d")
      (some [⟨js "films", .none⟩, ⟨js "music", .stream⟩]))) :=
  (wholesale_iff rfl rfl).mpr (.inr fun f hf => by
    have hne : (js "films" = f) = False := eq_false (hf ⟨js "films", .none⟩ (by simp))
    have hget : matrixStore.folder_permissions.get (js "d", f) = none := by
      simp [matrixStore, Table.get, hne]
    rw [modeFor, hget])

/-- A list of the other folder only leaves the first as open as it was. -/
theorem films_stay_open : ¬ ∀ (st : AuthStore) (d : JsString)
    (permissions : List FolderPermission) (req : MatrixRequest),
    req.submitted = some (d, permissions) → st.getDevice d ≠ none →
      WholesaleLaw st d permissions (setPermissions st req) := by
  intro h
  have hlaw := h matrixStore (js "d") [⟨js "music", .stream⟩]
    (.postDevice (js "d") (some [⟨js "music", .stream⟩])) rfl (by decide)
  have hmode := (hlaw.wholesale (by unfold AllKnown; decide)).2 (js "films")
    (matrixFolder (js "films")) (by decide +kernel) rfl
  exact absurd hmode (by decide +kernel)

end LocalCast.Http
