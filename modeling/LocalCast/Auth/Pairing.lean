import LocalCast.Auth.Tokens

/-!
`auth/pairing.ts`: minting a pairing code, claiming it, the operator's decision, and the
device's poll. Each `async` method is split at its `await`: `claim` before and after
`verifyPassword`, `approve` before and after `hashPassword`, `status` before the session is
issued.
-/

namespace LocalCast.Auth

open JsString Contract Db

/-- `MAX_FAILED_ATTEMPTS`: five wrong secrets and the code is dead. -/
def MAX_FAILED_ATTEMPTS : ℕ := 5

/-- `PENDING_GRACE_MS`, an hour. -/
def PENDING_GRACE_MS : ℕ := 60 * 60 * 1000

/-- `REJECTED_GRACE_MS`, a quarter of an hour. -/
def REJECTED_GRACE_MS : ℕ := 15 * 60 * 1000

/-- `DAV_STASH_TTL_MS`, an hour. -/
def DAV_STASH_TTL_MS : ℕ := 60 * 60 * 1000

/-- How long a spent or expired pairing row is kept. -/
def TOKEN_GRACE_MS : ℕ := 24 * 60 * 60 * 1000

/-! ### Minting -/

structure MintOptions where
  defaultPermissions : List FolderPermission
  ttlSeconds : ℕ

/-- Insert the new row under the first of the drawn codes that is free; a row whose id or
code is taken violates a constraint, and twenty violations are an error. -/
def insertToken (tokens : Table PairingTokenRow) (row : JsString → PairingTokenRow) :
    List JsString → Option (Table PairingTokenRow)
  | [] => none
  | code :: codes =>
      if (tokens.find fun t => t.code = code).isSome then insertToken tokens row codes
      else match tokens.insert (row code) with
        | none => insertToken tokens row codes
        | some tokens' => some tokens'

/-- The first statement of `mint`: drop the rows a day past their use. -/
def clearSpent (st : AuthStore) (now : Time) : AuthStore :=
  { st with pairing_tokens := st.pairing_tokens.delete fun t =>
      t.consumed_at.any (fun c => c + TOKEN_GRACE_MS < now) || t.expires_at + TOKEN_GRACE_MS < now }

/-- `mint` after `clearSpent`. -/
def mint (st : AuthStore) (opts : MintOptions) (id secretHash : JsString)
    (codes : List JsString) (now : Time) : Option AuthStore :=
  let row (code : JsString) : PairingTokenRow :=
    { id := id, code := code, secret_hash := secretHash, failed_attempts := 0, locked_at := none
      created_at := now, expires_at := now + opts.ttlSeconds * 1000, consumed_at := none
      consumed_by_device := none, default_permissions := opts.defaultPermissions }
  (insertToken st.pairing_tokens row (codes.take 20)).map fun tokens =>
    { st with pairing_tokens := tokens }

/-! ### Claiming -/

structure PairClaimRequest where
  code : JsString
  secret : Option JsString
  deviceName : JsString
  platform : JsString
deriving DecidableEq

def pairingInvalid : ApiException := ⟨.pairingInvalid, "Pairing code is not valid"⟩

def pairingLocked : ApiException :=
  ⟨.pairingLocked, "Pairing code is locked after too many attempts"⟩

def pairingConsumed : ApiException := ⟨.pairingConsumed, "Pairing code has already been used"⟩

/-- `claim` up to its `await`: the row read, if the code can still be claimed. -/
def claimRead (rt : Runtime) (st : AuthStore) (req : PairClaimRequest) (now : Time) :
    Except ApiException PairingTokenRow :=
  let code := rt.toUpperCase req.code
  match st.pairing_tokens.find fun t => t.code = code with
  | none => .error pairingInvalid
  | some token =>
      if token.locked_at ≠ none then .error pairingLocked
      else if token.consumed_at ≠ none then .error pairingConsumed
      else if token.expires_at ≤ now then
        .error ⟨.pairingExpired, "Pairing code has expired"⟩
      else .ok token

/-- `registerFailure`: the count is the one the caller computed from the row it had read. -/
def registerFailure (st : AuthStore) (tokenId : JsString) (attempts : ℕ) (now : Time) :
    AuthStore :=
  let locked := if attempts ≥ MAX_FAILED_ATTEMPTS then some now else none
  { st with pairing_tokens := st.pairing_tokens.updateKey tokenId fun t =>
      { t with failed_attempts := attempts, locked_at := locked } }

/-- The first of `base (2)`, `base (3)`, ... that is free, `fuel` of them tried. -/
def numberedName (taken : JsString → Bool) (base : JsString) : ℕ → ℕ → Option JsString
  | 0, _ => none
  | fuel + 1, n =>
      let candidate := base ++ js (" (" ++ toString n ++ ")")
      if taken candidate then numberedName taken base fuel (n + 1) else some candidate

/-- `uniqueName`: a name no device but a revoked one has. -/
def uniqueName (st : AuthStore) (wanted : JsString) (now : Time) : JsString :=
  let trimmed := (trim wanted).take 64
  let base := if trimmed = [] then js "Device" else trimmed
  let taken (name : JsString) : Bool :=
    (st.devices.find fun d => d.status ≠ .revoked && d.name = name).isSome
  if taken base then
    (numberedName taken base 998 2).getD (base ++ js (" (" ++ toString (now % 10000) ++ ")"))
  else base

/-- `claim` after its `await`: consume the token and create the pending device in one
transaction. `called` is the time the claim was called at. -/
def claimConsume (rt : Runtime) (st : AuthStore) (token : PairingTokenRow)
    (req : PairClaimRequest) (deviceId : JsString) (called now : Time) :
    Except ApiException AuthStore :=
  let free (t : PairingTokenRow) : Bool :=
    t.id = token.id && t.consumed_at.isNone && t.locked_at.isNone && called < t.expires_at
  let device : DeviceRow :=
    { id := deviceId, user_id := rt.ownerUserId, name := uniqueName st req.deviceName now
      platform := req.platform, status := .pending, token_version := 1
      dav_password_hash := none, refresh_hash := none, refresh_expires_at := none
      created_at := called }
  if st.pairing_tokens.count free ≠ 1 then .error pairingConsumed
  else match st.devices.insert device with
    | none => .error ⟨.internal, "SQLITE_CONSTRAINT"⟩
    | some devices =>
        .ok { st with
          devices := devices
          pairing_tokens := st.pairing_tokens.update free fun t =>
            { t with consumed_at := some called, consumed_by_device := some deviceId } }

/-! ### The operator's decision -/

/-- `defaultPermissionsFor`: the snapshot taken when the code was minted. -/
def defaultPermissionsFor (st : AuthStore) (deviceId : JsString) : List FolderPermission :=
  match st.pairing_tokens.find fun t => t.consumed_by_device = some deviceId with
  | none => []
  | some t => t.default_permissions

/-- The grants of a snapshot for folders that still exist. -/
def existingPermissions (st : AuthStore) (perms : List FolderPermission) :
    List FolderPermission :=
  perms.filter fun p => (st.shared_folders.get p.folderId).isSome

/-- `INSERT ... ON CONFLICT DO UPDATE` for each permission in turn. -/
def upsertPermissions (deviceId : JsString) (perms : List FolderPermission)
    (grants : Table PermissionRow) : Table PermissionRow :=
  perms.foldl (fun grants p => grants.put ⟨deviceId, p.folderId, p.mode⟩) grants

/-- `approve` up to its `await`. -/
def approveRead (st : AuthStore) (deviceId : JsString) : Except ApiException DeviceRow :=
  match st.getDevice deviceId with
  | none => .error ⟨.notFound, "Device not found"⟩
  | some device =>
      if device.status = .revoked then .error ⟨.deviceRevoked, "Device access has been closed"⟩
      else .ok device

/-- `approve` after its `await`, in one transaction. A grant for a device whose row is gone
violates the foreign key. -/
def approveApply (st : AuthStore) (deviceId davHash : JsString) : Except ApiException AuthStore :=
  let perms := existingPermissions st (defaultPermissionsFor st deviceId)
  if (st.getDevice deviceId).isNone ∧ perms ≠ [] then .error ⟨.internal, "SQLITE_CONSTRAINT"⟩
  else .ok { st with
    devices := st.devices.updateKey deviceId fun d =>
      { d with status := .active, dav_password_hash := some davHash }
    folder_permissions := upsertPermissions deviceId perms st.folder_permissions }

/-- `pruneAbandoned`: pending claims nobody answered, and rejected devices that were never
approved. -/
def pruneAbandoned (st : AuthStore) (now : Time) : AuthStore :=
  st.deleteDevices fun d =>
    (d.status = .pending && d.created_at + PENDING_GRACE_MS < now) ||
      (d.status = .revoked && d.dav_password_hash.isNone && d.created_at + REJECTED_GRACE_MS < now)

/-- `applyPermissions` of the operator router: all of the list or, where a folder is
unknown, none of it. -/
def applyPermissions (st : AuthStore) (deviceId : JsString) (perms : List FolderPermission) :
    Except ApiException AuthStore :=
  if perms.all fun p => (st.shared_folders.get p.folderId).isSome then
    .ok { st with folder_permissions := upsertPermissions deviceId perms st.folder_permissions }
  else .error ⟨.notFound, "Folder not found"⟩

/-! ### The device's poll -/

/-- `claimTicket`. -/
def claimTicket (rt : Runtime) (deviceId : JsString) : JsString :=
  rt.hmac (js "claim:" ++ deviceId)

/-- The answers of `status` that need no session. -/
inductive PollRead where
  | pending
  | rejected
  | approved (device : DeviceRow)

/-- `status` up to the stash of one-time passwords. -/
def statusRead (rt : Runtime) (st : AuthStore) (deviceId ticket : JsString) :
    Except ApiException PollRead :=
  if ticket ≠ claimTicket rt deviceId then .error ⟨.notFound, "Not found"⟩
  else match st.getDevice deviceId with
    | none => .error ⟨.notFound, "Not found"⟩
    | some device =>
        match device.status with
        | .pending => .ok .pending
        | .revoked => .ok .rejected
        | .active => .ok (.approved device)

/-- A stashed one-time password, unless it is too old. -/
def freshStash (stash : Option (JsString × Time)) (now : Time) : Option JsString :=
  match stash with
  | none => none
  | some (password, at_) => if now - at_ > DAV_STASH_TTL_MS then none else some password

/-! ### Facts about single calls -/

lemma get_insertToken {tokens tokens' : Table PairingTokenRow} {row : JsString → PairingTokenRow}
    (id : JsString) (hid : ∀ code, (row code).id = id) {codes : List JsString}
    (h : insertToken tokens row codes = some tokens') :
    ∃ code, ∀ k, tokens'.get k = if k = id then some (row code) else tokens.get k := by
  induction codes with
  | nil => cases h
  | cons code codes ih =>
      rw [insertToken] at h
      split_ifs at h
      · exact ih h
      · cases hins : tokens.insert (row code) with
        | none => exact ih (by simpa [hins] using h)
        | some t =>
            obtain rfl : t = tokens' := by simpa [hins] using h
            exact ⟨code, fun k => by rw [Table.get_insert hins, key_pairingToken, hid]⟩

/-- What `mint` stores: a fresh row under its id, all else as it was. -/
lemma mint_eq_some {st st' : AuthStore} {opts : MintOptions} {id secretHash : JsString}
    {codes : List JsString} {now : Time} (h : mint st opts id secretHash codes now = some st') :
    ∃ row : PairingTokenRow, row.id = id ∧ row.failed_attempts = 0 ∧ row.locked_at = none ∧
      row.consumed_at = none ∧ row.consumed_by_device = none ∧
      row.default_permissions = opts.defaultPermissions ∧
      (∀ k, st'.pairing_tokens.get k = if k = id then some row else st.pairing_tokens.get k) ∧
      st' = { st with pairing_tokens := st'.pairing_tokens } := by
  obtain ⟨tokens, htokens, rfl⟩ := Option.map_eq_some_iff.mp h
  obtain ⟨code, hget⟩ := get_insertToken id (fun _ => rfl) htokens
  exact ⟨_, rfl, rfl, rfl, rfl, rfl, rfl, hget, rfl⟩

/-- A claim reads a row of the table that is neither locked nor consumed. -/
lemma claimRead_eq_ok {rt : Runtime} {st : AuthStore} {req : PairClaimRequest} {now : Time}
    {token : PairingTokenRow} (h : claimRead rt st req now = .ok token) :
    st.pairing_tokens.get token.id = some token ∧ token.locked_at = none ∧
      token.consumed_at = none := by
  rw [claimRead] at h
  cases hf : st.pairing_tokens.find fun t => t.code = rt.toUpperCase req.code with
  | none => simp [hf] at h
  | some row =>
      simp only [hf] at h
      split_ifs at h with hlocked hconsumed
      obtain rfl : row = token := by simpa using h
      exact ⟨(Table.mem_of_find hf).1, not_not.mp hlocked, not_not.mp hconsumed⟩

/-- What a claim stores when it wins: the token, which was unlocked and unused, is consumed
by the new pending device. -/
lemma claimConsume_eq_ok {rt : Runtime} {st st' : AuthStore} {token : PairingTokenRow}
    {req : PairClaimRequest} {deviceId : JsString} {called now : Time}
    (h : claimConsume rt st token req deviceId called now = .ok st') :
    (∃ row, st.pairing_tokens.get token.id = some row ∧ row.locked_at = none ∧
        row.consumed_at = none ∧
        ∀ k, st'.pairing_tokens.get k = if k = token.id then
          some { row with consumed_at := some called, consumed_by_device := some deviceId }
          else st.pairing_tokens.get k) ∧
      (∃ device : DeviceRow, device.id = deviceId ∧ device.status = .pending ∧
        device.refresh_hash = none ∧
        ∀ k, st'.devices.get k = if k = deviceId then some device else st.devices.get k) ∧
      st'.folder_permissions = st.folder_permissions ∧
      st'.shared_folders = st.shared_folders := by
  rw [claimConsume] at h
  split_ifs at h with hcount
  rw [ne_eq, not_not] at hcount
  split at h
  · cases h
  case h_2 devices hins =>
    cases h
    refine ⟨?_, ⟨_, rfl, rfl, rfl, fun k => Table.get_insert hins k⟩, rfl, rfl⟩
    have hpos := Nat.one_pos
    rw [← hcount] at hpos
    obtain ⟨row, hrow, hfree⟩ := List.countP_pos_iff.mp hpos
    have hget := Table.get_of_mem hrow
    simp only [Bool.and_eq_true, decide_eq_true_eq, Option.isNone_iff_eq_none] at hfree
    obtain ⟨⟨⟨hid, hc⟩, hl⟩, hexp⟩ := hfree
    rw [key_pairingToken, hid] at hget
    refine ⟨row, hget, hl, hc, fun k => ?_⟩
    rw [Table.get_update]
    by_cases hk : k = token.id
    · subst hk
      simp [hget, hid, hc, hl, hexp]
    · cases hg : st.pairing_tokens.get k with
      | none => simp [hk]
      | some r =>
          have : r.id ≠ token.id := by
            rw [← key_pairingToken, Table.key_of_get hg]
            exact hk
          simp [hk, this]

/-- An approved poll read the row of an active device. -/
lemma statusRead_eq_approved {rt : Runtime} {st : AuthStore} {deviceId ticket : JsString}
    {device : DeviceRow} (h : statusRead rt st deviceId ticket = .ok (.approved device)) :
    st.getDevice deviceId = some device ∧ device.status = .active := by
  rw [statusRead] at h
  split_ifs at h
  cases hd : st.getDevice deviceId with
  | none => simp [hd] at h
  | some d => cases hs : d.status <;> simp_all

/-- Grants written for one device leave those of the others. -/
lemma get_upsertPermissions_of_ne {deviceId d : JsString} (hd : d ≠ deviceId)
    (perms : List FolderPermission) (grants : Table PermissionRow) (f : JsString) :
    (upsertPermissions deviceId perms grants).get (d, f) = grants.get (d, f) := by
  induction perms generalizing grants with
  | nil => rfl
  | cons p perms ih =>
      rw [upsertPermissions, List.foldl_cons, ← upsertPermissions, ih, Table.get_put]
      simp [hd]

/-- An approval activates the row if there is one, and writes grants of that device only,
none where its row is gone. -/
lemma approveApply_eq_ok {st st' : AuthStore} {deviceId davHash : JsString}
    (h : approveApply st deviceId davHash = .ok st') :
    (∀ d, st'.devices.get d = if d = deviceId then
        (st.devices.get d).map fun r =>
          { r with status := .active, dav_password_hash := some davHash }
        else st.devices.get d) ∧
      (∀ d f, d ≠ deviceId ∨ st.devices.get d = none →
        st'.folder_permissions.get (d, f) = st.folder_permissions.get (d, f)) ∧
      st'.pairing_tokens = st.pairing_tokens ∧ st'.shared_folders = st.shared_folders := by
  rw [approveApply] at h
  split_ifs at h with hnone
  obtain rfl := Except.ok.inj h
  refine ⟨fun d => by rw [Table.get_updateKey], fun d f hd => ?_, rfl, rfl⟩
  by_cases hne : d = deviceId
  · subst hne
    have hgone : (st.getDevice d).isNone := by
      rw [AuthStore.getDevice, hd.resolve_left (by simp)]
      rfl
    have hperms : existingPermissions st (defaultPermissionsFor st d) = [] := by
      by_contra hp
      exact hnone ⟨hgone, hp⟩
    dsimp only
    rw [hperms]
    rfl
  · exact get_upsertPermissions_of_ne hne _ _ _

lemma applyPermissions_eq_ok {st st' : AuthStore} {deviceId : JsString}
    {perms : List FolderPermission} (h : applyPermissions st deviceId perms = .ok st') :
    st' = { st with
      folder_permissions := upsertPermissions deviceId perms st.folder_permissions } := by
  rw [applyPermissions] at h
  split_ifs at h
  exact (Except.ok.inj h).symm

/-- Deleting devices takes their rows and grants and leaves the others. -/
lemma get_deleteDevices {st : AuthStore} {p : DeviceRow → Bool} {d : JsString} {row : DeviceRow}
    (h : (st.deleteDevices p).devices.get d = some row) :
    st.devices.get d = some row ∧ p row = false := by
  rw [AuthStore.deleteDevices, Table.get_delete, Option.filter_eq_some_iff] at h
  simpa using h

lemma get_deleteDevices_grant {st : AuthStore} {p : DeviceRow → Bool} {k : JsString × JsString}
    {g : PermissionRow} (h : (st.deleteDevices p).folder_permissions.get k = some g) :
    st.folder_permissions.get k = some g := by
  rw [AuthStore.deleteDevices, Table.get_delete, Option.filter_eq_some_iff] at h
  exact h.1

end LocalCast.Auth
