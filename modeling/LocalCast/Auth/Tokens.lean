import LocalCast.Contract.Errors
import LocalCast.Db.Schema

/-!
`auth/tokens.ts`: the tables the auth services share, and the token service over them.

An `async` method is split at its `await`s: what runs before the first one, and what the
continuation does to the store. `issueSession` awaits the signing of the access token, so
`redeemRefreshToken` is the check before it and `issueRefreshToken` the write after it.
-/

namespace LocalCast.Auth

open JsString Contract Db

/-! ### The environment of the services -/

/-- What the services take from their configuration and from the platform's library.
`fastHash` is SHA-256 in hex, `verifyPassword` the scrypt comparison, `hmac` the keyed digest
of claim tickets. -/
structure Runtime where
  accessTokenTtlMs : ℕ
  refreshTokenTtlMs : ℕ
  ownerUserId : JsString
  fastHash : JsString → JsString
  verifyPassword : JsString → JsString → Bool
  hmac : JsString → JsString
  toUpperCase : JsString → JsString

/-- A runtime whose hashes are the identity. -/
def plainRuntime : Runtime where
  accessTokenTtlMs := 900000
  refreshTokenTtlMs := 2592000000
  ownerUserId := js "owner"
  fastHash := id
  verifyPassword password hash := password = hash
  hmac := id
  toUpperCase := id

/-- The tables the auth services read and write. -/
structure AuthStore where
  devices : Table DeviceRow
  pairing_tokens : Table PairingTokenRow
  folder_permissions : Table PermissionRow
  shared_folders : Table FolderRow

namespace AuthStore

/-- A freshly migrated database. -/
def empty : AuthStore := ⟨.empty, .empty, .empty, .empty⟩

/-- `getDevice`. -/
def getDevice (st : AuthStore) (id : JsString) : Option DeviceRow := st.devices.get id

/-- `DELETE FROM devices`: grants go with the device, a pairing token forgets who used it. -/
def deleteDevices (st : AuthStore) (p : DeviceRow → Bool) : AuthStore :=
  let gone (id : JsString) : Bool := (st.devices.get id).any p
  { st with
    devices := st.devices.delete p
    folder_permissions := st.folder_permissions.delete fun g => gone g.device_id
    pairing_tokens := st.pairing_tokens.update (fun t => t.consumed_by_device.any gone)
      fun t => { t with consumed_by_device := none } }

/-- `DELETE FROM shared_folders`: grants go with the folder. -/
def deleteFolder (st : AuthStore) (id : JsString) : AuthStore :=
  { st with
    shared_folders := st.shared_folders.delete fun f => f.id = id
    folder_permissions := st.folder_permissions.delete fun g => g.folder_id = id }

/-- `POST /folders`: the path of a shared folder is unique. -/
def addFolder (st : AuthStore) (row : FolderRow) : Option AuthStore :=
  if (st.shared_folders.find fun f => f.path = row.path).isSome then none
  else (st.shared_folders.insert row).map fun folders => { st with shared_folders := folders }

end AuthStore

/-! ### Sessions -/

/-- The claims of a signed access token. -/
structure AccessToken where
  sub : JsString
  tv : ℕ
  iat : Time
  exp : Time
deriving DecidableEq

structure IssuedTokens where
  accessToken : AccessToken
  refreshToken : JsString
  expiresAt : Time
deriving DecidableEq

/-- `issueAccessToken`, from the row it was handed and the time it was called. -/
def issueAccessToken (rt : Runtime) (device : DeviceRow) (now : Time) : AccessToken × Time :=
  let expiresAt := now + rt.accessTokenTtlMs
  (⟨device.id, device.token_version, now / 1000, expiresAt / 1000⟩, expiresAt)

/-- A refresh token: the device id, a dot, and the random part. -/
def refreshTokenOf (deviceId raw : JsString) : JsString := deviceId ++ 46 :: raw

/-- The two parts of a presented token, cut at the first dot; both empty without one. -/
def splitToken (presented : JsString) : JsString × JsString :=
  if presented.contains 46 then
    (presented.takeWhile (· ≠ 46), (presented.dropWhile (· ≠ 46)).tail)
  else ([], [])

/-- `issueRefreshToken`: the write that makes `raw` the device's only refresh token. -/
def issueRefreshToken (rt : Runtime) (st : AuthStore) (deviceId raw : JsString) (now : Time) :
    AuthStore :=
  { st with devices := st.devices.updateKey deviceId fun d =>
      { d with
        refresh_hash := some (rt.fastHash raw)
        refresh_expires_at := some (now + rt.refreshTokenTtlMs) } }

/-- What `issueSession` returns once the signature is there. -/
def issueSession (rt : Runtime) (device : DeviceRow) (called : Time) (raw : JsString) :
    IssuedTokens :=
  let (token, expiresAt) := issueAccessToken rt device called
  ⟨token, refreshTokenOf device.id raw, expiresAt⟩

def invalidRefresh : ApiException := ⟨.unauthenticated, "Invalid refresh token"⟩

/-- `redeemRefreshToken` up to its `await`: the row the new session is issued for. -/
def redeemRefreshToken (rt : Runtime) (st : AuthStore) (presented : JsString) (now : Time) :
    Except ApiException DeviceRow :=
  let (deviceId, raw) := splitToken presented
  if deviceId = [] ∨ raw = [] then .error invalidRefresh
  else match st.getDevice deviceId with
    | none => .error invalidRefresh
    | some device =>
        match device.refresh_hash with
        | none => .error invalidRefresh
        | some stored =>
            match device.status with
            | .pending => .error ⟨.devicePending, "Device is awaiting approval"⟩
            | .revoked => .error ⟨.deviceRevoked, "Device access has been closed"⟩
            | .active =>
                if rt.fastHash raw ≠ stored then .error invalidRefresh
                else if device.refresh_expires_at.any fun e => decide (e < now) then
                  .error ⟨.tokenExpired, "Refresh token has expired"⟩
                else .ok device

/-- `revoke`. -/
def revoke (st : AuthStore) (deviceId : JsString) : AuthStore :=
  { st with devices := st.devices.updateKey deviceId fun d =>
      { d with
        status := .revoked
        token_version := d.token_version + 1
        refresh_hash := none
        refresh_expires_at := none } }

/-- `PATCH /devices/:id`. -/
def renameDevice (st : AuthStore) (deviceId name : JsString) : AuthStore :=
  { st with devices := st.devices.updateKey deviceId fun d => { d with name := name } }

/-! ### Facts about single calls -/

lemma splitToken_refreshTokenOf {deviceId : JsString} (h : (46 : CodeUnit) ∉ deviceId)
    (raw : JsString) : splitToken (refreshTokenOf deviceId raw) = (deviceId, raw) := by
  have hall : ∀ c ∈ deviceId, decide (c ≠ (46 : CodeUnit)) = true := fun c hc =>
    decide_eq_true fun hc' => h (hc' ▸ hc)
  have hmem : (refreshTokenOf deviceId raw).contains 46 = true := by simp [refreshTokenOf]
  rw [splitToken, if_pos hmem, refreshTokenOf, List.takeWhile_append_of_pos hall,
    List.dropWhile_append_of_pos hall]
  simp

/-- A redemption that reaches its `await` read an active row whose stored hash is that of
the presented token. -/
lemma redeemRefreshToken_eq_ok {rt : Runtime} {st : AuthStore} {presented : JsString}
    {now : Time} {device : DeviceRow} (h : redeemRefreshToken rt st presented now = .ok device) :
    st.getDevice (splitToken presented).1 = some device ∧ device.status = .active ∧
      device.refresh_hash = some (rt.fastHash (splitToken presented).2) := by
  rw [redeemRefreshToken] at h
  dsimp only at h
  split_ifs at h
  cases hd : st.getDevice (splitToken presented).1 with
  | none => simp [hd] at h
  | some d =>
      rw [hd] at h
      cases hh : d.refresh_hash with
      | none => simp [hh] at h
      | some stored =>
          cases hs : d.status with
          | pending => simp [hh, hs] at h
          | revoked => simp [hh, hs] at h
          | active =>
              simp only [hh, hs] at h
              split_ifs at h with h1 h2
              cases h
              rw [ne_eq, not_not] at h1
              exact ⟨rfl, hs, by rw [hh, h1]⟩

end LocalCast.Auth
