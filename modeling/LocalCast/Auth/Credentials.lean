import LocalCast.Auth.Revocation
import LocalCast.Auth.Rotation

/-!
The three credentials of a device, where each is checked, and what a revocation leaves of
them.

* `verifyAccessToken`, `issuePlaybackTicket`, `verifyPlaybackTicket`: the rest of
  `auth/tokens.ts`.
* `credentialStep`: the auth services with the playback tickets they hand out; `oneAtATime`: a
  call runs to its end before anything else happens.
* `revocation_kills`: after a revocation nothing issued to the device is accepted, and its
  `token_version` only grows.
-/

namespace LocalCast.Auth

open JsString Contract Db Runs AuthState

/-! ### Access tokens -/

inductive JoseError where
  | expired | invalid
deriving DecidableEq

/-- The claims of a token whose signature verifies. -/
structure JwtPayload where
  sub : Option JsString
  tv : Option ℚ

/-- The JWT library with the server's key: a signed token verifies to what was signed, or not
at all. `number` is the conversion of a text to a finite number. -/
structure TokenLibrary where
  sign : (jti : JsString) → AccessToken → JsString
  jwtVerify : JsString → Time → Except JoseError JwtPayload
  number : JsString → Option ℚ
  signed : ∀ jti token now payload, jwtVerify (sign jti token) now = .ok payload →
    payload = ⟨some token.sub, some token.tv⟩

structure DeviceIdentity where
  id : JsString
  userId : JsString
  name : JsString
  platform : JsString
  tokenVersion : ℕ
deriving DecidableEq

def identityOf (device : DeviceRow) : DeviceIdentity :=
  ⟨device.id, device.user_id, device.name, device.platform, device.token_version⟩

def invalidAccess : ApiException := ⟨.unauthenticated, "Invalid access token"⟩

def deviceClosed : ApiException := ⟨.deviceRevoked, "Device access has been closed"⟩

def verifyAccessToken (lib : TokenLibrary) (st : AuthStore) (token : JsString) (now : Time) :
    Except ApiException DeviceIdentity :=
  match lib.jwtVerify token now with
  | .error .expired => .error ⟨.tokenExpired, "Access token has expired"⟩
  | .error .invalid => .error invalidAccess
  | .ok payload =>
      match payload.sub, payload.tv with
      | some sub, some tv =>
          if sub = [] then .error invalidAccess
          else match st.getDevice sub with
            | none => .error ⟨.unauthenticated, "Unknown device"⟩
            | some device =>
                match device.status with
                | .pending => .error ⟨.devicePending, "Device is awaiting approval"⟩
                | .revoked => .error deviceClosed
                | .active =>
                    if (device.token_version : ℚ) ≠ tv then
                      .error ⟨.tokenRevoked, "Access token has been revoked"⟩
                    else .ok (identityOf device)
      | _, _ => .error invalidAccess

/-! ### Playback tickets -/

/-- `PLAYBACK_TICKET_TTL_MS`, six hours. -/
def PLAYBACK_TICKET_TTL_MS : ℕ := 6 * 60 * 60 * 1000

def playbackSignature (rt : Runtime) (deviceId fileId : JsString) (expiresAt : ℤ)
    (tokenVersion : ℕ) : JsString :=
  rt.hmac (join [58] [js "playback", deviceId, fileId, js (toString expiresAt),
    js (toString tokenVersion)])

def issuePlaybackTicket (rt : Runtime) (device : DeviceRow) (fileId : JsString) (ttlMs : ℕ)
    (now : Time) : JsString × Time :=
  let expiresAt := now + ttlMs
  let signature := playbackSignature rt device.id fileId expiresAt device.token_version
  (device.id ++ 46 :: (js (toString expiresAt) ++ 46 :: signature), expiresAt)

/-- `Number.isSafeInteger`, with the integer. -/
def safeInteger (x : Option ℚ) : Option ℤ :=
  x.bind fun q => if q.den = 1 ∧ q.num.natAbs ≤ 2 ^ 53 - 1 then some q.num else none

def invalidTicket : ApiException := ⟨.unauthenticated, "Invalid playback ticket"⟩

/-- The signatures are compared by their bytes in UTF-8, where a surrogate on its own counts
as the replacement character. -/
def verifyPlaybackTicket (lib : TokenLibrary) (rt : Runtime) (st : AuthStore)
    (ticket fileId : JsString) (now : Time) : Except ApiException DeviceIdentity :=
  match splitOn (fun c => c = 46) ticket with
  | [deviceId, expiresText, given] =>
      match safeInteger (lib.number expiresText) with
      | none => .error invalidTicket
      | some expiresAt =>
          if expiresAt ≤ now then .error ⟨.tokenExpired, "Playback ticket has expired"⟩
          else match st.getDevice deviceId with
            | none => .error invalidTicket
            | some device =>
                if device.status ≠ .active then .error deviceClosed
                else if chars given ≠ chars (playbackSignature rt device.id fileId expiresAt
                    device.token_version) then .error invalidTicket
                else .ok (identityOf device)
  | _ => .error invalidTicket

/-! ### Facts about single calls -/

section Calls

variable {lib : TokenLibrary} {rt : Runtime} {st : AuthStore} {now : Time} {identity : DeviceIdentity}

/-- An accepted access token names an active device of its version. -/
lemma verifyAccessToken_signed {jti : JsString} {token : AccessToken}
    (h : verifyAccessToken lib st (lib.sign jti token) now = .ok identity) :
    ∃ device, st.getDevice token.sub = some device ∧ device.status = .active ∧
      device.token_version = token.tv := by
  rw [verifyAccessToken] at h
  split at h
  · cases h
  · cases h
  case h_3 payload hpayload =>
    obtain rfl := lib.signed jti token now payload hpayload
    simp only at h
    split_ifs at h with hsub
    split at h
    · cases h
    case h_2 device hdevice =>
      cases hstatus : device.status with
      | pending => simp [hstatus] at h
      | revoked => simp [hstatus] at h
      | active =>
          simp only [hstatus] at h
          split_ifs at h with htv
          rw [ne_eq, not_not] at htv
          exact ⟨device, hdevice, hstatus, by exact_mod_cast htv⟩

/-- An accepted ticket starts with the id of an active device. -/
lemma verifyPlaybackTicket_eq_ok {deviceId rest fileId : JsString} (hdot : (46 : CodeUnit) ∉ deviceId)
    (h : verifyPlaybackTicket lib rt st (deviceId ++ 46 :: rest) fileId now = .ok identity) :
    ∃ device, st.getDevice deviceId = some device ∧ device.status = .active := by
  have hunits (c : CodeUnit) (hc : c ∈ deviceId) : decide (c = 46) = false := by
    refine decide_eq_false ?_
    rintro rfl
    exact hdot hc
  have hsplit : splitOn (fun c => c = 46) (deviceId ++ 46 :: rest) =
      deviceId :: splitOn (fun c => c = 46) rest :=
    splitOn_append_sep deviceId hunits 46 (by decide) rest
  rw [verifyPlaybackTicket, hsplit] at h
  split at h
  case h_2 => cases h
  case h_1 d expiresText given hparts =>
    obtain ⟨rfl, -⟩ := List.cons.inj hparts
    split at h
    · cases h
    split_ifs at h
    split at h
    · cases h
    case h_2 device hdevice =>
      split_ifs at h with hstatus
      exact ⟨device, hdevice, not_not.mp hstatus⟩

end Calls

/-! ### The system with its tickets -/

/-- The auth services and the playback tickets handed out, each with its device. -/
structure CredentialState where
  auth : AuthState
  tickets : List (JsString × JsString)

def CredentialState.init : CredentialState := ⟨AuthState.init, []⟩

inductive CredentialAction where
  | auth (a : Action)
  /-- `POST /files/:id/playback-url`, once the file has resolved and the device may stream
  it. -/
  | playback (bearer fileId : JsString) (now : Time)

def credentialStep (lib : TokenLibrary) (rt : Runtime) (s : CredentialState) :
    CredentialAction → Option CredentialState
  | .auth a => (step rt s.auth a).map fun t => { s with auth := t }
  | .playback bearer fileId now => some <|
      match verifyAccessToken lib s.auth.store bearer now with
      | .error e => { s with auth := s.auth.answer (.refused e) }
      | .ok identity =>
          match s.auth.store.getDevice identity.id with
          | none =>
              { s with auth := s.auth.answer (.refused ⟨.unauthenticated, "Unknown device"⟩) }
          | some row =>
              let (ticket, _) := issuePlaybackTicket rt row fileId PLAYBACK_TICKET_TTL_MS now
              { s with tickets := (identity.id, ticket) :: s.tickets }

/-- The slot an action runs its call in. -/
def Action.callSlot : Action → Option ℕ
  | .claim i .. | .status i .. | .approve i .. | .redeem i .. => some i
  | _ => none

/-- The action ends a call: what it awaits resolves, or the server restarts. -/
def Action.ends : Action → Bool
  | .verified .. | .hashed .. | .signed .. | .restart => true
  | _ => false

/-- No call overlaps: all run in slot `0`, and while one does the only step is its end. -/
def oneAtATime (s : CredentialState) : CredentialAction → Bool
  | .auth a =>
      match s.auth.calls 0 with
      | none => a.callSlot.all fun i => i = 0
      | some _ => a.ends
  | .playback .. => (s.auth.calls 0).isNone

/-! ### Calls that do not overlap -/

section Serial

variable {rt : Runtime} {s t : AuthState} {a : Action} {tickets : List (JsString × JsString)}

/-- What a step does to the calls in flight. -/
inductive CallsAfter (s : AuthState) (a : Action) (t : AuthState) : Prop
  | same (hends : a.ends = false) (h : t.calls = s.calls)
  | begun {i : ℕ} {c : Call} (hslot : a.callSlot = some i) (hstore : t.store = s.store)
      (h : t.calls = Function.update s.calls i (some c))
  | ended {i : ℕ} {c : Call} (hcall : s.calls i = some c)
      (h : t.calls = Function.update s.calls i none)
  | restarted (h : t.calls = fun _ => none)

lemma onDevice_calls {deviceId : JsString} {f : AuthState → AuthState} (hends : a.ends = false)
    (hf : (f s).calls = s.calls) : CallsAfter s a (onDevice s deviceId f) := by
  refine .same hends ?_
  rw [onDevice]
  split
  · rfl
  · exact hf

lemma callsAfter_begin {s' : AuthState} (hstore : s'.store = s.store) (hcalls : s'.calls = s.calls)
    {i : ℕ} {c : Call} (hslot : a.callSlot = some i) (h : s'.begin i c = some t) :
    CallsAfter s a t := by
  obtain ⟨-, rfl⟩ := begin_eq_some.mp h
  exact .begun hslot hstore (by rw [hcalls])

lemma finishClaim_calls {token : PairingTokenRow} {req : PairClaimRequest} {deviceId : JsString}
    {called now : Time} (h : finishClaim rt s token req deviceId called now = some t) :
    t.calls = s.calls := by
  obtain ⟨-, -, ⟨e, rfl⟩ | ⟨st, -, rfl⟩⟩ := finishClaim_eq_some h <;> rfl

lemma step_calls (h : step rt s a = some t) : CallsAfter s a t := by
  cases a with
  | mint opts id secretHash codes now =>
      obtain ⟨s', hs', rfl⟩ := Option.map_eq_some_iff.mp h
      obtain ⟨-, -, rfl⟩ := draw_eq_some.mp hs'
      refine .same rfl ?_
      dsimp only
      split <;> rfl
  | claim i req deviceId now =>
      rw [step] at h
      split at h
      · obtain rfl := Option.some.inj h
        exact .same rfl rfl
      · split at h
        · exact .same rfl (finishClaim_calls h)
        · exact callsAfter_begin rfl rfl rfl h
  | verified i deviceId now =>
      rw [step] at h
      split at h
      case h_2 => cases h
      case h_1 token req secret called hcall =>
        split_ifs at h
        · exact .ended hcall (finishClaim_calls h)
        · obtain rfl := Option.some.inj h
          exact .ended hcall rfl
  | status i deviceId ticket now =>
      rw [step] at h
      split at h
      · obtain rfl := Option.some.inj h
        exact .same rfl rfl
      · obtain rfl := Option.some.inj h
        exact .same rfl rfl
      · obtain rfl := Option.some.inj h
        exact .same rfl rfl
      · split at h
        · obtain rfl := Option.some.inj h
          exact .same rfl rfl
        · obtain ⟨-, rfl⟩ := begin_eq_some.mp h
          exact .begun rfl rfl rfl
  | approve i deviceId davPassword =>
      rw [step] at h
      split at h
      · obtain rfl := Option.some.inj h
        exact .same rfl rfl
      · exact callsAfter_begin rfl rfl rfl h
  | hashed i davHash now =>
      rw [step] at h
      split at h
      case h_2 => cases h
      case h_1 deviceId davPassword hcall =>
        split at h
        all_goals
          obtain rfl := Option.some.inj h
          exact .ended hcall rfl
  | redeem i presented now =>
      rw [step] at h
      split at h
      · obtain rfl := Option.some.inj h
        exact .same rfl rfl
      · exact callsAfter_begin rfl rfl rfl h
  | signed i raw now =>
      rw [step] at h
      split at h
      case h_2 => cases h
      case h_1 device called origin hcall =>
        obtain ⟨s', hs', rfl⟩ := Option.map_eq_some_iff.mp h
        obtain ⟨-, rfl⟩ := drawRefresh_eq_some.mp hs'
        exact .ended hcall rfl
  | reject deviceId | revoke deviceId | rename deviceId name | deleteDevice deviceId =>
      obtain rfl := Option.some.inj h
      exact onDevice_calls rfl rfl
  | setPermissions deviceId perms =>
      obtain rfl := Option.some.inj h
      refine onDevice_calls rfl ?_
      split <;> rfl
  | prune now =>
      obtain rfl := Option.some.inj h
      exact .same rfl rfl
  | addFolder row =>
      obtain ⟨s', hs', rfl⟩ := Option.map_eq_some_iff.mp h
      obtain ⟨-, -, rfl⟩ := draw_eq_some.mp hs'
      refine .same rfl ?_
      dsimp only
      split <;> rfl
  | deleteFolder id =>
      obtain rfl := Option.some.inj h
      refine .same rfl ?_
      split <;> rfl
  | restart =>
      obtain rfl := Option.some.inj h
      exact .restarted rfl

/-- One call at most is in flight, and the device it read is as it was read. -/
structure Serial (s : AuthState) : Prop where
  slots : ∀ i, i ≠ 0 → s.calls i = none
  approve : ∀ d davPassword, s.calls 0 = some (.approve d davPassword) →
    ∃ row, s.device d = some row ∧ row.status ≠ .revoked
  session : ∀ device called origin, s.calls 0 = some (.session device called origin) →
    s.device device.id = some device ∧ device.status = .active

lemma serial_init : Serial AuthState.init where
  slots := by simp [AuthState.init]
  approve := by simp [AuthState.init]
  session := by simp [AuthState.init]

lemma serial_of_none (h : t.calls = fun _ => none) : Serial t where
  slots := by simp [h]
  approve := by simp [h]
  session := by simp [h]

lemma approveRead_eq_ok {st : AuthStore} {d : JsString} {device : DeviceRow}
    (h : approveRead st d = .ok device) : st.getDevice d = some device ∧ device.status ≠ .revoked := by
  rw [approveRead] at h
  split at h
  · cases h
  case h_2 row hrow =>
    split_ifs at h with hstatus
    obtain rfl := Except.ok.inj h
    exact ⟨hrow, hstatus⟩

lemma serial_begun {c : Call} (hcalls : t.calls = Function.update s.calls 0 (some c))
    (hslots : ∀ i, i ≠ 0 → s.calls i = none) (hstore : t.store = s.store) (hc : Begun rt s c) :
    Serial t where
  slots i hi := by rw [hcalls, Function.update_of_ne hi, hslots i hi]
  approve d davPassword hcall := by
    rw [hcalls, Function.update_self] at hcall
    obtain rfl := Option.some.inj hcall
    cases hc with
    | approve hread =>
        obtain ⟨hget, hstatus⟩ := approveRead_eq_ok hread
        exact ⟨_, by rw [AuthState.device, hstore, hget], hstatus⟩
  session device called origin hcall := by
    rw [hcalls, Function.update_self] at hcall
    obtain rfl := Option.some.inj hcall
    have hactive : ∃ d, s.store.getDevice d = some device ∧ device.status = .active := by
      cases hc with
      | poll hread => exact ⟨_, statusRead_eq_approved hread⟩
      | redeem hread =>
          obtain ⟨hget, hstatus, -⟩ := redeemRefreshToken_eq_ok hread
          exact ⟨_, hget, hstatus⟩
    obtain ⟨d, hget, hstatus⟩ := hactive
    obtain rfl : device.id = d := Table.key_of_get hget
    exact ⟨by rw [AuthState.device, hstore, hget], hstatus⟩

lemma serial_step (hs : Serial s) (hg : oneAtATime ⟨s, tickets⟩ (.auth a))
    (h : step rt s a = some t) : Serial t := by
  rw [oneAtATime] at hg
  dsimp only at hg
  cases hcall : s.calls 0 with
  | none =>
      rw [hcall] at hg
      have hnone (i : ℕ) : s.calls i = none := by
        by_cases hi : i = 0
        · rw [hi, hcall]
        · exact hs.slots i hi
      cases step_calls h with
      | same _ hcalls => exact serial_of_none (hcalls.trans (funext hnone))
      | @begun i c hslot hstore hcalls =>
          obtain rfl : i = 0 := by simpa [hslot] using hg
          rcases (step_effect h).2.calls 0 c (by rw [hcalls, Function.update_self]) with hc | hc
          · simp [hcall] at hc
          · exact serial_begun hcalls hs.slots hstore hc
      | ended hc => simp [hnone] at hc
      | restarted hcalls => exact serial_of_none hcalls
  | some c =>
      rw [hcall] at hg
      cases step_calls h with
      | same hends => simp [hends] at hg
      | begun hslot => cases a <;> simp_all [Action.callSlot, Action.ends]
      | @ended i c' hc hcalls =>
          have hi : i = 0 := by
            by_contra hi
            simp [hs.slots i hi] at hc
          refine serial_of_none (hcalls.trans (funext fun j => ?_))
          by_cases hj : j = i
          · rw [hj, Function.update_self]
          · rw [Function.update_of_ne hj, hs.slots j (hi ▸ hj)]
      | restarted hcalls => exact serial_of_none hcalls

/-- A closed device stays closed while calls do not overlap: no call in flight has read it
before it was closed. -/
lemma closed_serial {d : JsString} (hs : Serial s) (h : step rt s a = some t)
    (hclosed : Closed d s) : Closed d t := by
  have hzero {i : ℕ} {c : Call} (hcall : s.calls i = some c) : i = 0 := by
    by_contra hi
    simp [hs.slots i hi] at hcall
  refine ⟨(step_effect h).2.ids hclosed.1, ?_⟩
  cases step_device h d with
  | kept hrow =>
      intro row' hrow'
      obtain ⟨row, name, hr, rfl⟩ := hrow row' hrow'
      exact hclosed.2 row hr
  | claimed hid => exact absurd hclosed.1 hid
  | approved _ hcall =>
      obtain rfl := hzero hcall
      obtain ⟨row, hr, hopen⟩ := hs.approve d _ hcall
      exact absurd (hclosed.2 row hr).1 hopen
  | issued _ hcall hid =>
      obtain rfl := hzero hcall
      obtain ⟨hr, hactive⟩ := hs.session _ _ _ hcall
      have hrevoked := (hclosed.2 _ (hid ▸ hr)).1
      simp [hactive] at hrevoked
  | revoked hrow =>
      intro row' hrow'
      rw [hrow] at hrow'
      obtain ⟨row, hr, rfl⟩ := Option.map_eq_some_iff.mp hrow'
      exact ⟨rfl, rfl⟩
  | permitted _ hrow =>
      intro row' hrow'
      exact hclosed.2 row' (hrow ▸ hrow')

/-- A device that is gone does not come back. -/
lemma device_gone {d : JsString} (h : step rt s a = some t) (hused : d ∈ s.usedIds)
    (hnone : s.device d = none) : t.device d = none := by
  cases step_device h d with
  | kept hkept =>
      cases hrow' : t.device d with
      | none => rfl
      | some row' =>
          obtain ⟨row, -, hrow, -⟩ := hkept row' hrow'
          simp [hnone] at hrow
  | claimed hid => exact absurd hused hid
  | approved _ _ hrow | issued _ _ _ hrow | revoked hrow => rw [hrow, hnone, Option.map_none]
  | permitted _ hrow => rw [hrow, hnone]

/-- The version of a device never falls. -/
lemma version_step {d : JsString} (hknown : ∀ row, s.device d = some row → d ∈ s.usedIds)
    (h : step rt s a = some t) {row row' : DeviceRow} (hrow : s.device d = some row)
    (hrow' : t.device d = some row') : row.token_version ≤ row'.token_version := by
  cases step_device h d with
  | kept hkept =>
      obtain ⟨row0, name, hr, rfl⟩ := hkept row' hrow'
      obtain rfl := Option.some.inj (hrow.symm.trans hr)
      exact le_rfl
  | claimed hid => exact absurd (hknown row hrow) hid
  | approved _ _ hmap | issued _ _ _ hmap =>
      rw [hmap, hrow] at hrow'
      obtain rfl := Option.some.inj hrow'
      exact le_rfl
  | revoked hmap =>
      rw [hmap, hrow] at hrow'
      obtain rfl := Option.some.inj hrow'
      exact Nat.le_succ _
  | permitted _ hsame =>
      rw [hsame, hrow] at hrow'
      obtain rfl := Option.some.inj hrow'
      exact le_rfl

end Serial

/-! ### What is issued to a device -/

section Issued

variable {lib : TokenLibrary} {rt : Runtime} {s t : CredentialState} {a : CredentialAction}

/-- The runs of the system in which no call overlaps. -/
abbrev InTurn (lib : TokenLibrary) (rt : Runtime) :
    CredentialState → CredentialAction → CredentialState → Prop :=
  Guarded (fun s a => oneAtATime s a) (credentialStep lib rt)

/-- A session answered before a step, or the one whose signature just resolved. -/
lemma session_logged {s t : AuthState} {a : Action} (h : step rt s a = some t) {d : JsString}
    {origin : Origin} {tokens : IssuedTokens} (hmem : Event.session d origin tokens ∈ t.log) :
    Event.session d origin tokens ∈ s.log ∨ ∃ i device called raw,
      s.calls i = some (.session device called origin) ∧ d = device.id ∧
        tokens = issueSession rt device called raw := by
  have hplain (hp : Plain s t) : Event.session d origin tokens ∈ s.log := by
    obtain ⟨-, hl | ⟨e, he, hl⟩⟩ := hp
    · exact hl ▸ hmem
    · rw [hl, List.mem_cons] at hmem
      rcases hmem with rfl | hmem
      · cases he
      · exact hmem
  cases (step_effect h).1 with
  | @issued i raw now device called origin' tokens' ha hcall =>
      subst ha
      rw [step, hcall] at h
      obtain ⟨s', hs', rfl⟩ := Option.map_eq_some_iff.mp h
      obtain ⟨-, rfl⟩ := drawRefresh_eq_some.mp hs'
      rcases List.mem_cons.mp hmem with heq | hold
      · cases heq
        exact .inr ⟨i, device, called, raw, hcall, rfl, rfl⟩
      · exact .inl hold
  | claimed _ _ _ _ _ hlog | failed _ _ _ _ _ hlog =>
      rw [hlog, List.mem_cons] at hmem
      exact .inl (hmem.resolve_left (by simp))
  | none _ hlog | cleared _ hlog | minted _ _ _ hlog | approved _ _ _ hlog | revoked _ hlog
  | renamed _ hlog | deleted _ hlog | pruned _ hlog | permitted _ _ _ hlog
  | folderAdded _ hlog | folderDeleted _ hlog => exact .inl (hplain hlog)

/-- An id of a device: drawn, and without a dot. -/
def DeviceId (s : AuthState) (d : JsString) : Prop := d ∈ s.usedIds ∧ (46 : CodeUnit) ∉ d

/-- Whom the credentials name. -/
structure Named (s : CredentialState) : Prop where
  devices : ∀ d row, s.auth.device d = some row → DeviceId s.auth d
  sessions : ∀ d origin tokens, .session d origin tokens ∈ s.auth.log → DeviceId s.auth d ∧
    tokens.accessToken.sub = d ∧ ∃ raw, tokens.refreshToken = refreshTokenOf d raw
  tickets : ∀ d ticket, (d, ticket) ∈ s.tickets → DeviceId s.auth d ∧
    ∃ rest, ticket = d ++ 46 :: rest

lemma named_init : Named CredentialState.init := by
  constructor <;> simp [CredentialState.init, AuthState.init, AuthState.device, AuthStore.empty,
    AuthStore.getDevice]

lemma DeviceId.step {s t : AuthState} {a : Action} (h : step rt s a = some t) {d : JsString}
    (hd : DeviceId s d) : DeviceId t d :=
  ⟨(step_effect h).2.ids hd.1, hd.2⟩

lemma devices_step {s t : AuthState} {a : Action} (h : step rt s a = some t)
    (hs : ∀ d row, s.device d = some row → DeviceId s d) {d : JsString} {row' : DeviceRow}
    (hrow' : t.device d = some row') : DeviceId t d := by
  cases step_device h d with
  | kept hrow =>
      obtain ⟨row, -, hr, -⟩ := hrow row' hrow'
      exact (hs d row hr).step h
  | claimed _ hused hdot => exact ⟨hused, hdot⟩
  | approved _ _ hrow | issued _ _ _ hrow | revoked hrow =>
      rw [hrow] at hrow'
      obtain ⟨row, hr, -⟩ := Option.map_eq_some_iff.mp hrow'
      exact (hs d row hr).step h
  | permitted _ hrow => exact (hs d row' (hrow ▸ hrow')).step h

lemma named_auth {tickets : List (JsString × JsString)} {s t : AuthState} {a : Action}
    (hserial : Serial s) (hs : Named ⟨s, tickets⟩) (h : step rt s a = some t) :
    Named ⟨t, tickets⟩ where
  devices _ _ hrow' := devices_step h hs.devices hrow'
  sessions d origin tokens hmem := by
    rcases session_logged h hmem with hold | ⟨i, device, called, raw, hcall, rfl, rfl⟩
    · obtain ⟨hid, hsub⟩ := hs.sessions d origin tokens hold
      exact ⟨hid.step h, hsub⟩
    · have hi : i = 0 := by
        by_contra hi
        simp [hserial.slots i hi] at hcall
      have hrow := (hserial.session device called origin (hi ▸ hcall)).1
      exact ⟨(hs.devices _ _ hrow).step h, rfl, raw, rfl⟩
  tickets d ticket hmem := by
    obtain ⟨hid, hrest⟩ := hs.tickets d ticket hmem
    exact ⟨hid.step h, hrest⟩

/-- A refusal is no credential. -/
lemma Named.refused (hs : Named s) (e : ApiException) :
    Named { s with auth := s.auth.answer (.refused e) } where
  devices := hs.devices
  sessions d origin tokens hmem :=
    hs.sessions d origin tokens ((List.mem_cons.mp hmem).resolve_left (by simp))
  tickets := hs.tickets

lemma Named.ticket (hs : Named s) {d fileId : JsString} {row : DeviceRow} {ttlMs : ℕ} {now : Time}
    (hrow : s.auth.device d = some row) :
    Named { s with tickets := (d, (issuePlaybackTicket rt row fileId ttlMs now).1) :: s.tickets } where
  devices := hs.devices
  sessions := hs.sessions
  tickets d' ticket hmem := by
    rcases List.mem_cons.mp hmem with heq | hold
    · obtain ⟨rfl, rfl⟩ := Prod.mk.inj heq
      have hid : row.id = d' := Table.key_of_get hrow
      exact ⟨hs.devices _ _ hrow, _, by rw [issuePlaybackTicket, hid]⟩
    · exact hs.tickets d' ticket hold

/-- What holds in every state of a run without overlap. -/
def Settled (s : CredentialState) : Prop := Serial s.auth ∧ Named s

lemma settled_step (hs : Settled s) (h : InTurn lib rt s a t) : Settled t := by
  obtain ⟨hg, hstep⟩ := h
  cases a with
  | auth a =>
      obtain ⟨u, hu, rfl⟩ := Option.map_eq_some_iff.mp hstep
      exact ⟨serial_step hs.1 hg hu, named_auth hs.1 hs.2 hu⟩
  | playback bearer fileId now =>
      obtain rfl := Option.some.inj hstep
      have hserial : Serial s.auth := hs.1
      dsimp only
      split
      · exact ⟨⟨hserial.slots, hserial.approve, hserial.session⟩, hs.2.refused _⟩
      · split
        · exact ⟨⟨hserial.slots, hserial.approve, hserial.session⟩, hs.2.refused _⟩
        case h_2 identity hv row hrow => exact ⟨hserial, hs.2.ticket hrow⟩

lemma settled_run {as : List CredentialAction} (h : Run (InTurn lib rt) .init as s) :
    Settled s :=
  h.invariant (fun _ _ _ => settled_step) ⟨serial_init, named_init⟩

end Issued

/-! ### Revocation -/

/-- The action takes the device's access away. -/
def Action.closes (d : JsString) : Action → Bool
  | .revoke id | .reject id | .deleteDevice id => id = d
  | _ => false

/-- Nothing ever issued to the device is accepted. -/
structure CredentialsDead (lib : TokenLibrary) (rt : Runtime) (d : JsString)
    (s : CredentialState) : Prop where
  access : ∀ origin tokens jti now identity, .session d origin tokens ∈ s.auth.log →
    verifyAccessToken lib s.auth.store (lib.sign jti tokens.accessToken) now ≠ .ok identity
  refresh : ∀ origin tokens now device, .session d origin tokens ∈ s.auth.log →
    redeemRefreshToken rt s.auth.store tokens.refreshToken now ≠ .ok device
  playback : ∀ ticket fileId now identity, (d, ticket) ∈ s.tickets →
    verifyPlaybackTicket lib rt s.auth.store ticket fileId now ≠ .ok identity

/-- The law for a device from a state on. -/
structure RevocationLaw (lib : TokenLibrary) (rt : Runtime) (d : JsString)
    (s : CredentialState) : Prop where
  grows : ∀ bs t row row', Run (InTurn lib rt) s bs t → s.auth.device d = some row →
    t.auth.device d = some row' → row.token_version ≤ row'.token_version
  bumped : ∀ a t row, a.closes d → s.auth.device d = some row → InTurn lib rt s (.auth a) t →
    (a = .deleteDevice d ∧ t.auth.device d = none) ∨
      ∃ row', t.auth.device d = some row' ∧ row.token_version < row'.token_version
  dead : ∀ a t row bs u, a.closes d → s.auth.device d = some row → InTurn lib rt s (.auth a) t →
    Run (InTurn lib rt) t bs u → CredentialsDead lib rt d u

section Law

variable {lib : TokenLibrary} {rt : Runtime} {s t : CredentialState} {d : JsString}

/-- What each of the closing routes leaves of the row. -/
lemma closes_step {s t : AuthState} {a : Action} (ha : a.closes d) (h : step rt s a = some t)
    {row : DeviceRow} (hrow : s.device d = some row) :
    (a = .deleteDevice d ∧ t.device d = none) ∨
      t.device d = some { row with
        status := .revoked
        token_version := row.token_version + 1
        refresh_hash := none
        refresh_expires_at := none } := by
  have hrevoke : (revoke s.store d).devices.get d = some { row with
      status := .revoked
      token_version := row.token_version + 1
      refresh_hash := none
      refresh_expires_at := none } := by
    rw [AuthState.device, AuthStore.getDevice] at hrow
    rw [revoke, Table.get_updateKey, if_pos rfl, hrow]
    rfl
  rw [AuthState.device] at hrow
  cases a with
  | revoke id | reject id =>
      obtain rfl : id = d := of_decide_eq_true ha
      obtain rfl := Option.some.inj h
      rw [onDevice, hrow]
      exact .inr hrevoke
  | deleteDevice id =>
      obtain rfl : id = d := of_decide_eq_true ha
      obtain rfl := Option.some.inj h
      rw [onDevice, hrow]
      refine .inl ⟨rfl, ?_⟩
      cases hget : (((revoke s.store id).deleteDevices fun d => d.id = id)).getDevice id with
      | none => exact hget
      | some row' =>
          obtain ⟨hget', hne⟩ := get_deleteDevices hget
          have hid : row'.id = id := Table.key_of_get hget'
          simp [hid] at hne
  | _ => cases ha

lemma closed_step_inTurn (hs : Settled s) {a : CredentialAction} (h : InTurn lib rt s a t)
    (hclosed : Closed d s.auth) : Closed d t.auth := by
  cases a with
  | auth a =>
      obtain ⟨u, hu, rfl⟩ := Option.map_eq_some_iff.mp h.2
      exact closed_serial hs.1 hu hclosed
  | playback bearer fileId now =>
      obtain rfl := Option.some.inj h.2
      dsimp only
      split
      · exact hclosed
      · split <;> exact hclosed

lemma version_run {bs : List CredentialAction} (h : Run (InTurn lib rt) s bs t) (hs : Settled s)
    {row row' : DeviceRow} (hrow : s.auth.device d = some row)
    (hrow' : t.auth.device d = some row') : row.token_version ≤ row'.token_version := by
  -- the device may go on the way: then it does not come back
  suffices h' : ∀ row', t.auth.device d = some row' → row.token_version ≤ row'.token_version from
    h' row' hrow'
  have hknown : d ∈ s.auth.usedIds := (hs.2.devices d row hrow).1
  refine (h.invariant (I := fun u => Settled u ∧ d ∈ u.auth.usedIds ∧ ∀ row',
    u.auth.device d = some row' → row.token_version ≤ row'.token_version)
    (fun u a v hu hstep => ⟨settled_step hu.1 hstep, ?_⟩) ⟨hs, hknown, ?_⟩).2.2
  · cases a with
    | auth a =>
        obtain ⟨w, hw, rfl⟩ := Option.map_eq_some_iff.mp hstep.2
        refine ⟨(step_effect hw).2.ids hu.2.1, fun row' hrow' => ?_⟩
        cases hr : u.auth.device d with
        | some row0 =>
            exact (hu.2.2 row0 hr).trans (version_step (fun _ _ => hu.2.1) hw hr hrow')
        | none =>
            have hnone := device_gone hw hu.2.1 hr
            simp [hnone] at hrow'
    | playback bearer fileId now =>
        obtain rfl := Option.some.inj hstep.2
        dsimp only
        split
        · exact hu.2
        · split <;> exact hu.2
  · intro row0 hr
    obtain rfl := Option.some.inj (hrow.symm.trans hr)
    exact le_rfl

/-- A closed device accepts nothing that was issued to it. -/
lemma Closed.dead (hclosed : Closed d s.auth) (hs : Named s) : CredentialsDead lib rt d s where
  access origin tokens jti now identity hmem h := by
    obtain ⟨-, hsub, -⟩ := hs.sessions d origin tokens hmem
    obtain ⟨device, hget, hactive, -⟩ := verifyAccessToken_signed h
    have hrevoked := (hclosed.2 device (hsub ▸ hget)).1
    simp [hactive] at hrevoked
  refresh origin tokens now device hmem h := by
    obtain ⟨hid, -, raw, hraw⟩ := hs.sessions d origin tokens hmem
    obtain ⟨hget, hactive, -⟩ := redeemRefreshToken_eq_ok h
    rw [hraw, splitToken_refreshTokenOf hid.2] at hget
    have hrevoked := (hclosed.2 device hget).1
    simp [hactive] at hrevoked
  playback ticket fileId now identity hmem h := by
    obtain ⟨hid, rest, rfl⟩ := hs.tickets d ticket hmem
    obtain ⟨device, hget, hactive⟩ := verifyPlaybackTicket_eq_ok hid.2 h
    have hrevoked := (hclosed.2 device hget).1
    simp [hactive] at hrevoked

/-- **Revocation is instant for every credential**, and versions only grow. -/
theorem revocation_kills {as : List CredentialAction} (h : Run (InTurn lib rt) .init as s) :
    RevocationLaw lib rt d s where
  grows _ _ _ _ hrun hrow hrow' := version_run hrun (settled_run h) hrow hrow'
  bumped a t row ha hrow hstep := by
    obtain ⟨u, hu, rfl⟩ := Option.map_eq_some_iff.mp hstep.2
    rcases closes_step ha hu hrow with hgone | hrow'
    · exact .inl hgone
    · exact .inr ⟨_, hrow', Nat.lt_succ_self _⟩
  dead a t row bs u ha hrow hstep hrun := by
    have hs := settled_run h
    have ht := settled_step hs hstep
    obtain ⟨v, hv, rfl⟩ := Option.map_eq_some_iff.mp hstep.2
    have hclosed : Closed d v := by
      refine ⟨(step_effect hv).2.ids (hs.2.devices d row hrow).1, fun row' hrow' => ?_⟩
      rcases closes_step ha hv hrow with ⟨-, hnone⟩ | hsome
      · simp [hnone] at hrow'
      · obtain rfl := Option.some.inj (hsome.symm.trans hrow')
        exact ⟨rfl, rfl⟩
    obtain ⟨hu, hclosed'⟩ := hrun.invariant (I := fun u => Settled u ∧ Closed d u.auth)
      (fun _ _ _ hu hstep => ⟨settled_step hu.1 hstep, closed_step_inTurn hu.1 hstep hu.2⟩)
      ⟨ht, hclosed⟩
    exact hclosed'.dead hu.2

end Law

/-! ### A concrete run -/

/-- A library whose tokens are readable: version and expiry in unary, then the subject. -/
def plainSign (token : AccessToken) : JsString :=
  List.replicate token.tv 49 ++ 46 :: (List.replicate token.exp 49 ++ 46 :: token.sub)

def plainVerify (text : JsString) (now : Time) : Except JoseError JwtPayload :=
  let rest := (text.dropWhile (· = 49)).tail
  let sub := (rest.dropWhile (· = 49)).tail
  let token : AccessToken :=
    ⟨sub, (text.takeWhile (· = 49)).length, 0, (rest.takeWhile (· = 49)).length⟩
  if plainSign token ≠ text then .error .invalid
  else if token.exp ≤ now / 1000 then .error .expired
  else .ok ⟨some token.sub, some token.tv⟩

lemma plainVerify_sign {token : AccessToken} {now : Time} {payload : JwtPayload}
    (h : plainVerify (plainSign token) now = .ok payload) :
    payload = ⟨some token.sub, some token.tv⟩ := by
  have htake (n : ℕ) (rest : JsString) :
      (List.replicate n 49 ++ 46 :: rest).takeWhile (· = 49) = List.replicate n 49 := by
    rw [List.takeWhile_append_of_pos (by simp)]
    simp
  have hdrop (n : ℕ) (rest : JsString) :
      ((List.replicate n 49 ++ 46 :: rest).dropWhile (· = 49)).tail = rest := by
    rw [List.dropWhile_append_of_pos (by simp)]
    simp
  have htv : ((plainSign token).takeWhile (· = 49)).length = token.tv := by
    rw [plainSign, htake, List.length_replicate]
  have hsub : ((((plainSign token).dropWhile (· = 49)).tail).dropWhile (· = 49)).tail =
      token.sub := by
    rw [plainSign, hdrop, hdrop]
  rw [plainVerify] at h
  dsimp only at h
  rw [htv, hsub] at h
  split_ifs at h
  exact (Except.ok.inj h).symm

/-- A decimal number. -/
def plainNumber (text : JsString) : Option ℚ :=
  if text ≠ [] ∧ text.all fun c => 48 ≤ c && c ≤ 57 then
    some (text.foldl (fun n c => 10 * n + (c.toNat - 48)) 0 : ℕ)
  else none

def plainLibrary : TokenLibrary where
  sign _ token := plainSign token
  jwtVerify := plainVerify
  number := plainNumber
  signed _ _ _ _ := plainVerify_sign

/-- A device is paired and polls its session, plays a file and rotates its refresh token. -/
def playing : List CredentialAction :=
  pairedDevice.map .auth ++
    [.playback (plainSign ⟨js "d", 1, 0, 900⟩) (js "film") 5,
      .auth (.redeem 0 (js "d.r1") 6), .auth (.signed 0 (js "r2") 7)]

theorem revocation_kills_playing : ∃ s,
    Run (InTurn plainLibrary plainRuntime) .init playing s ∧ sessions (js "d") s.auth.log = 2 ∧
      s.tickets.length = 1 ∧ RevocationLaw plainLibrary plainRuntime (js "d") s := by
  obtain ⟨s, hrun, hs⟩ := exists_guarded_run_of_exec (fun s a => oneAtATime s a)
    (credentialStep plainLibrary plainRuntime) .init playing
    (fun s => sessions (js "d") s.auth.log = 2 && s.tickets.length = 1) (by decide +kernel)
  simp only [Bool.and_eq_true, decide_eq_true_eq] at hs
  exact ⟨s, hrun, hs.1, hs.2, revocation_kills hrun⟩

end LocalCast.Auth
