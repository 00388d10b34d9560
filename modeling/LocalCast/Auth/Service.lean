import LocalCast.Auth.Pairing
import LocalCast.Foundations.Runs

/-!
The auth services as one system: the database, the stash of one-time WebDAV passwords, and
the `async` calls in flight, each waiting on a password hash or a signature.

* `Action`, `step`: one synchronous stretch of the server, between two `await`s. Random
  values are part of the action; `step` refuses one that was drawn before.
* `Effect`, `step_effect`: everything a step can do to the tables and what it answers, and
  where the calls in flight come from. Every invariant of the auth services is derived from it.
-/

namespace LocalCast.Auth

open JsString Contract Db Runs

/-! ### State -/

/-- What a session is issued for: the poll that delivers an approval, or a refresh token. -/
inductive Origin where
  | poll (davPassword : JsString)
  | refresh (presented : JsString)
deriving DecidableEq

/-- A call in flight, with what it holds across its `await`. -/
inductive Call where
  | claim (token : PairingTokenRow) (req : PairClaimRequest) (secret : JsString) (called : Time)
  | approve (deviceId davPassword : JsString)
  | session (device : DeviceRow) (called : Time) (origin : Origin)
deriving DecidableEq

/-- The answers given, most recent first. -/
inductive Event where
  | minted (tokenId : JsString)
  | wrongSecret (tokenId : JsString) (answer : ApiException)
  | claimed (tokenId deviceId ticket : JsString)
  | pending (deviceId : JsString)
  | rejected (deviceId : JsString)
  | approved (deviceId davPassword : JsString)
  | session (deviceId : JsString) (origin : Origin) (tokens : IssuedTokens)
  | done
  | refused (error : ApiException)
deriving DecidableEq

/-- `usedIds` and `issued` record the random values drawn so far: the ids of rows, and the
refresh tokens as device id and random part. -/
structure AuthState where
  store : AuthStore
  pendingDavPasswords : JsString → Option (JsString × Time)
  calls : ℕ → Option Call
  usedIds : List JsString
  issued : List (JsString × JsString)
  log : List Event

namespace AuthState

/-- A freshly started server over an empty database. -/
def init : AuthState :=
  { store := .empty, pendingDavPasswords := fun _ => none, calls := fun _ => none
    usedIds := [], issued := [], log := [] }

def answer (s : AuthState) (e : Event) : AuthState := { s with log := e :: s.log }

def setStore (s : AuthState) (st : AuthStore) : AuthState := { s with store := st }

def stash (s : AuthState) (deviceId : JsString) (p : Option (JsString × Time)) : AuthState :=
  { s with pendingDavPasswords := Function.update s.pendingDavPasswords deviceId p }

/-- The call at slot `i` reaches its `await`. -/
def begin (s : AuthState) (i : ℕ) (c : Call) : Option AuthState :=
  match s.calls i with
  | none => some { s with calls := Function.update s.calls i (some c) }
  | some _ => none

/-- The call at slot `i` settles. -/
def settle (s : AuthState) (i : ℕ) : AuthState :=
  { s with calls := Function.update s.calls i none }

/-- A random id, different from all before; as a UUID it has no dot. -/
def draw (s : AuthState) (id : JsString) : Option AuthState :=
  if id ∈ s.usedIds ∨ (46 : CodeUnit) ∈ id then none else some { s with usedIds := id :: s.usedIds }

/-- A random refresh token, whose hash is different from all before. -/
def drawRefresh (rt : Runtime) (s : AuthState) (deviceId raw : JsString) : Option AuthState :=
  if rt.fastHash raw ∈ s.issued.map fun p => rt.fastHash p.2 then none
  else some { s with issued := (deviceId, raw) :: s.issued }

end AuthState

open AuthState

/-! ### Steps -/

inductive Action where
  | mint (opts : MintOptions) (id secretHash : JsString) (codes : List JsString) (now : Time)
  /-- `claim` is called in slot `i`; `deviceId` is drawn where no secret is to be checked. -/
  | claim (i : ℕ) (req : PairClaimRequest) (deviceId : JsString) (now : Time)
  /-- `verifyPassword` resolves. -/
  | verified (i : ℕ) (deviceId : JsString) (now : Time)
  | status (i : ℕ) (deviceId ticket : JsString) (now : Time)
  | approve (i : ℕ) (deviceId davPassword : JsString)
  /-- `hashPassword` resolves. -/
  | hashed (i : ℕ) (davHash : JsString) (now : Time)
  | redeem (i : ℕ) (presented : JsString) (now : Time)
  /-- The signature of an access token resolves. -/
  | signed (i : ℕ) (raw : JsString) (now : Time)
  | reject (deviceId : JsString)
  | revoke (deviceId : JsString)
  | rename (deviceId name : JsString)
  | deleteDevice (deviceId : JsString)
  | prune (now : Time)
  | setPermissions (deviceId : JsString) (perms : List FolderPermission)
  | addFolder (row : FolderRow)
  | deleteFolder (id : JsString)
  | restart

/-- The end of `claim`: a pending device under a fresh id, or `PAIRING_CONSUMED`. -/
def finishClaim (rt : Runtime) (s : AuthState) (token : PairingTokenRow) (req : PairClaimRequest)
    (deviceId : JsString) (called now : Time) : Option AuthState :=
  (s.draw deviceId).map fun s =>
    match claimConsume rt s.store token req deviceId called now with
    | .error e => s.answer (.refused e)
    | .ok st => (s.setStore st).answer (.claimed token.id deviceId (claimTicket rt deviceId))

/-- The failure of `claim` on a wrong secret, by the count it read before its `await`. -/
def failClaim (s : AuthState) (token : PairingTokenRow) (now : Time) : AuthState :=
  let attempts := token.failed_attempts + 1
  (s.setStore (registerFailure s.store token.id attempts now)).answer
    (.wrongSecret token.id (if attempts ≥ MAX_FAILED_ATTEMPTS then pairingLocked
      else pairingInvalid))

/-- A route on a device: 404 where there is none. -/
def onDevice (s : AuthState) (deviceId : JsString) (f : AuthState → AuthState) : AuthState :=
  match s.store.getDevice deviceId with
  | none => s.answer (.refused ⟨.notFound, "Device not found"⟩)
  | some _ => f s

/-- One synchronous stretch of the server; `none` where the action is not enabled. -/
def step (rt : Runtime) (s : AuthState) : Action → Option AuthState
  | .mint opts id secretHash codes now =>
      (s.draw id).map fun s =>
        let cleared := clearSpent s.store now
        match mint cleared opts id secretHash codes now with
        | none => (s.setStore cleared).answer (.refused ⟨.internal, "SQLITE_CONSTRAINT"⟩)
        | some st => (s.setStore st).answer (.minted id)
  | .claim i req deviceId now =>
      match claimRead rt s.store req now with
      | .error e => some (s.answer (.refused e))
      | .ok token =>
          match req.secret with
          | none => finishClaim rt s token req deviceId now now
          | some secret => s.begin i (.claim token req secret now)
  | .verified i deviceId now =>
      match s.calls i with
      | some (.claim token req secret called) =>
          if rt.verifyPassword secret token.secret_hash then
            finishClaim rt (s.settle i) token req deviceId called now
          else some (failClaim (s.settle i) token now)
      | _ => none
  | .status i deviceId ticket now =>
      match statusRead rt s.store deviceId ticket with
      | .error e => some (s.answer (.refused e))
      | .ok .pending => some (s.answer (.pending deviceId))
      | .ok .rejected => some (s.answer (.rejected deviceId))
      | .ok (.approved device) =>
          match freshStash (s.pendingDavPasswords deviceId) now with
          | none => some ((s.stash deviceId none).answer (.refused
              ⟨.pairingExpired, "Approval could not be delivered; please pair again"⟩))
          | some davPassword =>
              (s.stash deviceId none).begin i (.session device now (.poll davPassword))
  | .approve i deviceId davPassword =>
      match approveRead s.store deviceId with
      | .error e => some (s.answer (.refused e))
      | .ok _ => s.begin i (.approve deviceId davPassword)
  | .hashed i davHash now =>
      match s.calls i with
      | some (.approve deviceId davPassword) =>
          match approveApply s.store deviceId davHash with
          | .error e => some ((s.settle i).answer (.refused e))
          | .ok st => some ((((s.settle i).setStore st).stash deviceId
              (some (davPassword, now))).answer (.approved deviceId davPassword))
      | _ => none
  | .redeem i presented now =>
      match redeemRefreshToken rt s.store presented now with
      | .error e => some (s.answer (.refused e))
      | .ok device => s.begin i (.session device now (.refresh presented))
  | .signed i raw now =>
      match s.calls i with
      | some (.session device called origin) =>
          ((s.settle i).drawRefresh rt device.id raw).map fun s =>
            (s.setStore (issueRefreshToken rt s.store device.id raw now)).answer
              (.session device.id origin (issueSession rt device called raw))
      | _ => none
  | .reject deviceId => some <| onDevice s deviceId fun s =>
      ((s.setStore (revoke s.store deviceId)).stash deviceId none).answer .done
  | .revoke deviceId => some <| onDevice s deviceId fun s =>
      (s.setStore (revoke s.store deviceId)).answer .done
  | .rename deviceId name => some <| onDevice s deviceId fun s =>
      (s.setStore (renameDevice s.store deviceId name)).answer .done
  | .deleteDevice deviceId => some <| onDevice s deviceId fun s =>
      (s.setStore ((revoke s.store deviceId).deleteDevices fun d => d.id = deviceId)).answer .done
  | .prune now => some (s.setStore (pruneAbandoned s.store now))
  | .setPermissions deviceId perms => some <| onDevice s deviceId fun s =>
      match applyPermissions s.store deviceId perms with
      | .error e => s.answer (.refused e)
      | .ok st => (s.setStore st).answer .done
  | .addFolder row =>
      (s.draw row.id).map fun s =>
        match s.store.addFolder row with
        | none => s.answer (.refused ⟨.badRequest, "That folder is already shared"⟩)
        | some st => (s.setStore st).answer .done
  | .deleteFolder id => some <|
      match s.store.shared_folders.get id with
      | none => s.answer (.refused ⟨.notFound, "Folder not found"⟩)
      | some _ => (s.setStore (s.store.deleteFolder id)).answer .done
  | .restart => some { s with pendingDavPasswords := fun _ => none, calls := fun _ => none }

/-! ### What the helpers change -/

namespace AuthState

section Fields

variable (s : AuthState) (e : Event) (st : AuthStore) (d : JsString)
  (p : Option (JsString × Time)) (i : ℕ)

@[simp] lemma answer_store : (s.answer e).store = s.store := rfl
@[simp] lemma answer_calls : (s.answer e).calls = s.calls := rfl
@[simp] lemma answer_usedIds : (s.answer e).usedIds = s.usedIds := rfl
@[simp] lemma answer_issued : (s.answer e).issued = s.issued := rfl
@[simp] lemma answer_log : (s.answer e).log = e :: s.log := rfl
@[simp] lemma setStore_store : (s.setStore st).store = st := rfl
@[simp] lemma setStore_calls : (s.setStore st).calls = s.calls := rfl
@[simp] lemma setStore_usedIds : (s.setStore st).usedIds = s.usedIds := rfl
@[simp] lemma setStore_issued : (s.setStore st).issued = s.issued := rfl
@[simp] lemma setStore_log : (s.setStore st).log = s.log := rfl
@[simp] lemma stash_store : (s.stash d p).store = s.store := rfl
@[simp] lemma stash_calls : (s.stash d p).calls = s.calls := rfl
@[simp] lemma stash_usedIds : (s.stash d p).usedIds = s.usedIds := rfl
@[simp] lemma stash_issued : (s.stash d p).issued = s.issued := rfl
@[simp] lemma stash_log : (s.stash d p).log = s.log := rfl
@[simp] lemma settle_store : (s.settle i).store = s.store := rfl
@[simp] lemma settle_calls : (s.settle i).calls = Function.update s.calls i none := rfl
@[simp] lemma settle_usedIds : (s.settle i).usedIds = s.usedIds := rfl
@[simp] lemma settle_issued : (s.settle i).issued = s.issued := rfl
@[simp] lemma settle_log : (s.settle i).log = s.log := rfl

end Fields

variable {s t : AuthState}

lemma begin_eq_some {i : ℕ} {c : Call} :
    s.begin i c = some t ↔
      s.calls i = none ∧ t = { s with calls := Function.update s.calls i (some c) } := by
  rw [begin]
  cases s.calls i with
  | none => simp [eq_comm]
  | some c' => simp

lemma draw_eq_some {id : JsString} :
    s.draw id = some t ↔
      id ∉ s.usedIds ∧ (46 : CodeUnit) ∉ id ∧ t = { s with usedIds := id :: s.usedIds } := by
  rw [draw]
  split_ifs with h
  · simp only [false_iff]
    tauto
  · rw [not_or] at h
    simp [h, eq_comm]

lemma drawRefresh_eq_some {rt : Runtime} {d raw : JsString} :
    s.drawRefresh rt d raw = some t ↔
      rt.fastHash raw ∉ (s.issued.map fun p => rt.fastHash p.2) ∧
        t = { s with issued := (d, raw) :: s.issued } := by
  rw [drawRefresh]
  split_ifs with h
  · simp [h]
  · simp [h, eq_comm]

end AuthState

lemma finishClaim_eq_some {rt : Runtime} {s t : AuthState} {token : PairingTokenRow}
    {req : PairClaimRequest} {deviceId : JsString} {called now : Time}
    (h : finishClaim rt s token req deviceId called now = some t) :
    deviceId ∉ s.usedIds ∧ (46 : CodeUnit) ∉ deviceId ∧
      ((∃ e, t = ({ s with usedIds := deviceId :: s.usedIds }).answer (.refused e)) ∨
        ∃ st, claimConsume rt s.store token req deviceId called now = .ok st ∧
          t = (({ s with usedIds := deviceId :: s.usedIds }).setStore st).answer
            (.claimed token.id deviceId (claimTicket rt deviceId))) := by
  obtain ⟨s', hs', ht⟩ := Option.map_eq_some_iff.mp h
  obtain ⟨hid, hdot, rfl⟩ := draw_eq_some.mp hs'
  refine ⟨hid, hdot, ?_⟩
  cases hc : claimConsume rt s.store token req deviceId called now with
  | error e => exact .inl ⟨e, by simpa [hc] using ht.symm⟩
  | ok st => exact .inr ⟨st, rfl, by simpa [hc] using ht.symm⟩

/-! ### What a step does -/

/-- Answers that neither refuse a secret, nor create a device, nor issue a session. -/
def Event.isPlain : Event → Bool
  | .wrongSecret .. | .claimed .. | .session .. => false
  | _ => true

/-- A step with at most a plain answer. -/
def Plain (s t : AuthState) : Prop :=
  t.issued = s.issued ∧ (t.log = s.log ∨ ∃ e : Event, e.isPlain = true ∧ t.log = e :: s.log)

/-- What a step does to the tables, and what it answers. -/
inductive Effect (rt : Runtime) (s : AuthState) (a : Action) (t : AuthState) : Prop
  | none (hstore : t.store = s.store) (hlog : Plain s t)
  | cleared {now : Time} (hstore : t.store = clearSpent s.store now) (hlog : Plain s t)
  | minted {opts : MintOptions} {id secretHash : JsString} {codes : List JsString} {now : Time}
      (hid : id ∉ s.usedIds) (hused : id ∈ t.usedIds)
      (hstore : mint (clearSpent s.store now) opts id secretHash codes now = some t.store)
      (hlog : Plain s t) (ha : a = .mint opts id secretHash codes now)
  | claimed {token : PairingTokenRow} {req : PairClaimRequest} {deviceId ticket : JsString}
      {called now : Time} (hid : deviceId ∉ s.usedIds) (hused : deviceId ∈ t.usedIds)
      (hdot : (46 : CodeUnit) ∉ deviceId)
      (hstore : claimConsume rt s.store token req deviceId called now = .ok t.store)
      (hissued : t.issued = s.issued) (hlog : t.log = .claimed token.id deviceId ticket :: s.log)
  | failed {i : ℕ} {deviceId : JsString} {now : Time} {token : PairingTokenRow}
      {req : PairClaimRequest} {secret : JsString} {called : Time} {e : ApiException}
      (ha : a = .verified i deviceId now)
      (hcall : s.calls i = some (.claim token req secret called))
      (hpw : rt.verifyPassword secret token.secret_hash = false)
      (hstore : t.store = registerFailure s.store token.id (token.failed_attempts + 1) now)
      (hissued : t.issued = s.issued) (hlog : t.log = .wrongSecret token.id e :: s.log)
  | approved {i : ℕ} {davHash : JsString} {now : Time} {deviceId davPassword : JsString}
      (ha : a = .hashed i davHash now) (hcall : s.calls i = some (.approve deviceId davPassword))
      (hstore : approveApply s.store deviceId davHash = .ok t.store) (hlog : Plain s t)
  | issued {i : ℕ} {raw : JsString} {now : Time} {device : DeviceRow} {called : Time}
      {origin : Origin} {tokens : IssuedTokens} (ha : a = .signed i raw now)
      (hcall : s.calls i = some (.session device called origin))
      (hfresh : rt.fastHash raw ∉ s.issued.map fun p => rt.fastHash p.2)
      (hstore : t.store = issueRefreshToken rt s.store device.id raw now)
      (hissued : t.issued = (device.id, raw) :: s.issued)
      (hlog : t.log = .session device.id origin tokens :: s.log)
  | revoked {deviceId : JsString} (hstore : t.store = revoke s.store deviceId) (hlog : Plain s t)
  | renamed {deviceId name : JsString} (hstore : t.store = renameDevice s.store deviceId name)
      (hlog : Plain s t)
  | deleted {deviceId : JsString}
      (hstore : t.store = (revoke s.store deviceId).deleteDevices fun d => d.id = deviceId)
      (hlog : Plain s t)
  | pruned {now : Time} (hstore : t.store = pruneAbandoned s.store now) (hlog : Plain s t)
  | permitted {deviceId : JsString} {perms : List FolderPermission} {device : DeviceRow}
      (ha : a = .setPermissions deviceId perms) (hdev : s.store.getDevice deviceId = some device)
      (hstore : applyPermissions s.store deviceId perms = .ok t.store) (hlog : Plain s t)
  | folderAdded {row : FolderRow} (hstore : s.store.addFolder row = some t.store)
      (hlog : Plain s t)
  | folderDeleted {id : JsString} (hstore : t.store = s.store.deleteFolder id) (hlog : Plain s t)

/-- The read a call in flight started from. -/
inductive Begun (rt : Runtime) (s : AuthState) : Call → Prop
  | claim {token : PairingTokenRow} {req : PairClaimRequest} {secret : JsString} {now : Time}
      (h : claimRead rt s.store req now = .ok token) : Begun rt s (.claim token req secret now)
  | approve {deviceId davPassword : JsString} {device : DeviceRow}
      (h : approveRead s.store deviceId = .ok device) : Begun rt s (.approve deviceId davPassword)
  | poll {deviceId ticket davPassword : JsString} {device : DeviceRow} {now : Time}
      (h : statusRead rt s.store deviceId ticket = .ok (.approved device)) :
      Begun rt s (.session device now (.poll davPassword))
  | redeem {presented : JsString} {device : DeviceRow} {now : Time}
      (h : redeemRefreshToken rt s.store presented now = .ok device) :
      Begun rt s (.session device now (.refresh presented))

/-- A step only adds ids to those drawn, and every call in flight after it was in flight
before, or has just made its read. -/
structure Kept (rt : Runtime) (s t : AuthState) : Prop where
  ids : s.usedIds ⊆ t.usedIds
  calls : ∀ i c, t.calls i = some c → s.calls i = some c ∨ Begun rt s c

section Step

variable {rt : Runtime} {s t : AuthState} {a : Action}

lemma plain_answer {e : Event} (he : e.isPlain = true) (hi : t.issued = s.issued)
    (hl : t.log = e :: s.log) : Plain s t :=
  ⟨hi, .inr ⟨e, he, hl⟩⟩

lemma kept_of_eq (hu : s.usedIds ⊆ t.usedIds) (hc : t.calls = s.calls) : Kept rt s t :=
  ⟨hu, fun i c h => .inl (by rwa [hc] at h)⟩

lemma kept_of_settle {i : ℕ} (hu : s.usedIds ⊆ t.usedIds)
    (hc : t.calls = Function.update s.calls i none) : Kept rt s t := by
  refine ⟨hu, fun j c h => .inl ?_⟩
  rw [hc, Function.update_apply] at h
  split_ifs at h
  exact h

/-- A call that reaches its `await` leaves the tables alone. -/
lemma begin_effect (s' : AuthState) {i : ℕ} {c : Call} (hstore : s'.store = s.store)
    (hcalls : s'.calls = s.calls) (hids : s'.usedIds = s.usedIds) (hissued : s'.issued = s.issued)
    (hlog : s'.log = s.log) (hc : Begun rt s c) (h : s'.begin i c = some t) :
    Effect rt s a t ∧ Kept rt s t := by
  obtain ⟨-, rfl⟩ := begin_eq_some.mp h
  refine ⟨.none hstore ⟨hissued, .inl hlog⟩, by simp [hids], fun j c' hc' => ?_⟩
  dsimp only at hc'
  rw [Function.update_apply, hcalls] at hc'
  split_ifs at hc'
  · obtain rfl := Option.some.inj hc'
    exact .inr hc
  · exact .inl hc'

/-- The end of a claim, from a state with the tables and the log of `s`. -/
lemma finishClaim_effect (s' : AuthState) (hstore : s'.store = s.store)
    (hids : s'.usedIds = s.usedIds) (hissued : s'.issued = s.issued) (hlog : s'.log = s.log)
    {token : PairingTokenRow} {req : PairClaimRequest} {deviceId : JsString} {called now : Time}
    (h : finishClaim rt s' token req deviceId called now = some t) :
    Effect rt s a t ∧ s.usedIds ⊆ t.usedIds ∧ t.calls = s'.calls := by
  obtain ⟨hid, hdot, ⟨e, rfl⟩ | ⟨st, hc, rfl⟩⟩ := finishClaim_eq_some h
  · exact ⟨.none hstore (plain_answer rfl hissued (by simp [hlog]; rfl)), by simp [hids], rfl⟩
  · rw [hids] at hid
    rw [hstore] at hc
    exact ⟨.claimed hid (by simp) hdot hc hissued (by simp [hlog]; rfl), by simp [hids], rfl⟩

/-- A route on a device answers 404, or runs its handler on a device that exists. -/
lemma onDevice_effect {deviceId : JsString} {f : AuthState → AuthState}
    (hf : ∀ d, s.store.getDevice deviceId = some d → Effect rt s a (f s) ∧ Kept rt s (f s)) :
    Effect rt s a (onDevice s deviceId f) ∧ Kept rt s (onDevice s deviceId f) := by
  rw [onDevice]
  cases h : s.store.getDevice deviceId with
  | none => exact ⟨.none rfl (plain_answer rfl rfl rfl), kept_of_eq (by simp) rfl⟩
  | some d => exact hf d h

/-- An answer that touches no table. -/
lemma answer_effect {e : Event} (he : e.isPlain = true) :
    Effect rt s a (s.answer e) ∧ Kept rt s (s.answer e) :=
  ⟨.none rfl (plain_answer he rfl rfl), kept_of_eq (by simp) rfl⟩

/-- A write to the tables, answered plainly. -/
lemma setStore_kept {st : AuthStore} {e : Event} : Kept rt s ((s.setStore st).answer e) :=
  kept_of_eq (by simp) rfl

/-- **Everything a step can do.** -/
theorem step_effect (h : step rt s a = some t) : Effect rt s a t ∧ Kept rt s t := by
  cases a with
  | mint opts id secretHash codes now =>
      obtain ⟨s', hs', rfl⟩ := Option.map_eq_some_iff.mp h
      obtain ⟨hid, -, rfl⟩ := draw_eq_some.mp hs'
      dsimp only
      cases hm : mint (clearSpent s.store now) opts id secretHash codes now with
      | none => exact ⟨.cleared rfl (plain_answer rfl rfl rfl), kept_of_eq (by simp) rfl⟩
      | some st =>
          exact ⟨.minted hid (by simp) hm (plain_answer rfl rfl rfl) rfl, kept_of_eq (by simp) rfl⟩
  | claim i req deviceId now =>
      rw [step] at h
      split at h
      · obtain rfl := Option.some.inj h
        exact answer_effect rfl
      case h_2 token hread =>
        split at h
        · obtain ⟨he, hids, hcalls⟩ := finishClaim_effect s rfl rfl rfl rfl h
          exact ⟨he, kept_of_eq hids hcalls⟩
        · exact begin_effect s rfl rfl rfl rfl rfl (.claim hread) h
  | verified i deviceId now =>
      rw [step] at h
      split at h
      case h_2 => cases h
      case h_1 token req secret called hcall =>
        split_ifs at h with hpw
        · obtain ⟨he, hids, hcalls⟩ := finishClaim_effect (s := s) (s.settle i) rfl rfl rfl rfl h
          exact ⟨he, kept_of_settle hids hcalls⟩
        · obtain rfl := Option.some.inj h
          exact ⟨.failed rfl hcall (by simpa using hpw) rfl rfl rfl,
            kept_of_settle (by simp [failClaim]) rfl⟩
  | status i deviceId ticket now =>
      rw [step] at h
      split at h
      · obtain rfl := Option.some.inj h
        exact answer_effect rfl
      · obtain rfl := Option.some.inj h
        exact answer_effect rfl
      · obtain rfl := Option.some.inj h
        exact answer_effect rfl
      case h_4 device hread =>
        split at h
        · obtain rfl := Option.some.inj h
          exact ⟨.none rfl (plain_answer rfl rfl rfl), kept_of_eq (by simp) rfl⟩
        · exact begin_effect (s.stash deviceId none) rfl rfl rfl rfl rfl (.poll hread) h
  | approve i deviceId davPassword =>
      rw [step] at h
      split at h
      · obtain rfl := Option.some.inj h
        exact answer_effect rfl
      case h_2 device hread => exact begin_effect s rfl rfl rfl rfl rfl (.approve hread) h
  | hashed i davHash now =>
      rw [step] at h
      split at h
      case h_2 => cases h
      case h_1 deviceId davPassword hcall =>
        split at h
        · obtain rfl := Option.some.inj h
          exact ⟨.none rfl (plain_answer rfl rfl rfl), kept_of_settle (by simp) rfl⟩
        case h_2 st happ =>
          obtain rfl := Option.some.inj h
          exact ⟨.approved rfl hcall happ (plain_answer rfl rfl rfl), kept_of_settle (by simp) rfl⟩
  | redeem i presented now =>
      rw [step] at h
      split at h
      · obtain rfl := Option.some.inj h
        exact answer_effect rfl
      case h_2 device hread => exact begin_effect s rfl rfl rfl rfl rfl (.redeem hread) h
  | signed i raw now =>
      rw [step] at h
      split at h
      case h_2 => cases h
      case h_1 device called origin hcall =>
        obtain ⟨s', hs', rfl⟩ := Option.map_eq_some_iff.mp h
        obtain ⟨hfresh, rfl⟩ := drawRefresh_eq_some.mp hs'
        exact ⟨.issued rfl hcall hfresh rfl rfl rfl, kept_of_settle (by simp) rfl⟩
  | reject deviceId =>
      obtain rfl := Option.some.inj h
      exact onDevice_effect fun _ _ =>
        ⟨.revoked rfl (plain_answer rfl rfl rfl), kept_of_eq (by simp) rfl⟩
  | revoke deviceId =>
      obtain rfl := Option.some.inj h
      exact onDevice_effect fun _ _ => ⟨.revoked rfl (plain_answer rfl rfl rfl), setStore_kept⟩
  | rename deviceId name =>
      obtain rfl := Option.some.inj h
      exact onDevice_effect fun _ _ => ⟨.renamed rfl (plain_answer rfl rfl rfl), setStore_kept⟩
  | deleteDevice deviceId =>
      obtain rfl := Option.some.inj h
      exact onDevice_effect fun _ _ => ⟨.deleted rfl (plain_answer rfl rfl rfl), setStore_kept⟩
  | prune now =>
      obtain rfl := Option.some.inj h
      exact ⟨.pruned rfl ⟨rfl, .inl rfl⟩, kept_of_eq (by simp) rfl⟩
  | setPermissions deviceId perms =>
      obtain rfl := Option.some.inj h
      refine onDevice_effect fun d hd => ?_
      cases happ : applyPermissions s.store deviceId perms with
      | error e => exact answer_effect rfl
      | ok st => exact ⟨.permitted rfl hd happ (plain_answer rfl rfl rfl), setStore_kept⟩
  | addFolder row =>
      obtain ⟨s', hs', rfl⟩ := Option.map_eq_some_iff.mp h
      obtain ⟨-, -, rfl⟩ := draw_eq_some.mp hs'
      dsimp only
      cases hadd : s.store.addFolder row with
      | none => exact ⟨.none rfl (plain_answer rfl rfl rfl), kept_of_eq (by simp) rfl⟩
      | some st =>
          exact ⟨.folderAdded hadd (plain_answer rfl rfl rfl), kept_of_eq (by simp) rfl⟩
  | deleteFolder id =>
      obtain rfl := Option.some.inj h
      cases s.store.shared_folders.get id with
      | none => exact answer_effect rfl
      | some row => exact ⟨.folderDeleted rfl (plain_answer rfl rfl rfl), setStore_kept⟩
  | restart =>
      obtain rfl := Option.some.inj h
      exact ⟨.none rfl ⟨rfl, .inl rfl⟩, by simp, fun i c hc => by simp at hc⟩

end Step

end LocalCast.Auth
