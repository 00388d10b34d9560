import LocalCast.Auth.Devices

/-!
What an approval grants: the snapshot taken when the code was minted.

* `SnapshotChange`, `snapshot_step`: what a step does to the pairing tokens.
* `TokensOk`, `token_minted`: a device consumed one token, whose snapshot is the one minted.
* `approval_exact_iff`: in every reachable state, an approval gives a pending device its
  snapshot and leaves an active one alone exactly where a pending device has no other grant,
  and an active one already has the snapshot and the password.
* `second_approval_reopens`: approving again reopens a closed folder.
-/

namespace LocalCast.Auth

open JsString Contract Db Runs AuthState

/-! ### Snapshots -/

/-- The mode a list of permissions leaves a folder with: its last entry for it counts. -/
def snapshotMode : List FolderPermission → JsString → Option AccessMode
  | [], _ => none
  | p :: perms, f =>
      match snapshotMode perms f with
      | some mode => some mode
      | none => if p.folderId = f then some p.mode else none

lemma get_upsertPermissions (deviceId : JsString) (perms : List FolderPermission)
    (grants : Table PermissionRow) (f : JsString) :
    (upsertPermissions deviceId perms grants).get (deviceId, f) =
      match snapshotMode perms f with
      | some mode => some ⟨deviceId, f, mode⟩
      | none => grants.get (deviceId, f) := by
  induction perms generalizing grants with
  | nil => rfl
  | cons p perms ih =>
      rw [upsertPermissions, List.foldl_cons, ← upsertPermissions, ih, snapshotMode]
      cases snapshotMode perms f with
      | some mode => rfl
      | none =>
          rw [Table.get_put, key_permission]
          by_cases hf : p.folderId = f
          · subst hf
            simp
          · have hne : (deviceId, f) ≠ (deviceId, p.folderId) := by simp [Ne.symm hf]
            rw [if_neg hne, if_neg hf]

/-- The mode of a device on a folder by its grant alone. -/
def AuthState.grantMode (s : AuthState) (d f : JsString) : AccessMode :=
  ((s.grant d f).map PermissionRow.mode).getD .none

/-! ### Tokens -/

section Tokens

variable {rt : Runtime} {s t : AuthState} {a : Action}

/-- A pairing token after a step: one found with its id and snapshot, one just minted, or one
just consumed by a new device. -/
inductive SnapshotChange (s : AuthState) (a : Action) (t : AuthState) (tok' : PairingTokenRow) : Prop
  | kept {tok : PairingTokenRow} (hget : s.store.pairing_tokens.get tok'.id = some tok)
      (hperms : tok'.default_permissions = tok.default_permissions)
      (hby : tok'.consumed_by_device = tok.consumed_by_device ∨ tok'.consumed_by_device = none)
  | minted {opts : MintOptions} {secretHash : JsString} {codes : List JsString} {now : Time}
      (ha : a = .mint opts tok'.id secretHash codes now)
      (hperms : tok'.default_permissions = opts.defaultPermissions)
      (hby : tok'.consumed_by_device = none)
  | claimed {tok : PairingTokenRow} {d : JsString}
      (hget : s.store.pairing_tokens.get tok'.id = some tok)
      (hperms : tok'.default_permissions = tok.default_permissions)
      (hby : tok'.consumed_by_device = some d) (hfresh : d ∉ s.usedIds) (hused : d ∈ t.usedIds)
      (hothers : ∀ k, k ≠ tok'.id →
        t.store.pairing_tokens.get k = s.store.pairing_tokens.get k)

lemma snapshotChange_of_eq (h : t.store.pairing_tokens = s.store.pairing_tokens)
    {tok' : PairingTokenRow} (hget : t.store.pairing_tokens.get tok'.id = some tok') :
    SnapshotChange s a t tok' :=
  .kept (h ▸ hget) rfl (.inl rfl)

lemma snapshotChange_deleteDevices {st : AuthStore} {p : DeviceRow → Bool}
    (h : t.store = st.deleteDevices p) (hst : st.pairing_tokens = s.store.pairing_tokens)
    {tok' : PairingTokenRow} (hget : t.store.pairing_tokens.get tok'.id = some tok') :
    SnapshotChange s a t tok' := by
  rw [h, AuthStore.deleteDevices] at hget
  dsimp only at hget
  obtain ⟨tok, htok, rfl | ⟨-, rfl⟩⟩ := Table.of_get_update hget
  all_goals rw [hst] at htok
  · exact .kept htok rfl (.inl rfl)
  · exact .kept htok rfl (.inr rfl)

lemma snapshot_step (h : step rt s a = some t) {tok' : PairingTokenRow}
    (hget : t.store.pairing_tokens.get tok'.id = some tok') : SnapshotChange s a t tok' := by
  cases (step_effect h).1 with
  | none hstore => exact snapshotChange_of_eq (by rw [hstore]) hget
  | issued _ _ _ hstore | revoked hstore | renamed hstore | folderDeleted hstore =>
      exact snapshotChange_of_eq (by rw [hstore]; rfl) hget
  | cleared hstore =>
      rw [hstore, clearSpent, Table.get_delete, Option.filter_eq_some_iff] at hget
      exact .kept hget.1 rfl (.inl rfl)
  | @minted opts id secretHash codes now hid hused hstore hlog ha =>
      obtain ⟨row, hrid, -, -, -, hby, hperms, hrows, -⟩ := mint_eq_some hstore
      rw [hrows] at hget
      split_ifs at hget with hk
      · obtain rfl := Option.some.inj hget
        exact .minted (hk ▸ ha) hperms hby
      · rw [clearSpent, Table.get_delete, Option.filter_eq_some_iff] at hget
        exact .kept hget.1 rfl (.inl rfl)
  | @claimed token req deviceId ticket called now hid hused hdot hstore hissued hlog =>
      obtain ⟨⟨row, hrow, -, -, hrows⟩, -⟩ := claimConsume_eq_ok hstore
      have hgot := hget
      rw [hrows] at hgot
      split_ifs at hgot with hk
      · obtain rfl := Option.some.inj hgot
        have hid' : row.id = token.id := Table.key_of_get hrow
        rw [← hid'] at hrow
        refine .claimed hrow rfl rfl hid hused fun k hne => ?_
        rw [hrows, if_neg (hid' ▸ hne)]
      · exact .kept hgot rfl (.inl rfl)
  | failed ha hcall hpw hstore =>
      rw [hstore, registerFailure] at hget
      dsimp only at hget
      obtain ⟨tok, htok, rfl | ⟨-, rfl⟩⟩ := Table.of_get_updateKey hget
      · exact .kept htok rfl (.inl rfl)
      · exact .kept htok rfl (.inl rfl)
  | approved ha hcall hstore =>
      exact snapshotChange_of_eq (approveApply_eq_ok hstore).2.2.1 hget
  | deleted hstore => exact snapshotChange_deleteDevices hstore rfl hget
  | pruned hstore => exact snapshotChange_deleteDevices hstore rfl hget
  | permitted ha hdev hstore =>
      exact snapshotChange_of_eq (by rw [applyPermissions_eq_ok hstore]) hget
  | folderAdded hstore =>
      rw [AuthStore.addFolder] at hstore
      split_ifs at hstore
      obtain ⟨folders, -, hst⟩ := Option.map_eq_some_iff.mp hstore
      exact snapshotChange_of_eq (by rw [← hst]) hget

/-- A device consumed at most one token, under an id that was drawn. -/
structure TokensOk (s : AuthState) : Prop where
  known : ∀ tok d, s.store.pairing_tokens.get tok.id = some tok →
    tok.consumed_by_device = some d → d ∈ s.usedIds
  once : ∀ tok tok' d, s.store.pairing_tokens.get tok.id = some tok →
    s.store.pairing_tokens.get tok'.id = some tok' → tok.consumed_by_device = some d →
    tok'.consumed_by_device = some d → tok = tok'

lemma tokensOk_init : TokensOk init := by
  constructor <;> simp [init, AuthStore.empty]

/-- A token consumed before a step by a device was consumed by it after the step before it, or
the device is new. -/
lemma consumed_step (h : step rt s a = some t) {tok' : PairingTokenRow} {d : JsString}
    (hget : t.store.pairing_tokens.get tok'.id = some tok')
    (hby : tok'.consumed_by_device = some d) :
    (∃ tok, s.store.pairing_tokens.get tok.id = some tok ∧ tok.id = tok'.id ∧
        tok.consumed_by_device = some d) ∨
      (d ∉ s.usedIds ∧ d ∈ t.usedIds ∧ ∀ k, k ≠ tok'.id →
        t.store.pairing_tokens.get k = s.store.pairing_tokens.get k) := by
  cases snapshot_step h hget with
  | @kept tok hget0 _ hby0 =>
      have hid : tok.id = tok'.id := Table.key_of_get hget0
      refine .inl ⟨tok, hid ▸ hget0, hid, ?_⟩
      rcases hby0 with hsame | hnone
      · rw [← hsame, hby]
      · simp [hnone] at hby
  | minted _ _ hnone => simp [hnone] at hby
  | claimed _ _ hby0 hfresh hused hothers =>
      obtain rfl := Option.some.inj (hby0.symm.trans hby)
      exact .inr ⟨hfresh, hused, hothers⟩

lemma tokensOk_step (hs : TokensOk s) (h : step rt s a = some t) : TokensOk t where
  known tok' d hget hby := by
    rcases consumed_step h hget hby with ⟨tok, htok, -, hby0⟩ | ⟨-, hused, -⟩
    · exact (step_effect h).2.ids (hs.known tok d htok hby0)
    · exact hused
  once tok1 tok2 d hget1 hget2 hby1 hby2 := by
    have hid : tok1.id = tok2.id := by
      rcases consumed_step h hget1 hby1 with ⟨u1, hu1, hid1, hb1⟩ | ⟨hfresh1, -, ho1⟩ <;>
        rcases consumed_step h hget2 hby2 with ⟨u2, hu2, hid2, hb2⟩ | ⟨hfresh2, -, ho2⟩
      · rw [← hid1, ← hid2, hs.once u1 u2 d hu1 hu2 hb1 hb2]
      · exact absurd (hs.known u1 d hu1 hb1) hfresh2
      · exact absurd (hs.known u2 d hu2 hb2) hfresh1
      · -- one step consumes one token: the other was consumed by the device before
        by_contra hne
        rw [ho2 _ hne] at hget1
        exact hfresh1 (hs.known tok1 d hget1 hby1)
    rw [hid] at hget1
    exact Option.some.inj (hget1.symm.trans hget2)

/-- The snapshot of a token is the one its code was minted with. -/
def Minted (as : List Action) (tok : PairingTokenRow) : Prop :=
  ∃ opts secretHash codes now, Action.mint opts tok.id secretHash codes now ∈ as ∧
    tok.default_permissions = opts.defaultPermissions

lemma token_minted {as : List Action} (h : Run (Steps (step rt)) s as t) {tok' : PairingTokenRow}
    (hget : t.store.pairing_tokens.get tok'.id = some tok') :
    Minted as tok' ∨ ∃ tok, s.store.pairing_tokens.get tok.id = some tok ∧ tok.id = tok'.id ∧
      tok.default_permissions = tok'.default_permissions := by
  induction h with
  | nil s => exact .inr ⟨tok', hget, rfl, rfl⟩
  | @cons s u t a as hstep _ ih =>
      rcases ih hget with ⟨opts, secretHash, codes, now, hmem, hperms⟩ | ⟨tok, htok, hid, hsame⟩
      · exact .inl ⟨opts, secretHash, codes, now, List.mem_cons_of_mem _ hmem, hperms⟩
      · cases snapshot_step hstep htok with
        | @kept tok0 hget0 hperms | @claimed tok0 _ hget0 hperms =>
            have hid0 : tok0.id = tok.id := Table.key_of_get hget0
            exact .inr ⟨tok0, hid0 ▸ hget0, hid0.trans hid, hperms.symm.trans hsame⟩
        | @minted opts secretHash codes now ha hperms =>
            refine .inl ⟨opts, secretHash, codes, now, ?_, hsame.symm.trans hperms⟩
            exact hid ▸ ha ▸ List.mem_cons_self

end Tokens

/-! ### Approvals -/

/-- The token a device consumed, while its row exists. -/
def ConsumedBy (s : AuthState) (d : JsString) (tok : PairingTokenRow) : Prop :=
  s.store.pairing_tokens.get tok.id = some tok ∧ tok.consumed_by_device = some d

/-- What an approval does to the device `d`: a pending device gets the snapshot its code was
minted with, for the folders that exist, and nothing else; an active one keeps its grants and
its password. `as` is the run up to the approval. -/
structure ApprovalLaw (as : List Action) (s t : AuthState) (d : JsString) : Prop where
  pending : ∀ row tok, s.device d = some row → row.status = .pending → ConsumedBy s d tok →
    Minted as tok ∧ (∃ row', t.device d = some row' ∧ row'.status = .active) ∧
      ∀ f, t.grantMode d f =
        (snapshotMode (existingPermissions s.store tok.default_permissions) f).getD .none
  active : ∀ row, s.device d = some row → row.status = .active →
    (∀ f, t.grant d f = s.grant d f) ∧
      ∃ row', t.device d = some row' ∧ row'.dav_password_hash = row.dav_password_hash

/-- A pending device has no grant beside its snapshot, and an active one has the password and
every grant of the snapshot already. -/
structure ApprovalFits (s : AuthState) (d davHash : JsString) : Prop where
  pending : ∀ row tok, s.device d = some row → row.status = .pending → ConsumedBy s d tok →
    ∀ f, snapshotMode (existingPermissions s.store tok.default_permissions) f = none →
      s.grantMode d f = .none
  active : ∀ row, s.device d = some row → row.status = .active →
    row.dav_password_hash = some davHash ∧ ∀ f mode,
      snapshotMode (existingPermissions s.store (defaultPermissionsFor s.store d)) f = some mode →
        s.grant d f = some ⟨d, f, mode⟩

section Approval

variable {rt : Runtime} {s t : AuthState} {as : List Action} {i : ℕ}
  {d davPassword davHash : JsString} {now : Time}

lemma defaultPermissionsFor_eq (hs : TokensOk s) {tok : PairingTokenRow}
    (htok : ConsumedBy s d tok) : defaultPermissionsFor s.store d = tok.default_permissions := by
  rw [defaultPermissionsFor]
  cases hfind : s.store.pairing_tokens.find fun t => t.consumed_by_device = some d with
  | none =>
      have hmem := (Table.get_eq_some_iff.mp htok.1).1
      have hnot := List.find?_eq_none.mp hfind tok hmem
      simp [htok.2] at hnot
  | some tok' =>
      obtain ⟨hget, hby⟩ := Table.mem_of_find hfind
      exact congrArg PairingTokenRow.default_permissions
        (hs.once tok' tok d hget htok.1 (of_decide_eq_true hby) htok.2)

/-- The transaction of an approval, on a device that is there. -/
lemma approved_store (hcall : s.calls i = some (.approve d davPassword))
    (h : step rt s (.hashed i davHash now) = some t) {row : DeviceRow}
    (hrow : s.device d = some row) :
    t.device d = some { row with status := .active, dav_password_hash := some davHash } ∧
      ∀ f, t.grant d f = match snapshotMode
          (existingPermissions s.store (defaultPermissionsFor s.store d)) f with
        | some mode => some ⟨d, f, mode⟩
        | none => s.grant d f := by
  have hsome : ¬ ((s.store.getDevice d).isNone ∧
      existingPermissions s.store (defaultPermissionsFor s.store d) ≠ []) := by
    intro hnone
    rw [AuthState.device] at hrow
    simp [hrow] at hnone
  obtain ⟨st, happ, hperms⟩ : ∃ st, approveApply s.store d davHash = .ok st ∧
      st.folder_permissions = upsertPermissions d
        (existingPermissions s.store (defaultPermissionsFor s.store d))
        s.store.folder_permissions := by
    rw [approveApply, if_neg hsome]
    exact ⟨_, rfl, rfl⟩
  rw [step, hcall] at h
  simp only [happ] at h
  obtain rfl := Option.some.inj h
  refine ⟨?_, fun f => ?_⟩
  · have hdevice := (approveApply_eq_ok happ).1 d
    rw [AuthState.device, AuthStore.getDevice] at hrow
    rw [if_pos rfl, hrow, Option.map_some] at hdevice
    exact hdevice
  · change st.folder_permissions.get (d, f) = _
    rw [hperms]
    exact get_upsertPermissions d _ _ f

/-- **What an approval gives**, and exactly when. -/
theorem approval_exact_iff (hrun : Run (Steps (step rt)) init as s)
    (hcall : s.calls i = some (.approve d davPassword))
    (h : step rt s (.hashed i davHash now) = some t) :
    ApprovalLaw as s t d ↔ ApprovalFits s d davHash := by
  have hok : TokensOk s :=
    hrun.invariant (fun _ _ _ hu hstep => tokensOk_step hu hstep) tokensOk_init
  have hminted (tok : PairingTokenRow) (htok : ConsumedBy s d tok) : Minted as tok := by
    rcases token_minted hrun htok.1 with hm | ⟨tok0, hget, -⟩
    · exact hm
    · simp [init, AuthStore.empty] at hget
  constructor
  · intro hlaw
    refine ⟨fun row tok hrow hpending htok f hnone => ?_, fun row hrow hactive => ?_⟩
    · obtain ⟨-, -, hmode⟩ := hlaw.pending row tok hrow hpending htok
      have hgrant := (approved_store hcall h hrow).2 f
      rw [defaultPermissionsFor_eq hok htok, hnone] at hgrant
      have hmode' := hmode f
      rw [hnone, AuthState.grantMode, hgrant] at hmode'
      exact hmode'
    · obtain ⟨hgrants, row', hrow', hdav⟩ := hlaw.active row hrow hactive
      obtain ⟨hdevice, hgrant⟩ := approved_store hcall h hrow
      obtain rfl := Option.some.inj (hdevice.symm.trans hrow')
      refine ⟨hdav.symm, fun f mode hmode => ?_⟩
      have hf := hgrant f
      rw [hmode, hgrants f] at hf
      exact hf
  · intro hfits
    refine ⟨fun row tok hrow hpending htok => ⟨hminted tok htok, ?_, fun f => ?_⟩,
      fun row hrow hactive => ⟨fun f => ?_, ?_⟩⟩
    · exact ⟨_, (approved_store hcall h hrow).1, rfl⟩
    · have hgrant := (approved_store hcall h hrow).2 f
      rw [defaultPermissionsFor_eq hok htok] at hgrant
      rw [AuthState.grantMode, hgrant]
      cases hmode : snapshotMode (existingPermissions s.store tok.default_permissions) f with
      | some mode => rfl
      | none => exact hfits.pending row tok hrow hpending htok f hmode
    · have hgrant := (approved_store hcall h hrow).2 f
      obtain ⟨-, hsnap⟩ := hfits.active row hrow hactive
      rw [hgrant]
      split
      case h_1 mode hmode => exact (hsnap f mode hmode).symm
      case h_2 => rfl
    · exact ⟨_, (approved_store hcall h hrow).1, ((hfits.active row hrow hactive).1).symm⟩

end Approval

/-! ### Concrete runs -/

/-- A code is minted with a grant on the folder `f`, claimed by the device `d`, and the
operator approves. -/
def approvedDevice : List Action :=
  [.addFolder ⟨js "f", js "/f", js "F", true, true, true, true, none, none, none, 0⟩,
    .mint ⟨[⟨js "f", .full⟩], 300⟩ (js "t") (js "s") [js "ABCD"] 0,
    .claim 0 ⟨js "ABCD", none, js "phone", js "ios"⟩ (js "d") 1,
    .approve 0 (js "d") (js "pw")]

/-- The approval lands, the operator closes the folder for the device, and approves again. -/
def approvedAgain : List Action :=
  approvedDevice ++ [.hashed 0 (js "hash") 2, .setPermissions (js "d") [⟨js "f", .none⟩],
    .approve 0 (js "d") (js "pw2")]

/-- The device `d` waits for the password hash of an approval, in this status and with this
mode on the folder `f`. -/
def awaits (s : AuthState) (status : DeviceStatus) (mode : AccessMode) : Bool :=
  (match s.calls 0 with
    | some (.approve d _) => d = js "d"
    | _ => false) &&
    ((s.device (js "d")).any fun row => row.status = status) && s.grantMode (js "d") (js "f") = mode

theorem approval_exact_iff_first : ∃ s t davPassword,
    Run (Steps (step plainRuntime)) init approvedDevice s ∧
      s.calls 0 = some (.approve (js "d") davPassword) ∧
      step plainRuntime s (.hashed 0 (js "hash") 2) = some t ∧
      (ApprovalLaw approvedDevice s t (js "d") ↔ ApprovalFits s (js "d") (js "hash")) := by
  obtain ⟨s, hrun, hs⟩ := exists_run_of_exec (step plainRuntime) init approvedDevice
    (fun s => awaits s .pending .none && (step plainRuntime s (.hashed 0 (js "hash") 2)).isSome)
    (by decide)
  rw [Bool.and_eq_true, awaits, Bool.and_eq_true, Bool.and_eq_true] at hs
  obtain ⟨⟨⟨hcall, -⟩, -⟩, hsome⟩ := hs
  obtain ⟨t, ht⟩ := Option.isSome_iff_exists.mp hsome
  split at hcall
  case h_2 => cases hcall
  case h_1 d davPassword hcall' =>
    obtain rfl : d = js "d" := of_decide_eq_true hcall
    exact ⟨s, t, davPassword, hrun, hcall', ht, approval_exact_iff hrun hcall' ht⟩

/-- **A second approval reopens a closed folder**, and changes the WebDAV password. -/
theorem second_approval_reopens : ∃ s t,
    Run (Steps (step plainRuntime)) init approvedAgain s ∧
      step plainRuntime s (.hashed 0 (js "hash2") 3) = some t ∧
      s.grantMode (js "d") (js "f") = .none ∧ t.grantMode (js "d") (js "f") = .full ∧
      ¬ ApprovalLaw approvedAgain s t (js "d") := by
  obtain ⟨s, hrun, hs⟩ := exists_run_of_exec (step plainRuntime) init approvedAgain
    (fun s => awaits s .active .none && (step plainRuntime s (.hashed 0 (js "hash2") 3)).any
      fun t => t.grantMode (js "d") (js "f") = .full) (by decide)
  rw [Bool.and_eq_true, awaits, Bool.and_eq_true, Bool.and_eq_true] at hs
  obtain ⟨⟨⟨-, hstatus⟩, hnone⟩, hopen⟩ := hs
  obtain ⟨t, ht, hfull⟩ := (Option.any_eq_true _ _).mp hopen
  obtain ⟨row, hrow, hactive⟩ := (Option.any_eq_true _ _).mp hstatus
  have hnone := of_decide_eq_true hnone
  have hfull := of_decide_eq_true hfull
  refine ⟨s, t, hrun, ht, hnone, hfull, fun hlaw => ?_⟩
  have hgrant := (hlaw.active row hrow (of_decide_eq_true hactive)).1 (js "f")
  rw [AuthState.grantMode, hgrant, ← AuthState.grantMode, hnone] at hfull
  cases hfull

end LocalCast.Auth
