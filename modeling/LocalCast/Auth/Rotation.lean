import LocalCast.Auth.Devices

/-!
Single use of refresh tokens.

* `step_issuance`: refresh tokens are issued by the end of a session call only.
* `hashUnchanged`: a redemption writes while the row still holds the hash of the token it
  was presented.
* `single_use`: along every run a device never has two issued tokens that would be
  accepted, and where the steps meet that condition a token is exchanged at most once.
* `redeemed_twice`: without it, one token is exchanged for two sessions.
-/

namespace LocalCast.Auth

open JsString Contract Db Runs AuthState

def Event.isRefreshOf (presented : JsString) : Event → Bool
  | .session _ (.refresh p) _ => p = presented
  | _ => false

/-- The sessions a refresh token was exchanged for. -/
def refreshes (presented : JsString) (log : List Event) : ℕ :=
  log.countP (·.isRefreshOf presented)

/-- The hash a presented token is compared by. -/
def presentedHash (rt : Runtime) (presented : JsString) : JsString :=
  rt.fastHash (splitToken presented).2

/-- A redemption writes while the row still holds the hash of the token it was presented. -/
def hashUnchanged (rt : Runtime) (s : AuthState) : Action → Bool
  | .signed i _ _ =>
      match s.calls i with
      | some (.session device _ (.refresh presented)) =>
          (s.device device.id).any fun row =>
            row.refresh_hash = some (presentedHash rt presented)
      | _ => true
  | _ => true

/-- The token is one that was issued, and `redeemRefreshToken` would accept it at `now`. -/
def Accepted (rt : Runtime) (s : AuthState) (d presented : JsString) (now : Time) : Prop :=
  (∃ raw, (d, raw) ∈ s.issued ∧ presented = refreshTokenOf d raw) ∧
    ∃ device, redeemRefreshToken rt s.store presented now = .ok device

/-- A device has at most one issued token that would be accepted. -/
def OneAccepted (rt : Runtime) (s : AuthState) : Prop :=
  ∀ d p q now now', Accepted rt s d p now → Accepted rt s d q now' → p = q

/-- A token is exchanged at most once. -/
def SingleUse (s : AuthState) : Prop := ∀ presented, refreshes presented s.log ≤ 1

/-- Device ids have no dot, and refresh hashes stem from issued tokens, which have pairwise
different hashes. -/
structure Rotating (rt : Runtime) (s : AuthState) : Prop where
  ids : ∀ d row, s.device d = some row → (46 : CodeUnit) ∉ d
  stored : ∀ d row h, s.device d = some row → row.refresh_hash = some h →
    h ∈ s.issued.map fun p => rt.fastHash p.2
  distinct : (s.issued.map fun p => rt.fastHash p.2).Nodup
  issued : ∀ p ∈ s.issued, (46 : CodeUnit) ∉ p.1
  inFlight : ∀ i device called origin, s.calls i = some (.session device called origin) →
    (46 : CodeUnit) ∉ device.id ∧
      ∀ presented, origin = .refresh presented → device.id = (splitToken presented).1

/-- A token that was exchanged was exchanged once; it is one of those issued, and its hash
is gone from the row. -/
structure Spent (rt : Runtime) (s : AuthState) : Prop where
  gone : ∀ presented, 0 < refreshes presented s.log →
    presentedHash rt presented ∈ (s.issued.map fun p => rt.fastHash p.2) ∧
      ∀ row, s.device (splitToken presented).1 = some row →
        row.refresh_hash ≠ some (presentedHash rt presented)
  once : SingleUse s

lemma rotating_init (rt : Runtime) : Rotating rt init where
  ids := by simp [init, device, AuthStore.empty, AuthStore.getDevice]
  stored := by simp [init, device, AuthStore.empty, AuthStore.getDevice]
  distinct := List.nodup_nil
  issued := by simp [init]
  inFlight := by simp [init]

lemma spent_init (rt : Runtime) : Spent rt init where
  gone := by simp [init, refreshes]
  once := by simp [init, refreshes, SingleUse]

section Law

variable {rt : Runtime} {s t : AuthState} {a : Action}

/-- A step that issues no refresh token, or the end of a session call. -/
lemma step_issuance (h : step rt s a = some t) :
    (t.issued = s.issued ∧ ∀ p, refreshes p t.log = refreshes p s.log) ∨
      ∃ i raw now device called origin tokens, a = .signed i raw now ∧
        s.calls i = some (.session device called origin) ∧
        (rt.fastHash raw ∉ s.issued.map fun p => rt.fastHash p.2) ∧
        t.store = issueRefreshToken rt s.store device.id raw now ∧
        t.issued = (device.id, raw) :: s.issued ∧
        t.log = .session device.id origin tokens :: s.log := by
  have hplain (hp : Plain s t) :
      t.issued = s.issued ∧ ∀ p, refreshes p t.log = refreshes p s.log := by
    obtain ⟨hi, hl | ⟨e, he, hl⟩⟩ := hp
    · exact ⟨hi, fun p => by rw [hl]⟩
    · refine ⟨hi, fun p => ?_⟩
      cases e <;> simp_all [refreshes, Event.isPlain, Event.isRefreshOf]
  cases (step_effect h).1 with
  | issued ha hcall hfresh hstore hissued hlog =>
      exact .inr ⟨_, _, _, _, _, _, _, ha, hcall, hfresh, hstore, hissued, hlog⟩
  | claimed _ _ _ _ hissued hlog =>
      exact .inl ⟨hissued, fun p => by simp [hlog, refreshes, Event.isRefreshOf]⟩
  | failed _ _ _ _ hissued hlog =>
      exact .inl ⟨hissued, fun p => by simp [hlog, refreshes, Event.isRefreshOf]⟩
  | none _ hlog | cleared _ hlog | minted _ _ _ hlog | approved _ _ _ hlog | revoked _ hlog
  | renamed _ hlog | deleted _ hlog | pruned _ hlog | permitted _ _ _ hlog
  | folderAdded _ hlog | folderDeleted _ hlog => exact .inl (hplain hlog)

/-- A signature that resolves issues a refresh token. -/
lemma issued_signed {i : ℕ} {raw : JsString} {now : Time}
    (h : step rt s (.signed i raw now) = some t) : t.issued ≠ s.issued := by
  rw [step] at h
  split at h
  case h_2 => cases h
  case h_1 device called origin hcall =>
    obtain ⟨s', hs', rfl⟩ := Option.map_eq_some_iff.mp h
    obtain ⟨-, rfl⟩ := drawRefresh_eq_some.mp hs'
    exact List.cons_ne_self _ _

/-- The row a step leaves has a dotless id, and the refresh hash it had, none, or the one
just issued. -/
lemma device_step (hs : Rotating rt s) (h : step rt s a = some t) {d : JsString}
    {row' : DeviceRow} (hrow' : t.device d = some row') :
    (46 : CodeUnit) ∉ d ∧ (row'.refresh_hash = none ∨
      (∃ row, s.device d = some row ∧ row'.refresh_hash = row.refresh_hash) ∨
      ∃ i raw now, a = .signed i raw now ∧ row'.refresh_hash = some (rt.fastHash raw)) := by
  cases step_device h d with
  | kept hrow =>
      obtain ⟨row, name, hr, rfl⟩ := hrow row' hrow'
      exact ⟨hs.ids d row hr, .inr (.inl ⟨row, hr, rfl⟩)⟩
  | claimed hid hused hdot hrow hstatus hrefresh =>
      obtain rfl := Option.some.inj (hrow.symm.trans hrow')
      exact ⟨hdot, .inl hrefresh⟩
  | approved ha hcall hrow =>
      rw [hrow] at hrow'
      obtain ⟨row, hr, rfl⟩ := Option.map_eq_some_iff.mp hrow'
      exact ⟨hs.ids d row hr, .inr (.inl ⟨row, hr, rfl⟩)⟩
  | issued ha hcall hid hrow =>
      rw [hrow] at hrow'
      obtain ⟨row, hr, rfl⟩ := Option.map_eq_some_iff.mp hrow'
      exact ⟨hs.ids d row hr, .inr (.inr ⟨_, _, _, ha, rfl⟩)⟩
  | revoked hrow =>
      rw [hrow] at hrow'
      obtain ⟨row, hr, rfl⟩ := Option.map_eq_some_iff.mp hrow'
      exact ⟨hs.ids d row hr, .inl rfl⟩
  | permitted ha hrow =>
      rw [hrow] at hrow'
      exact ⟨hs.ids d row' hrow', .inr (.inl ⟨row', hrow', rfl⟩)⟩

lemma Rotating.dotless (hs : Rotating rt s) {d : JsString} {device : DeviceRow}
    (hget : s.store.getDevice d = some device) : (46 : CodeUnit) ∉ device.id := by
  have hid : device.id = d := Table.key_of_get hget
  rw [hid]
  exact hs.ids d device hget

lemma inFlight_step (hs : Rotating rt s) (h : step rt s a = some t) {i : ℕ} {device : DeviceRow}
    {called : Time} {origin : Origin} (hcall : t.calls i = some (.session device called origin)) :
    (46 : CodeUnit) ∉ device.id ∧
      ∀ presented, origin = .refresh presented → device.id = (splitToken presented).1 := by
  rcases (step_effect h).2.calls i _ hcall with hc | hc
  · exact hs.inFlight i device called origin hc
  · cases hc with
    | poll hread =>
        exact ⟨hs.dotless (statusRead_eq_approved hread).1, fun _ ho => nomatch ho⟩
    | redeem hread =>
        have hget := (redeemRefreshToken_eq_ok hread).1
        refine ⟨hs.dotless hget, fun _ ho => ?_⟩
        cases ho
        exact Table.key_of_get hget

/-- A step that issues nothing leaves no refresh hash that was not there. -/
lemma device_quiet (hs : Rotating rt s) (h : step rt s a = some t) (hissued : t.issued = s.issued)
    {d : JsString} {row' : DeviceRow} {hash : JsString} (hrow' : t.device d = some row')
    (hhash : row'.refresh_hash = some hash) :
    ∃ row, s.device d = some row ∧ row.refresh_hash = some hash := by
  rcases (device_step hs h hrow').2 with hnone | ⟨row, hr, hsame⟩ | ⟨i, raw, now, rfl, -⟩
  · simp [hnone] at hhash
  · exact ⟨row, hr, hsame ▸ hhash⟩
  · exact absurd hissued (issued_signed h)

/-- The rows after a refresh token was issued. -/
lemma device_issued {device : DeviceRow} {raw : JsString} {now : Time}
    (hstore : t.store = issueRefreshToken rt s.store device.id raw now) (d : JsString) :
    t.device d = if d = device.id then
      (s.device d).map fun r => { r with
        refresh_hash := some (rt.fastHash raw)
        refresh_expires_at := some (now + rt.refreshTokenTtlMs) } else s.device d := by
  rw [AuthState.device, hstore, issueRefreshToken, AuthStore.getDevice, Table.get_updateKey]
  rfl

lemma rotating_step (hs : Rotating rt s) (h : step rt s a = some t) : Rotating rt t := by
  rcases step_issuance h with ⟨hissued, -⟩ |
    ⟨i, raw, now, device, called, origin, tokens, rfl, hcall, hfresh, hstore, hissued, -⟩
  · exact {
      ids := fun _ _ hrow' => (device_step hs h hrow').1
      stored := fun d row' hash hrow' hhash => by
        obtain ⟨row, hr, hr'⟩ := device_quiet hs h hissued hrow' hhash
        rw [hissued]
        exact hs.stored d row hash hr hr'
      distinct := hissued ▸ hs.distinct
      issued := hissued ▸ hs.issued
      inFlight := fun _ _ _ _ hcall => inFlight_step hs h hcall }
  · refine ⟨fun _ _ hrow' => (device_step hs h hrow').1, fun d row' hash hrow' hhash => ?_, ?_, ?_,
      fun _ _ _ _ hcall' => inFlight_step hs h hcall'⟩
    · rw [hissued, List.map_cons, List.mem_cons]
      rw [device_issued hstore] at hrow'
      split_ifs at hrow'
      · obtain ⟨row, hr, rfl⟩ := Option.map_eq_some_iff.mp hrow'
        exact .inl (Option.some.inj hhash).symm
      · exact .inr (hs.stored d row' hash hrow' hhash)
    · rw [hissued, List.map_cons, List.nodup_cons]
      exact ⟨hfresh, hs.distinct⟩
    · rw [hissued, List.forall_mem_cons]
      exact ⟨(hs.inFlight i device called origin hcall).1, hs.issued⟩

/-- A redemption that writes over the hash it checked is the first of its token. -/
lemma first_redemption (hs : Rotating rt s) (hp : Spent rt s) {i : ℕ} {raw : JsString} {now : Time}
    (hg : hashUnchanged rt s (.signed i raw now)) {device : DeviceRow} {called : Time}
    {presented : JsString} (hcall : s.calls i = some (.session device called (.refresh presented))) :
    refreshes presented s.log = 0 ∧
      presentedHash rt presented ∈ s.issued.map fun p => rt.fastHash p.2 := by
  simp only [hashUnchanged, hcall, Option.any_eq_true, decide_eq_true_eq] at hg
  obtain ⟨row, hrow, hhash⟩ := hg
  refine ⟨?_, hs.stored _ row _ hrow hhash⟩
  by_contra hpos
  refine (hp.gone presented (Nat.pos_of_ne_zero hpos)).2 row ?_ hhash
  rwa [← (hs.inFlight i device called _ hcall).2 presented rfl]

lemma spent_step (hs : Rotating rt s) (hp : Spent rt s) (hg : hashUnchanged rt s a)
    (h : step rt s a = some t) : Spent rt t := by
  rcases step_issuance h with ⟨hissued, hlog⟩ |
    ⟨i, raw, now, device, called, origin, tokens, rfl, hcall, hfresh, hstore, hissued, hlog⟩
  · refine ⟨fun presented hpos => ?_, fun presented => hlog presented ▸ hp.once presented⟩
    rw [hlog] at hpos
    obtain ⟨hmem, hne⟩ := hp.gone presented hpos
    refine ⟨hissued ▸ hmem, fun row' hrow' hhash => ?_⟩
    obtain ⟨row, hr, hr'⟩ := device_quiet hs h hissued hrow' hhash
    exact hne row hr hr'
  · have hcount (p : JsString) : refreshes p t.log =
        refreshes p s.log + if origin = .refresh p then 1 else 0 := by
      rw [hlog, refreshes, List.countP_cons, ← refreshes]
      cases origin <;> simp [Event.isRefreshOf]
    refine ⟨fun p hpos => ?_, fun p => ?_⟩
    · have hmem : presentedHash rt p ∈ s.issued.map fun q => rt.fastHash q.2 := by
        by_cases ho : origin = .refresh p
        · exact (first_redemption hs hp hg (ho ▸ hcall)).2
        · rw [hcount, if_neg ho] at hpos
          exact (hp.gone p hpos).1
      refine ⟨by rw [hissued, List.map_cons]; exact List.mem_cons_of_mem _ hmem, ?_⟩
      intro row' hrow' hhash
      rw [device_issued hstore] at hrow'
      split_ifs at hrow' with hd
      · -- the row now holds the fresh hash, and that of `p` is not fresh
        obtain ⟨row, hr, rfl⟩ := Option.map_eq_some_iff.mp hrow'
        exact hfresh (by rw [Option.some.inj hhash]; exact hmem)
      · have ho : origin ≠ .refresh p := fun ho =>
          hd ((hs.inFlight i device called origin hcall).2 p ho).symm
        rw [hcount, if_neg ho] at hpos
        exact (hp.gone p hpos).2 row' hrow' hhash
    · rw [hcount]
      split_ifs with ho
      · rw [(first_redemption hs hp hg (ho ▸ hcall)).1]
      · exact hp.once p

/-- Two issued tokens of one device that are both accepted have the stored hash in common,
so they are the same. -/
lemma accepted_unique (hs : Rotating rt s) : OneAccepted rt s := by
  intro d p q now now' hp hq
  obtain ⟨⟨raw, hraw, rfl⟩, device, hdevice⟩ := hp
  obtain ⟨⟨raw', hraw', rfl⟩, device', hdevice'⟩ := hq
  obtain ⟨hget, -, hhash⟩ := redeemRefreshToken_eq_ok hdevice
  obtain ⟨hget', -, hhash'⟩ := redeemRefreshToken_eq_ok hdevice'
  rw [splitToken_refreshTokenOf (hs.issued _ hraw)] at hget hhash
  rw [splitToken_refreshTokenOf (hs.issued _ hraw')] at hget' hhash'
  obtain rfl := Option.some.inj (hget.symm.trans hget')
  have hsame : rt.fastHash raw = rt.fastHash raw' := Option.some.inj (hhash.symm.trans hhash')
  have hpair := List.inj_on_of_nodup_map hs.distinct hraw hraw' hsame
  rw [(Prod.mk.inj hpair).2]

end Law

/-- **Single use**: along every run a device has at most one issued token that would be
accepted; and where redemptions write over the hash they checked, a token is exchanged at
most once. -/
theorem single_use {rt : Runtime} {as : List Action} {s : AuthState}
    (h : Run (Steps (step rt)) init as s) : OneAccepted rt s ∧
      (Run (Guarded (fun s a => hashUnchanged rt s a) (step rt)) init as s → SingleUse s) := by
  refine ⟨accepted_unique (h.invariant (fun _ _ _ => rotating_step) (rotating_init rt)),
    fun hg => ?_⟩
  have hs : Rotating rt s ∧ Spent rt s :=
    hg.invariant (I := fun u => Rotating rt u ∧ Spent rt u) (fun u a v hu hstep =>
      ⟨rotating_step hu.1 hstep.2, spent_step hu.1 hu.2 hstep.1 hstep.2⟩)
      ⟨rotating_init rt, spent_init rt⟩
  exact hs.2.once

/-! ### Concrete runs -/

/-- A code is minted, claimed by the device `d` and approved; the device polls its first
session, with the refresh token `d.r1`. -/
def pairedDevice : List Action :=
  [.mint ⟨[], 300⟩ (js "t") (js "s") [js "ABCD"] 0,
    .claim 0 ⟨js "ABCD", none, js "phone", js "ios"⟩ (js "d") 1,
    .approve 0 (js "d") (js "pw"), .hashed 0 (js "hash") 2,
    .status 0 (js "d") (js "claim:d") 3, .signed 0 (js "r1") 4]

/-- One redemption after the other, the second with the token the first was answered. -/
def inTurn : List Action :=
  pairedDevice ++ [.redeem 0 (js "d.r1") 5, .signed 0 (js "r2") 6,
    .redeem 0 (js "d.r2") 7, .signed 0 (js "r3") 8]

/-- Two redemptions of one token pass the check before either is signed. -/
def atOnce : List Action :=
  pairedDevice ++ [.redeem 0 (js "d.r1") 5, .redeem 1 (js "d.r1") 5,
    .signed 0 (js "r2") 6, .signed 1 (js "r3") 6]

theorem single_use_inTurn : ∃ s,
    Run (Guarded (fun s a => hashUnchanged plainRuntime s a) (step plainRuntime)) init inTurn s ∧
      refreshes (js "d.r1") s.log = 1 ∧ OneAccepted plainRuntime s ∧ SingleUse s := by
  obtain ⟨s, hrun, hs⟩ := exists_guarded_run_of_exec
    (fun s a => hashUnchanged plainRuntime s a) (step plainRuntime) init inTurn
    (fun s => refreshes (js "d.r1") s.log = 1) (by decide)
  obtain ⟨hone, honce⟩ := single_use (Guarded.run hrun)
  exact ⟨s, hrun, by simpa using hs, hone, honce hrun⟩

/-- **One token, two sessions**: the check and the write are apart. -/
theorem redeemed_twice : ∃ s, Run (Steps (step plainRuntime)) init atOnce s ∧
    refreshes (js "d.r1") s.log = 2 ∧ ¬ SingleUse s := by
  obtain ⟨s, hrun, hs⟩ := exists_run_of_exec (step plainRuntime) init atOnce
    (fun s => refreshes (js "d.r1") s.log = 2) (by decide)
  rw [decide_eq_true_eq] at hs
  refine ⟨s, hrun, hs, fun h => ?_⟩
  have := h (js "d.r1")
  omega

end LocalCast.Auth
