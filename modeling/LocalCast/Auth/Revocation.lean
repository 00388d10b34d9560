import LocalCast.Auth.Devices

/-!
What a revocation is worth against the calls in flight.

* `landsOpen`: a call that resolves writes to a device that was not revoked meanwhile.
* `revocation_final`: along every run whose steps meet it, a revoked device stays revoked,
  gains no grant, keeps no refresh hash and is issued no session.
* `approval_after_rejection`: without it, a rejected device becomes active and is issued a
  session.
-/

namespace LocalCast.Auth

open JsString Contract Db Runs AuthState

/-- The write of the step lands on a device that was not revoked: an approval may find the
row gone, a session must find it. -/
def landsOpen (s : AuthState) : Action → Bool
  | .hashed i _ _ =>
      match s.calls i with
      | some (.approve deviceId _) => (s.device deviceId).all fun row => row.status ≠ .revoked
      | _ => true
  | .signed i _ _ =>
      match s.calls i with
      | some (.session device _ _) => (s.device device.id).any fun row => row.status ≠ .revoked
      | _ => true
  | .setPermissions deviceId _ => (s.device deviceId).all fun row => row.status ≠ .revoked
  | _ => true

/-- The law for a device between two states of a run. -/
structure RevocationFinal (d : JsString) (s t : AuthState) : Prop where
  status : ∀ row, s.device d = some row → row.status = .revoked →
    ∀ row', t.device d = some row' → row'.status = .revoked ∧ row'.refresh_hash = none
  grants : ∀ row, s.device d = some row → row.status = .revoked → NoNewGrant d s t
  sessions : ∀ row, s.device d = some row → row.status = .revoked →
    sessions d t.log = sessions d s.log

/-- The device `d` is revoked, or went while it was. -/
def Closed (d : JsString) (s : AuthState) : Prop :=
  d ∈ s.usedIds ∧
    ∀ row, s.device d = some row → row.status = .revoked ∧ row.refresh_hash = none

/-- Devices have ids that were drawn, and the revoked ones no refresh hash. -/
structure RevokedCleared (s : AuthState) : Prop where
  known : ∀ d row, s.device d = some row → d ∈ s.usedIds
  cleared : ∀ d row, s.device d = some row → row.status = .revoked → row.refresh_hash = none

lemma revokedCleared_init : RevokedCleared init where
  known := by simp [init, device, AuthStore.empty, AuthStore.getDevice]
  cleared := by simp [init, device, AuthStore.empty, AuthStore.getDevice]

section Law

variable {rt : Runtime} {s t : AuthState} {a : Action}

lemma revokedCleared_row (hs : RevokedCleared s) (hg : landsOpen s a)
    (h : step rt s a = some t) {d : JsString} {row' : DeviceRow} (hrow' : t.device d = some row') :
    d ∈ t.usedIds ∧ (row'.status = .revoked → row'.refresh_hash = none) := by
  have hids := (step_effect h).2.ids
  cases step_device h d with
  | kept hrow =>
      obtain ⟨row, name, hr, rfl⟩ := hrow row' hrow'
      exact ⟨hids (hs.known d row hr), hs.cleared d row hr⟩
  | claimed hid hused hdot hrow hstatus =>
      obtain rfl := Option.some.inj (hrow.symm.trans hrow')
      exact ⟨hused, fun hrev => by simp [hstatus] at hrev⟩
  | approved ha hcall hrow =>
      rw [hrow] at hrow'
      obtain ⟨row, hr, rfl⟩ := Option.map_eq_some_iff.mp hrow'
      exact ⟨hids (hs.known d row hr), fun hrev => by simp at hrev⟩
  | issued ha hcall hid hrow =>
      rw [hrow] at hrow'
      obtain ⟨row, hr, rfl⟩ := Option.map_eq_some_iff.mp hrow'
      have hopen : row.status ≠ .revoked := by
        simpa [landsOpen, ha, hcall, hid, hr] using hg
      exact ⟨hids (hs.known d row hr), fun hrev => absurd hrev hopen⟩
  | revoked hrow =>
      rw [hrow] at hrow'
      obtain ⟨row, hr, rfl⟩ := Option.map_eq_some_iff.mp hrow'
      exact ⟨hids (hs.known d row hr), fun _ => rfl⟩
  | permitted ha hrow =>
      rw [hrow] at hrow'
      exact ⟨hids (hs.known d row' hrow'), hs.cleared d row' hrow'⟩

lemma revokedCleared_step (hs : RevokedCleared s) (hg : landsOpen s a)
    (h : step rt s a = some t) : RevokedCleared t where
  known _ _ hrow := (revokedCleared_row hs hg h hrow).1
  cleared _ _ hrow := (revokedCleared_row hs hg h hrow).2

/-- A closed device stays closed, and gets neither grant nor session. -/
lemma closed_step {d : JsString} (hg : landsOpen s a) (h : step rt s a = some t)
    (hclosed : Closed d s) :
    Closed d t ∧ NoNewGrant d s t ∧ sessions d t.log = sessions d s.log := by
  have hids : d ∈ t.usedIds := (step_effect h).2.ids hclosed.1
  cases step_device h d with
  | kept hrow hgrants hsessions =>
      refine ⟨⟨hids, fun row' hrow' => ?_⟩, hgrants, hsessions⟩
      obtain ⟨row, name, hr, rfl⟩ := hrow row' hrow'
      exact hclosed.2 row hr
  | claimed hid => exact absurd hclosed.1 hid
  | approved ha hcall hrow hgrants hsessions =>
      -- the row is gone: the approval writes nothing
      have hnone : s.device d = none := by
        cases hr : s.device d with
        | none => rfl
        | some row => simp [landsOpen, ha, hcall, hr, (hclosed.2 row hr).1] at hg
      refine ⟨⟨hids, fun row' hrow' => ?_⟩, hgrants hnone, hsessions⟩
      simp [hrow, hnone] at hrow'
  | issued ha hcall hid =>
      cases hr : s.device d with
      | none => simp [landsOpen, ha, hcall, hid, hr] at hg
      | some row => simp [landsOpen, ha, hcall, hid, hr, (hclosed.2 row hr).1] at hg
  | revoked hrow hgrants hsessions =>
      refine ⟨⟨hids, fun row' hrow' => ?_⟩, hgrants, hsessions⟩
      rw [hrow] at hrow'
      obtain ⟨row, hr, rfl⟩ := Option.map_eq_some_iff.mp hrow'
      exact ⟨rfl, rfl⟩
  | permitted ha hrow hsome =>
      obtain ⟨row, hr⟩ := Option.ne_none_iff_exists'.mp hsome
      simp [landsOpen, ha, hr, (hclosed.2 row hr).1] at hg

lemma closed_run {as : List Action} {d : JsString} (hclosed : Closed d s)
    (h : Run (Guarded (fun s a => landsOpen s a) (step rt)) s as t) :
    Closed d t ∧ NoNewGrant d s t ∧ sessions d t.log = sessions d s.log := by
  refine h.invariant (I := fun u => Closed d u ∧ NoNewGrant d s u ∧
    sessions d u.log = sessions d s.log) (fun u a v hu hstep => ?_)
    ⟨hclosed, fun _ _ => id, rfl⟩
  obtain ⟨hclosed', hgrants, hsessions⟩ := closed_step hstep.1 hstep.2 hu.1
  exact ⟨hclosed', fun f g hg => hu.2.1 f g (hgrants f g hg), hsessions.trans hu.2.2⟩

end Law

/-- **Revocation is final** along every run whose writes land on devices not revoked. -/
theorem revocation_final {rt : Runtime} {as bs : List Action} {s t : AuthState}
    (hs : Run (Guarded (fun s a => landsOpen s a) (step rt)) init as s)
    (ht : Run (Guarded (fun s a => landsOpen s a) (step rt)) s bs t) (d : JsString) :
    RevocationFinal d s t := by
  have hinv : RevokedCleared s :=
    hs.invariant (fun _ _ _ hu hstep => revokedCleared_step hu hstep.1 hstep.2)
      revokedCleared_init
  have hrun (row : DeviceRow) (hrow : s.device d = some row) (hrev : row.status = .revoked) :
      Closed d t ∧ NoNewGrant d s t ∧ sessions d t.log = sessions d s.log := by
    refine closed_run ⟨hinv.known d row hrow, fun row' hrow' => ?_⟩ ht
    obtain rfl := Option.some.inj (hrow.symm.trans hrow')
    exact ⟨hrev, hinv.cleared d row hrow hrev⟩
  exact {
    status := fun row hrow hrev => (hrun row hrow hrev).1.2
    grants := fun row hrow hrev => (hrun row hrow hrev).2.1
    sessions := fun row hrow hrev => (hrun row hrow hrev).2.2 }

/-! ### Concrete runs -/

/-- A code is minted with a grant on the folder `f`, and claimed by the device `d`. -/
def claimedDevice : List Action :=
  [.addFolder ⟨js "f", js "/f", js "F", true, true, true, true, none, none, none, 0⟩,
    .mint ⟨[⟨js "f", .full⟩], 300⟩ (js "t") (js "s") [js "ABCD"] 0,
    .claim 0 ⟨js "ABCD", none, js "phone", js "ios"⟩ (js "d") 1]

/-- The device is approved, polls its session, and is revoked. -/
def approvedAndRevoked : List Action :=
  claimedDevice ++ [.approve 0 (js "d") (js "pw"), .hashed 0 (js "hash") 2,
    .status 0 (js "d") (js "claim:d") 3, .signed 0 (js "r1") 4, .revoke (js "d")]

/-- The operator rejects the device while its approval waits for the password hash; the
device then polls its session. -/
def rejectedMeanwhile : List Action :=
  [.hashed 0 (js "hash") 2, .status 0 (js "d") (js "claim:d") 3, .signed 0 (js "r1") 4]

theorem revocation_final_revoked : ∃ s t,
    Run (Guarded (fun s a => landsOpen s a) (step plainRuntime)) init approvedAndRevoked s ∧
      Run (Guarded (fun s a => landsOpen s a) (step plainRuntime)) s
        [.redeem 0 (js "d.r1") 5, .approve 0 (js "d") (js "pw2")] t ∧
      RevocationFinal (js "d") s t := by
  obtain ⟨t, hrun, -⟩ := exists_guarded_run_of_exec
    (fun s a => landsOpen s a) (step plainRuntime) init
    (approvedAndRevoked ++ [.redeem 0 (js "d.r1") 5, .approve 0 (js "d") (js "pw2")])
    (fun t => (t.device (js "d")).any fun row => row.status = .revoked) (by decide)
  obtain ⟨s, hs, ht⟩ := hrun.split
  exact ⟨s, t, hs, ht, revocation_final hs ht (js "d")⟩

/-- **An approval in flight undoes a rejection**: the device becomes active, gets its grants
and is issued a session. -/
theorem approval_after_rejection : ∃ s t,
    Run (Steps (step plainRuntime)) init
        (claimedDevice ++ [.approve 0 (js "d") (js "pw"), .reject (js "d")]) s ∧
      Run (Steps (step plainRuntime)) s rejectedMeanwhile t ∧
      (∃ row, s.device (js "d") = some row ∧ row.status = .revoked) ∧
      (∃ row, t.device (js "d") = some row ∧ row.status = .active ∧ row.refresh_hash ≠ none) ∧
      ¬ RevocationFinal (js "d") s t := by
  obtain ⟨s, hs, hrev⟩ := exists_run_of_exec (step plainRuntime) init
    (claimedDevice ++ [.approve 0 (js "d") (js "pw"), .reject (js "d")])
    (fun s => ((s.device (js "d")).any fun row => row.status = .revoked) &&
      (exec (step plainRuntime) s rejectedMeanwhile).any fun t =>
        (t.device (js "d")).any fun row =>
          row.status = .active && row.refresh_hash.isSome) (by decide)
  rw [Bool.and_eq_true] at hrev
  obtain ⟨t, ht, hact⟩ := exists_run_of_exec _ _ _ _ hrev.2
  simp only [Option.any_eq_true, decide_eq_true_eq, Bool.and_eq_true] at hrev hact
  obtain ⟨⟨row, hrow, hstatus⟩, -⟩ := hrev
  obtain ⟨row', hrow', hstatus', hrefresh⟩ := hact
  refine ⟨s, t, hs, ht, ⟨row, hrow, hstatus⟩, ⟨row', hrow', hstatus', ?_⟩, fun hlaw => ?_⟩
  · exact Option.isSome_iff_ne_none.mp hrefresh
  · have := (hlaw.status row hrow hstatus row' hrow').1
    rw [hstatus'] at this
    cases this

end LocalCast.Auth
