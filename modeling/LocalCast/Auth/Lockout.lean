import LocalCast.Auth.Service

/-!
The lockout of a pairing code under concurrent claims.

* `TokenChange`, `step_token`: everything a step can do to one pairing token row, with what
  it answers about that token.
* `wrong_secrets_lock`: the lockout law along every run in which a failing claim writes its
  count while the row still has the count it read.
* `stale_failure_unlocks`: without that, a locked code is unlocked and claimed.
-/

namespace LocalCast.Auth

open JsString Contract Db Runs AuthState

/-! ### Answers about a token -/

/-- The row of a pairing token. -/
def AuthState.token (s : AuthState) (tk : JsString) : Option PairingTokenRow :=
  s.store.pairing_tokens.get tk

def Event.isWrongSecret (tk : JsString) : Event → Bool
  | .wrongSecret id _ => id = tk
  | _ => false

def Event.isClaimed (tk : JsString) : Event → Bool
  | .claimed id _ _ => id = tk
  | _ => false

/-- The completed claims with a wrong secret. -/
def wrongSecrets (tk : JsString) (log : List Event) : ℕ := log.countP (·.isWrongSecret tk)

/-- The completed claims that created a device. -/
def claims (tk : JsString) (log : List Event) : ℕ := log.countP (·.isClaimed tk)

/-- A step that answers nothing about the token. -/
def Quiet (tk : JsString) (s t : AuthState) : Prop :=
  wrongSecrets tk t.log = wrongSecrets tk s.log ∧ claims tk t.log = claims tk s.log

/-! ### What a step does to a token -/

/-- What a step from `s` to `t` does to the pairing token `tk`. -/
inductive TokenChange (rt : Runtime) (s : AuthState) (a : Action) (tk : JsString)
    (t : AuthState) : Prop
  /-- The row stays but for the device it names, or goes. -/
  | kept (hrow : ∀ row', t.token tk = some row' →
        ∃ row dev, s.token tk = some row ∧ row' = { row with consumed_by_device := dev })
      (hlog : Quiet tk s t)
  | minted {row : PairingTokenRow} (hid : tk ∉ s.usedIds) (hused : tk ∈ t.usedIds)
      (hrow : t.token tk = some row) (hcount : row.failed_attempts = 0)
      (hlocked : row.locked_at = none) (hlog : Quiet tk s t)
  | failed {i : ℕ} {deviceId : JsString} {now : Time} {token : PairingTokenRow}
      {req : PairClaimRequest} {secret : JsString} {called : Time}
      (ha : a = .verified i deviceId now)
      (hcall : s.calls i = some (.claim token req secret called)) (hid : token.id = tk)
      (hpw : rt.verifyPassword secret token.secret_hash = false)
      (hrow : t.token tk = (s.token tk).map fun r => { r with
        failed_attempts := token.failed_attempts + 1
        locked_at := if token.failed_attempts + 1 ≥ MAX_FAILED_ATTEMPTS then some now else none })
      (hwrong : wrongSecrets tk t.log = wrongSecrets tk s.log + 1)
      (hclaim : claims tk t.log = claims tk s.log)
  | claimed {row row' : PairingTokenRow} (hrow : s.token tk = some row)
      (hlocked : row.locked_at = none) (hrow' : t.token tk = some row')
      (hlocked' : row'.locked_at = none) (hcount : row'.failed_attempts = row.failed_attempts)
      (hwrong : wrongSecrets tk t.log = wrongSecrets tk s.log)

section Step

variable {rt : Runtime} {s t : AuthState} {a : Action} {tk : JsString}

lemma Plain.quiet (h : Plain s t) : Quiet tk s t := by
  obtain ⟨-, hl | ⟨e, he, hl⟩⟩ := h
  · simp [Quiet, hl]
  · cases e <;> simp_all [Quiet, wrongSecrets, claims, Event.isPlain, Event.isWrongSecret,
      Event.isClaimed]

lemma kept_of_tokens_eq (h : t.store.pairing_tokens = s.store.pairing_tokens)
    (hlog : Quiet tk s t) : TokenChange rt s a tk t :=
  .kept (fun row' h' => ⟨row', row'.consumed_by_device, by rw [← h', token, token, h], rfl⟩) hlog

lemma kept_of_deleteDevices (st : AuthStore) {p : DeviceRow → Bool}
    (hst : st.pairing_tokens = s.store.pairing_tokens)
    (h : t.store = st.deleteDevices p) (hlog : Quiet tk s t) : TokenChange rt s a tk t := by
  refine .kept (fun row' h' => ?_) hlog
  rw [token, h, AuthStore.deleteDevices, Table.get_update, hst] at h'
  obtain ⟨row, hrow, rfl⟩ := Option.map_eq_some_iff.mp h'
  refine ⟨row, ?_⟩
  split_ifs
  · exact ⟨none, hrow, rfl⟩
  · exact ⟨row.consumed_by_device, hrow, rfl⟩

lemma get_clearSpent {st : AuthStore} {now : Time} {row : PairingTokenRow}
    (h : (clearSpent st now).pairing_tokens.get tk = some row) :
    st.pairing_tokens.get tk = some row := by
  rw [clearSpent, Table.get_delete, Option.filter_eq_some_iff] at h
  exact h.1

/-- Every step is one of the four. -/
theorem step_token (h : step rt s a = some t) (tk : JsString) : TokenChange rt s a tk t := by
  cases (step_effect h).1 with
  | none hstore hlog => exact kept_of_tokens_eq (by rw [hstore]) hlog.quiet
  | cleared hstore hlog =>
      refine .kept (fun row h' => ⟨row, row.consumed_by_device, ?_, rfl⟩) hlog.quiet
      exact get_clearSpent (by rwa [token, hstore] at h')
  | @minted opts id secretHash codes now hid hused hstore hlog =>
      obtain ⟨row, -, hcount, hlocked, -, -, -, hget, -⟩ := mint_eq_some hstore
      by_cases htk : tk = id
      · subst htk
        exact .minted hid hused ((hget _).trans (if_pos rfl)) hcount hlocked hlog.quiet
      · refine .kept (fun row' h' => ⟨row', row'.consumed_by_device, ?_, rfl⟩) hlog.quiet
        rw [token, hget, if_neg htk] at h'
        exact get_clearSpent h'
  | @claimed token req deviceId ticket called now hid hused hdot hstore hissued hlog =>
      obtain ⟨⟨row, hrow, hl, -, hget⟩, -⟩ := claimConsume_eq_ok hstore
      by_cases htk : tk = token.id
      · subst htk
        refine .claimed hrow hl ((hget _).trans (if_pos rfl)) hl rfl ?_
        simp [wrongSecrets, hlog, Event.isWrongSecret]
      · refine .kept (fun row' h' => ⟨row', row'.consumed_by_device, ?_, rfl⟩)
          ⟨by simp [wrongSecrets, hlog, Event.isWrongSecret],
            by simp [claims, hlog, Event.isClaimed, Ne.symm htk]⟩
        rwa [AuthState.token, hget, if_neg htk] at h'
  | @failed i deviceId now token req secret called e ha hcall hpw hstore hissued hlog =>
      by_cases htk : token.id = tk
      · refine .failed ha hcall htk hpw ?_ ?_ ?_
        · simp [hstore, registerFailure, AuthState.token, Table.get_updateKey, htk]
        · simp [hlog, wrongSecrets, Event.isWrongSecret, htk]
        · simp [hlog, claims, Event.isClaimed]
      · refine .kept (fun row' h' => ⟨row', row'.consumed_by_device, ?_, rfl⟩)
          ⟨by simp [hlog, wrongSecrets, Event.isWrongSecret, htk],
            by simp [hlog, claims, Event.isClaimed]⟩
        simpa [hstore, registerFailure, AuthState.token, Table.get_updateKey, Ne.symm htk]
          using h'
  | approved ha hcall hstore hlog =>
      refine kept_of_tokens_eq ?_ hlog.quiet
      rw [approveApply] at hstore
      split_ifs at hstore
      rw [← Except.ok.inj hstore]
  | issued ha hcall hfresh hstore hissued hlog =>
      refine kept_of_tokens_eq (by rw [hstore]; rfl) ⟨?_, ?_⟩
      · simp [hlog, wrongSecrets, Event.isWrongSecret]
      · simp [hlog, claims, Event.isClaimed]
  | revoked hstore hlog => exact kept_of_tokens_eq (by rw [hstore]; rfl) hlog.quiet
  | renamed hstore hlog => exact kept_of_tokens_eq (by rw [hstore]; rfl) hlog.quiet
  | deleted hstore hlog => exact kept_of_deleteDevices (revoke s.store _) rfl hstore hlog.quiet
  | pruned hstore hlog => exact kept_of_deleteDevices s.store rfl hstore hlog.quiet
  | permitted ha hdev hstore hlog =>
      refine kept_of_tokens_eq ?_ hlog.quiet
      rw [applyPermissions] at hstore
      split_ifs at hstore
      rw [← Except.ok.inj hstore]
  | folderAdded hstore hlog =>
      refine kept_of_tokens_eq ?_ hlog.quiet
      rw [AuthStore.addFolder] at hstore
      split_ifs at hstore
      obtain ⟨folders, -, hst⟩ := Option.map_eq_some_iff.mp hstore
      rw [← hst]
  | folderDeleted hstore hlog => exact kept_of_tokens_eq (by rw [hstore]; rfl) hlog.quiet

end Step

/-! ### The lockout law -/

/-- A failing claim writes its count while the row still has the count it read. -/
def failureUpToDate (rt : Runtime) (s : AuthState) : Action → Bool
  | .verified i _ _ =>
      match s.calls i with
      | some (.claim token _ secret _) =>
          rt.verifyPassword secret token.secret_hash ||
            (s.token token.id).all fun row => row.failed_attempts = token.failed_attempts
      | _ => true
  | _ => true

/-- The law for a token between two states of a run. Its row counts the wrong secrets it was
answered for and is locked from `MAX_FAILED_ATTEMPTS` of them on; once locked it stays locked
and is not consumed, and no claim of it creates a device. -/
structure LockoutLaw (tk : JsString) (s t : AuthState) : Prop where
  counted : ∀ row, s.token tk = some row → row.failed_attempts = wrongSecrets tk s.log
  locked : ∀ row, s.token tk = some row → MAX_FAILED_ATTEMPTS ≤ wrongSecrets tk s.log →
    row.locked_at ≠ none
  final : ∀ row, s.token tk = some row → row.locked_at ≠ none →
    (∀ row', t.token tk = some row' → row'.locked_at ≠ none ∧ row'.consumed_at = row.consumed_at) ∧
      claims tk t.log = claims tk s.log

/-- Each token's row counts the wrong secrets it was answered for, and is locked from
`MAX_FAILED_ATTEMPTS` of them on. -/
structure AttemptsCounted (s : AuthState) : Prop where
  known : ∀ tk row, s.token tk = some row → tk ∈ s.usedIds
  inFlight : ∀ i token req secret called,
    s.calls i = some (.claim token req secret called) → token.id ∈ s.usedIds
  unknown : ∀ tk, tk ∉ s.usedIds → wrongSecrets tk s.log = 0
  counted : ∀ tk row, s.token tk = some row → row.failed_attempts = wrongSecrets tk s.log
  locked : ∀ tk row, s.token tk = some row →
    (row.locked_at ≠ none ↔ MAX_FAILED_ATTEMPTS ≤ row.failed_attempts)

lemma attemptsCounted_init : AttemptsCounted init where
  known := by simp [init, AuthState.token, AuthStore.empty]
  inFlight := by simp [init]
  unknown := by simp [init, wrongSecrets]
  counted := by simp [init, AuthState.token, AuthStore.empty]
  locked := by simp [init, AuthState.token, AuthStore.empty]

/-- The token `tk` is locked, or went while it was, and was consumed at `c` if at all. -/
def Dead (tk : JsString) (c : Option Time) (s : AuthState) : Prop :=
  tk ∈ s.usedIds ∧ ∀ row, s.token tk = some row → row.locked_at ≠ none ∧ row.consumed_at = c

section Law

variable {rt : Runtime} {s t : AuthState} {a : Action}

/-- The row a step leaves is counted and locked by the answers the step leaves. -/
lemma row_step (hs : AttemptsCounted s) (hg : failureUpToDate rt s a)
    (h : step rt s a = some t) {tk : JsString} {row' : PairingTokenRow}
    (hrow' : t.token tk = some row') :
    tk ∈ t.usedIds ∧ row'.failed_attempts = wrongSecrets tk t.log ∧
      (row'.locked_at ≠ none ↔ MAX_FAILED_ATTEMPTS ≤ row'.failed_attempts) := by
  have hids := (step_effect h).2.ids
  cases step_token h tk with
  | kept hrow hlog =>
      obtain ⟨row, dev, hr, rfl⟩ := hrow row' hrow'
      exact ⟨hids (hs.known tk row hr), by rw [hlog.1, ← hs.counted tk row hr],
        hs.locked tk row hr⟩
  | @minted row hid hused hrow hcount hlocked hlog =>
      obtain rfl : row = row' := Option.some.inj (hrow.symm.trans hrow')
      refine ⟨hused, by rw [hcount, hlog.1, hs.unknown tk hid], ?_⟩
      simp [hlocked, hcount, MAX_FAILED_ATTEMPTS]
  | @failed i deviceId now token req secret called ha hcall hid hpw hrow hwrong hclaim =>
      rw [hrow] at hrow'
      obtain ⟨row, hr, rfl⟩ := Option.map_eq_some_iff.mp hrow'
      subst ha hid
      have hsame : row.failed_attempts = token.failed_attempts := by
        simpa [failureUpToDate, hcall, hpw, hr] using hg
      refine ⟨hids (hs.known _ row hr), ?_, ?_⟩
      · rw [hwrong, ← hs.counted _ row hr, hsame]
      · simp
  | @claimed row row'' hrow hlocked hrow'' hlocked' hcount hwrong =>
      obtain rfl : row'' = row' := Option.some.inj (hrow''.symm.trans hrow')
      refine ⟨hids (hs.known tk row hrow), ?_, ?_⟩
      · rw [hcount, hwrong, hs.counted tk row hrow]
      · rw [hcount, ← hs.locked tk row hrow, hlocked, hlocked']

lemma attemptsCounted_step (hs : AttemptsCounted s) (hg : failureUpToDate rt s a)
    (h : step rt s a = some t) : AttemptsCounted t where
  known tk row hrow := (row_step hs hg h hrow).1
  inFlight i token req secret called hcall := by
    have hkept := (step_effect h).2
    refine hkept.ids ?_
    rcases hkept.calls i _ hcall with hc | hc
    · exact hs.inFlight i token req secret called hc
    · cases hc with
      | claim hread => exact hs.known _ _ (claimRead_eq_ok hread).1
  unknown tk htk := by
    have hids : tk ∉ s.usedIds := fun hu => htk ((step_effect h).2.ids hu)
    cases step_token h tk with
    | kept _ hlog => rw [hlog.1, hs.unknown tk hids]
    | minted _ hused => exact absurd hused htk
    | failed _ hcall hid => exact absurd (hid ▸ hs.inFlight _ _ _ _ _ hcall) hids
    | claimed hrow => exact absurd (hs.known tk _ hrow) hids
  counted tk row hrow := (row_step hs hg h hrow).2.1
  locked tk row hrow := (row_step hs hg h hrow).2.2

/-- A dead token stays dead, and no claim of it succeeds. -/
lemma dead_step {tk : JsString} {c : Option Time} (hs : AttemptsCounted s)
    (hg : failureUpToDate rt s a) (h : step rt s a = some t) (hdead : Dead tk c s) :
    Dead tk c t ∧ claims tk t.log = claims tk s.log := by
  have hids : tk ∈ t.usedIds := (step_effect h).2.ids hdead.1
  cases step_token h tk with
  | kept hrow hlog =>
      refine ⟨⟨hids, fun row' hrow' => ?_⟩, hlog.2⟩
      obtain ⟨row, dev, hr, rfl⟩ := hrow row' hrow'
      exact hdead.2 row hr
  | minted hid => exact absurd hdead.1 hid
  | failed ha hcall hid hpw hrow hwrong hclaim =>
      refine ⟨⟨hids, fun row' hrow' => ?_⟩, hclaim⟩
      -- the count only grows, so a row that was locked is written locked again
      have hlocked := (row_step hs hg h hrow').2
      rw [hrow] at hrow'
      obtain ⟨row, hr, rfl⟩ := Option.map_eq_some_iff.mp hrow'
      have hmax := (hs.locked tk row hr).mp (hdead.2 row hr).1
      refine ⟨?_, (hdead.2 row hr).2⟩
      rw [hlocked.2, hlocked.1, hwrong, ← hs.counted tk row hr]
      omega
  | claimed hrow hlocked => exact absurd hlocked (hdead.2 _ hrow).1

lemma attemptsCounted_run {as : List Action}
    (h : Run (Guarded (fun s a => failureUpToDate rt s a) (step rt)) init as s) :
    AttemptsCounted s :=
  h.invariant (fun _ _ _ hs hstep => attemptsCounted_step hs hstep.1 hstep.2)
    attemptsCounted_init

lemma dead_run {as : List Action} {tk : JsString} {c : Option Time} (hs : AttemptsCounted s)
    (hdead : Dead tk c s)
    (h : Run (Guarded (fun s a => failureUpToDate rt s a) (step rt)) s as t) :
    Dead tk c t ∧ claims tk t.log = claims tk s.log := by
  have hinv : AttemptsCounted t ∧ Dead tk c t ∧ claims tk t.log = claims tk s.log := by
    refine h.invariant (I := fun u => AttemptsCounted u ∧ Dead tk c u ∧
      claims tk u.log = claims tk s.log) (fun u a v hu hstep => ?_) ⟨hs, hdead, rfl⟩
    obtain ⟨hdead', hclaims⟩ := dead_step hu.1 hstep.1 hstep.2 hu.2.1
    exact ⟨attemptsCounted_step hu.1 hstep.1 hstep.2, hdead', hclaims.trans hu.2.2⟩
  exact hinv.2

end Law

/-- **The lockout law holds** along every run whose failing claims write over the count they
read. -/
theorem wrong_secrets_lock {rt : Runtime} {as bs : List Action} {s t : AuthState}
    (hs : Run (Guarded (fun s a => failureUpToDate rt s a) (step rt)) init as s)
    (ht : Run (Guarded (fun s a => failureUpToDate rt s a) (step rt)) s bs t) (tk : JsString) :
    LockoutLaw tk s t where
  counted := (attemptsCounted_run hs).counted tk
  locked row hrow hmax := by
    have hcount := attemptsCounted_run hs
    rw [hcount.locked tk row hrow, hcount.counted tk row hrow]
    exact hmax
  final row hrow hlocked := by
    have hcount := attemptsCounted_run hs
    have hdead : Dead tk row.consumed_at s := by
      refine ⟨hcount.known tk row hrow, fun row' hrow' => ?_⟩
      obtain rfl := Option.some.inj (hrow.symm.trans hrow')
      exact ⟨hlocked, rfl⟩
    obtain ⟨hdead', hclaims⟩ := dead_run hcount hdead ht
    exact ⟨hdead'.2, hclaims⟩

/-! ### Concrete runs -/

/-- A code is minted with secret `s`. -/
def mintCode : Action :=
  .mint ⟨[], 300⟩ (js "t") (js "s") [js "ABCD"] 0

def claimWith (i : ℕ) (secret : Option JsString) : Action :=
  .claim i ⟨js "ABCD", secret, js "phone", js "ios"⟩ (js "d") 1

/-- A claim with a wrong secret that nothing overlaps. -/
def wrongClaim (i : ℕ) : List Action :=
  [claimWith i (some (js "x")), .verified i (js "d") 2]

/-- Five wrong secrets, one after the other. -/
def fiveWrong : List Action := mintCode :: (List.range 5).flatMap wrongClaim

/-- A sixth claim reads the row before the five and fails after them; then the code is
claimed without a secret. -/
def staleFailure : List Action :=
  [mintCode, claimWith 9 (some (js "x"))] ++ (List.range 5).flatMap wrongClaim ++
    [.verified 9 (js "d") 3, claimWith 0 none]

theorem wrong_secrets_lock_five : ∃ s,
    Run (Guarded (fun s a => failureUpToDate plainRuntime s a) (step plainRuntime)) init
      fiveWrong s ∧ ∃ row, s.token (js "t") = some row ∧ row.locked_at ≠ none := by
  obtain ⟨s, hrun, hs⟩ := exists_guarded_run_of_exec
    (fun s a => failureUpToDate plainRuntime s a) (step plainRuntime) init fiveWrong
    (fun s => wrongSecrets (js "t") s.log = 5 && (s.token (js "t")).isSome) (by decide)
  rw [Bool.and_eq_true, decide_eq_true_eq, Option.isSome_iff_exists] at hs
  obtain ⟨hcount, row, hrow⟩ := hs
  have hlaw := wrong_secrets_lock hrun (.nil s) (js "t")
  exact ⟨s, hrun, row, hrow, hlaw.locked row hrow (by rw [hcount]; decide)⟩

/-- **A stale failure unlocks a locked code**: six wrong secrets are answered, the row counts
one, and the code is claimed. -/
theorem stale_failure_unlocks : ∃ s,
    Run (Steps (step plainRuntime)) init staleFailure s ∧
      wrongSecrets (js "t") s.log = 6 ∧ claims (js "t") s.log = 1 ∧
      ¬ LockoutLaw (js "t") s s := by
  obtain ⟨s, hrun, hs⟩ := exists_run_of_exec (step plainRuntime) init staleFailure
    (fun s => wrongSecrets (js "t") s.log = 6 && claims (js "t") s.log = 1 &&
      (s.token (js "t")).any fun row => row.failed_attempts = 1) (by decide)
  simp only [Bool.and_eq_true, decide_eq_true_eq, Option.any_eq_true] at hs
  obtain ⟨⟨hwrong, hclaims⟩, row, hrow, hcount⟩ := hs
  refine ⟨s, hrun, hwrong, hclaims, fun hlaw => ?_⟩
  have hsame := hlaw.counted row hrow
  omega

end LocalCast.Auth
