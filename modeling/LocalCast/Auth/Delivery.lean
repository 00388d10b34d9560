import LocalCast.Auth.Lockout
import Mathlib.Data.Set.Card

/-!
What becomes of a pairing: one code makes one device, and one approval reaches one poll.

* `Passing`, `step_passing`: where a one-time password is. An approval stashes it, a poll takes it
  into its call, the signature answers it; anything else only loses it.
* `Delivering`: the invariant; the answers, the calls in flight and the stash that carry a password
  are no more than the approvals that made it.
* `Consuming`: a code that made a device is consumed or gone.
* `approval_delivered_once`: both over any interleaving.
-/

namespace LocalCast.Auth

open JsString Contract Db Runs AuthState

/-! ### Passwords on their way -/

/-- An answer that hands `davPassword` to the device. -/
def Event.isDelivery (d davPassword : JsString) : Event → Bool
  | .session d' (.poll davPassword') _ => d' = d && davPassword' = davPassword
  | _ => false

def Event.isApproval (d davPassword : JsString) : Event → Bool
  | .approved d' davPassword' => d' = d && davPassword' = davPassword
  | _ => false

def deliveries (d davPassword : JsString) (log : List Event) : ℕ :=
  log.countP (·.isDelivery d davPassword)

def approvals (d davPassword : JsString) (log : List Event) : ℕ :=
  log.countP (·.isApproval d davPassword)

namespace AuthState

variable (s : AuthState) (d davPassword : JsString)

/-- The polls in flight that have taken the password. -/
def carrying : Set ℕ :=
  {i | ∃ device called, s.calls i = some (.session device called (.poll davPassword)) ∧
    device.id = d}

/-- Whether the password is in the stash. -/
def stashed : ℕ := if (s.pendingDavPasswords d).map Prod.fst = some davPassword then 1 else 0

end AuthState

/-- What a step does to the passwords on their way. -/
inductive Passing (s t : AuthState) : Prop
  | quiet (hcalls : ∀ i device called davPassword,
        t.calls i = some (.session device called (.poll davPassword)) → t.calls i = s.calls i)
      (hstash : ∀ d, t.pendingDavPasswords d = s.pendingDavPasswords d ∨
        t.pendingDavPasswords d = none)
      (hlog : t.log = s.log ∨ ∃ e, t.log = e :: s.log ∧ ∀ d davPassword,
        e.isDelivery d davPassword = false)
  | approved {i : ℕ} {d davPassword : JsString} {now : Time}
      (hcalls : t.calls = Function.update s.calls i none)
      (hstash : t.pendingDavPasswords =
        Function.update s.pendingDavPasswords d (some (davPassword, now)))
      (hlog : t.log = .approved d davPassword :: s.log)
  | taken {i : ℕ} {device : DeviceRow} {called at_ : Time} {davPassword : JsString}
      (hstashed : s.pendingDavPasswords device.id = some (davPassword, at_))
      (hcalls : t.calls =
        Function.update s.calls i (some (.session device called (.poll davPassword))))
      (hstash : t.pendingDavPasswords = Function.update s.pendingDavPasswords device.id none)
      (hlog : t.log = s.log)
  | delivered {i : ℕ} {device : DeviceRow} {called : Time} {davPassword : JsString}
      {tokens : IssuedTokens}
      (hcall : s.calls i = some (.session device called (.poll davPassword)))
      (hcalls : t.calls = Function.update s.calls i none)
      (hstash : t.pendingDavPasswords = s.pendingDavPasswords)
      (hlog : t.log = .session device.id (.poll davPassword) tokens :: s.log)

section Step

variable {rt : Runtime} {s t : AuthState} {a : Action} {d davPassword : JsString}

lemma passing_answer {e : Event} (he : ∀ d davPassword, e.isDelivery d davPassword = false)
    (hcalls : t.calls = s.calls) (hstash : t.pendingDavPasswords = s.pendingDavPasswords)
    (hlog : t.log = e :: s.log) : Passing s t :=
  .quiet (fun i _ _ _ _ => by rw [hcalls]) (fun d => .inl (by rw [hstash]))
    (.inr ⟨e, hlog, he⟩)

lemma passing_onDevice {deviceId : JsString} {f : AuthState → AuthState}
    (h : Passing s (f s)) : Passing s (onDevice s deviceId f) := by
  rw [onDevice]
  cases s.store.getDevice deviceId with
  | none => exact passing_answer (fun _ _ => rfl) rfl rfl rfl
  | some device => exact h

lemma passing_begin {i : ℕ} {c : Call} (hc : ∀ device called davPassword,
    c ≠ .session device called (.poll davPassword)) (h : s.begin i c = some t) : Passing s t := by
  obtain ⟨-, rfl⟩ := begin_eq_some.mp h
  refine .quiet (fun j device called davPassword hj => ?_) (fun d => .inl rfl) (.inl rfl)
  by_cases hji : j = i
  · subst hji
    have hself : Function.update s.calls j (some c) j = some c := Function.update_self ..
    exact absurd (Option.some.inj (hself.symm.trans hj)) (hc _ _ _)
  · exact Function.update_of_ne hji _ _

lemma passing_settle {i : ℕ} {e : Event}
    (he : ∀ d davPassword, e.isDelivery d davPassword = false)
    (hcalls : t.calls = Function.update s.calls i none)
    (hstash : t.pendingDavPasswords = s.pendingDavPasswords) (hlog : t.log = e :: s.log) :
    Passing s t := by
  refine .quiet (fun j device called davPassword hj => ?_) (fun d => .inl (by rw [hstash]))
    (.inr ⟨e, hlog, he⟩)
  rw [hcalls] at hj ⊢
  by_cases hji : j = i
  · subst hji
    have hself : Function.update s.calls j none j = none := Function.update_self ..
    cases hself.symm.trans hj
  · exact Function.update_of_ne hji _ _

/-- **Every step** is one of the four. -/
lemma step_passing (h : step rt s a = some t) : Passing s t := by
  cases a with
  | mint opts id secretHash codes now =>
      obtain ⟨s', hs', rfl⟩ := Option.map_eq_some_iff.mp h
      obtain ⟨-, -, rfl⟩ := draw_eq_some.mp hs'
      dsimp only
      cases mint (clearSpent s.store now) opts id secretHash codes now with
      | none | some st => exact passing_answer (fun _ _ => rfl) rfl rfl rfl
  | claim i req deviceId now =>
      rw [step] at h
      split at h
      · obtain rfl := Option.some.inj h
        exact passing_answer (fun _ _ => rfl) rfl rfl rfl
      case h_2 token hread =>
        split at h
        · obtain ⟨-, -, ⟨e, rfl⟩ | ⟨st, -, rfl⟩⟩ := finishClaim_eq_some h
          · exact passing_answer (fun _ _ => rfl) rfl rfl rfl
          · exact passing_answer (fun _ _ => rfl) rfl rfl rfl
        · exact passing_begin (by simp) h
  | verified i deviceId now =>
      rw [step] at h
      split at h
      case h_2 => cases h
      case h_1 token req secret called hcall =>
        split_ifs at h with hpw
        · obtain ⟨-, -, ⟨e, rfl⟩ | ⟨st, -, rfl⟩⟩ := finishClaim_eq_some h
          · exact passing_settle (fun _ _ => rfl) rfl rfl rfl
          · exact passing_settle (fun _ _ => rfl) rfl rfl rfl
        · obtain rfl := Option.some.inj h
          exact passing_settle (fun _ _ => rfl) rfl rfl rfl
  | status i deviceId ticket now =>
      rw [step] at h
      split at h
      · obtain rfl := Option.some.inj h
        exact passing_answer (fun _ _ => rfl) rfl rfl rfl
      · obtain rfl := Option.some.inj h
        exact passing_answer (fun _ _ => rfl) rfl rfl rfl
      · obtain rfl := Option.some.inj h
        exact passing_answer (fun _ _ => rfl) rfl rfl rfl
      case h_4 device hread =>
        have hid : device.id = deviceId := Table.key_of_get (statusRead_eq_approved hread).1
        split at h
        · obtain rfl := Option.some.inj h
          refine .quiet (fun _ _ _ _ _ => rfl) (fun d => ?_) (.inr ⟨_, rfl, fun _ _ => rfl⟩)
          by_cases hd : d = deviceId
          · exact .inr (hd ▸ Function.update_self ..)
          · exact .inl (Function.update_of_ne hd _ _)
        case h_2 davPassword hfresh =>
          obtain ⟨-, rfl⟩ := begin_eq_some.mp h
          obtain ⟨at_, hstashed⟩ : ∃ at_, s.pendingDavPasswords deviceId =
              some (davPassword, at_) := by
            unfold freshStash at hfresh
            split at hfresh
            · cases hfresh
            case h_2 password at_ hstash =>
              split_ifs at hfresh
              obtain rfl := Option.some.inj hfresh
              exact ⟨at_, hstash⟩
          subst hid
          exact .taken hstashed rfl rfl rfl
  | approve i deviceId davPassword =>
      rw [step] at h
      split at h
      · obtain rfl := Option.some.inj h
        exact passing_answer (fun _ _ => rfl) rfl rfl rfl
      case h_2 device hread => exact passing_begin (by simp) h
  | hashed i davHash now =>
      rw [step] at h
      split at h
      case h_2 => cases h
      case h_1 deviceId davPassword hcall =>
        split at h
        · obtain rfl := Option.some.inj h
          exact passing_settle (fun _ _ => rfl) rfl rfl rfl
        case h_2 st happ =>
          obtain rfl := Option.some.inj h
          exact .approved rfl rfl rfl
  | redeem i presented now =>
      rw [step] at h
      split at h
      · obtain rfl := Option.some.inj h
        exact passing_answer (fun _ _ => rfl) rfl rfl rfl
      case h_2 device hread => exact passing_begin (by simp) h
  | signed i raw now =>
      rw [step] at h
      split at h
      case h_2 => cases h
      case h_1 device called origin hcall =>
        obtain ⟨s', hs', rfl⟩ := Option.map_eq_some_iff.mp h
        obtain ⟨-, rfl⟩ := drawRefresh_eq_some.mp hs'
        cases origin with
        | poll davPassword => exact .delivered hcall rfl rfl rfl
        | refresh presented => exact passing_settle (fun _ _ => rfl) rfl rfl rfl
  | reject deviceId =>
      obtain rfl := Option.some.inj h
      refine passing_onDevice (.quiet (fun _ _ _ _ _ => rfl) (fun d => ?_)
        (.inr ⟨_, rfl, fun _ _ => rfl⟩))
      by_cases hd : d = deviceId
      · exact .inr (hd ▸ Function.update_self ..)
      · exact .inl (Function.update_of_ne hd _ _)
  | revoke deviceId | rename deviceId | deleteDevice deviceId =>
      obtain rfl := Option.some.inj h
      exact passing_onDevice (passing_answer (fun _ _ => rfl) rfl rfl rfl)
  | prune now =>
      obtain rfl := Option.some.inj h
      exact .quiet (fun _ _ _ _ _ => rfl) (fun _ => .inl rfl) (.inl rfl)
  | setPermissions deviceId perms =>
      obtain rfl := Option.some.inj h
      refine passing_onDevice ?_
      cases applyPermissions s.store deviceId perms with
      | error e | ok st => exact passing_answer (fun _ _ => rfl) rfl rfl rfl
  | addFolder row =>
      obtain ⟨s', hs', rfl⟩ := Option.map_eq_some_iff.mp h
      obtain ⟨-, -, rfl⟩ := draw_eq_some.mp hs'
      dsimp only
      cases s.store.addFolder row with
      | none | some st => exact passing_answer (fun _ _ => rfl) rfl rfl rfl
  | deleteFolder id =>
      obtain rfl := Option.some.inj h
      cases s.store.shared_folders.get id with
      | none | some row => exact passing_answer (fun _ _ => rfl) rfl rfl rfl
  | restart =>
      obtain rfl := Option.some.inj h
      exact .quiet (fun _ _ _ _ hc => by simp at hc) (fun _ => .inr rfl) (.inl rfl)

end Step

/-! ### Every password on its way was approved -/

/-- What carries the password to the device, or has handed it over, is no more than the approvals
that made it. -/
structure Accounted (s : AuthState) (d davPassword : JsString) : Prop where
  finite : (s.carrying d davPassword).Finite
  le : deliveries d davPassword s.log + (s.carrying d davPassword).ncard +
    s.stashed d davPassword ≤ approvals d davPassword s.log

section Accounted

variable {rt : Runtime} {s t : AuthState} {a : Action} {d davPassword : JsString} {i : ℕ}

lemma accounted_init : Accounted init d davPassword := by
  have hnone : init.carrying d davPassword = ∅ :=
    Set.eq_empty_of_forall_notMem fun i ⟨_, _, hi, _⟩ => by cases hi
  constructor
  · rw [hnone]
    exact Set.finite_empty
  · rw [hnone, Set.ncard_empty]
    exact le_rfl

lemma approvals_mono {e : Event} : approvals d davPassword s.log ≤
    approvals d davPassword (e :: s.log) := by
  rw [approvals, approvals, List.countP_cons]
  exact Nat.le_add_right _ _

/-- A slot that does not take up the password carries it no more. -/
lemma carrying_update {c : Option Call} (hcalls : t.calls = Function.update s.calls i c)
    (hc : ∀ device called, c = some (.session device called (.poll davPassword)) →
      device.id ≠ d) : t.carrying d davPassword ⊆ s.carrying d davPassword \ {i} := by
  rintro j ⟨device, called, hj, hid⟩
  rw [hcalls] at hj
  by_cases hji : j = i
  · subst hji
    rw [Function.update_self] at hj
    exact absurd hid (hc device called hj)
  · rw [Function.update_of_ne hji] at hj
    exact ⟨⟨device, called, hj, hid⟩, hji⟩

lemma stashed_le (hstash : t.pendingDavPasswords d = s.pendingDavPasswords d ∨
    t.pendingDavPasswords d = none) : t.stashed d davPassword ≤ s.stashed d davPassword := by
  rw [stashed, stashed]
  rcases hstash with hsame | hnone
  · rw [hsame]
  · rw [hnone]
    exact Nat.zero_le _

/-- Nothing takes up the password, and nothing hands it over. -/
lemma Accounted.shrink (h : Accounted s d davPassword)
    (hcarrying : t.carrying d davPassword ⊆ s.carrying d davPassword)
    (hstashed : t.stashed d davPassword ≤ s.stashed d davPassword)
    (hlog : deliveries d davPassword t.log = deliveries d davPassword s.log)
    (happroved : approvals d davPassword s.log ≤ approvals d davPassword t.log) :
    Accounted t d davPassword where
  finite := h.finite.subset hcarrying
  le := by
    have hcard := Set.ncard_le_ncard hcarrying h.finite
    have hle := h.le
    omega

lemma Accounted.quiet (h : Accounted s d davPassword)
    (hcalls : ∀ i device called davPassword,
      t.calls i = some (.session device called (.poll davPassword)) → t.calls i = s.calls i)
    (hstash : ∀ d, t.pendingDavPasswords d = s.pendingDavPasswords d ∨
      t.pendingDavPasswords d = none)
    (hlog : t.log = s.log ∨ ∃ e, t.log = e :: s.log ∧ ∀ d davPassword,
      e.isDelivery d davPassword = false) : Accounted t d davPassword := by
  have hcarrying : t.carrying d davPassword ⊆ s.carrying d davPassword :=
    fun i ⟨device, called, hi, hid⟩ =>
      ⟨device, called, (hcalls i device called davPassword hi).symm.trans hi, hid⟩
  rcases hlog with hlog | ⟨e, hlog, he⟩
  · exact h.shrink hcarrying (stashed_le (hstash d)) (by rw [hlog]) (by rw [hlog])
  · refine h.shrink hcarrying (stashed_le (hstash d)) ?_ (hlog ▸ approvals_mono)
    rw [hlog]
    exact List.countP_cons_of_neg (by simp [he])

/-- An approval counts for the stash, which loses what it had. -/
lemma Accounted.approved (h : Accounted s d davPassword) {d' davPassword' : JsString} {now : Time}
    (hcalls : t.calls = Function.update s.calls i none)
    (hstash : t.pendingDavPasswords =
      Function.update s.pendingDavPasswords d' (some (davPassword', now)))
    (hlog : t.log = .approved d' davPassword' :: s.log) : Accounted t d davPassword := by
  have hcarrying : t.carrying d davPassword ⊆ s.carrying d davPassword :=
    (carrying_update hcalls (by simp)).trans Set.sdiff_subset
  have hsame : deliveries d davPassword t.log = deliveries d davPassword s.log := by
    rw [hlog]
    exact List.countP_cons_of_neg (by simp [Event.isDelivery])
  by_cases hd : d' = d ∧ davPassword' = davPassword
  · refine ⟨h.finite.subset hcarrying, ?_⟩
    have hcard := Set.ncard_le_ncard hcarrying h.finite
    have hone : t.stashed d davPassword ≤ 1 := by
      rw [stashed]
      split_ifs <;> simp
    have hcount : approvals d davPassword t.log = approvals d davPassword s.log + 1 := by
      rw [hlog]
      exact List.countP_cons_of_pos (by simp [Event.isApproval, hd])
    have hle := h.le
    omega
  · refine h.shrink hcarrying ?_ hsame (hlog ▸ approvals_mono)
    by_cases hdev : d = d'
    · subst hdev
      have hne : davPassword' ≠ davPassword := fun heq => hd ⟨rfl, heq⟩
      simp [stashed, hstash, hne]
    · exact stashed_le (.inl (by rw [hstash, Function.update_of_ne hdev]))

/-- A poll takes the password out of the stash. -/
lemma Accounted.taken (h : Accounted s d davPassword) {device : DeviceRow} {called at_ : Time}
    {davPassword' : JsString}
    (hstashed : s.pendingDavPasswords device.id = some (davPassword', at_))
    (hcalls : t.calls =
      Function.update s.calls i (some (.session device called (.poll davPassword'))))
    (hstash : t.pendingDavPasswords = Function.update s.pendingDavPasswords device.id none)
    (hlog : t.log = s.log) : Accounted t d davPassword := by
  by_cases hd : device.id = d ∧ davPassword' = davPassword
  · obtain ⟨rfl, rfl⟩ := hd
    have hcarrying : t.carrying device.id davPassword' ⊆
        insert i (s.carrying device.id davPassword') := by
      rintro j ⟨device', called', hj, hid⟩
      rw [hcalls] at hj
      by_cases hji : j = i
      · exact .inl hji
      · rw [Function.update_of_ne hji] at hj
        exact .inr ⟨device', called', hj, hid⟩
    have hcard := (Set.ncard_le_ncard hcarrying (h.finite.insert i)).trans
      (Set.ncard_insert_le i _)
    have hbefore : s.stashed device.id davPassword' = 1 := by simp [stashed, hstashed]
    have hafter : t.stashed device.id davPassword' = 0 := by simp [stashed, hstash]
    refine ⟨(h.finite.insert i).subset hcarrying, ?_⟩
    have hle := h.le
    rw [hlog]
    omega
  · refine h.shrink ?_ (stashed_le ?_) (by rw [hlog]) (by rw [hlog])
    · refine (carrying_update hcalls fun device' called' heq => ?_).trans Set.sdiff_subset
      cases heq
      exact fun hid => hd ⟨hid, rfl⟩
    · by_cases hdev : d = device.id
      · exact .inr (by rw [hstash, hdev, Function.update_self])
      · exact .inl (by rw [hstash, Function.update_of_ne hdev])

/-- The signature of the session is there, and the call that carried the password is over. -/
lemma Accounted.delivered (h : Accounted s d davPassword) {device : DeviceRow} {called : Time}
    {davPassword' : JsString} {tokens : IssuedTokens}
    (hcall : s.calls i = some (.session device called (.poll davPassword')))
    (hcalls : t.calls = Function.update s.calls i none)
    (hstash : t.pendingDavPasswords = s.pendingDavPasswords)
    (hlog : t.log = .session device.id (.poll davPassword') tokens :: s.log) :
    Accounted t d davPassword := by
  have hcarrying : t.carrying d davPassword ⊆ s.carrying d davPassword \ {i} :=
    carrying_update hcalls (by simp)
  have hstashed : t.stashed d davPassword ≤ s.stashed d davPassword :=
    stashed_le (.inl (by rw [hstash]))
  by_cases hd : device.id = d ∧ davPassword' = davPassword
  · obtain ⟨rfl, rfl⟩ := hd
    have hmem : i ∈ s.carrying device.id davPassword' := ⟨device, called, hcall, rfl⟩
    have hcard := Set.ncard_le_ncard hcarrying (h.finite.subset Set.sdiff_subset)
    have hgone := Set.ncard_sdiff_singleton_add_one hmem h.finite
    have hmore : deliveries device.id davPassword' t.log =
        deliveries device.id davPassword' s.log + 1 := by
      rw [hlog]
      exact List.countP_cons_of_pos (by simp [Event.isDelivery])
    have hmono : approvals device.id davPassword' s.log ≤
        approvals device.id davPassword' t.log := hlog ▸ approvals_mono
    refine ⟨h.finite.subset (hcarrying.trans Set.sdiff_subset), ?_⟩
    have hle := h.le
    omega
  · refine h.shrink (hcarrying.trans Set.sdiff_subset) hstashed ?_ (hlog ▸ approvals_mono)
    rw [hlog]
    exact List.countP_cons_of_neg (by simpa [Event.isDelivery] using hd)

/-- **One step** keeps the passwords accounted for. -/
lemma accounted_step (hs : Accounted s d davPassword) (h : step rt s a = some t) :
    Accounted t d davPassword := by
  cases step_passing h with
  | quiet hcalls hstash hlog => exact hs.quiet hcalls hstash hlog
  | approved hcalls hstash hlog => exact hs.approved hcalls hstash hlog
  | taken hstashed hcalls hstash hlog => exact hs.taken hstashed hcalls hstash hlog
  | delivered hcall hcalls hstash hlog => exact hs.delivered hcall hcalls hstash hlog

end Accounted

/-! ### A code makes one device -/

/-- What a step does to the code `tk`: its row stays as consumed as it was, or goes; it is minted;
or a claim consumes it, which had not been consumed. -/
inductive Consumption (s t : AuthState) (tk : JsString) : Prop
  | kept (hrow : ∀ row', t.token tk = some row' →
        ∃ row, s.token tk = some row ∧ row'.consumed_at = row.consumed_at)
      (hlog : claims tk t.log = claims tk s.log)
  | minted (hid : tk ∉ s.usedIds) (hused : tk ∈ t.usedIds)
      (hlog : claims tk t.log = claims tk s.log)
  | claimed {row : PairingTokenRow} (hrow : s.token tk = some row) (hfree : row.consumed_at = none)
      (hrow' : ∀ row', t.token tk = some row' → row'.consumed_at ≠ none)
      (hlog : claims tk t.log = claims tk s.log + 1)

section Consuming

variable {rt : Runtime} {s t : AuthState} {a : Action} {tk : JsString}

lemma consumption_of_eq (h : t.store.pairing_tokens = s.store.pairing_tokens)
    (hlog : claims tk t.log = claims tk s.log) : Consumption s t tk :=
  .kept (fun row' h' => ⟨row', by rw [← h', token, token, h], rfl⟩) hlog

lemma consumption_deleteDevices (st : AuthStore) {p : DeviceRow → Bool}
    (hst : st.pairing_tokens = s.store.pairing_tokens) (h : t.store = st.deleteDevices p)
    (hlog : claims tk t.log = claims tk s.log) : Consumption s t tk := by
  refine .kept (fun row' h' => ?_) hlog
  rw [token, h, AuthStore.deleteDevices] at h'
  dsimp only at h'
  obtain ⟨row, hrow, rfl | ⟨-, rfl⟩⟩ := Table.of_get_update h'
  all_goals
    rw [hst] at hrow
    exact ⟨_, hrow, rfl⟩

lemma consumption_step (h : step rt s a = some t) (tk : JsString) : Consumption s t tk := by
  cases (step_effect h).1 with
  | none hstore hlog => exact consumption_of_eq (by rw [hstore]) hlog.quiet.2
  | cleared hstore hlog =>
      refine .kept (fun row h' => ?_) hlog.quiet.2
      rw [token, hstore] at h'
      exact ⟨row, get_clearSpent h', rfl⟩
  | @minted opts id secretHash codes now hid hused hstore hlog =>
      obtain ⟨row, -, -, -, -, -, -, hget, -⟩ := mint_eq_some hstore
      by_cases htk : tk = id
      · subst htk
        exact .minted hid hused hlog.quiet.2
      · refine .kept (fun row' h' => ?_) hlog.quiet.2
        rw [token, hget, if_neg htk] at h'
        exact ⟨row', get_clearSpent h', rfl⟩
  | @claimed token req deviceId ticket called now hid hused hdot hstore hissued hlog =>
      obtain ⟨⟨row, hrow, -, hfree, hget⟩, -⟩ := claimConsume_eq_ok hstore
      by_cases htk : token.id = tk
      · subst htk
        refine .claimed hrow hfree (fun row' h' => ?_) (by simp [claims, hlog, Event.isClaimed])
        rw [AuthState.token, hget, if_pos rfl] at h'
        obtain rfl := Option.some.inj h'
        exact Option.some_ne_none _
      · refine .kept (fun row' h' => ⟨row', ?_, rfl⟩)
          (by simp [claims, hlog, Event.isClaimed, htk])
        rwa [AuthState.token, hget, if_neg (Ne.symm htk)] at h'
  | failed ha hcall hpw hstore hissued hlog =>
      refine .kept (fun row' h' => ?_) (by simp [claims, hlog, Event.isClaimed])
      rw [AuthState.token, hstore, registerFailure] at h'
      dsimp only at h'
      obtain ⟨row, hrow, rfl | ⟨-, rfl⟩⟩ := Table.of_get_updateKey h'
      all_goals exact ⟨_, hrow, rfl⟩
  | approved ha hcall hstore hlog =>
      exact consumption_of_eq (approveApply_eq_ok hstore).2.2.1 hlog.quiet.2
  | issued ha hcall hfresh hstore hissued hlog =>
      exact consumption_of_eq (by rw [hstore]; rfl) (by simp [claims, hlog, Event.isClaimed])
  | revoked hstore hlog | renamed hstore hlog | folderDeleted hstore hlog =>
      exact consumption_of_eq (by rw [hstore]; rfl) hlog.quiet.2
  | deleted hstore hlog =>
      exact consumption_deleteDevices (revoke s.store _) rfl hstore hlog.quiet.2
  | pruned hstore hlog => exact consumption_deleteDevices _ rfl hstore hlog.quiet.2
  | permitted ha hdev hstore hlog =>
      exact consumption_of_eq (by rw [applyPermissions_eq_ok hstore]) hlog.quiet.2
  | folderAdded hstore hlog =>
      rw [AuthStore.addFolder] at hstore
      split_ifs at hstore
      obtain ⟨folders, -, hst⟩ := Option.map_eq_some_iff.mp hstore
      exact consumption_of_eq (by rw [← hst]) hlog.quiet.2

/-- The invariant: rows have ids that were drawn, and a code that has made a device was consumed,
or its row is gone. -/
structure Consuming (s : AuthState) : Prop where
  known : ∀ tk row, s.token tk = some row → tk ∈ s.usedIds
  unknown : ∀ tk, tk ∉ s.usedIds → claims tk s.log = 0
  unclaimed : ∀ tk row, s.token tk = some row → row.consumed_at = none → claims tk s.log = 0
  once : ∀ tk, claims tk s.log ≤ 1

lemma consuming_init : Consuming init where
  known tk row h := by cases h
  unknown _ _ := rfl
  unclaimed _ _ h := by cases h
  once _ := Nat.zero_le _

lemma consuming_step (hs : Consuming s) (h : step rt s a = some t) : Consuming t where
  known tk row hrow := by
    have hids := (step_effect h).2.ids
    cases consumption_step h tk with
    | kept hkept =>
        obtain ⟨row', hrow', -⟩ := hkept row hrow
        exact hids (hs.known tk row' hrow')
    | minted _ hused => exact hused
    | claimed hwas => exact hids (hs.known tk _ hwas)
  unknown tk htk := by
    have hids : tk ∉ s.usedIds := fun hu => htk ((step_effect h).2.ids hu)
    cases consumption_step h tk with
    | kept _ hlog | minted _ _ hlog => exact hlog.trans (hs.unknown tk hids)
    | claimed hwas => exact absurd (hs.known tk _ hwas) hids
  unclaimed tk row hrow hfree := by
    cases consumption_step h tk with
    | kept hkept hlog =>
        obtain ⟨row', hrow', hsame⟩ := hkept row hrow
        exact hlog.trans (hs.unclaimed tk row' hrow' (hsame ▸ hfree))
    | minted hid _ hlog => exact hlog.trans (hs.unknown tk hid)
    | claimed _ _ hconsumed => exact absurd hfree (hconsumed row hrow)
  once tk := by
    cases consumption_step h tk with
    | kept _ hlog | minted _ _ hlog => exact hlog.le.trans (hs.once tk)
    | claimed hwas hfree _ hlog => rw [hlog, hs.unclaimed tk _ hwas hfree]

end Consuming

/-! ### Runs -/

/-- **One code, one device; one approval, one session.** For every interleaving of the auth
service's calls (claims, approvals, polls and redemptions that overlap in any way, rejections,
deletions, pruning, restarts): a code makes one device at most, and a device is handed the session
of an approval, with its one-time password, at most as often as that approval was made. -/
theorem approval_delivered_once {rt : Runtime} {s : AuthState} {as : List Action}
    (h : Run (Steps (step rt)) init as s) :
    (∀ tk, claims tk s.log ≤ 1) ∧
      ∀ d davPassword, deliveries d davPassword s.log ≤ approvals d davPassword s.log := by
  have hconsuming : Consuming s := h.invariant (fun _ _ _ => consuming_step) consuming_init
  refine ⟨hconsuming.once, fun d davPassword => ?_⟩
  have haccounted : Accounted s d davPassword :=
    h.invariant (I := fun s => Accounted s d davPassword) (fun _ _ _ => accounted_step)
      accounted_init
  have hle := haccounted.le
  omega

/-- Two polls of one approval, the second while the first session is being signed, then another
claim of the code. -/
theorem approval_delivered_once_polled : ∃ s,
    Run (Steps (step plainRuntime)) init
      [.mint ⟨[], 300⟩ (js "t") (js "s") [js "ABCD"] 0,
        .claim 0 ⟨js "ABCD", none, js "phone", js "ios"⟩ (js "d") 1,
        .approve 0 (js "d") (js "pw"), .hashed 0 (js "hash") 2,
        .status 0 (js "d") (js "claim:d") 3, .status 1 (js "d") (js "claim:d") 3,
        .signed 0 (js "r1") 4,
        .claim 0 ⟨js "ABCD", none, js "phone", js "ios"⟩ (js "e") 5] s ∧
      (claims (js "t") s.log = 1 ∧ deliveries (js "d") (js "pw") s.log = 1) ∧
      (∀ tk, claims tk s.log ≤ 1) ∧
      ∀ d davPassword, deliveries d davPassword s.log ≤ approvals d davPassword s.log := by
  obtain ⟨s, hrun, hs⟩ := exists_run_of_exec (step plainRuntime) init
    [.mint ⟨[], 300⟩ (js "t") (js "s") [js "ABCD"] 0,
      .claim 0 ⟨js "ABCD", none, js "phone", js "ios"⟩ (js "d") 1,
      .approve 0 (js "d") (js "pw"), .hashed 0 (js "hash") 2,
      .status 0 (js "d") (js "claim:d") 3, .status 1 (js "d") (js "claim:d") 3,
      .signed 0 (js "r1") 4, .claim 0 ⟨js "ABCD", none, js "phone", js "ios"⟩ (js "e") 5]
    (fun s => claims (js "t") s.log = 1 ∧ deliveries (js "d") (js "pw") s.log = 1) (by decide)
  exact ⟨s, hrun, of_decide_eq_true hs, approval_delivered_once hrun⟩

end LocalCast.Auth
