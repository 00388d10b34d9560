import LocalCast.Edge.Schema

/-!
`http/routes/operatorNetwork.ts`: the row of the network configuration, read and written by the
panel.

* `NetworkStore`, `handle`, `serve`: the row and the activities, and the requests one by one.
* `Kept`: the invariant of the row; `kept_serve` carries it over the requests.
* `lastSecret`: the secret that the accepted requests leave, in terms of the requests alone.
* `network_config_kept`: the row passes its own schema, the panel's view can be handed back, and a
  secret stays until a request replaces or clears it.
* `secrets_masked`: what is answered and recorded does not depend on the letters of a secret.
-/

namespace LocalCast.Http

open JsString Edge

/-! ### The row -/

/-- `network_config`. -/
structure NetworkConfigRow where
  mode : JsString
  controlUrl : Option JsString
  authKeyEnc : Option JsString
  expose : JsString
  certStrategy : JsString
  certDomain : Option JsString
  dnsProvider : Option JsString
  dnsTokenEnc : Option JsString
  hostname : JsString
  updatedAt : ℕ
deriving DecidableEq

/-- What the panel receives. -/
structure StoredNetworkConfig where
  mode : JsString
  controlUrl : Option JsString
  expose : JsString
  certStrategy : JsString
  certDomain : Option JsString
  dnsProvider : Option JsString
  hostname : JsString
  hasAuthKey : Bool
  hasDnsApiToken : Bool
deriving DecidableEq

def view (row : NetworkConfigRow) : StoredNetworkConfig where
  mode := row.mode
  controlUrl := row.controlUrl.filter fun s => !s.isEmpty
  expose := row.expose
  certStrategy := row.certStrategy
  certDomain := row.certDomain.filter fun s => !s.isEmpty
  dnsProvider := row.dnsProvider.filter fun s => decide (s ∈ dnsProviders)
  hostname := row.hostname
  hasAuthKey := !falsy row.authKeyEnc
  hasDnsApiToken := !falsy row.dnsTokenEnc

/-- The member of an object that is left out where there is no value. -/
def ofStored : Option JsString → Member
  | none => .absent
  | some s => .text s

/-- An object without members, which every other value counts as. -/
def noMembers : RawConfig :=
  ⟨.absent, .absent, .absent, .absent, .absent, .absent, .absent, .absent, .absent⟩

def withStoredSecrets (body : Option RawConfig) (row : NetworkConfigRow) : RawConfig :=
  let incoming := body.getD noMembers
  { incoming with
    authKey :=
      if incoming.authKey = .absent ∧ !falsy row.authKeyEnc then ofStored row.authKeyEnc
      else incoming.authKey
    dnsApiToken :=
      if incoming.dnsApiToken = .absent ∧ !falsy row.dnsTokenEnc then ofStored row.dnsTokenEnc
      else incoming.dnsApiToken }

def blank (value : Option JsString) : Option JsString := value.filter fun s => !s.isEmpty

/-- The row that is written. A text column holds UTF-8. -/
def rowOf (config : ParsedConfig) (now : ℕ) : NetworkConfigRow where
  mode := toWellFormed config.mode
  controlUrl := config.controlUrl.map toWellFormed
  authKeyEnc := (blank config.authKey).map toWellFormed
  expose := toWellFormed config.expose
  certStrategy := toWellFormed config.certStrategy
  certDomain := config.certDomain.map toWellFormed
  dnsProvider := config.dnsProvider.map toWellFormed
  dnsTokenEnc := (blank config.dnsApiToken).map toWellFormed
  hostname := toWellFormed config.hostname
  updatedAt := now

/-- The row that `openDatabase` inserts. -/
def seededRow (now : ℕ) : NetworkConfigRow :=
  ⟨modeDefault, none, none, exposeTailnet, certControlPlane, none, none, none, defaultHostname, now⟩

/-! ### Requests -/

/-- What `network.updated` records. -/
structure NetworkUpdated where
  mode : JsString
  expose : JsString
  certStrategy : JsString
deriving DecidableEq

structure NetworkStore where
  row : Option NetworkConfigRow
  activity : List NetworkUpdated
deriving DecidableEq

def NetworkStore.seeded (now : ℕ) : NetworkStore := ⟨some (seededRow now), []⟩

/-- The two routes; a body that is no object has no members. -/
inductive NetworkRequest where
  | get
  | post (body : Option RawConfig) (now : ℕ)

inductive NetworkReply where
  | config (c : StoredNetworkConfig)
  | invalid (issues : List Issue)
  | internal (message : JsString)
deriving DecidableEq

def rowMissing : NetworkReply := .internal (js "The network configuration row is missing")

section Requests

variable (isUrl : JsString → Bool)

def handle (s : NetworkStore) : NetworkRequest → NetworkStore × NetworkReply
  | .get =>
      match s.row with
      | none => (s, rowMissing)
      | some row => (s, .config (view row))
  | .post body now =>
      match s.row with
      | none => (s, rowMissing)
      | some stored =>
          let raw := withStoredSecrets body stored
          let issues := networkConfigSchema isUrl raw
          if issues = [] then
            let config := raw.parsed
            let row := rowOf config now
            (⟨some row, s.activity ++ [⟨config.mode, config.expose, config.certStrategy⟩]⟩,
              .config (view row))
          else (s, .invalid issues)

/-- The requests one by one, with their answers. -/
def serve (s : NetworkStore) : List NetworkRequest → NetworkStore × List NetworkReply
  | [] => (s, [])
  | r :: rs =>
      let (t, reply) := handle isUrl s r
      let (u, replies) := serve t rs
      (u, reply :: replies)

end Requests

/-! ### The invariant -/

/-- The row as the object that the schema is asked about. -/
def NetworkConfigRow.raw (row : NetworkConfigRow) : RawConfig where
  mode := .text row.mode
  controlUrl := ofStored row.controlUrl
  authKey := ofStored row.authKeyEnc
  expose := .text row.expose
  certStrategy := .text row.certStrategy
  certDomain := ofStored row.certDomain
  dnsProvider := ofStored row.dnsProvider
  dnsApiToken := ofStored row.dnsTokenEnc
  hostname := .text row.hostname

def NetworkConfigRow.texts (row : NetworkConfigRow) : List JsString :=
  [row.mode, row.expose, row.certStrategy, row.hostname] ++ row.controlUrl.toList ++
    row.authKeyEnc.toList ++ row.certDomain.toList ++ row.dnsProvider.toList ++
    row.dnsTokenEnc.toList

/-- The view, handed back. The flags are no members of a configuration. -/
def StoredNetworkConfig.body (c : StoredNetworkConfig) : RawConfig where
  mode := .text c.mode
  controlUrl := ofStored c.controlUrl
  authKey := .absent
  expose := .text c.expose
  certStrategy := .text c.certStrategy
  certDomain := ofStored c.certDomain
  dnsProvider := ofStored c.dnsProvider
  dnsApiToken := .absent
  hostname := .text c.hostname

/-- A row that passes its own schema and was read back as it had been written; no secret on file is
empty. -/
structure Kept (isUrl : JsString → Bool) (row : NetworkConfigRow) : Prop where
  accepted : networkConfigSchema isUrl row.raw = []
  wellFormed : ∀ s ∈ row.texts, toWellFormed s = s
  authKey : row.authKeyEnc ≠ some []
  dnsToken : row.dnsTokenEnc ≠ some []

/-- What the code relies on: a URL is read as the text that it is, and no empty text is one. -/
structure ReadsText (isUrl : JsString → Bool) : Prop where
  wellFormed : ∀ s, isUrl (toWellFormed s) = isUrl s
  nonempty : isUrl [] = false

section Rows

variable {isUrl : JsString → Bool} {raw : RawConfig} {row : NetworkConfigRow} {now : ℕ}

lemma toWellFormed_idem (s : JsString) : toWellFormed (toWellFormed s) = toWellFormed s :=
  WellFormed.eq_flatMap ⟨chars s, rfl⟩

/-- A member that was stored has its value, well-formed. -/
lemma value_ofStored (m : Member) : (ofStored (m.text?.map toWellFormed)).value =
    toWellFormed m.value := by
  cases m <;> rfl

lemma value_ofStored_blank (m : Member) : (ofStored ((blank m.text?).map toWellFormed)).value =
    toWellFormed m.value := by
  cases m with
  | text s => cases s <;> rfl
  | _ => rfl

lemma value_valueOr {m : Member} {value : JsString} (hm : m = .absent ∨ m = .text m.value) :
    m = .absent ∧ m.valueOr value = value ∨ m = .text m.value ∧ m.valueOr value = m.value := by
  rcases hm with rfl | hm
  · exact .inl ⟨rfl, rfl⟩
  · rw [hm]
    exact .inr ⟨rfl, rfl⟩

lemma ofStored_isPlain (o : Option JsString) : (ofStored o).IsPlain := by
  cases o with
  | none => exact .inl rfl
  | some s => exact .inr rfl

lemma raw_plain (row : NetworkConfigRow) : ∀ m ∈ row.raw.members, m.IsPlain := by
  simp only [RawConfig.members, NetworkConfigRow.raw, List.forall_mem_cons, List.not_mem_nil,
    false_imp_iff, implies_true, and_true, ofStored_isPlain, true_and]
  exact ⟨.inr rfl, .inr rfl, .inr rfl, .inr rfl⟩

/-- What is accepted is accepted again once it is stored. -/
lemma accepted_rowOf (hurl : ReadsText isUrl) (h : networkConfigSchema isUrl raw = []) :
    networkConfigSchema isUrl (rowOf raw.parsed now).raw = [] := by
  obtain ⟨hshared, hschema⟩ := schema_accepts_iff.mp h
  have hplain := plain_members.mp ⟨hshared.typed, hschema.notNull⟩
  simp only [RawConfig.members, List.forall_mem_cons, List.not_mem_nil, false_imp_iff,
    implies_true, and_true] at hplain
  obtain ⟨-, -, -, hexpose, -, -, -, -, hhostname⟩ := hplain
  obtain ⟨htyped, hnull⟩ := plain_members.mpr (raw_plain (rowOf raw.parsed now))
  have hmode : toWellFormed raw.mode.value = modeCustom ↔ raw.mode.value = modeCustom :=
    toWellFormed_eq_literal (by decide)
  have hdns : toWellFormed raw.certStrategy.value = certDNS01 ↔
      raw.certStrategy.value = certDNS01 := toWellFormed_eq_literal (by decide)
  have hproxy : toWellFormed raw.certStrategy.value = certExternalProxy ↔
      raw.certStrategy.value = certExternalProxy := toWellFormed_eq_literal (by decide)
  have hplane : toWellFormed raw.certStrategy.value = certControlPlane ↔
      raw.certStrategy.value = certControlPlane := toWellFormed_eq_literal (by decide)
  -- the two members with a default
  have hexposes : raw.expose.valueOr exposeTailnet ∈ exposes ∧
      (raw.expose.valueOr exposeTailnet = exposeFunnel → raw.expose.value = exposeFunnel) := by
    rcases value_valueOr hexpose with ⟨-, hvalue⟩ | ⟨htext, hvalue⟩
    · rw [hvalue]
      exact ⟨by decide, fun hfunnel => absurd hfunnel (by decide)⟩
    · rw [hvalue]
      exact ⟨hshared.expose.resolve_left fun hnil => hschema.expose (by rw [htext, hnil]), id⟩
  have hnamed : raw.hostname.valueOr defaultHostname ≠ [] := by
    rcases value_valueOr hhostname with ⟨-, hvalue⟩ | ⟨htext, hvalue⟩
    · rw [hvalue]
      decide
    · rw [hvalue]
      exact fun hnil => hschema.hostname (by rw [htext, hnil])
  have hfunnel : toWellFormed (raw.expose.valueOr exposeTailnet) = exposeFunnel ↔
      raw.expose.valueOr exposeTailnet = exposeFunnel := toWellFormed_eq_literal (by decide)
  refine schema_accepts_iff.mpr ⟨⟨htyped, ?_, .inr ?_, ?_, fun hc => ?_, fun hs => ?_,
    fun hs => ?_⟩, ⟨hnull, fun hnil => ?_, fun hnil => ?_, ?_, ?_⟩⟩
  · exact (toWellFormed_mem (by decide)).mpr hshared.mode
  · exact (toWellFormed_mem (by decide)).mpr hexposes.1
  · exact (toWellFormed_mem (by decide)).mpr hshared.certStrategy
  · obtain ⟨hcontrol, hstrategy, hexposed⟩ := hshared.custom (hmode.mp hc)
    refine ⟨?_, fun heq => hstrategy (hplane.mp heq), fun heq => ?_⟩
    · exact fun hnil => hcontrol (toWellFormed_eq_nil.mp ((value_ofStored _).symm.trans hnil))
    · exact hexposed (hexposes.2 (hfunnel.mp heq))
  · obtain ⟨hdomain, hprovider, htoken⟩ := hshared.dns01 (hdns.mp hs)
    refine ⟨?_, ?_, ?_⟩
    · exact fun hnil => hdomain (toWellFormed_eq_nil.mp ((value_ofStored _).symm.trans hnil))
    · exact (value_ofStored raw.dnsProvider).symm ▸ (toWellFormed_mem (by decide)).mpr hprovider
    · exact fun hnil => htoken (toWellFormed_eq_nil.mp ((value_ofStored_blank _).symm.trans hnil))
  · exact fun hnil => hshared.externalProxy (hproxy.mp hs)
      (toWellFormed_eq_nil.mp ((value_ofStored _).symm.trans hnil))
  · have hempty : raw.expose.valueOr exposeTailnet = [] :=
      toWellFormed_eq_nil.mp (Member.text.inj hnil)
    rw [hempty] at hexposes
    exact absurd hexposes.1 (by decide)
  · exact hnamed (toWellFormed_eq_nil.mp (Member.text.inj hnil))
  · refine hschema.dnsProvider.imp (fun habsent => ?_) fun hmem => ?_
    · rw [NetworkConfigRow.raw, rowOf, RawConfig.parsed, habsent]
      rfl
    · exact (value_ofStored raw.dnsProvider).symm ▸ (toWellFormed_mem (by decide)).mpr hmem
  · refine hschema.controlUrl.imp (fun habsent => ?_) fun hvalid => ?_
    · rw [NetworkConfigRow.raw, rowOf, RawConfig.parsed, habsent]
      rfl
    · exact (value_ofStored raw.controlUrl).symm ▸ (hurl.wellFormed _).trans hvalid

/-- A blank secret is not stored. -/
lemma blank_ne_nil (value : Option JsString) : (blank value).map toWellFormed ≠ some [] := by
  intro h
  obtain ⟨s, hs, hnil⟩ := Option.map_eq_some_iff.mp h
  have hne := (Option.filter_eq_some_iff.mp hs).2
  rw [toWellFormed_eq_nil.mp hnil] at hne
  exact Bool.false_ne_true hne

lemma kept_rowOf (hurl : ReadsText isUrl) (h : networkConfigSchema isUrl raw = []) :
    Kept isUrl (rowOf raw.parsed now) := by
  refine ⟨accepted_rowOf hurl h, fun s hs => ?_, blank_ne_nil _, blank_ne_nil _⟩
  have hoption (o : Option JsString) (ho : s ∈ (o.map toWellFormed).toList) :
      ∃ t, s = toWellFormed t := by
    obtain ⟨t, -, ht⟩ := Option.map_eq_some_iff.mp (Option.mem_toList.mp ho)
    exact ⟨t, ht.symm⟩
  have htext : ∃ t, s = toWellFormed t := by
    simp only [NetworkConfigRow.texts, rowOf, List.mem_append, List.mem_cons, List.not_mem_nil,
      or_false] at hs
    rcases hs with ((((hs | hs) | hs) | hs) | hs) | hs
    · rcases hs with rfl | rfl | rfl | rfl <;> exact ⟨_, rfl⟩
    all_goals exact hoption _ hs
  obtain ⟨t, rfl⟩ := htext
  exact toWellFormed_idem t

lemma kept_seededRow (isUrl : JsString → Bool) (now : ℕ) : Kept isUrl (seededRow now) := by
  refine ⟨rfl, ?_, by simp [seededRow], by simp [seededRow]⟩
  simp only [NetworkConfigRow.texts, seededRow, Option.toList_none, List.append_nil,
    List.forall_mem_cons, List.not_mem_nil, false_imp_iff, implies_true, and_true]
  refine ⟨?_, ?_, ?_, ?_⟩ <;> exact WellFormed.eq_flatMap (wellFormed_js _)

/-! ### The view, handed back -/

/-- The row as it is once its view has come back: an empty domain is left out. -/
def NetworkConfigRow.handedBack (row : NetworkConfigRow) (now : ℕ) : NetworkConfigRow :=
  { row with certDomain := blank row.certDomain, updatedAt := now }

lemma view_handedBack (row : NetworkConfigRow) (now : ℕ) :
    view (row.handedBack now) = view row := by
  simp [view, NetworkConfigRow.handedBack, blank, Option.filter_filter]

/-- Nothing that a kept row holds is left out of its view but the secrets, which are put back, and
an empty domain. -/
lemma withStoredSecrets_view (hurl : ReadsText isUrl) (h : Kept isUrl row) (now : ℕ) :
    withStoredSecrets (some (view row).body) row = (row.handedBack now).raw := by
  obtain ⟨-, hschema⟩ := schema_accepts_iff.mp h.accepted
  have hcontrol : (row.controlUrl.filter fun s => !s.isEmpty) = row.controlUrl := by
    cases hurlText : row.controlUrl with
    | none => rfl
    | some text =>
        have hvalid := hschema.controlUrl
        rw [NetworkConfigRow.raw, hurlText] at hvalid
        refine Option.filter_some_pos ?_
        rw [Bool.not_eq_true', List.isEmpty_eq_false_iff]
        rintro rfl
        have hempty := hvalid.resolve_left (by simp [ofStored])
        exact Bool.false_ne_true (hurl.nonempty.symm.trans hempty)
  have hprovider : (row.dnsProvider.filter fun s => decide (s ∈ dnsProviders)) =
      row.dnsProvider := by
    cases htext : row.dnsProvider with
    | none => rfl
    | some text =>
        have hmem := hschema.dnsProvider
        rw [NetworkConfigRow.raw, htext] at hmem
        exact Option.filter_some_pos (decide_eq_true (hmem.resolve_left (by simp [ofStored])))
  have hsecret (o : Option JsString) (ho : o ≠ some []) :
      (if (!falsy o) = true then ofStored o else .absent) = ofStored o := by
    cases o with
    | none => rfl
    | some text =>
        refine if_pos ?_
        rw [falsy, Bool.not_eq_true', List.isEmpty_eq_false_iff]
        exact fun hnil => ho (by rw [hnil])
  simp only [withStoredSecrets, Option.getD_some, StoredNetworkConfig.body, view, hcontrol,
    hprovider, true_and, hsecret _ h.authKey, hsecret _ h.dnsToken]
  rfl

/-- An empty domain is as good as none. -/
lemma Kept.handedBack (h : Kept isUrl row) (now : ℕ) : Kept isUrl (row.handedBack now) := by
  obtain ⟨hshared, hschema⟩ := schema_accepts_iff.mp h.accepted
  obtain ⟨htyped, hnull⟩ := plain_members.mpr (raw_plain (row.handedBack now))
  have hdomain : (row.handedBack now).raw.certDomain.value = row.raw.certDomain.value := by
    rw [NetworkConfigRow.raw, NetworkConfigRow.handedBack, NetworkConfigRow.raw]
    cases row.certDomain with
    | none => rfl
    | some s => cases s <;> rfl
  refine ⟨schema_accepts_iff.mpr ⟨⟨htyped, hshared.mode, hshared.expose, hshared.certStrategy,
    hshared.custom, fun hs => ?_, fun hs => ?_⟩, ⟨hnull, hschema.expose, hschema.hostname,
    hschema.dnsProvider, hschema.controlUrl⟩⟩, fun s hs => h.wellFormed s ?_, h.authKey,
    h.dnsToken⟩
  · rw [hdomain]
    exact hshared.dns01 hs
  · rw [hdomain]
    exact hshared.externalProxy hs
  · have hsub : (blank row.certDomain).toList ⊆ row.certDomain.toList := by
      intro t ht
      exact Option.mem_toList.mpr (Option.filter_eq_some_iff.mp (Option.mem_toList.mp ht)).1
    simp only [NetworkConfigRow.texts, NetworkConfigRow.handedBack, List.mem_append] at hs ⊢
    tauto

/-- A secret on file is written again as it is. -/
lemma blank_ofStored {o : Option JsString} (ho : ∀ s ∈ o.toList, toWellFormed s = s)
    (hne : o ≠ some []) : (blank (ofStored o).text?).map toWellFormed = o := by
  cases o with
  | none => rfl
  | some s =>
      have hs : (!s.isEmpty) = true := by
        rw [Bool.not_eq_true', List.isEmpty_eq_false_iff]
        exact fun hnil => hne (by rw [hnil])
      have hblank : blank (some s) = some s := Option.filter_some_pos hs
      rw [ofStored, Member.text?, hblank]
      exact congrArg some (ho s (by simp))

/-- What is read back as it was written is written again as it is. -/
lemma Kept.rowOf_raw (h : Kept isUrl row) : rowOf row.raw.parsed row.updatedAt = row := by
  have hoption (o : Option JsString) (ho : ∀ s ∈ o.toList, toWellFormed s = s) :
      ((ofStored o).text?.map toWellFormed) = o := by
    cases o with
    | none => rfl
    | some s => exact congrArg some (ho s (by simp))
  have hall := h.wellFormed
  simp only [NetworkConfigRow.texts, List.forall_mem_append, List.forall_mem_cons] at hall
  obtain ⟨⟨⟨⟨⟨⟨hmode, hexpose, hcert, hhost, -⟩, hcontrol⟩, hkey⟩, hdomain⟩, hdns⟩, htoken⟩ := hall
  cases row
  simp only [rowOf, NetworkConfigRow.raw, RawConfig.parsed, Member.value, Member.valueOr] at *
  rw [hoption _ hcontrol, hoption _ hdomain, hoption _ hdns, blank_ofStored hkey h.authKey,
    blank_ofStored htoken h.dnsToken, hmode, hexpose, hcert, hhost]

end Rows

/-! ### Runs -/

section Runs

variable {isUrl : JsString → Bool} {s : NetworkStore} {row : NetworkConfigRow}

lemma serve_cons_fst (isUrl : JsString → Bool) (s : NetworkStore) (r : NetworkRequest)
    (rs : List NetworkRequest) :
    (serve isUrl s (r :: rs)).1 = (serve isUrl (handle isUrl s r).1 rs).1 := rfl

lemma serve_cons_snd (isUrl : JsString → Bool) (s : NetworkStore) (r : NetworkRequest)
    (rs : List NetworkRequest) : (serve isUrl s (r :: rs)).2 =
      (handle isUrl s r).2 :: (serve isUrl (handle isUrl s r).1 rs).2 := rfl

/-- A request is refused and leaves the store, is answered from it, or writes the row anew. -/
lemma handle_cases (hrow : s.row = some row) (r : NetworkRequest) :
    (handle isUrl s r = (s, .config (view row)) ∧ r = .get) ∨
      ∃ body now, r = .post body now ∧
        (networkConfigSchema isUrl (withStoredSecrets body row) ≠ [] ∧
            handle isUrl s r =
              (s, .invalid (networkConfigSchema isUrl (withStoredSecrets body row))) ∨
          networkConfigSchema isUrl (withStoredSecrets body row) = [] ∧
            (handle isUrl s r).1.row = some (rowOf (withStoredSecrets body row).parsed now) ∧
            (handle isUrl s r).2 =
              .config (view (rowOf (withStoredSecrets body row).parsed now))) := by
  cases r with
  | get => exact .inl ⟨by simp only [handle, hrow], rfl⟩
  | post body now =>
      refine .inr ⟨body, now, rfl, ?_⟩
      by_cases haccepted : networkConfigSchema isUrl (withStoredSecrets body row) = []
      · refine .inr ⟨haccepted, ?_, ?_⟩ <;> simp only [handle, hrow, if_pos haccepted]
      · exact .inl ⟨haccepted, by simp only [handle, hrow, if_neg haccepted]⟩

/-- The bodies of the requests that were accepted. -/
def acceptedBodies : List NetworkRequest → List NetworkReply → List RawConfig
  | .post body _ :: rs, .config _ :: replies => body.getD noMembers :: acceptedBodies rs replies
  | _ :: rs, _ :: replies => acceptedBodies rs replies
  | _, _ => []

/-- What the requests leave of a secret: the last one that was sent, if it was not empty. -/
def lastSecret (field : RawConfig → Member) (stored : Option JsString) (bodies : List RawConfig) :
    Option JsString :=
  bodies.foldl (fun stored raw => if field raw = .absent then stored
    else (blank (field raw).text?).map toWellFormed) stored

/-- A member that is left out stands for what is on file. -/
lemma blank_merged {o : Option JsString} (ho : ∀ s ∈ o.toList, toWellFormed s = s)
    (hne : o ≠ some []) (m : Member) :
    (blank (if m = .absent ∧ !falsy o then ofStored o else m).text?).map toWellFormed =
      if m = .absent then o else (blank m.text?).map toWellFormed := by
  by_cases hm : m = .absent
  · subst hm
    cases o with
    | none => rfl
    | some s =>
        have hs : (!falsy (some s)) = true := by
          rw [falsy, Bool.not_eq_true', List.isEmpty_eq_false_iff]
          exact fun hnil => hne (by rw [hnil])
        rw [if_pos ⟨rfl, hs⟩, if_pos rfl]
        exact blank_ofStored ho hne
  · rw [if_neg fun h => hm h.1, if_neg hm]

lemma Kept.merged (h : Kept isUrl row) (body : Option RawConfig) (now : ℕ) :
    (rowOf (withStoredSecrets body row).parsed now).authKeyEnc =
        (if (body.getD noMembers).authKey = .absent then row.authKeyEnc
          else (blank (body.getD noMembers).authKey.text?).map toWellFormed) ∧
      (rowOf (withStoredSecrets body row).parsed now).dnsTokenEnc =
        (if (body.getD noMembers).dnsApiToken = .absent then row.dnsTokenEnc
          else (blank (body.getD noMembers).dnsApiToken.text?).map toWellFormed) := by
  have hall := h.wellFormed
  simp only [NetworkConfigRow.texts, List.forall_mem_append] at hall
  obtain ⟨⟨⟨⟨-, hkey⟩, -⟩, -⟩, htoken⟩ := hall
  exact ⟨blank_merged hkey h.authKey _, blank_merged htoken h.dnsToken _⟩

/-- The row after any requests, and the secrets that these leave. -/
lemma kept_serve (hurl : ReadsText isUrl) (rs : List NetworkRequest) (hrow : s.row = some row)
    (h : Kept isUrl row) : ∃ row', (serve isUrl s rs).1.row = some row' ∧ Kept isUrl row' ∧
      row'.authKeyEnc = lastSecret RawConfig.authKey row.authKeyEnc
        (acceptedBodies rs (serve isUrl s rs).2) ∧
      row'.dnsTokenEnc = lastSecret RawConfig.dnsApiToken row.dnsTokenEnc
        (acceptedBodies rs (serve isUrl s rs).2) := by
  induction rs generalizing s row with
  | nil => exact ⟨row, hrow, h, rfl, rfl⟩
  | cons r rs ih =>
      rcases handle_cases hrow r with ⟨hget, rfl⟩ |
        ⟨body, now, rfl, ⟨-, hrefused⟩ | ⟨haccepted, hrow', hreply⟩⟩
      · obtain ⟨row', hserve⟩ := ih hrow h
        refine ⟨row', ?_⟩
        rw [serve_cons_fst, serve_cons_snd, hget]
        exact hserve
      · obtain ⟨row', hserve⟩ := ih hrow h
        refine ⟨row', ?_⟩
        rw [serve_cons_fst, serve_cons_snd, hrefused]
        exact hserve
      · obtain ⟨row', hserve, hkept, hkey, htoken⟩ := ih hrow' (kept_rowOf hurl haccepted)
        refine ⟨row', ?_, hkept, ?_, ?_⟩
        · rw [serve_cons_fst]
          exact hserve
        · rw [hkey, (h.merged body now).1, serve_cons_snd, hreply]
          rfl
        · rw [htoken, (h.merged body now).2, serve_cons_snd, hreply]
          rfl

/-- **The network configuration.** Whatever the panel sends, in any order: the row passes its own
schema; its view can be handed back, which is answered with that view and keeps both secrets; and a
secret on file is the last one that an accepted request has sent, or none where that was empty. -/
theorem network_config_kept (hurl : ReadsText isUrl) (now : ℕ) (rs : List NetworkRequest) :
    ∃ row, (serve isUrl (.seeded now) rs).1.row = some row ∧
      networkConfigSchema isUrl row.raw = [] ∧
      row.authKeyEnc = lastSecret RawConfig.authKey none
        (acceptedBodies rs (serve isUrl (.seeded now) rs).2) ∧
      row.dnsTokenEnc = lastSecret RawConfig.dnsApiToken none
        (acceptedBodies rs (serve isUrl (.seeded now) rs).2) ∧
      ∀ later, ∃ row', (handle isUrl (serve isUrl (.seeded now) rs).1
          (.post (some (view row).body) later)).1.row = some row' ∧
        (handle isUrl (serve isUrl (.seeded now) rs).1
          (.post (some (view row).body) later)).2 = .config (view row) ∧
        row'.authKeyEnc = row.authKeyEnc ∧ row'.dnsTokenEnc = row.dnsTokenEnc := by
  obtain ⟨row, hrow, hkept, hkey, htoken⟩ := kept_serve hurl rs
    (s := .seeded now) rfl (kept_seededRow isUrl now)
  refine ⟨row, hrow, hkept.accepted, hkey, htoken, fun later => ?_⟩
  have hmerged := withStoredSecrets_view hurl hkept later
  have hback : rowOf (row.handedBack later).raw.parsed later = row.handedBack later :=
    (hkept.handedBack later).rowOf_raw
  rcases handle_cases hrow (.post (some (view row).body) later) with ⟨-, hget⟩ |
    ⟨body, now', hpost, ⟨hrefused, -⟩ | ⟨-, hrow', hreply⟩⟩
  · cases hget
  · cases hpost
    rw [hmerged] at hrefused
    exact absurd (hkept.handedBack later).accepted hrefused
  · cases hpost
    rw [hmerged, hback] at hrow' hreply
    rw [view_handedBack] at hreply
    exact ⟨_, hrow', hreply, rfl, rfl⟩

/-- The URLs that begin so. -/
def isHttpsUrl (s : JsString) : Bool := (js "https://").isPrefixOf (toWellFormed s)

/-- A configuration of a panel, with a token if one was typed. -/
def panelConfig (token : Member) : RawConfig :=
  { noMembers with
    mode := .text modeCustom
    controlUrl := .text (js "https://hs.example")
    certStrategy := .text certDNS01
    certDomain := .text (js "example")
    dnsProvider := .text (js "cloudflare")
    dnsApiToken := token }

/-- A token is missing, is sent, is not sent again, and must not be cleared while it is needed. -/
def panelRequests : List NetworkRequest :=
  [.post (some (panelConfig .absent)) 1, .post (some (panelConfig (.text (js "t0ken")))) 2,
    .post (some (panelConfig .absent)) 3, .post (some (panelConfig (.text []))) 4, .get]

theorem network_config_kept_panel : ∃ row,
    (serve isHttpsUrl (.seeded 0) panelRequests).1.row = some row ∧
    networkConfigSchema isHttpsUrl row.raw = [] ∧ row.dnsTokenEnc = some (js "t0ken") := by
  have hurl : ReadsText isHttpsUrl :=
    ⟨fun s => by rw [isHttpsUrl, isHttpsUrl, toWellFormed_idem], by decide⟩
  obtain ⟨row, hrow, haccepted, -, htoken, -⟩ := network_config_kept hurl 0 panelRequests
  exact ⟨row, hrow, haccepted, htoken.trans (by decide +kernel)⟩

end Runs

/-! ### Secrets -/

/-- What every secret is masked with. -/
def secretMask : JsString := js "secret"

/-- The member, with another secret in place of one that is not empty. -/
def maskMember : Member → Member
  | .text s => .text (if s.isEmpty then [] else secretMask)
  | m => m

def maskStored (o : Option JsString) : Option JsString :=
  o.map fun s => if s.isEmpty then [] else secretMask

def maskRaw (raw : RawConfig) : RawConfig :=
  { raw with authKey := maskMember raw.authKey, dnsApiToken := maskMember raw.dnsApiToken }

def NetworkConfigRow.masked (row : NetworkConfigRow) : NetworkConfigRow :=
  { row with authKeyEnc := maskStored row.authKeyEnc, dnsTokenEnc := maskStored row.dnsTokenEnc }

def NetworkStore.masked (s : NetworkStore) : NetworkStore :=
  { s with row := s.row.map NetworkConfigRow.masked }

def NetworkRequest.masked : NetworkRequest → NetworkRequest
  | .get => .get
  | .post body now => .post (body.map maskRaw) now

section Secrets

variable (isUrl : JsString → Bool)

lemma falsy_maskStored (o : Option JsString) : falsy (maskStored o) = falsy o := by
  rcases o with _ | _ | ⟨c, s⟩ <;> rfl

lemma falsy_maskMember (m : Member) : falsy (maskMember m).text? = falsy m.text? := by
  rcases m with _ | _ | (_ | ⟨c, s⟩) | _ <;> rfl

lemma view_masked (row : NetworkConfigRow) : view row.masked = view row := by
  simp only [view, NetworkConfigRow.masked, falsy_maskStored]

lemma issues_maskMember (path : JsString) (m : Member) :
    (zOptional (zString path fun _ => true) (maskMember m)).issues =
      (zOptional (zString path fun _ => true) m).issues := by
  cases m <;> rfl

lemma value_maskMember (path : JsString) (m : Member) :
    (zOptional (zString path fun _ => true) (maskMember m)).value =
      (zOptional (zString path fun _ => true) m).value.map maskStored := by
  cases m <;> rfl

/-- `superRefine` asks of the secrets only whether they are there. -/
lemma superRefine_maskStored (cfg : ParsedConfig) :
    superRefine { cfg with
      authKey := maskStored cfg.authKey, dnsApiToken := maskStored cfg.dnsApiToken } =
      superRefine cfg := by
  simp only [superRefine, falsy_maskStored]

lemma schema_maskRaw (raw : RawConfig) :
    networkConfigSchema isUrl (maskRaw raw) = networkConfigSchema isUrl raw := by
  simp only [networkConfigSchema, maskRaw, issues_maskMember, value_maskMember]
  congr 1
  -- every value there is, or there is nothing to refine
  cases (zEnum (js "mode") modes raw.mode).value with
  | none => rfl
  | some mode =>
  cases (zOptional (zString (js "controlUrl") isUrl) raw.controlUrl).value with
  | none => rfl
  | some controlUrl =>
  cases (zOptional (zString (js "authKey") fun _ => true) raw.authKey).value with
  | none => rfl
  | some authKey =>
  cases (zDefault exposeTailnet (zEnum (js "expose") exposes) raw.expose).value with
  | none => rfl
  | some expose =>
  cases (zEnum (js "certStrategy") certStrategies raw.certStrategy).value with
  | none => rfl
  | some certStrategy =>
  cases (zOptional (zString (js "certDomain") fun _ => true) raw.certDomain).value with
  | none => rfl
  | some certDomain =>
  cases (zOptional (zEnum (js "dnsProvider") dnsProviders) raw.dnsProvider).value with
  | none => rfl
  | some dnsProvider =>
  cases (zOptional (zString (js "dnsApiToken") fun _ => true) raw.dnsApiToken).value with
  | none => rfl
  | some dnsApiToken =>
  cases (zDefault defaultHostname (zString (js "hostname") fun s => !s.isEmpty)
    raw.hostname).value with
  | none => rfl
  | some hostname =>
      exact superRefine_maskStored ⟨mode, controlUrl, authKey, expose, certStrategy, certDomain,
        dnsProvider, dnsApiToken, hostname⟩

lemma merged_masked (o : Option JsString) (m : Member) :
    (if maskMember m = .absent ∧ !falsy (maskStored o) then ofStored (maskStored o)
      else maskMember m) = maskMember (if m = .absent ∧ !falsy o then ofStored o else m) := by
  have habsent : maskMember m = .absent ↔ m = .absent := by cases m <;> simp [maskMember]
  simp only [falsy_maskStored, habsent]
  split_ifs
  · cases o <;> rfl
  · rfl

lemma withStoredSecrets_masked (body : Option RawConfig) (row : NetworkConfigRow) :
    withStoredSecrets (body.map maskRaw) row.masked = maskRaw (withStoredSecrets body row) := by
  have hnone : (body.map maskRaw).getD noMembers = maskRaw (body.getD noMembers) := by
    cases body <;> rfl
  rw [withStoredSecrets, hnone]
  exact congrArg₂ (fun key token =>
    { body.getD noMembers with authKey := key, dnsApiToken := token })
    (merged_masked row.authKeyEnc _) (merged_masked row.dnsTokenEnc _)

lemma blank_maskMember (m : Member) : (blank (maskMember m).text?).map toWellFormed =
    maskStored ((blank m.text?).map toWellFormed) := by
  rcases m with _ | _ | (_ | ⟨c, s⟩) | _
  · rfl
  · rfl
  · rfl
  · have hne : (toWellFormed (c :: s)).isEmpty = false :=
      List.isEmpty_eq_false_iff.mpr fun hnil => by cases toWellFormed_eq_nil.mp hnil
    have hmask : toWellFormed secretMask = secretMask :=
      WellFormed.eq_flatMap (wellFormed_js "secret")
    calc (blank (maskMember (.text (c :: s))).text?).map toWellFormed
        = some (toWellFormed secretMask) := rfl
      _ = some (if (toWellFormed (c :: s)).isEmpty then [] else secretMask) := by
        rw [hmask, hne, if_neg Bool.false_ne_true]
  · rfl

lemma rowOf_masked (raw : RawConfig) (now : ℕ) :
    rowOf (maskRaw raw).parsed now = (rowOf raw.parsed now).masked := by
  simp only [rowOf, RawConfig.parsed, maskRaw, NetworkConfigRow.masked, blank_maskMember]

/-- A request with its secrets masked does the same to the masked store. -/
lemma handle_masked (s : NetworkStore) (r : NetworkRequest) :
    handle isUrl s.masked r.masked = ((handle isUrl s r).1.masked, (handle isUrl s r).2) := by
  obtain ⟨row, activity⟩ := s
  cases row with
  | none => cases r <;> rfl
  | some row =>
      cases r with
      | get => exact congrArg (fun c => (_, NetworkReply.config c)) (view_masked row)
      | post body now =>
          have hraw := withStoredSecrets_masked body row
          simp only [handle, NetworkStore.masked, NetworkRequest.masked, Option.map_some, hraw,
            schema_maskRaw, rowOf_masked, view_masked]
          split_ifs <;> rfl

lemma serve_masked (s : NetworkStore) (rs : List NetworkRequest) :
    serve isUrl s.masked (rs.map NetworkRequest.masked) =
      ((serve isUrl s rs).1.masked, (serve isUrl s rs).2) := by
  induction rs generalizing s with
  | nil => rfl
  | cons r rs ih =>
      have hnext := ih (handle isUrl s r).1
      refine Prod.ext ?_ ?_
      · rw [List.map_cons, serve_cons_fst, handle_masked, hnext, serve_cons_fst]
      · rw [List.map_cons, serve_cons_snd, handle_masked, hnext, serve_cons_snd]

/-- **Secrets.** Whatever is sent, in any order: the answers and the activities are those that the
same requests have with every secret in them masked. -/
theorem secrets_masked (now : ℕ) (rs : List NetworkRequest) :
    (serve isUrl (.seeded now) (rs.map NetworkRequest.masked)).2 =
        (serve isUrl (.seeded now) rs).2 ∧
      (serve isUrl (.seeded now) (rs.map NetworkRequest.masked)).1.activity =
        (serve isUrl (.seeded now) rs).1.activity := by
  have hserve := serve_masked isUrl (.seeded now) rs
  have hseeded : (NetworkStore.seeded now).masked = .seeded now := rfl
  rw [hseeded] at hserve
  rw [hserve]
  exact ⟨rfl, rfl⟩

end Secrets

end LocalCast.Http
