import LocalCast.Edge.Config
import LocalCast.Foundations.Utf8

/-!
The two validators of a network configuration: `networkConfigSchema` of the contract, and
`Validate` of the sidecar on the JSON it is sent.

* `Member`, `RawConfig`: an object with the members of a configuration, each with any value.
* `networkConfigSchema`: the issues the schema reports.
* `RawConfig.decode`, `edgeAccepts`: the configuration the sidecar reads, with its defaults,
  and whether it passes.
* `Shared`, `SchemaOnly`, `EdgeOnly`: the rules both have, and those that only one of them has;
  `schema_accepts_iff`, `edge_accepts_iff`.
* `validators_agree_iff`: where they agree.
* `validators_differ`: a configuration that only the sidecar accepts, and one that only the
  schema does.

Members that are no part of a configuration are left out.
-/

namespace LocalCast.Edge

open JsString

/-! ### Objects -/

/-- The value of a member: it is missing, `null`, a text, or of another type. -/
inductive Member where
  | absent
  | null
  | text (s : JsString)
  | other
deriving DecidableEq

/-- The text of a member. -/
def Member.value : Member → JsString
  | .text s => s
  | _ => []

/-- `undefined`, or the text. -/
def Member.text? : Member → Option JsString
  | .text s => some s
  | _ => none

/-- An object with the members of a network configuration. -/
structure RawConfig where
  mode : Member
  controlUrl : Member
  authKey : Member
  expose : Member
  certStrategy : Member
  certDomain : Member
  dnsProvider : Member
  dnsApiToken : Member
  hostname : Member

def RawConfig.members (raw : RawConfig) : List Member :=
  [raw.mode, raw.controlUrl, raw.authKey, raw.expose, raw.certStrategy, raw.certDomain,
    raw.dnsProvider, raw.dnsApiToken, raw.hostname]

/-! ### The schema -/

/-- An issue; the text is the library's own where there is none. -/
structure Issue where
  path : JsString
  message : Option JsString
deriving DecidableEq

/-- What a check reads, and what it has to say. Without a value the object is not refined. -/
structure Checked (α : Type) where
  value : Option α
  issues : List Issue

/-- `z.enum(values)`. -/
def zEnum (path : JsString) (values : List JsString) : Member → Checked JsString
  | .text s => if s ∈ values then ⟨some s, []⟩ else ⟨none, [⟨path, none⟩]⟩
  | _ => ⟨none, [⟨path, none⟩]⟩

/-- `z.string()`, with one more check. -/
def zString (path : JsString) (check : JsString → Bool) : Member → Checked JsString
  | .text s => ⟨some s, if check s then [] else [⟨path, none⟩]⟩
  | _ => ⟨none, [⟨path, none⟩]⟩

/-- `.optional()`. -/
def zOptional (check : Member → Checked JsString) : Member → Checked (Option JsString)
  | .absent => ⟨some none, []⟩
  | m => ⟨(check m).value.map some, (check m).issues⟩

/-- `.default(value)`. -/
def zDefault (value : JsString) (check : Member → Checked JsString) : Member → Checked JsString
  | .absent => check (.text value)
  | m => check m

def modes : List JsString := [modeDefault, modeCustom]

def exposes : List JsString := [exposeTailnet, exposeFunnel]

def certStrategies : List JsString := [certControlPlane, certExternalProxy, certDNS01]

def dnsProviders : List JsString :=
  [js "cloudflare", js "digitalocean", js "route53", js "gandi"]

/-- What `superRefine` is called with. -/
structure ParsedConfig where
  mode : JsString
  controlUrl : Option JsString
  authKey : Option JsString
  expose : JsString
  certStrategy : JsString
  certDomain : Option JsString
  dnsProvider : Option JsString
  dnsApiToken : Option JsString
  hostname : JsString

/-- `!value`. -/
def falsy : Option JsString → Bool
  | none => true
  | some s => s.isEmpty

def addIssue (wrong : Bool) (path message : JsString) : List Issue :=
  if wrong then [⟨path, some message⟩] else []

def superRefine (cfg : ParsedConfig) : List Issue :=
  addIssue (cfg.mode = modeCustom && falsy cfg.controlUrl) (js "controlUrl")
    (js "controlUrl is required in custom mode") ++
  addIssue (cfg.mode = modeCustom && cfg.certStrategy = certControlPlane) (js "certStrategy")
    (js ("Headscale cannot issue certificates through the control plane; " ++
      "choose external-proxy or dns01")) ++
  addIssue (cfg.mode = modeCustom && cfg.expose = exposeFunnel) (js "expose")
    (js ("Funnel is a Tailscale service and is not available on a self-hosted " ++
      "control server")) ++
  addIssue (cfg.certStrategy = certDNS01 &&
      (falsy cfg.certDomain || falsy cfg.dnsProvider || falsy cfg.dnsApiToken)) (js "certDomain")
    (js "dns01 needs a domain, a provider and an API token") ++
  addIssue (cfg.certStrategy = certExternalProxy && falsy cfg.certDomain) (js "certDomain")
    (js "external-proxy needs the public domain")

/-- The issues of the members, and of the object where every member has a value. -/
def networkConfigSchema (isUrl : JsString → Bool) (raw : RawConfig) : List Issue :=
  let mode := zEnum (js "mode") modes raw.mode
  let controlUrl := zOptional (zString (js "controlUrl") isUrl) raw.controlUrl
  let authKey := zOptional (zString (js "authKey") fun _ => true) raw.authKey
  let expose := zDefault exposeTailnet (zEnum (js "expose") exposes) raw.expose
  let certStrategy := zEnum (js "certStrategy") certStrategies raw.certStrategy
  let certDomain := zOptional (zString (js "certDomain") fun _ => true) raw.certDomain
  let dnsProvider := zOptional (zEnum (js "dnsProvider") dnsProviders) raw.dnsProvider
  let dnsApiToken := zOptional (zString (js "dnsApiToken") fun _ => true) raw.dnsApiToken
  let hostname := zDefault defaultHostname (zString (js "hostname") fun s => !s.isEmpty)
    raw.hostname
  let parsed : Option ParsedConfig := do
    return ⟨← mode.value, ← controlUrl.value, ← authKey.value, ← expose.value,
      ← certStrategy.value, ← certDomain.value, ← dnsProvider.value, ← dnsApiToken.value,
      ← hostname.value⟩
  (mode.issues ++ controlUrl.issues ++ authKey.issues ++ expose.issues ++ certStrategy.issues ++
    certDomain.issues ++ dnsProvider.issues ++ dnsApiToken.issues ++ hostname.issues) ++
  match parsed with
  | some cfg => superRefine cfg
  | none => []

/-! ### The sidecar -/

/-- A member as it is sent: Go reads a surrogate without its pair as `U+FFFD`. -/
def entry (key : JsString) : Member → List (JsString × JsString)
  | .text s => [(key, toWellFormed s)]
  | _ => []

/-- The texts of the object, as they are sent; `null` leaves a field as it is. -/
def RawConfig.object (raw : RawConfig) : List (JsString × JsString) :=
  entry (js "mode") raw.mode ++ entry (js "controlUrl") raw.controlUrl ++
    entry (js "authKey") raw.authKey ++ entry (js "expose") raw.expose ++
    entry (js "certStrategy") raw.certStrategy ++ entry (js "certDomain") raw.certDomain ++
    entry (js "dnsProvider") raw.dnsProvider ++ entry (js "dnsApiToken") raw.dnsApiToken ++
    entry (js "hostname") raw.hostname

/-- The configuration that is read; a value that is no text is an error. -/
def RawConfig.decode (raw : RawConfig) : Option NetworkConfig :=
  if Member.other ∈ raw.members then none else some (unmarshal raw.object)

/-- `Validate` has nothing to say about what is read, with its defaults. -/
def edgeAccepts (go : GoLibrary) (raw : RawConfig) : Bool :=
  match raw.decode with
  | some c => (validate go c.applyDefaults).isEmpty
  | none => false

/-! ### The rules -/

/-- What both validators ask for. -/
structure Shared (raw : RawConfig) : Prop where
  typed : Member.other ∉ raw.members
  mode : raw.mode.value ∈ modes
  expose : raw.expose.value = [] ∨ raw.expose.value ∈ exposes
  certStrategy : raw.certStrategy.value ∈ certStrategies
  custom : raw.mode.value = modeCustom → raw.controlUrl.value ≠ [] ∧
    raw.certStrategy.value ≠ certControlPlane ∧ raw.expose.value ≠ exposeFunnel
  dns01 : raw.certStrategy.value = certDNS01 → raw.certDomain.value ≠ [] ∧
    raw.dnsProvider.value ∈ dnsProviders ∧ raw.dnsApiToken.value ≠ []
  externalProxy : raw.certStrategy.value = certExternalProxy → raw.certDomain.value ≠ []

/-- What only the schema asks for: no `null`, no empty text in place of a default, a provider
that it knows whatever the strategy, and a URL whatever the mode. -/
structure SchemaOnly (isUrl : JsString → Bool) (raw : RawConfig) : Prop where
  notNull : Member.null ∉ raw.members
  expose : raw.expose ≠ .text []
  hostname : raw.hostname ≠ .text []
  dnsProvider : raw.dnsProvider = .absent ∨ raw.dnsProvider.value ∈ dnsProviders
  controlUrl : raw.controlUrl = .absent ∨ isUrl raw.controlUrl.value = true

/-- What only the sidecar asks for: in custom mode, an absolute http(s) URL. -/
def EdgeOnly (go : GoLibrary) (raw : RawConfig) : Prop :=
  raw.mode.value = modeCustom → controlURLUsable go (toWellFormed raw.controlUrl.value) = true

/-- Neither secret is the placeholder. -/
def NoPlaceholder (raw : RawConfig) : Prop :=
  raw.authKey.value ≠ redactedPlaceholder ∧ raw.dnsApiToken.value ≠ redactedPlaceholder

/-! ### What the schema accepts -/

variable {isUrl : JsString → Bool} {go : GoLibrary} {raw : RawConfig} {m : Member}
  {path : JsString} {values : List JsString} {check : Member → Checked JsString}

/-- The value of a member with a default. -/
def Member.valueOr (value : JsString) : Member → JsString
  | .absent => value
  | m => m.value

/-- A check that has nothing to say has read a text. -/
def Reads (check : Member → Checked JsString) : Prop :=
  ∀ m, (check m).issues = [] → m = .text m.value ∧ (check m).value = some m.value

lemma reads_zEnum (path : JsString) (values : List JsString) : Reads (zEnum path values) := by
  intro m h
  cases m with
  | text s =>
      rw [zEnum] at h ⊢
      split_ifs at h ⊢ with hs
      exact ⟨rfl, rfl⟩
  | _ => cases h

lemma reads_zString (path : JsString) (ok : JsString → Bool) : Reads (zString path ok) := by
  intro m h
  cases m with
  | text s => exact ⟨rfl, rfl⟩
  | _ => cases h

lemma zEnum_issues (hvalues : [] ∉ values) :
    (zEnum path values m).issues = [] ↔ m.value ∈ values := by
  cases m with
  | text s =>
      rw [zEnum]
      split_ifs with hs
      · simpa [Member.value] using hs
      · simpa [Member.value] using hs
  | _ => simpa [zEnum, Member.value] using hvalues

lemma zString_issues {ok : JsString → Bool} :
    (zString path ok m).issues = [] ↔ m = .text m.value ∧ ok m.value = true := by
  cases m with
  | text s => simp [zString, Member.value]
  | _ => simp [zString]

lemma zOptional_issues :
    (zOptional check m).issues = [] ↔ m = .absent ∨ (check m).issues = [] ∧ m ≠ .absent := by
  cases m <;> simp [zOptional]

lemma zOptional_value (hcheck : Reads check) (h : (zOptional check m).issues = []) :
    (zOptional check m).value = some m.text? := by
  rcases zOptional_issues.mp h with rfl | ⟨hissues, hm⟩
  · rfl
  · obtain ⟨htext, hvalue⟩ := hcheck m hissues
    rw [htext] at hvalue ⊢
    simp only [zOptional, hvalue]
    rfl

lemma zDefault_issues {value : JsString} (hvalue : (check (.text value)).issues = []) :
    (zDefault value check m).issues = [] ↔ m = .absent ∨ (check m).issues = [] ∧ m ≠ .absent := by
  cases m <;> simp [zDefault, hvalue]

lemma zDefault_value {value : JsString} (hcheck : Reads check)
    (h : (zDefault value check m).issues = []) :
    (zDefault value check m).value = some (m.valueOr value) := by
  cases m with
  | absent => exact (hcheck _ h).2
  | _ => exact (hcheck _ h).2

/-- What `superRefine` is called with, where no member has an issue. -/
def RawConfig.parsed (raw : RawConfig) : ParsedConfig where
  mode := raw.mode.value
  controlUrl := raw.controlUrl.text?
  authKey := raw.authKey.text?
  expose := raw.expose.valueOr exposeTailnet
  certStrategy := raw.certStrategy.value
  certDomain := raw.certDomain.text?
  dnsProvider := raw.dnsProvider.text?
  dnsApiToken := raw.dnsApiToken.text?
  hostname := raw.hostname.valueOr defaultHostname

lemma falsy_text (m : Member) : falsy m.text? = true ↔ m.value = [] := by
  cases m with
  | text s => exact List.isEmpty_iff
  | _ => simp [Member.text?, Member.value, falsy]

lemma addIssue_eq_nil {wrong : Bool} {path message : JsString} :
    addIssue wrong path message = [] ↔ wrong = false := by
  cases wrong <;> simp [addIssue]

/-- No issue with any member. -/
structure MembersPass (isUrl : JsString → Bool) (raw : RawConfig) : Prop where
  mode : raw.mode.value ∈ modes
  controlUrl : raw.controlUrl = .absent ∨
    raw.controlUrl = .text raw.controlUrl.value ∧ isUrl raw.controlUrl.value = true
  authKey : raw.authKey = .absent ∨ raw.authKey = .text raw.authKey.value
  expose : raw.expose = .absent ∨ raw.expose.value ∈ exposes
  certStrategy : raw.certStrategy.value ∈ certStrategies
  certDomain : raw.certDomain = .absent ∨ raw.certDomain = .text raw.certDomain.value
  dnsProvider : raw.dnsProvider = .absent ∨ raw.dnsProvider.value ∈ dnsProviders
  dnsApiToken : raw.dnsApiToken = .absent ∨ raw.dnsApiToken = .text raw.dnsApiToken.value
  hostname : raw.hostname = .absent ∨
    raw.hostname = .text raw.hostname.value ∧ raw.hostname.value ≠ []

/-- A member that may be missing. -/
lemma zOptional_string_issues {ok : JsString → Bool} :
    (zOptional (zString path ok) m).issues = [] ↔
      m = .absent ∨ m = .text m.value ∧ ok m.value = true := by
  rw [zOptional_issues, zString_issues]
  cases m <;> simp

lemma zOptional_enum_issues (hvalues : [] ∉ values) :
    (zOptional (zEnum path values) m).issues = [] ↔ m = .absent ∨ m.value ∈ values := by
  rw [zOptional_issues, zEnum_issues hvalues]
  cases m <;> simp

lemma membersPass_iff : MembersPass isUrl raw ↔
    (zEnum (js "mode") modes raw.mode).issues = [] ∧
    (zOptional (zString (js "controlUrl") isUrl) raw.controlUrl).issues = [] ∧
    (zOptional (zString (js "authKey") fun _ => true) raw.authKey).issues = [] ∧
    (zDefault exposeTailnet (zEnum (js "expose") exposes) raw.expose).issues = [] ∧
    (zEnum (js "certStrategy") certStrategies raw.certStrategy).issues = [] ∧
    (zOptional (zString (js "certDomain") fun _ => true) raw.certDomain).issues = [] ∧
    (zOptional (zEnum (js "dnsProvider") dnsProviders) raw.dnsProvider).issues = [] ∧
    (zOptional (zString (js "dnsApiToken") fun _ => true) raw.dnsApiToken).issues = [] ∧
    (zDefault defaultHostname (zString (js "hostname") fun s => !s.isEmpty)
      raw.hostname).issues = [] := by
  rw [zEnum_issues (by decide), zOptional_string_issues, zOptional_string_issues,
    zDefault_issues (by decide), zEnum_issues (by decide), zEnum_issues (by decide),
    zOptional_string_issues, zOptional_enum_issues (by decide), zOptional_string_issues,
    zDefault_issues (by decide), zString_issues]
  have hexpose : (raw.expose = .absent ∨ raw.expose.value ∈ exposes ∧ raw.expose ≠ .absent) ↔
      (raw.expose = .absent ∨ raw.expose.value ∈ exposes) := by tauto
  have hhostname : (raw.hostname = .absent ∨ (raw.hostname = .text raw.hostname.value ∧
      (!raw.hostname.value.isEmpty) = true) ∧ raw.hostname ≠ .absent) ↔
      (raw.hostname = .absent ∨ raw.hostname = .text raw.hostname.value ∧
        raw.hostname.value ≠ []) := by
    simp only [Bool.not_eq_true', List.isEmpty_eq_false_iff]
    tauto
  rw [hexpose, hhostname]
  constructor
  · intro h
    exact ⟨h.mode, h.controlUrl, by simpa using h.authKey, h.expose, h.certStrategy,
      by simpa using h.certDomain, h.dnsProvider, by simpa using h.dnsApiToken, h.hostname⟩
  · rintro ⟨h1, h2, h3, h4, h5, h6, h7, h8, h9⟩
    exact ⟨h1, h2, by simpa using h3, h4, h5, by simpa using h6, h7, by simpa using h8, h9⟩

/-- The schema accepts where no member has an issue and the object has none. -/
lemma schema_eq_nil_iff : networkConfigSchema isUrl raw = [] ↔
    MembersPass isUrl raw ∧ superRefine raw.parsed = [] := by
  rw [membersPass_iff]
  simp only [networkConfigSchema, List.append_eq_nil_iff]
  constructor
  · rintro ⟨⟨⟨⟨⟨⟨⟨⟨⟨h1, h2⟩, h3⟩, h4⟩, h5⟩, h6⟩, h7⟩, h8⟩, h9⟩, hrefine⟩
    refine ⟨⟨h1, h2, h3, h4, h5, h6, h7, h8, h9⟩, ?_⟩
    simp only [(reads_zEnum _ _ _ h1).2, zOptional_value (reads_zString _ _) h2,
      zOptional_value (reads_zString _ _) h3, zDefault_value (reads_zEnum _ _) h4,
      (reads_zEnum _ _ _ h5).2, zOptional_value (reads_zString _ _) h6,
      zOptional_value (reads_zEnum _ _) h7, zOptional_value (reads_zString _ _) h8,
      zDefault_value (reads_zString _ _) h9] at hrefine
    exact hrefine
  · rintro ⟨⟨h1, h2, h3, h4, h5, h6, h7, h8, h9⟩, hrefine⟩
    refine ⟨⟨⟨⟨⟨⟨⟨⟨⟨h1, h2⟩, h3⟩, h4⟩, h5⟩, h6⟩, h7⟩, h8⟩, h9⟩, ?_⟩
    simp only [(reads_zEnum _ _ _ h1).2, zOptional_value (reads_zString _ _) h2,
      zOptional_value (reads_zString _ _) h3, zDefault_value (reads_zEnum _ _) h4,
      (reads_zEnum _ _ _ h5).2, zOptional_value (reads_zString _ _) h6,
      zOptional_value (reads_zEnum _ _) h7, zOptional_value (reads_zString _ _) h8,
      zDefault_value (reads_zString _ _) h9]
    exact hrefine

/-- What `superRefine` asks for, of the object as it came. -/
lemma superRefine_eq_nil_iff : superRefine raw.parsed = [] ↔
    (raw.mode.value = modeCustom → raw.controlUrl.value ≠ [] ∧
      raw.certStrategy.value ≠ certControlPlane ∧ raw.expose.value ≠ exposeFunnel) ∧
    (raw.certStrategy.value = certDNS01 → raw.certDomain.value ≠ [] ∧
      raw.dnsProvider.value ≠ [] ∧ raw.dnsApiToken.value ≠ []) ∧
    (raw.certStrategy.value = certExternalProxy → raw.certDomain.value ≠ []) := by
  have hexpose (m : Member) : m.valueOr exposeTailnet = exposeFunnel ↔
      m.value = exposeFunnel := by
    cases m with
    | absent => decide
    | _ => rfl
  have hfalsy (m : Member) : falsy m.text? = false ↔ m.value ≠ [] := by
    rw [← Bool.not_eq_true, falsy_text]
  simp only [superRefine, List.append_eq_nil_iff, addIssue_eq_nil, Bool.and_eq_false_imp,
    decide_eq_true_eq, decide_eq_false_iff_not, Bool.or_eq_false_iff]
  simp only [RawConfig.parsed, hfalsy, hexpose]
  tauto

/-- The member is missing or a text. -/
def Member.IsPlain (m : Member) : Prop := m = .absent ∨ m = .text m.value

lemma Member.isPlain_iff {m : Member} : m.IsPlain ↔ m ≠ .other ∧ m ≠ .null := by
  cases m <;> simp [Member.IsPlain, Member.value]

lemma Member.isPlain_of_value {m : Member} (h : m.value ≠ []) : m.IsPlain := by
  cases m with
  | text s => exact .inr rfl
  | _ => exact absurd rfl h

lemma Member.isPlain_of_mem {m : Member} (hvalues : [] ∉ values) (h : m.value ∈ values) :
    m.IsPlain :=
  Member.isPlain_of_value fun hnil => hvalues (hnil ▸ h)

lemma plain_members : (Member.other ∉ raw.members ∧ Member.null ∉ raw.members) ↔
    ∀ m ∈ raw.members, m.IsPlain := by
  constructor
  · rintro ⟨hother, hnull⟩ m hm
    refine Member.isPlain_iff.mpr ⟨?_, ?_⟩
    · rintro rfl
      exact hother hm
    · rintro rfl
      exact hnull hm
  · intro h
    exact ⟨fun hm => (Member.isPlain_iff.mp (h _ hm)).1 rfl,
      fun hm => (Member.isPlain_iff.mp (h _ hm)).2 rfl⟩

lemma MembersPass.plain (h : MembersPass isUrl raw) : ∀ m ∈ raw.members, m.IsPlain := by
  simp only [RawConfig.members, List.forall_mem_cons, List.not_mem_nil, false_imp_iff,
    implies_true, and_true]
  exact ⟨Member.isPlain_of_mem (by decide) h.mode, h.controlUrl.imp id And.left, h.authKey,
    h.expose.elim .inl (Member.isPlain_of_mem (by decide)),
    Member.isPlain_of_mem (by decide) h.certStrategy, h.certDomain,
    h.dnsProvider.elim .inl (Member.isPlain_of_mem (by decide)), h.dnsApiToken,
    h.hostname.imp id And.left⟩

/-- **The schema** asks for the shared rules and for its own. -/
lemma schema_accepts_iff :
    networkConfigSchema isUrl raw = [] ↔ Shared raw ∧ SchemaOnly isUrl raw := by
  rw [schema_eq_nil_iff, superRefine_eq_nil_iff]
  constructor
  · rintro ⟨hpass, hcustom, hdns01, hproxy⟩
    obtain ⟨htyped, hnull⟩ := plain_members.mpr hpass.plain
    constructor
    · refine ⟨htyped, hpass.mode, ?_, hpass.certStrategy, hcustom, fun hs => ?_, hproxy⟩
      · rcases hpass.expose with habsent | hmem
        · exact .inl (by rw [habsent]; rfl)
        · exact .inr hmem
      · obtain ⟨hdomain, hprovider, htoken⟩ := hdns01 hs
        refine ⟨hdomain, hpass.dnsProvider.resolve_left fun habsent => ?_, htoken⟩
        rw [habsent] at hprovider
        exact hprovider rfl
    · refine ⟨hnull, fun hexpose => ?_, fun hhostname => ?_, hpass.dnsProvider, ?_⟩
      · rcases hpass.expose with habsent | hmem
        · cases habsent.symm.trans hexpose
        · rw [hexpose] at hmem
          exact absurd hmem (by decide)
      · rcases hpass.hostname with habsent | ⟨-, hne⟩
        · cases habsent.symm.trans hhostname
        · rw [hhostname] at hne
          exact hne rfl
      · exact hpass.controlUrl.imp id And.right
  · rintro ⟨hshared, hschema⟩
    have hplain := plain_members.mp ⟨hshared.typed, hschema.notNull⟩
    simp only [RawConfig.members, List.forall_mem_cons, List.not_mem_nil, false_imp_iff,
      implies_true, and_true] at hplain
    obtain ⟨-, hurl, hkey, hexpose, -, hdomain, -, htoken, hhostname⟩ := hplain
    refine ⟨⟨hshared.mode, ?_, hkey, ?_, hshared.certStrategy, hdomain, hschema.dnsProvider,
      htoken, ?_⟩, hshared.custom, fun hs => ?_, hshared.externalProxy⟩
    · rcases hurl with habsent | htext
      · exact .inl habsent
      · exact hschema.controlUrl.imp id fun hvalid => ⟨htext, hvalid⟩
    · rcases hexpose with habsent | htext
      · exact .inl habsent
      · refine .inr (hshared.expose.resolve_left fun hnil => hschema.expose ?_)
        rw [htext, hnil]
    · rcases hhostname with habsent | htext
      · exact .inl habsent
      · refine .inr ⟨htext, fun hnil => hschema.hostname ?_⟩
        rw [htext, hnil]
    · obtain ⟨hdomain, hprovider, htoken⟩ := hshared.dns01 hs
      refine ⟨hdomain, fun hnil => ?_, htoken⟩
      rw [hnil] at hprovider
      exact absurd hprovider (by decide)

/-! ### What the sidecar accepts -/

/-- A member read into its field. -/
lemma foldl_entry (key : JsString) (m : Member) {c : NetworkConfig}
    (h : assign c (key, []) = c) :
    (entry key m).foldl assign c = assign c (key, toWellFormed m.value) := by
  cases m with
  | text s => rfl
  | _ => exact h.symm

/-- The object is read member by member. -/
lemma unmarshal_object (raw : RawConfig) : unmarshal raw.object =
    { mode := toWellFormed raw.mode.value
      controlURL := toWellFormed raw.controlUrl.value
      authKey := toWellFormed raw.authKey.value
      expose := toWellFormed raw.expose.value
      certStrategy := toWellFormed raw.certStrategy.value
      certDomain := toWellFormed raw.certDomain.value
      dnsProvider := toWellFormed raw.dnsProvider.value
      dnsAPIToken := toWellFormed raw.dnsApiToken.value
      hostname := toWellFormed raw.hostname.value } := by
  simp only [unmarshal, RawConfig.object, List.foldl_append]
  rw [foldl_entry (js "mode"), assign_mode, foldl_entry (js "controlUrl"), assign_controlURL,
    foldl_entry (js "authKey"), assign_authKey, foldl_entry (js "expose"), assign_expose,
    foldl_entry (js "certStrategy"), assign_certStrategy, foldl_entry (js "certDomain"),
    assign_certDomain, foldl_entry (js "dnsProvider"), assign_dnsProvider,
    foldl_entry (js "dnsApiToken"), assign_dnsAPIToken, foldl_entry (js "hostname"),
    assign_hostname] <;> rfl

/-- Go reads a text that the code compares with as itself, and nothing else as that. -/
lemma toWellFormed_eq_js {s : JsString} {t : String} (ht : (0xFFFD : CodeUnit) ∉ js t) :
    toWellFormed s = js t ↔ s = js t :=
  toWellFormed_eq_iff (wellFormed_js t) ht

lemma toWellFormed_eq_nil {s : JsString} : toWellFormed s = [] ↔ s = [] :=
  toWellFormed_eq_iff ⟨[], rfl⟩ List.not_mem_nil

/-- The texts that the code compares with. -/
def literals : List JsString := redactedPlaceholder :: modes ++ exposes ++ certStrategies ++
  dnsProviders

lemma toWellFormed_eq_literal {s t : JsString} (ht : t ∈ literals) :
    toWellFormed s = t ↔ s = t := by
  have hplain : ∀ t ∈ literals, WellFormed t ∧ (0xFFFD : CodeUnit) ∉ t := by
    simp only [literals, modes, exposes, certStrategies, dnsProviders, List.cons_append,
      List.nil_append, List.forall_mem_cons, List.not_mem_nil, false_imp_iff, implies_true,
      and_true]
    refine ⟨?_, ?_, ?_, ?_, ?_, ?_, ?_, ?_, ?_, ?_, ?_, ?_⟩ <;>
      exact ⟨wellFormed_js _, by decide⟩
  exact toWellFormed_eq_iff (hplain t ht).1 (hplain t ht).2

lemma toWellFormed_mem {s : JsString} {values : List JsString} (h : values ⊆ literals) :
    toWellFormed s ∈ values ↔ s ∈ values := by
  constructor
  · intro hs
    have hsame := (toWellFormed_eq_literal (h hs)).mp rfl
    exact hsame ▸ hs
  · intro hs
    rwa [(toWellFormed_eq_literal (h hs)).mpr rfl]

lemma dnsProviderValid_iff {p : JsString} : dnsProviderValid p = true ↔ p ∈ dnsProviders :=
  List.contains_iff_mem

/-- The configuration that is read, with its defaults. -/
lemma sound_decode_iff (hsecrets : NoPlaceholder raw) (htyped : Member.other ∉ raw.members) :
    Sound go (unmarshal raw.object).applyDefaults ↔ Shared raw ∧ EdgeOnly go raw := by
  have hmode : toWellFormed raw.mode.value = modeCustom ↔ raw.mode.value = modeCustom :=
    toWellFormed_eq_literal (by decide)
  have hplane : toWellFormed raw.certStrategy.value = certControlPlane ↔
      raw.certStrategy.value = certControlPlane := toWellFormed_eq_literal (by decide)
  have hdns : toWellFormed raw.certStrategy.value = certDNS01 ↔
      raw.certStrategy.value = certDNS01 := toWellFormed_eq_literal (by decide)
  have hproxy : toWellFormed raw.certStrategy.value = certExternalProxy ↔
      raw.certStrategy.value = certExternalProxy := toWellFormed_eq_literal (by decide)
  have hfunnel : toWellFormed raw.expose.value = exposeFunnel ↔
      raw.expose.value = exposeFunnel := toWellFormed_eq_literal (by decide)
  rw [unmarshal_object]
  constructor
  · intro h
    refine ⟨⟨htyped, ?_, ?_, ?_, fun hc => ?_, fun hs => ?_, fun hs => ?_⟩, fun hc => ?_⟩
    · refine (toWellFormed_mem (by decide)).mp ?_
      simpa [modes, NetworkConfig.applyDefaults] using h.mode
    · by_cases hnil : raw.expose.value = []
      · exact .inl hnil
      · refine .inr ((toWellFormed_mem (by decide)).mp ?_)
        have hexpose := h.expose
        simp only [NetworkConfig.applyDefaults, toWellFormed_eq_nil, if_neg hnil] at hexpose
        simpa [exposes] using hexpose
    · refine (toWellFormed_mem (by decide)).mp ?_
      simpa [certStrategies, NetworkConfig.applyDefaults] using h.certStrategy
    · obtain ⟨hurl, -, hstrategy, hexpose⟩ := h.custom (hmode.mpr hc)
      refine ⟨mt toWellFormed_eq_nil.mpr hurl, mt hplane.mpr hstrategy, fun he => hexpose ?_⟩
      have hne : toWellFormed raw.expose.value ≠ [] := by
        rw [hfunnel.mpr he]
        decide
      simp only [NetworkConfig.applyDefaults, if_neg hne]
      exact hfunnel.mpr he
    · obtain ⟨hdomain, -, htoken, hvalid⟩ := h.dns01 (hdns.mpr hs)
      exact ⟨mt toWellFormed_eq_nil.mpr hdomain,
        (toWellFormed_mem (by decide)).mp (dnsProviderValid_iff.mp hvalid),
        mt toWellFormed_eq_nil.mpr htoken⟩
    · exact mt toWellFormed_eq_nil.mpr (h.externalProxy (hproxy.mpr hs))
    · exact (h.custom (hmode.mpr hc)).2.1
  · rintro ⟨h, hedge⟩
    have hexpose : raw.expose.value = [] ∨ toWellFormed raw.expose.value ∈ exposes :=
      h.expose.imp id (toWellFormed_mem (by decide)).mpr
    refine ⟨?_, ?_, ?_, ?_, fun hc => ?_, fun hs => ?_, fun hs => ?_, ?_, ?_⟩
    · have hmem := (toWellFormed_mem (s := raw.mode.value) (by decide)).mpr h.mode
      simpa [modes, NetworkConfig.applyDefaults] using hmem
    · simp only [NetworkConfig.applyDefaults, toWellFormed_eq_nil]
      split_ifs with hnil
      · exact .inl rfl
      · simpa [exposes] using hexpose.resolve_left hnil
    · have hmem := (toWellFormed_mem (s := raw.certStrategy.value) (by decide)).mpr h.certStrategy
      simpa [certStrategies, NetworkConfig.applyDefaults] using hmem
    · simp only [NetworkConfig.applyDefaults]
      split_ifs with hnil
      · decide
      · exact hnil
    · obtain ⟨hurl, hstrategy, hfun⟩ := h.custom (hmode.mp hc)
      refine ⟨mt toWellFormed_eq_nil.mp hurl, hedge (hmode.mp hc), mt hplane.mp hstrategy, ?_⟩
      simp only [NetworkConfig.applyDefaults]
      split_ifs
      · decide
      · exact mt hfunnel.mp hfun
    · obtain ⟨hdomain, hprovider, htoken⟩ := h.dns01 (hdns.mp hs)
      have hmem := (toWellFormed_mem (s := raw.dnsProvider.value) (by decide)).mpr hprovider
      refine ⟨mt toWellFormed_eq_nil.mp hdomain, fun hnil => ?_, mt toWellFormed_eq_nil.mp htoken,
        dnsProviderValid_iff.mpr hmem⟩
      have hnil : toWellFormed raw.dnsProvider.value = [] := hnil
      rw [hnil] at hmem
      exact absurd hmem (by decide)
    · exact mt toWellFormed_eq_nil.mp (h.externalProxy (hproxy.mp hs))
    · exact mt (toWellFormed_eq_literal (by decide)).mp hsecrets.1
    · exact mt (toWellFormed_eq_literal (by decide)).mp hsecrets.2

/-- **The sidecar** asks for the shared rules and for its own. -/
lemma edge_accepts_iff (hsecrets : NoPlaceholder raw) :
    edgeAccepts go raw = true ↔ Shared raw ∧ EdgeOnly go raw := by
  rw [edgeAccepts, RawConfig.decode]
  split_ifs with htyped
  · simp only [false_iff]
    exact fun h => h.1.typed htyped
  · simp only [List.isEmpty_iff, validate_eq_nil_iff]
    exact sound_decode_iff hsecrets htyped

/-! ### Agreement -/

/-- A configuration that breaks no rule of both breaks rules of both or of neither. -/
def Agreeing (isUrl : JsString → Bool) (go : GoLibrary) (raw : RawConfig) : Prop :=
  Shared raw → (SchemaOnly isUrl raw ↔ EdgeOnly go raw)

/-- **The validators agree** on an object exactly where it breaks a rule that both have, or
breaks a rule of the schema's own exactly where it breaks the one of the sidecar. -/
theorem validators_agree_iff (isUrl : JsString → Bool) (go : GoLibrary) {raw : RawConfig}
    (hsecrets : NoPlaceholder raw) :
    (networkConfigSchema isUrl raw = [] ↔ edgeAccepts go raw = true) ↔
      Agreeing isUrl go raw := by
  rw [schema_accepts_iff, edge_accepts_iff hsecrets, Agreeing]
  tauto

/-! ### Two configurations -/

/-- The scheme of a URL that has one, `://`, and something behind it. -/
def schemeOf (url : JsString) : Option JsString :=
  let scheme := url.takeWhile fun c => 97 ≤ c && c ≤ 122
  let rest := url.drop scheme.length
  if !scheme.isEmpty && (js "://").isPrefixOf rest && 3 < rest.length then some scheme else none

/-- A schema and a sidecar that know such URLs only. -/
def plainIsUrl (url : JsString) : Bool := (schemeOf url).isSome

def plainGo : GoLibrary where
  parseURL url := (schemeOf url).map fun scheme => ⟨true, scheme⟩
  quote s := js "\"" ++ s ++ js "\""

/-- What the settings page sends when nothing was filled in. -/
def defaultRaw : RawConfig where
  mode := .text modeDefault
  controlUrl := .absent
  authKey := .absent
  expose := .absent
  certStrategy := .text certControlPlane
  certDomain := .absent
  dnsProvider := .absent
  dnsApiToken := .absent
  hostname := .absent

/-- A self-hosted control server behind a proxy. -/
def headscaleRaw (url : JsString) : RawConfig :=
  { defaultRaw with
    mode := .text modeCustom
    controlUrl := .text url
    certStrategy := .text certExternalProxy
    certDomain := .text (js "cast.example.com") }

/-- A control server of one's own is accepted by both. -/
theorem validators_agree_headscale :
    networkConfigSchema plainIsUrl (headscaleRaw (js "https://hs.example.com")) = [] ∧
    Agreeing plainIsUrl plainGo (headscaleRaw (js "https://hs.example.com")) := by
  have hschema : networkConfigSchema plainIsUrl (headscaleRaw (js "https://hs.example.com")) =
      [] := by decide
  have hedge : edgeAccepts plainGo (headscaleRaw (js "https://hs.example.com")) = true := by
    decide
  exact ⟨hschema, (validators_agree_iff plainIsUrl plainGo ⟨by decide, by decide⟩).mp
    ⟨fun _ => hedge, fun _ => hschema⟩⟩

/-- **The validators differ**: an empty hostname is refused by the schema and given its default
by the sidecar; a control server at an `ftp` address is saved, and refused by the sidecar. -/
theorem validators_differ :
    networkConfigSchema plainIsUrl { defaultRaw with hostname := .text [] } ≠ [] ∧
    edgeAccepts plainGo { defaultRaw with hostname := .text [] } = true ∧
    networkConfigSchema plainIsUrl (headscaleRaw (js "ftp://hs.example.com")) = [] ∧
    edgeAccepts plainGo (headscaleRaw (js "ftp://hs.example.com")) = false := by
  decide

end LocalCast.Edge
