import LocalCast.Foundations.JsString

/-!
The network configuration of the sidecar: `internal/protocol/protocol.go` and
`internal/config/config.go`.

* `NetworkConfig`, `applyDefaults`, `withoutSecrets`: the configuration, its defaults, and
  what is left of it once the two secrets are stripped.
* `validate`: the checks of `Validate`, each with the field and the code it reports;
  `validate_eq_nil_iff` says what a configuration that passes looks like, and
  `validate_withoutSecrets` which of those still pass without their secrets.
* `marshal`, `unmarshal`: the JSON object a configuration is kept as; `unmarshal_marshal` is
  the round trip.
* `load`, `save`: the file on disk; `load_save` is what a later start reads back.
-/

namespace LocalCast.Edge

open JsString

/-! ### The configuration -/

def errCodeEdgeNotReady : JsString := js "edge_not_ready"
def errCodeEdgeModeUnsupported : JsString := js "edge_mode_unsupported"
def errCodeEdgeControlUnreachable : JsString := js "edge_control_unreachable"
def errCodeBadRequest : JsString := js "bad_request"
def errCodeInternal : JsString := js "internal"

def modeDefault : JsString := js "default"
def modeCustom : JsString := js "custom"

def exposeTailnet : JsString := js "tailnet"
def exposeFunnel : JsString := js "funnel"

def certControlPlane : JsString := js "control-plane"
def certExternalProxy : JsString := js "external-proxy"
def certDNS01 : JsString := js "dns01"

def defaultHostname : JsString := js "localcast"
def redactedPlaceholder : JsString := js "[redacted]"

/-- `NetworkConfig`. The enumerations are Go strings that any text can arrive in; `validate`
is what keeps them inside their sets. -/
@[ext]
structure NetworkConfig where
  mode : JsString
  controlURL : JsString
  authKey : JsString
  expose : JsString
  certStrategy : JsString
  certDomain : JsString
  dnsProvider : JsString
  dnsAPIToken : JsString
  hostname : JsString
  deriving DecidableEq, Repr

namespace NetworkConfig

/-- The zero value of the Go struct. -/
def zero : NetworkConfig := ⟨[], [], [], [], [], [], [], [], []⟩

/-- `ApplyDefaults`. -/
def applyDefaults (c : NetworkConfig) : NetworkConfig :=
  { c with
    expose := if c.expose = [] then exposeTailnet else c.expose
    hostname := if c.hostname = [] then defaultHostname else c.hostname }

/-- `WithoutSecrets`. -/
def withoutSecrets (c : NetworkConfig) : NetworkConfig :=
  { c with authKey := [], dnsAPIToken := [] }

/-- `HasSecrets`. -/
def hasSecrets (c : NetworkConfig) : Bool := c.authKey ≠ [] || c.dnsAPIToken ≠ []

/-- The control server a node of this configuration registers with: the configured one in
custom mode, the default coordination server otherwise. -/
def controlServer (c : NetworkConfig) : Option JsString :=
  if c.mode = modeCustom then some c.controlURL else none

@[simp] lemma applyDefaults_applyDefaults (c : NetworkConfig) :
    c.applyDefaults.applyDefaults = c.applyDefaults := by
  simp only [applyDefaults]
  congr 1
  · split_ifs <;> simp_all
  · split_ifs <;> simp_all

@[simp] lemma withoutSecrets_withoutSecrets (c : NetworkConfig) :
    c.withoutSecrets.withoutSecrets = c.withoutSecrets := rfl

lemma withoutSecrets_applyDefaults (c : NetworkConfig) :
    c.applyDefaults.withoutSecrets = c.withoutSecrets.applyDefaults := rfl

@[simp] lemma hasSecrets_withoutSecrets (c : NetworkConfig) :
    c.withoutSecrets.hasSecrets = false := rfl

end NetworkConfig

/-- `DNSProvider.Valid`. -/
def dnsProviderValid (p : JsString) : Bool :=
  [js "cloudflare", js "digitalocean", js "route53", js "gandi"].contains p

/-! ### Validation -/

/-- What `url.Parse` answers, of which `Validate` reads whether it is absolute and its
scheme. -/
structure GoURL where
  isAbs : Bool
  scheme : JsString

/-- The two functions of the Go library that `Validate` calls: `url.Parse`, and the `%q` of
`fmt`. -/
structure GoLibrary where
  parseURL : JsString → Option GoURL
  quote : JsString → JsString

/-- `ValidationError`. -/
structure ValidationError where
  field : JsString
  code : JsString
  message : JsString
  deriving DecidableEq, Repr

variable (go : GoLibrary)

/-- The check of `controlUrl`: an absolute http(s) URL. -/
def controlURLUsable (raw : JsString) : Bool :=
  match go.parseURL raw with
  | some u => u.isAbs && (u.scheme = js "http" || u.scheme = js "https")
  | none => false

/-- One check of `Validate`: an error unless the condition holds. -/
def require (ok : Bool) (field code message : JsString) : List ValidationError :=
  if ok then [] else [⟨field, code, message⟩]

@[simp] lemma require_eq_nil {ok : Bool} {field code message : JsString} :
    require ok field code message = [] ↔ ok = true := by
  cases ok <;> simp [require]

/-- `Validate`: the errors in the order the code adds them, none where it answers `nil`. -/
def validate (c : NetworkConfig) : List ValidationError :=
  require (c.mode = modeDefault || c.mode = modeCustom) (js "mode") errCodeBadRequest
    (js "unknown mode " ++ go.quote c.mode) ++
  require (c.expose = exposeTailnet || c.expose = exposeFunnel) (js "expose") errCodeBadRequest
    (js "unknown expose " ++ go.quote c.expose) ++
  require (c.certStrategy = certControlPlane || c.certStrategy = certExternalProxy ||
      c.certStrategy = certDNS01) (js "certStrategy") errCodeBadRequest
    (js "unknown certStrategy " ++ go.quote c.certStrategy) ++
  require (c.hostname ≠ []) (js "hostname") errCodeBadRequest (js "hostname is required") ++
  (if c.mode = modeCustom then
    (if c.controlURL = [] then
      [⟨js "controlUrl", errCodeBadRequest, js "controlUrl is required in custom mode"⟩]
    else
      require (controlURLUsable go c.controlURL) (js "controlUrl") errCodeBadRequest
        (js "controlUrl must be an absolute http(s) URL")) ++
    require (c.certStrategy ≠ certControlPlane) (js "certStrategy") errCodeEdgeModeUnsupported
      (js ("Headscale cannot issue certificates through the control plane; " ++
        "choose external-proxy or dns01")) ++
    require (c.expose ≠ exposeFunnel) (js "expose") errCodeEdgeModeUnsupported
      (js ("Funnel is a Tailscale service and is not available on a self-hosted " ++
        "control server"))
  else []) ++
  (if c.certStrategy = certDNS01 then
    require (c.certDomain ≠ [] && c.dnsProvider ≠ [] && c.dnsAPIToken ≠ []) (js "certDomain")
      errCodeBadRequest (js "dns01 needs a domain, a provider and an API token") ++
    require (c.dnsProvider = [] || dnsProviderValid c.dnsProvider) (js "dnsProvider")
      errCodeBadRequest (js "unsupported dnsProvider " ++ go.quote c.dnsProvider)
  else []) ++
  require (!(c.certStrategy = certExternalProxy && c.certDomain = [])) (js "certDomain")
    errCodeBadRequest (js "external-proxy needs the public domain") ++
  require (c.authKey ≠ redactedPlaceholder) (js "authKey") errCodeBadRequest
    (js "authKey is the redaction placeholder, not a real key") ++
  require (c.dnsAPIToken ≠ redactedPlaceholder) (js "dnsApiToken") errCodeBadRequest
    (js "dnsApiToken is the redaction placeholder, not a real token")

/-- The configurations that pass every check. -/
structure Sound (c : NetworkConfig) : Prop where
  mode : c.mode = modeDefault ∨ c.mode = modeCustom
  expose : c.expose = exposeTailnet ∨ c.expose = exposeFunnel
  certStrategy : c.certStrategy = certControlPlane ∨ c.certStrategy = certExternalProxy ∨
    c.certStrategy = certDNS01
  hostname : c.hostname ≠ []
  custom : c.mode = modeCustom → c.controlURL ≠ [] ∧ controlURLUsable go c.controlURL = true ∧
    c.certStrategy ≠ certControlPlane ∧ c.expose ≠ exposeFunnel
  dns01 : c.certStrategy = certDNS01 → c.certDomain ≠ [] ∧ c.dnsProvider ≠ [] ∧
    c.dnsAPIToken ≠ [] ∧ dnsProviderValid c.dnsProvider = true
  externalProxy : c.certStrategy = certExternalProxy → c.certDomain ≠ []
  authKey : c.authKey ≠ redactedPlaceholder
  dnsAPIToken : c.dnsAPIToken ≠ redactedPlaceholder

variable {go}

lemma validate_eq_nil_iff {c : NetworkConfig} : validate go c = [] ↔ Sound go c := by
  have hcustom : (if c.mode = modeCustom then
      (if c.controlURL = [] then
        [(⟨js "controlUrl", errCodeBadRequest, js "controlUrl is required in custom mode"⟩ :
          ValidationError)]
      else
        require (controlURLUsable go c.controlURL) (js "controlUrl") errCodeBadRequest
          (js "controlUrl must be an absolute http(s) URL")) ++
      require (c.certStrategy ≠ certControlPlane) (js "certStrategy") errCodeEdgeModeUnsupported
        (js ("Headscale cannot issue certificates through the control plane; " ++
          "choose external-proxy or dns01")) ++
      require (c.expose ≠ exposeFunnel) (js "expose") errCodeEdgeModeUnsupported
        (js ("Funnel is a Tailscale service and is not available on a self-hosted " ++
          "control server"))
      else []) = [] ↔ (c.mode = modeCustom → c.controlURL ≠ [] ∧
        controlURLUsable go c.controlURL = true ∧ c.certStrategy ≠ certControlPlane ∧
        c.expose ≠ exposeFunnel) := by
    by_cases hm : c.mode = modeCustom
    · by_cases hu : c.controlURL = []
      · simp [hm, hu]
      · simp [hm, hu]
    · simp [hm]
  constructor
  · intro h
    simp only [validate, List.append_eq_nil_iff, hcustom] at h
    obtain ⟨⟨⟨⟨⟨⟨⟨⟨h1, h2⟩, h3⟩, h4⟩, h5⟩, h6⟩, h7⟩, h8⟩, h9⟩ := h
    refine ⟨by simpa using h1, by simpa using h2, by simpa [or_assoc] using h3, by simpa using h4,
      h5, fun hs => ?_, fun hs => ?_, by simpa using h8, by simpa using h9⟩
    · rw [if_pos hs, List.append_eq_nil_iff] at h6
      have h6' : (c.certDomain ≠ [] ∧ c.dnsProvider ≠ []) ∧ c.dnsAPIToken ≠ [] := by
        simpa using h6.1
      have hv : c.dnsProvider = [] ∨ dnsProviderValid c.dnsProvider = true := by
        simpa using h6.2
      exact ⟨h6'.1.1, h6'.1.2, h6'.2, hv.resolve_left h6'.1.2⟩
    · simpa [hs] using h7
  · intro h
    simp only [validate, List.append_eq_nil_iff, hcustom]
    refine ⟨⟨⟨⟨⟨⟨⟨⟨by simpa using h.mode, by simpa using h.expose⟩,
      by simpa [or_assoc] using h.certStrategy⟩, by simpa using h.hostname⟩, h.custom⟩, ?_⟩, ?_⟩,
      by simpa using h.authKey⟩, by simpa using h.dnsAPIToken⟩
    · by_cases hs : c.certStrategy = certDNS01
      · obtain ⟨hd, hp, ht, hv⟩ := h.dns01 hs
        simp [hs, hd, hp, ht, hv]
      · rw [if_neg hs]
    · by_cases hs : c.certStrategy = certExternalProxy
      · simp [hs, h.externalProxy hs]
      · simp [hs]

/-- A sound configuration stays sound without its secrets exactly where its certificates do
not come from dns01, whose token is one of them. -/
lemma Sound.withoutSecrets_iff {c : NetworkConfig} (h : Sound go c) :
    Sound go c.withoutSecrets ↔ c.certStrategy ≠ certDNS01 := by
  constructor
  · intro h' hs
    exact (h'.dns01 hs).2.2.1 rfl
  · intro hs
    exact { mode := h.mode, expose := h.expose, certStrategy := h.certStrategy
            hostname := h.hostname, custom := h.custom, dns01 := fun hd => absurd hd hs
            externalProxy := h.externalProxy
            authKey := (List.cons_ne_nil _ _).symm, dnsAPIToken := (List.cons_ne_nil _ _).symm }

/-! ### The JSON object -/

/-- A field with `omitempty`. -/
def omitEmpty (key value : JsString) : List (JsString × JsString) :=
  if value = [] then [] else [(key, value)]

/-- `json.Marshal` of a configuration: its fields in order, empty optional ones left out. -/
def marshal (c : NetworkConfig) : List (JsString × JsString) :=
  [(js "mode", c.mode)] ++ omitEmpty (js "controlUrl") c.controlURL ++
    omitEmpty (js "authKey") c.authKey ++
    [(js "expose", c.expose), (js "certStrategy", c.certStrategy)] ++
    omitEmpty (js "certDomain") c.certDomain ++ omitEmpty (js "dnsProvider") c.dnsProvider ++
    omitEmpty (js "dnsApiToken") c.dnsAPIToken ++ [(js "hostname", c.hostname)]

/-- One key of the object read into the struct; Go matches names without case and ignores the
ones it does not know. -/
def assign (c : NetworkConfig) (entry : JsString × JsString) : NetworkConfig :=
  if lower entry.1 = js "mode" then { c with mode := entry.2 }
  else if lower entry.1 = js "controlurl" then { c with controlURL := entry.2 }
  else if lower entry.1 = js "authkey" then { c with authKey := entry.2 }
  else if lower entry.1 = js "expose" then { c with expose := entry.2 }
  else if lower entry.1 = js "certstrategy" then { c with certStrategy := entry.2 }
  else if lower entry.1 = js "certdomain" then { c with certDomain := entry.2 }
  else if lower entry.1 = js "dnsprovider" then { c with dnsProvider := entry.2 }
  else if lower entry.1 = js "dnsapitoken" then { c with dnsAPIToken := entry.2 }
  else if lower entry.1 = js "hostname" then { c with hostname := entry.2 }
  else c

/-- `json.Unmarshal` into a zero `NetworkConfig`. -/
def unmarshal (object : List (JsString × JsString)) : NetworkConfig :=
  object.foldl assign .zero

section Assign

variable (c : NetworkConfig) (v : JsString)

lemma assign_mode : assign c (js "mode", v) = { c with mode := v } := rfl
lemma assign_controlURL : assign c (js "controlUrl", v) = { c with controlURL := v } := rfl
lemma assign_authKey : assign c (js "authKey", v) = { c with authKey := v } := rfl
lemma assign_expose : assign c (js "expose", v) = { c with expose := v } := rfl
lemma assign_certStrategy :
    assign c (js "certStrategy", v) = { c with certStrategy := v } := rfl
lemma assign_certDomain : assign c (js "certDomain", v) = { c with certDomain := v } := rfl
lemma assign_dnsProvider : assign c (js "dnsProvider", v) = { c with dnsProvider := v } := rfl
lemma assign_dnsAPIToken : assign c (js "dnsApiToken", v) = { c with dnsAPIToken := v } := rfl
lemma assign_hostname : assign c (js "hostname", v) = { c with hostname := v } := rfl

end Assign

/-- An optional field left out reads back as the empty value it had. -/
lemma foldl_omitEmpty (key value : JsString) {c : NetworkConfig}
    (h : assign c (key, []) = c) :
    (omitEmpty key value).foldl assign c = assign c (key, value) := by
  rw [omitEmpty]
  split_ifs with hv
  · rw [hv, h, List.foldl_nil]
  · rfl

lemma unmarshal_marshal (c : NetworkConfig) : unmarshal (marshal c) = c := by
  simp only [unmarshal, marshal, List.foldl_append, List.foldl_cons, List.foldl_nil]
  rw [assign_mode, foldl_omitEmpty (js "controlUrl"), assign_controlURL,
    foldl_omitEmpty (js "authKey"), assign_authKey, assign_expose, assign_certStrategy,
    foldl_omitEmpty (js "certDomain"), assign_certDomain, foldl_omitEmpty (js "dnsProvider"),
    assign_dnsProvider, foldl_omitEmpty (js "dnsApiToken"), assign_dnsAPIToken,
    assign_hostname] <;> rfl

/-! ### The file -/

/-- `config.Version`. -/
def version : ℤ := 1

/-- `config.File`. -/
structure ConfigFile where
  version : ℤ
  network : NetworkConfig
  deriving DecidableEq

/-- The JSON document on disk: `File` as it is encoded. -/
structure Document where
  version : ℤ
  network : List (JsString × JsString)
  deriving DecidableEq

/-- What is at the path of the configuration: nothing, a file that cannot be read, one that
does not parse as `File`, or a document. -/
inductive OnDisk
  | missing
  | unreadable
  | malformed
  | document (d : Document)
  deriving DecidableEq

/-- The ways `Load` fails. -/
inductive LoadError
  | read
  | parse
  | tooNew (found : ℤ)
  deriving DecidableEq

/-- `config.Default`. -/
def defaultFile : ConfigFile :=
  ⟨version, { NetworkConfig.zero with
    mode := modeDefault, certStrategy := certControlPlane }.applyDefaults⟩

/-- `config.Load`. -/
def load : OnDisk → Except LoadError ConfigFile
  | .missing => .ok defaultFile
  | .unreadable => .error .read
  | .malformed => .error .parse
  | .document d =>
      let found := if d.version = 0 then version else d.version
      if found > version then .error (.tooNew found)
      else
        let network := unmarshal d.network
        let network := if network.hasSecrets then network.withoutSecrets else network
        .ok ⟨found, network.applyDefaults⟩

/-- `config.Save`: the document it renames into place. -/
def save (f : ConfigFile) : Document :=
  ⟨version, marshal f.network.applyDefaults.withoutSecrets⟩

/-- A later start reads back what was saved, with its defaults and without its secrets. -/
lemma load_save (f : ConfigFile) :
    load (.document (save f)) = .ok ⟨version, f.network.applyDefaults.withoutSecrets⟩ := by
  simp [load, save, version, unmarshal_marshal, NetworkConfig.withoutSecrets_applyDefaults]

end LocalCast.Edge
