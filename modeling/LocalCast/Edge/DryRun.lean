import LocalCast.Edge.Schema
import LocalCast.Foundations.JsNumber

/-!
The dry run of a configuration: `internal/edge/test.go`.

* `modeMessages`, `certificateViability`, `probeControl`, `runTest`.
* `Viable`, `TestRules`: what the decision matrix asks for, and with it the control server's
  address; `viable_iff`, `ok_iff`.
* `Known`: what `Validate` asks for besides; `sound_iff`.
* `DryRunAgrees`: a dry run that is in order promises that the configuration is accepted, and the
  other way round.
* `dry_run_agrees_iff`: where that is so.
* `dry_run_misleads`: a mode that nobody knows.

The context, the timeouts and the body of the answer are left out.
-/

namespace LocalCast.Edge

open JsString JsNumber

/-! ### Results -/

inductive MessageLevel where
  | info | warn | error
deriving DecidableEq

structure TestMessage where
  level : MessageLevel
  text : JsString
deriving DecidableEq

structure EdgeTestResult where
  ok : Bool
  controlReachable : Bool
  certificateViable : Bool
  messages : List TestMessage
  loginURL : Option JsString

/-- `HasError`. -/
def hasError (messages : List TestMessage) : Bool := messages.any fun m => m.level = .error

/-- `DefaultControlURL`. -/
def defaultControlURL : JsString := js "https://controlplane.tailscale.com"

/-- `controlProbePath`. -/
def controlProbePath : JsString := js "/key?v=106"

/-- `TestDeps`: the URL probed in default mode, what the client's request for a URL comes to (a
status, or the text of an error), and the text of the error of a URL that does not parse. -/
structure TestDeps where
  defaultControlURL : JsString
  get : JsString → Except JsString ℕ
  parseError : JsString → JsString

variable (go : GoLibrary) (deps : TestDeps) (cfg : NetworkConfig)

/-! ### The control plane -/

/-- A plain DNS label. A text that is not ASCII is none. -/
def plausibleHostname (s : JsString) : Bool :=
  !s.isEmpty && s.length ≤ 63 &&
    s.all (fun c => (97 ≤ c && c ≤ 122) || isDigit c || (65 ≤ c && c ≤ 90) || c = 45) &&
    s.head? ≠ some 45 && s.getLast? ≠ some 45

def modeMessages : List TestMessage :=
  (if cfg.mode = modeCustom then
    if cfg.controlURL = [] then
      [⟨.error, js "A self-hosted control server needs its URL."⟩]
    else if (go.parseURL cfg.controlURL).any fun u => u.scheme = js "http" then
      [⟨.warn, cfg.controlURL ++
        js " is plain HTTP; the pre-authentication key would be sent unencrypted."⟩]
    else []
  else []) ++
  if cfg.hostname = [] then
    [⟨.error, js "A hostname is required; it becomes the node's name on the tailnet."⟩]
  else if !plausibleHostname cfg.hostname then
    [⟨.warn, go.quote cfg.hostname ++
      js (" is not a plain DNS label; the control server will rewrite it and the address " ++
        "clients see may not be the one you typed.")⟩]
  else []

/-! ### Certificates -/

/-- A message behind the others where the node is published through Funnel. -/
def funnelWarning (text : String) : List TestMessage :=
  if cfg.expose = exposeFunnel then [⟨.warn, js text⟩] else []

/-- What dns01 has not been given. -/
def missingForDns01 : List JsString :=
  (if cfg.certDomain = [] then [js "a domain"] else []) ++
  (if cfg.dnsProvider = [] then [js "a DNS provider"] else []) ++
  if cfg.dnsAPIToken = [] then [js "an API token"] else []

def controlPlaneMessages : List TestMessage :=
  [⟨.info,
    if cfg.expose = exposeFunnel then
      js ("Funnel terminates TLS at Tailscale's ingress using the control-plane certificate. " ++
        "Nothing is asked of you.")
    else
      js ("Tailscale's control plane issues the certificate for this node's MagicDNS name. " ++
        "Nothing is asked of you.")⟩]

def externalProxyMessages : List TestMessage :=
  ⟨.warn,
    js ("LocalCast will serve plain HTTP on the tailnet address and trust your proxy to " ++
      "terminate TLS for ") ++ cfg.certDomain ++
    js (". Nothing here can verify that the proxy exists or that it is configured correctly; " ++
      "if it is not, clients will see a connection error rather than a warning.")⟩ ::
  funnelWarning cfg
    "Funnel already terminates TLS, so the external proxy is not used for public traffic."

def dns01Messages : List TestMessage :=
  ⟨.info,
    js "LocalCast will obtain a Let's Encrypt certificate for " ++ cfg.certDomain ++
    js " over DNS-01 using " ++ cfg.dnsProvider ++
    js ", cache it in the state directory and renew it automatically."⟩ ::
  ((if cfg.mode = modeDefault then
    [⟨.warn,
      js ("In default mode the control plane issues a certificate with no DNS credentials at " ++
        "all; dns01 is only worth the extra setup if you want the node reachable under your " ++
        "own domain.")⟩]
  else []) ++
  funnelWarning cfg ("Funnel terminates TLS itself, so the DNS-01 certificate will not be " ++
    "used for public traffic."))

def certificateViability : Bool × List TestMessage :=
  if cfg.mode = modeCustom ∧ cfg.expose = exposeFunnel then
    (false, [⟨.error,
      js ("Funnel is a Tailscale service and Headscale has not implemented it " ++
        "(headscale#1040), so a self-hosted control server cannot publish this node to the " ++
        "internet. Use tailnet-only, or switch to the default coordination server. [") ++
      errCodeEdgeModeUnsupported ++ js "]"⟩])
  else if cfg.mode = modeCustom ∧ cfg.certStrategy = certControlPlane then
    (false, [⟨.error,
      js ("Headscale cannot issue a certificate. Issuance needs the control server to " ++
        "implement /machine/set-dns and write the ACME TXT records for the base domain; " ++
        "Headscale has not (headscale#2527, headscale#2137), so `tailscale cert` fails there. " ++
        "Choose external-proxy if you already terminate TLS in front of this machine, or " ++
        "dns01 to let LocalCast get its own certificate for a domain you own. [") ++
      errCodeEdgeModeUnsupported ++ js "]"⟩])
  else if cfg.certStrategy = certControlPlane then (true, controlPlaneMessages cfg)
  else if cfg.certStrategy = certExternalProxy then
    if cfg.certDomain = [] then
      (false, [⟨.error, js "external-proxy needs the public domain your own proxy serves."⟩])
    else (true, externalProxyMessages cfg)
  else if cfg.certStrategy = certDNS01 then
    if missingForDns01 cfg ≠ [] then
      (false, [⟨.error, js "dns01 needs " ++ join (js ", ") (missingForDns01 cfg) ++ js "."⟩])
    else if !dnsProviderValid cfg.dnsProvider then
      (false, [⟨.error, go.quote cfg.dnsProvider ++
        js (" is not a DNS provider LocalCast can drive. Supported: cloudflare, " ++
          "digitalocean, route53, gandi.")⟩])
    else (true, dns01Messages cfg)
  else
    (false, [⟨.error, go.quote cfg.certStrategy ++
      js " is not a certificate strategy LocalCast knows."⟩])

/-! ### The control server -/

/-- The URL of the control server. -/
def probeBase : JsString :=
  if cfg.mode = modeDefault then
    if deps.defaultControlURL = [] then defaultControlURL else deps.defaultControlURL
  else cfg.controlURL

/-- `strings.TrimRight(base, "/") + controlProbePath`. -/
def probeTarget (base : JsString) : JsString :=
  (base.reverse.dropWhile fun c => c = 47).reverse ++ controlProbePath

def probeControl : Bool × List TestMessage :=
  let base := probeBase deps cfg
  if base = [] then (false, [])
  else if !controlURLUsable go base then
    (false, [⟨.error, go.quote base ++ js " is not an absolute http(s) URL. [" ++
      errCodeBadRequest ++ js "]"⟩])
  else
    let target := probeTarget base
    -- a request cannot be built for a URL that does not parse
    if (go.parseURL target).isNone then
      (false, [⟨.error, js "could not build a request for " ++ target ++ js ": " ++
        deps.parseError target⟩])
    else
      match deps.get target with
      | .error err =>
          (false, [⟨.error, js "Cannot reach the control server at " ++ base ++ js ": " ++ err ++
            js " [" ++ errCodeEdgeControlUnreachable ++ js "]"⟩])
      | .ok status =>
          if status = 200 then
            (true, [⟨.info, js "The control server at " ++ base ++
              js " answered and speaks the Tailscale protocol."⟩])
          else
            (true, [⟨.warn, base ++ js " answered with HTTP " ++ decimal status ++
              js (" instead of a node key. The address is reachable, but it may not be a " ++
                "Tailscale or Headscale control server.")⟩])

/-- The note of a custom mode without a key. -/
def signInMessages : List TestMessage :=
  if cfg.mode = modeCustom ∧ cfg.authKey = [] then
    [⟨.info, js "No pre-authentication key is set, so this node will ask you to sign in to " ++
      cfg.controlURL ++ js " after you save."⟩]
  else []

def runTest : EdgeTestResult :=
  let cfg := cfg.applyDefaults
  let viability := certificateViability go cfg
  let probe := probeControl go deps cfg
  let messages := modeMessages go cfg ++ viability.2 ++ probe.2 ++ signInMessages cfg
  { ok := probe.1 && viability.1 && !hasError messages
    controlReachable := probe.1
    certificateViable := viability.1
    messages := messages
    loginURL := none }

/-! ### Rules -/

/-- What the decision matrix asks for. -/
structure Viable : Prop where
  custom : cfg.mode = modeCustom →
    cfg.expose ≠ exposeFunnel ∧ cfg.certStrategy ≠ certControlPlane
  certStrategy : cfg.certStrategy = certControlPlane ∨ cfg.certStrategy = certExternalProxy ∨
    cfg.certStrategy = certDNS01
  externalProxy : cfg.certStrategy = certExternalProxy → cfg.certDomain ≠ []
  dns01 : cfg.certStrategy = certDNS01 → cfg.certDomain ≠ [] ∧ cfg.dnsProvider ≠ [] ∧
    cfg.dnsAPIToken ≠ [] ∧ dnsProviderValid cfg.dnsProvider = true

/-- What a dry run asks for, of a configuration with its defaults: a viable certificate, a
hostname, and an address unless the default one is used. -/
structure TestRules : Prop where
  viable : Viable cfg
  hostname : cfg.hostname ≠ []
  controlURL : cfg.mode ≠ modeDefault →
    cfg.controlURL ≠ [] ∧ controlURLUsable go cfg.controlURL = true

/-- What `Validate` asks for besides: a mode and an exposure that it knows, and secrets that are
not the placeholder. -/
structure Known : Prop where
  mode : cfg.mode = modeDefault ∨ cfg.mode = modeCustom
  expose : cfg.expose = exposeTailnet ∨ cfg.expose = exposeFunnel
  authKey : cfg.authKey ≠ redactedPlaceholder
  dnsAPIToken : cfg.dnsAPIToken ≠ redactedPlaceholder

/-- The control server answers the probe: in default mode its address is one, and the request for
it can be built and is answered. -/
structure Answers : Prop where
  base : cfg.mode = modeDefault → controlURLUsable go (probeBase deps cfg) = true
  target : controlURLUsable go (probeBase deps cfg) = true →
    (go.parseURL (probeTarget (probeBase deps cfg))).isSome = true ∧
    ∃ status, deps.get (probeTarget (probeBase deps cfg)) = .ok status

/-- A dry run that is in order promises that the configuration is accepted; and one of a
configuration that is accepted finds its certificate viable and has no error but those of the
probe. -/
def DryRunAgrees : Prop :=
  ((runTest go deps cfg).ok = true → validate go cfg.applyDefaults = []) ∧
  (validate go cfg.applyDefaults = [] → (runTest go deps cfg).certificateViable = true ∧
    ∀ m ∈ (runTest go deps cfg).messages, m.level = .error →
      m ∈ (probeControl go deps cfg.applyDefaults).2)

variable {go deps cfg}

/-- `Validate` asks for what the dry run does, and for more. -/
lemma sound_iff : Sound go cfg ↔ TestRules go cfg ∧ Known cfg := by
  constructor
  · intro h
    refine ⟨⟨⟨fun hc => ?_, h.certStrategy, h.externalProxy, h.dns01⟩, h.hostname, fun hm => ?_⟩,
      h.mode, h.expose, h.authKey, h.dnsAPIToken⟩
    · exact ⟨(h.custom hc).2.2.2, (h.custom hc).2.2.1⟩
    · have hc := h.custom (h.mode.resolve_left hm)
      exact ⟨hc.1, hc.2.1⟩
  · rintro ⟨h, hknown⟩
    refine ⟨hknown.mode, hknown.expose, h.viable.certStrategy, h.hostname, fun hc => ?_,
      h.viable.dns01, h.viable.externalProxy, hknown.authKey, hknown.dnsAPIToken⟩
    have hother : cfg.mode ≠ modeDefault := by
      rw [hc]
      decide
    obtain ⟨hne, husable⟩ := h.controlURL hother
    exact ⟨hne, husable, (h.viable.custom hc).2, (h.viable.custom hc).1⟩

/-! ### The matrix -/

lemma hasError_append {ms ns : List TestMessage} :
    hasError (ms ++ ns) = (hasError ms || hasError ns) := List.any_append

lemma hasError_funnelWarning (text : String) : hasError (funnelWarning cfg text) = false := by
  rw [funnelWarning]
  split_ifs <;> rfl

lemma hasError_signIn : hasError (signInMessages cfg) = false := by
  rw [signInMessages]
  split_ifs <;> rfl

lemma missingForDns01_eq_nil : missingForDns01 cfg = [] ↔
    cfg.certDomain ≠ [] ∧ cfg.dnsProvider ≠ [] ∧ cfg.dnsAPIToken ≠ [] := by
  rw [missingForDns01]
  split_ifs <;> simp_all

/-- The matrix finds the certificate viable where its rules are kept. -/
lemma viable_iff : (certificateViability go cfg).1 = true ↔ Viable cfg := by
  rw [certificateViability]
  split_ifs with hfunnel hplane hcontrol hproxy hdomain hdns hmissing hvalid
  · exact iff_of_false id fun h => (h.custom hfunnel.1).1 hfunnel.2
  · exact iff_of_false id fun h => (h.custom hplane.1).2 hplane.2
  · refine iff_of_true rfl ⟨fun hc => ⟨fun he => hfunnel ⟨hc, he⟩, fun hs => hplane ⟨hc, hs⟩⟩,
      .inl hcontrol, fun hs => ?_, fun hs => ?_⟩
    · exact absurd (hcontrol.symm.trans hs) (by decide)
    · exact absurd (hcontrol.symm.trans hs) (by decide)
  · exact iff_of_false id fun h => h.externalProxy hproxy hdomain
  · refine iff_of_true rfl ⟨fun hc => ⟨fun he => hfunnel ⟨hc, he⟩, fun hs => hplane ⟨hc, hs⟩⟩,
      .inr (.inl hproxy), fun _ => hdomain, fun hs => ?_⟩
    exact absurd (hproxy.symm.trans hs) (by decide)
  · refine iff_of_false id fun h => hmissing (missingForDns01_eq_nil.mpr ?_)
    obtain ⟨hdomain, hprovider, htoken, -⟩ := h.dns01 hdns
    exact ⟨hdomain, hprovider, htoken⟩
  · refine iff_of_false id fun h => ?_
    rw [(h.dns01 hdns).2.2.2] at hvalid
    cases hvalid
  · obtain ⟨hdomain, hprovider, htoken⟩ := missingForDns01_eq_nil.mp (not_not.mp hmissing)
    refine iff_of_true rfl ⟨fun hc => ⟨fun he => hfunnel ⟨hc, he⟩, fun hs => hplane ⟨hc, hs⟩⟩,
      .inr (.inr hdns), fun hs => absurd hs hproxy, fun _ => ?_⟩
    exact ⟨hdomain, hprovider, htoken, by simpa using hvalid⟩
  · refine iff_of_false id fun h => ?_
    rcases h.certStrategy with hs | hs | hs
    · exact hcontrol hs
    · exact hproxy hs
    · exact hdns hs

/-- A viable certificate comes without an error. -/
lemma no_error_of_viable (h : (certificateViability go cfg).1 = true) :
    hasError (certificateViability go cfg).2 = false := by
  have hproxy : hasError (externalProxyMessages cfg) = false := by
    rw [externalProxyMessages, hasError, List.any_cons]
    exact hasError_funnelWarning _
  have hdns : hasError (dns01Messages cfg) = false := by
    rw [dns01Messages, hasError, List.any_cons, List.any_append]
    refine Bool.or_eq_false_iff.mpr ⟨rfl, Bool.or_eq_false_iff.mpr ⟨?_, ?_⟩⟩
    · split_ifs <;> rfl
    · exact hasError_funnelWarning _
  rw [certificateViability] at h ⊢
  split_ifs at h ⊢
  · rfl
  · exact hproxy
  · exact hdns

/-- The control plane is in order where a custom one has its URL and there is a hostname. -/
lemma modeMessages_iff : hasError (modeMessages go cfg) = false ↔
    (cfg.mode = modeCustom → cfg.controlURL ≠ []) ∧ cfg.hostname ≠ [] := by
  rw [modeMessages, hasError_append]
  split_ifs <;> simp_all [hasError]

/-! ### The probe -/

/-- A control server that answers is reached where its address is one. -/
lemma probe_iff (h : Answers go deps cfg) : (probeControl go deps cfg).1 = true ↔
    probeBase deps cfg ≠ [] ∧ controlURLUsable go (probeBase deps cfg) = true := by
  simp only [probeControl]
  split_ifs with hbase husable htarget
  · exact iff_of_false id fun hrule => hrule.1 hbase
  · refine iff_of_false id fun hrule => ?_
    rw [hrule.2] at husable
    cases husable
  · have hsome := (h.target (by simpa using husable)).1
    rw [Option.isNone_iff_eq_none.mp htarget] at hsome
    cases hsome
  · have husable : controlURLUsable go (probeBase deps cfg) = true := by simpa using husable
    obtain ⟨status, hstatus⟩ := (h.target husable).2
    simp only [hstatus]
    split_ifs
    · exact iff_of_true rfl ⟨hbase, husable⟩
    · exact iff_of_true rfl ⟨hbase, husable⟩

/-- A control server that is reached comes without an error. -/
lemma no_error_of_reached (h : (probeControl go deps cfg).1 = true) :
    hasError (probeControl go deps cfg).2 = false := by
  simp only [probeControl] at h ⊢
  split_ifs at h ⊢
  split at h
  · cases h
  · split_ifs <;> rfl

/-- In default mode there is an address to probe, the default one. -/
lemma probeBase_default (h : cfg.mode = modeDefault) : probeBase deps cfg ≠ [] := by
  rw [probeBase, if_pos h]
  split_ifs with hdefault
  · decide
  · exact hdefault

/-! ### Agreement -/

lemma mode_applyDefaults : cfg.applyDefaults.mode = cfg.mode := rfl

lemma hostname_applyDefaults : cfg.applyDefaults.hostname ≠ [] := by
  simp only [NetworkConfig.applyDefaults]
  split_ifs with h
  · decide
  · exact h

/-- A dry run is in order where its rules are kept. -/
lemma ok_iff (h : Answers go deps cfg.applyDefaults) :
    (runTest go deps cfg).ok = true ↔ TestRules go cfg.applyDefaults := by
  have hprobe := probe_iff h
  simp only [runTest, Bool.and_eq_true, Bool.not_eq_true', hasError_append, Bool.or_eq_false_iff,
    hasError_signIn, and_true]
  constructor
  · rintro ⟨⟨hreached, hviable⟩, ⟨hmode, -⟩, -⟩
    refine ⟨viable_iff.mp hviable, hostname_applyDefaults, fun hother => ?_⟩
    have hrule := hprobe.mp hreached
    rwa [probeBase, if_neg hother] at hrule
  · intro hrules
    have hviable : (certificateViability go cfg.applyDefaults).1 = true :=
      viable_iff.mpr hrules.viable
    have hreached : (probeControl go deps cfg.applyDefaults).1 = true := by
      refine hprobe.mpr ?_
      by_cases hmode : cfg.applyDefaults.mode = modeDefault
      · exact ⟨probeBase_default hmode, h.base hmode⟩
      · rw [probeBase, if_neg hmode]
        exact hrules.controlURL hmode
    refine ⟨⟨hreached, hviable⟩, ⟨modeMessages_iff.mpr ⟨fun hc => ?_, hrules.hostname⟩,
      no_error_of_viable hviable⟩, no_error_of_reached hreached⟩
    refine (hrules.controlURL ?_).1
    rw [hc]
    decide

/-- What is accepted passes the dry run but for the probe. -/
lemma viable_of_sound (h : Sound go cfg.applyDefaults) :
    (runTest go deps cfg).certificateViable = true ∧
    ∀ m ∈ (runTest go deps cfg).messages, m.level = .error →
      m ∈ (probeControl go deps cfg.applyDefaults).2 := by
  have hrules := (sound_iff.mp h).1
  have hviable : (certificateViability go cfg.applyDefaults).1 = true :=
    viable_iff.mpr hrules.viable
  have hmode : hasError (modeMessages go cfg.applyDefaults) = false :=
    modeMessages_iff.mpr ⟨fun hc => (h.custom hc).1, hrules.hostname⟩
  have hquiet {ms : List TestMessage} (hms : hasError ms = false) {m : TestMessage}
      (hm : m ∈ ms) : m.level ≠ .error := by
    simp only [hasError, List.any_eq_false, decide_eq_true_eq] at hms
    exact hms m hm
  refine ⟨hviable, fun m hm herror => ?_⟩
  simp only [runTest, List.mem_append] at hm
  rcases hm with ((hm | hm) | hm) | hm
  · exact absurd herror (hquiet hmode hm)
  · exact absurd herror (hquiet (no_error_of_viable hviable) hm)
  · exact hm
  · exact absurd herror (hquiet hasError_signIn hm)

/-- **The dry run agrees** with saving exactly where the configuration breaks a rule of the dry
run, or names a mode and an exposure that there are and holds no placeholder. -/
theorem dry_run_agrees_iff (h : Answers go deps cfg.applyDefaults) :
    DryRunAgrees go deps cfg ↔
      (TestRules go cfg.applyDefaults → Known cfg.applyDefaults) := by
  rw [DryRunAgrees, ok_iff h, validate_eq_nil_iff]
  constructor
  · rintro ⟨hpromise, -⟩ hrules
    exact (sound_iff.mp (hpromise hrules)).2
  · exact fun hknown => ⟨fun hrules => sound_iff.mpr ⟨hrules, hknown hrules⟩, viable_of_sound⟩

/-! ### Two configurations -/

/-- A control server that answers every request. -/
def answeringDeps : TestDeps where
  defaultControlURL := []
  get _ := .ok 200
  parseError _ := []

/-- A control server of one's own, behind a proxy. -/
def headscaleConfig (authKey : JsString) : NetworkConfig where
  mode := modeCustom
  controlURL := js "https://hs.example.com"
  authKey := authKey
  expose := exposeTailnet
  certStrategy := certExternalProxy
  certDomain := js "cast.example.com"
  dnsProvider := []
  dnsAPIToken := []
  hostname := defaultHostname

/-- The dry run of a control server that is accepted. -/
theorem dry_run_agrees_headscale :
    (runTest plainGo answeringDeps (headscaleConfig (js "hskey"))).ok = true ∧
    DryRunAgrees plainGo answeringDeps (headscaleConfig (js "hskey")) := by
  have hanswers : Answers plainGo answeringDeps (headscaleConfig (js "hskey")).applyDefaults :=
    ⟨fun h => absurd h (by decide), fun _ => ⟨by decide, 200, rfl⟩⟩
  refine ⟨by decide, (dry_run_agrees_iff hanswers).mpr fun _ => ?_⟩
  exact ⟨by decide, by decide, by decide, by decide⟩

/-- **The dry run misleads**: the placeholder of a key passes it, and so does a mode that nobody
knows; neither is accepted. -/
theorem dry_run_misleads :
    (runTest plainGo answeringDeps (headscaleConfig redactedPlaceholder)).ok = true ∧
    validate plainGo (headscaleConfig redactedPlaceholder).applyDefaults ≠ [] ∧
    (runTest plainGo answeringDeps { headscaleConfig [] with mode := js "headscale" }).ok = true ∧
    validate plainGo { headscaleConfig [] with mode := js "headscale" }.applyDefaults ≠ [] := by
  decide

end LocalCast.Edge
