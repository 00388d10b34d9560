import LocalCast.Edge.Node

/-!
What a saved configuration is worth to a later start: `cmd/netedge/main.go`.

* `Process`: the sidecar while it is alive, with the configuration in force and the one its
  node was launched with.
* `Process.apply`, `persistingApply`: `PUT /edge/config`, which saves what the edge accepted.
* `startup`: `run` up to `Start`, with its fallback to the built-in configuration; this is all
  a supervisor does about a sidecar that exited.
* `saved_config_kept_iff`: a later start runs the network that was saved, or no node,
  exactly where its certificates do not come from dns01.
* `saved_headscale_left`: a node of a self-hosted control server that joins the default one
  after a crash.
-/

namespace LocalCast.Edge

open JsString

variable (go : GoLibrary)

/-- The outcome of starting the tsnet server for a configuration: an error, or none. -/
abbrev Launch := NetworkConfig → Option EdgeError

/-! ### The process -/

/-- The sidecar while it is alive: the configuration of its edge, and the one the current node
was launched with. -/
structure Process where
  cfg : NetworkConfig
  node : Option NetworkConfig
  deriving DecidableEq

/-- `edge.New`: a configuration is validated before anything is started. -/
def newEdge (cfg : NetworkConfig) : Except (List ValidationError) Process :=
  let cfg := cfg.applyDefaults
  match validate go cfg with
  | [] => .ok ⟨cfg, none⟩
  | errs => .error errs

/-- `Edge.replace`: the old node goes down, the configuration is taken over, and the new node
is launched. -/
def Process.replace (launch : Launch) (cfg : NetworkConfig) : Process × Option EdgeError :=
  match launch cfg with
  | some err => (⟨cfg, none⟩, some err)
  | none => (⟨cfg, some cfg⟩, none)

/-- Why `Apply` refuses a request. -/
inductive ApplyError
  | invalid (errs : List ValidationError)
  | launch (err : EdgeError)
  deriving DecidableEq

/-- `Edge.Apply`. -/
def Process.apply (launch : Launch) (p : Process) (cfg : NetworkConfig) :
    Process × Option ApplyError :=
  let cfg := cfg.applyDefaults
  match validate go cfg with
  | [] =>
      match Process.replace launch cfg with
      | (p', some err) => (p', some (.launch err))
      | (p', none) => (p', none)
  | errs => (p, some (.invalid errs))

/-- What a request leaves behind: the process, the file, the answer, and whether the file was
written for it. -/
structure Applied where
  process : Process
  disk : OnDisk
  answer : Option ApplyError
  saved : Bool

/-- `persistingController.Apply`. `writes` is whether the atomic write of `Save` succeeds;
where it does not, the file stays as it was and the request is still answered with success. -/
def persistingApply (launch : Launch) (writes : Bool) (p : Process) (disk : OnDisk)
    (cfg : NetworkConfig) : Applied :=
  match p.apply go launch cfg with
  | (p', some err) => ⟨p', disk, some err, false⟩
  | (p', none) =>
      if writes then ⟨p', .document (save ⟨0, cfg⟩), none, true⟩
      else ⟨p', disk, none, false⟩

/-- `run` up to `Start`: the process it comes to, or none where it exits. A stored
configuration that does not validate is replaced by the built-in one, and the file is left as
it is. -/
def startup (launch : Launch) (disk : OnDisk) : Option Process :=
  match load disk with
  | .error _ => none
  | .ok file =>
      match newEdge go file.network with
      | .ok p => some (Process.replace launch p.cfg).1
      | .error _ =>
          match newEdge go defaultFile.network with
          | .ok p => some (Process.replace launch p.cfg).1
          | .error _ => none

/-- Two configurations put a node on the same network, exposed and certified the same way. -/
structure SameNetwork (c d : NetworkConfig) : Prop where
  mode : d.mode = c.mode
  controlServer : d.controlServer = c.controlServer
  expose : d.expose = c.expose
  certStrategy : d.certStrategy = c.certStrategy

/-- The network a start from the file comes to is that of `cfg`, if it runs a node at all. -/
def Keeps (disk : OnDisk) (cfg : NetworkConfig) : Prop :=
  ∀ launch p node, startup go launch disk = some p → p.node = some node → SameNetwork cfg node

/-! ### Accepted configurations -/

variable {go}

lemma newEdge_eq_ok_iff {cfg : NetworkConfig} {p : Process} :
    newEdge go cfg = .ok p ↔ Sound go cfg.applyDefaults ∧ p = ⟨cfg.applyDefaults, none⟩ := by
  rw [← validate_eq_nil_iff, newEdge]
  cases validate go cfg.applyDefaults with
  | nil => simp [eq_comm]
  | cons e errs => simp

lemma node_of_replace {launch : Launch} {cfg node : NetworkConfig}
    (h : (Process.replace launch cfg).1.node = some node) : node = cfg := by
  rw [Process.replace] at h
  cases hl : launch cfg with
  | none =>
      rw [hl] at h
      exact (Option.some.inj h).symm
  | some err =>
      rw [hl] at h
      cases h

/-- What `Apply` accepts is sound, with its secrets and its defaults. -/
lemma sound_of_apply {launch : Launch} {p p' : Process} {cfg : NetworkConfig}
    (h : p.apply go launch cfg = (p', none)) : Sound go cfg.applyDefaults := by
  rw [← validate_eq_nil_iff]
  rw [Process.apply] at h
  cases hv : validate go cfg.applyDefaults with
  | nil => rfl
  | cons e errs =>
      rw [hv] at h
      cases (Prod.mk.inj h).2

/-- A configuration is on disk only once the edge has accepted it. -/
lemma disk_of_saved {launch : Launch} {writes : Bool} {p : Process} {disk : OnDisk}
    {cfg : NetworkConfig} (h : (persistingApply go launch writes p disk cfg).saved = true) :
    Sound go cfg.applyDefaults ∧
      (persistingApply go launch writes p disk cfg).disk = .document (save ⟨0, cfg⟩) := by
  rw [persistingApply] at h ⊢
  rcases ha : p.apply go launch cfg with ⟨p', answer⟩
  rw [ha] at h
  cases answer with
  | some err => cases h
  | none =>
      cases writes with
      | false => cases h
      | true => exact ⟨sound_of_apply ha, rfl⟩

/-! ### A later start -/

lemma sound_default : Sound go defaultFile.network.applyDefaults where
  mode := .inl rfl
  expose := .inl rfl
  certStrategy := .inl rfl
  hostname := List.cons_ne_nil _ _
  custom h := absurd h (by decide)
  dns01 h := absurd h (by decide)
  externalProxy h := absurd h (by decide)
  authKey := (List.cons_ne_nil _ _).symm
  dnsAPIToken := (List.cons_ne_nil _ _).symm

/-- A start from a file that `Save` wrote runs the saved configuration, where it still
validates, and the built-in one where it does not. -/
lemma startup_save (go : GoLibrary) (launch : Launch) (cfg : NetworkConfig) :
    (Sound go cfg.applyDefaults.withoutSecrets ∧
      startup go launch (.document (save ⟨0, cfg⟩)) =
        some (Process.replace launch cfg.applyDefaults.withoutSecrets).1) ∨
    (¬ Sound go cfg.applyDefaults.withoutSecrets ∧
      startup go launch (.document (save ⟨0, cfg⟩)) =
        some (Process.replace launch defaultFile.network.applyDefaults).1) := by
  have hdefaults : cfg.applyDefaults.withoutSecrets.applyDefaults =
      cfg.applyDefaults.withoutSecrets := by
    rw [← NetworkConfig.withoutSecrets_applyDefaults, NetworkConfig.applyDefaults_applyDefaults]
  rw [startup, load_save]
  by_cases hs : Sound go cfg.applyDefaults.withoutSecrets
  · refine .inl ⟨hs, ?_⟩
    have hnew : newEdge go cfg.applyDefaults.withoutSecrets =
        .ok ⟨cfg.applyDefaults.withoutSecrets, none⟩ :=
      newEdge_eq_ok_iff.mpr ⟨by rwa [hdefaults], by rw [hdefaults]⟩
    simp only [hnew]
  · refine .inr ⟨hs, ?_⟩
    have hdefault : newEdge go defaultFile.network =
        .ok ⟨defaultFile.network.applyDefaults, none⟩ :=
      newEdge_eq_ok_iff.mpr ⟨sound_default, rfl⟩
    cases hnew : newEdge go cfg.applyDefaults.withoutSecrets with
    | ok p =>
        have := (newEdge_eq_ok_iff.mp hnew).1
        exact absurd (by rwa [hdefaults] at this) hs
    | error errs => simp only [hnew, hdefault]

/-- **A saved configuration survives a start of the sidecar**: whatever the edge accepted and
the controller saved, a later start from that file runs a node on the same network, exposed
and certified the same way, or no node, exactly where the certificates do not come from dns01.
`Save` strips the token that `Validate` then asks of a dns01 configuration, and `run` falls
back to the built-in configuration. -/
theorem saved_config_kept_iff (launch : Launch) (writes : Bool) (p : Process) (disk : OnDisk)
    (cfg : NetworkConfig) (h : (persistingApply go launch writes p disk cfg).saved = true) :
    Keeps go (persistingApply go launch writes p disk cfg).disk cfg.applyDefaults ↔
      cfg.certStrategy ≠ certDNS01 := by
  obtain ⟨hsound, hdisk⟩ := disk_of_saved h
  have hiff := hsound.withoutSecrets_iff
  rw [hdisk]
  constructor
  · intro hkeeps
    rcases startup_save go (fun _ => none) cfg with ⟨hs, -⟩ | ⟨-, hstart⟩
    · exact hiff.mp hs
    · have hsame := hkeeps _ _ _ hstart rfl
      intro hd
      exact absurd (hsame.certStrategy.trans hd) (by decide)
  · intro hd launch' p' node hstart hnode
    rcases startup_save go launch' cfg with ⟨-, hstart'⟩ | ⟨hs, -⟩
    · obtain rfl := Option.some.inj (hstart'.symm.trans hstart)
      rw [node_of_replace hnode]
      exact ⟨rfl, rfl, rfl, rfl⟩
    · exact absurd (hiff.mpr hd) hs

/-! ### A node that changes its control server -/

/-- The two library functions on the inputs of the example: the control server's address, and
plain quoting. -/
def exampleGo : GoLibrary where
  parseURL raw :=
    if raw = js "https://hs.example.com" then some ⟨true, js "https"⟩ else none
  quote s := js "\"" ++ s ++ js "\""

/-- A self-hosted control server with certificates from dns01, or behind a proxy of its own. -/
def exampleHeadscale (strategy : JsString) : NetworkConfig where
  mode := modeCustom
  controlURL := js "https://hs.example.com"
  authKey := js "hskey"
  expose := exposeTailnet
  certStrategy := strategy
  certDomain := js "cast.example.com"
  dnsProvider := js "cloudflare"
  dnsAPIToken := js "cf_live"
  hostname := defaultHostname

/-- The configuration behind a proxy is accepted, saved, and kept by the next start. -/
theorem saved_config_kept_proxy :
    Keeps exampleGo (persistingApply exampleGo (fun _ => none) true
      ⟨defaultFile.network, none⟩ .missing (exampleHeadscale certExternalProxy)).disk
      (exampleHeadscale certExternalProxy).applyDefaults :=
  (saved_config_kept_iff (fun _ => none) true ⟨defaultFile.network, none⟩ .missing
    (exampleHeadscale certExternalProxy) (by decide)).mpr (by decide)

/-- A dns01 configuration of a self-hosted control server is accepted and saved, and the next
start runs a node that registers with the default control server. -/
theorem saved_headscale_left :
    (persistingApply exampleGo (fun _ => none) true ⟨defaultFile.network, none⟩ .missing
      (exampleHeadscale certDNS01)).saved = true ∧
    ((startup exampleGo (fun _ => none) (persistingApply exampleGo (fun _ => none) true
      ⟨defaultFile.network, none⟩ .missing (exampleHeadscale certDNS01)).disk).bind
        Process.node).map NetworkConfig.controlServer = some none ∧
    (exampleHeadscale certDNS01).controlServer = some (js "https://hs.example.com") ∧
    ¬ Keeps exampleGo (persistingApply exampleGo (fun _ => none) true
      ⟨defaultFile.network, none⟩ .missing (exampleHeadscale certDNS01)).disk
      (exampleHeadscale certDNS01).applyDefaults := by
  refine ⟨by decide, by decide, by decide, fun hkeeps => ?_⟩
  have hstart : startup exampleGo (fun _ => none) (persistingApply exampleGo (fun _ => none) true
      ⟨defaultFile.network, none⟩ .missing (exampleHeadscale certDNS01)).disk =
        some ⟨defaultFile.network, some defaultFile.network⟩ := by decide
  have hsame := hkeeps _ _ _ hstart rfl
  exact absurd hsame.mode (by decide)

end LocalCast.Edge
