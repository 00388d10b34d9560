import LocalCast.Edge.DryRun
import LocalCast.Edge.Restart

/-!
The loopback control API of the sidecar: `internal/control/server.go`, over the controller of
`cmd/netedge/main.go` that saves what it applies.

* `isLoopbackHost`, `withGuards`: the two checks that every request has to pass.
* `handle`, `serve`: what a request is answered with and what it leaves, and the same of any
  number of them.
* `strangers_change_nothing`: requests that do not pass the checks leave no trace, in what is
  answered to the others or in what they find.
* `Similar`: configurations that differ in the letters of their secrets only.
* `secrets_stay_inside`: no answer, no line of the log and no byte of the file depends on these.

The routes of the status and of the sign-in are left out.
-/

namespace LocalCast.Edge

open JsString

/-! ### The guards -/

/-- `net.SplitHostPort`: the host, none where the text is not a host and a port. -/
def splitHostPort (hostport : JsString) : Option JsString :=
  if 58 ∉ hostport then none
  else
    let port := (hostport.reverse.takeWhile fun c => c ≠ 58).reverse
    let i := hostport.length - port.length - 1
    if hostport.head? = some 91 then
      if 93 ∉ hostport then none
      else
        let host := hostport.tail.takeWhile fun c => c ≠ 93
        -- the closing bracket has to be right before the last colon
        if host.length + 2 ≠ i then none
        else if 91 ∈ hostport.tail ∨ 93 ∈ port then none
        else some host
    else
      let host := hostport.take i
      if 58 ∈ host then none else if 91 ∈ hostport ∨ 93 ∈ hostport then none else some host

def isLoopbackHost (host : JsString) : Bool :=
  if host = [] then true
  else
    let name := (splitHostPort host).getD host
    [js "127.0.0.1", js "::1", js "localhost"].contains
      (lower (trimBy (fun c => c = 91 || c = 93) name))

/-! ### What is logged of a configuration -/

/-- `Redacted`. -/
def NetworkConfig.redacted (c : NetworkConfig) : NetworkConfig :=
  { c with
    authKey := if c.authKey ≠ [] then redactedPlaceholder else c.authKey
    dnsAPIToken := if c.dnsAPIToken ≠ [] then redactedPlaceholder else c.dnsAPIToken }

/-- A field of `String`, left out where it is empty. -/
def shown (label value : JsString) : JsString := if value ≠ [] then label ++ value else []

/-- `String`. -/
def NetworkConfig.string (c : NetworkConfig) : JsString :=
  let r := c.redacted
  js "NetworkConfig\x7bmode=" ++ r.mode ++ shown (js " controlUrl=") r.controlURL ++
    shown (js " authKey=") r.authKey ++ js " expose=" ++ r.expose ++ js " certStrategy=" ++
    r.certStrategy ++ shown (js " certDomain=") r.certDomain ++
    shown (js " dnsProvider=") r.dnsProvider ++ shown (js " dnsApiToken=") r.dnsAPIToken ++
    js " hostname=" ++ r.hostname ++ js "\x7d"

/-! ### Requests -/

/-- A request that passed the guards. A body is a configuration, or does not decode; beside it
stands what comes of the launch of the node and of the write of the file. -/
inductive ControlCall where
  | getConfig
  | putConfig (body : Except JsString NetworkConfig) (launch : Option EdgeError)
      (write : Option JsString)
  | test (body : Except JsString NetworkConfig)
  | restart (launch : Option EdgeError)

structure ControlRequest where
  host : JsString
  secret : JsString
  call : ControlCall

inductive ControlReply where
  | error (status : ℕ) (code message : JsString)
  | config (body : List (JsString × JsString))
  | tested (result : EdgeTestResult)
  | accepted

/-- The process, the file of the configuration, and the lines of the log. -/
structure ControlState where
  process : Process
  disk : OnDisk
  log : List JsString

/-- The server: the shared secret, the path of the configuration, and what a dry run reaches. -/
structure ControlServer where
  secret : JsString
  path : JsString
  deps : TestDeps

variable (go : GoLibrary) (srv : ControlServer)

/-- `ValidationErrors.Error`. -/
def errorText (errs : List ValidationError) : JsString :=
  join (js "; ") (errs.map fun e => e.field ++ js ": " ++ e.message)

/-- `ValidationErrors.Code`. -/
def errorCode (errs : List ValidationError) : JsString :=
  (errs.head?.map ValidationError.code).getD errCodeBadRequest

/-- `writeConfigError`. -/
def writeConfigError : ApplyError → ControlReply
  | .invalid errs => .error 400 (errorCode errs) (errorText errs)
  | .launch err => .error 500 errCodeInternal err.message

/-- `decodeConfig` where the body does not decode. -/
def undecoded (err : JsString) : ControlReply :=
  .error 400 errCodeBadRequest (js "could not parse the network configuration: " ++ err)

/-- What `Edge.replace` logs. -/
def replaceLog (p : Process) (cfg : NetworkConfig) : List JsString :=
  (if p.node.isSome then
    [js "stopping the current tailnet node before applying a new configuration"] else []) ++
  [js "starting the tailnet node: " ++ cfg.string]

/-- What `persistingController.Apply` logs where the file could not be written. -/
def unsavedLog : Option JsString → List JsString
  | none => []
  | some err =>
      [js "the new configuration is live but could not be written to " ++ srv.path ++ js ": " ++ err]

def handlePutConfig (s : ControlState) (cfg : NetworkConfig) (launch : Option EdgeError)
    (write : Option JsString) : ControlState × ControlReply :=
  let cfg := cfg.applyDefaults
  let applied := persistingApply go (fun _ => launch) write.isNone s.process s.disk cfg
  let replaced := match applied.answer with
    | some (.invalid _) => []
    | _ => replaceLog s.process cfg.applyDefaults
  match applied.answer with
  | some err => (⟨applied.process, applied.disk, s.log ++ replaced⟩, writeConfigError err)
  | none =>
      (⟨applied.process, applied.disk, s.log ++ replaced ++ unsavedLog srv write ++
        [js "network configuration applied: " ++ cfg.string]⟩,
        .config (marshal applied.process.cfg.withoutSecrets.withoutSecrets))

def handleRestart (s : ControlState) (launch : Option EdgeError) : ControlState × ControlReply :=
  let replaced := Process.replace (fun _ => launch) s.process.cfg
  (⟨replaced.1, s.disk, s.log ++ replaceLog s.process s.process.cfg⟩,
    match replaced.2 with
    | some err => .error 503 errCodeEdgeNotReady err.message
    | none => .accepted)

/-- The handlers behind the guards. -/
def handleCall (s : ControlState) : ControlCall → ControlState × ControlReply
  | .getConfig => (s, .config (marshal s.process.cfg.withoutSecrets.withoutSecrets))
  | .putConfig (.error err) _ _ => (s, undecoded err)
  | .putConfig (.ok cfg) launch write => handlePutConfig go srv s cfg launch write
  | .test (.error err) => (s, undecoded err)
  | .test (.ok cfg) => (s, .tested (runTest go srv.deps cfg.applyDefaults))
  | .restart launch => handleRestart s launch

/-- `withGuards`: the refusal of a request, none where it passes. -/
def withGuards (r : ControlRequest) : Option ControlReply :=
  if !isLoopbackHost r.host then
    some (.error 403 errCodeBadRequest (js "the control API answers only on 127.0.0.1"))
  else if r.secret ≠ srv.secret then
    some (.error 401 (js "unauthenticated") (js "missing or incorrect x-lc-edge-secret"))
  else none

def handle (s : ControlState) (r : ControlRequest) : ControlState × ControlReply :=
  match withGuards srv r with
  | some refusal => (s, refusal)
  | none => handleCall go srv s r.call

/-- Requests in the order they are served: what they leave, and what each was answered. -/
def serve (s : ControlState) : List ControlRequest → ControlState × List ControlReply
  | [] => (s, [])
  | r :: rs =>
      let served := handle go srv s r
      let rest := serve served.1 rs
      (rest.1, served.2 :: rest.2)

/-! ### Strangers -/

/-- The requests that pass the guards. -/
def admitted (r : ControlRequest) : Bool := (withGuards srv r).isNone

/-- Both secrets are missing, or neither is; and both are the placeholder, or neither is. -/
structure SimilarSecret (s t : JsString) : Prop where
  missing : s = [] ↔ t = []
  placeholder : s = redactedPlaceholder ↔ t = redactedPlaceholder

/-- Two configurations that differ in the letters of their secrets only. -/
structure Similar (c d : NetworkConfig) : Prop where
  withoutSecrets : c.withoutSecrets = d.withoutSecrets
  authKey : SimilarSecret c.authKey d.authKey
  dnsAPIToken : SimilarSecret c.dnsAPIToken d.dnsAPIToken

section Similar

variable {go srv} {c d : NetworkConfig}

/-- What is no secret is the same. -/
lemma Similar.eq (h : Similar c d) :
    d = { c with authKey := d.authKey, dnsAPIToken := d.dnsAPIToken } := by
  have hsame := h.withoutSecrets
  simp only [NetworkConfig.withoutSecrets, NetworkConfig.mk.injEq] at hsame
  ext1 <;> simp [hsame]

lemma Similar.applyDefaults (h : Similar c d) : Similar c.applyDefaults d.applyDefaults where
  withoutSecrets := by
    rw [NetworkConfig.withoutSecrets_applyDefaults, NetworkConfig.withoutSecrets_applyDefaults,
      h.withoutSecrets]
  authKey := h.authKey
  dnsAPIToken := h.dnsAPIToken

lemma Similar.redacted (h : Similar c d) : c.redacted = d.redacted := by
  have hauth : (if c.authKey ≠ [] then redactedPlaceholder else c.authKey) =
      if d.authKey ≠ [] then redactedPlaceholder else d.authKey := by
    by_cases hc : c.authKey = []
    · rw [if_neg (not_not.mpr hc), if_neg (not_not.mpr (h.authKey.missing.mp hc)), hc,
        h.authKey.missing.mp hc]
    · rw [if_pos hc, if_pos fun hd => hc (h.authKey.missing.mpr hd)]
  have htoken : (if c.dnsAPIToken ≠ [] then redactedPlaceholder else c.dnsAPIToken) =
      if d.dnsAPIToken ≠ [] then redactedPlaceholder else d.dnsAPIToken := by
    by_cases hc : c.dnsAPIToken = []
    · rw [if_neg (not_not.mpr hc), if_neg (not_not.mpr (h.dnsAPIToken.missing.mp hc)), hc,
        h.dnsAPIToken.missing.mp hc]
    · rw [if_pos hc, if_pos fun hd => hc (h.dnsAPIToken.missing.mpr hd)]
  rw [NetworkConfig.redacted, NetworkConfig.redacted, hauth, htoken, h.eq]

lemma Similar.string (h : Similar c d) : c.string = d.string := by
  rw [NetworkConfig.string, NetworkConfig.string, h.redacted]

lemma Similar.validate (h : Similar c d) : validate go c = validate go d := by
  have hmissing : (decide (c.dnsAPIToken ≠ [])) = decide (d.dnsAPIToken ≠ []) :=
    decide_eq_decide.mpr (not_congr h.dnsAPIToken.missing)
  have hauth : (decide (c.authKey ≠ redactedPlaceholder)) =
      decide (d.authKey ≠ redactedPlaceholder) :=
    decide_eq_decide.mpr (not_congr h.authKey.placeholder)
  have htoken : (decide (c.dnsAPIToken ≠ redactedPlaceholder)) =
      decide (d.dnsAPIToken ≠ redactedPlaceholder) :=
    decide_eq_decide.mpr (not_congr h.dnsAPIToken.placeholder)
  rw [h.eq]
  simp only [Edge.validate, hmissing, hauth, htoken]

lemma Similar.missingForDns01 (h : Similar c d) : missingForDns01 c = missingForDns01 d := by
  have htoken := propext h.dnsAPIToken.missing
  rw [h.eq]
  simp only [Edge.missingForDns01, htoken]

lemma Similar.certificateViability (h : Similar c d) :
    certificateViability go c = certificateViability go d := by
  have hmissing := h.missingForDns01
  rw [h.eq] at hmissing ⊢
  simp only [Edge.certificateViability, hmissing]
  rfl

lemma Similar.runTest (deps : TestDeps) (h : Similar c d) :
    runTest go deps c = runTest go deps d := by
  have hviability : Edge.certificateViability go c.applyDefaults =
      Edge.certificateViability go d.applyDefaults := h.applyDefaults.certificateViability
  have hauth : (c.applyDefaults.authKey = []) = (d.applyDefaults.authKey = []) :=
    propext h.applyDefaults.authKey.missing
  have hprobe : probeControl go deps c.applyDefaults = probeControl go deps d.applyDefaults := by
    rw [h.applyDefaults.eq]
    rfl
  have hmode : modeMessages go c.applyDefaults = modeMessages go d.applyDefaults := by
    rw [h.applyDefaults.eq]
    rfl
  have hsignIn : signInMessages c.applyDefaults = signInMessages d.applyDefaults := by
    simp only [signInMessages, hauth]
    rw [h.applyDefaults.eq]
  simp only [Edge.runTest, hviability, hprobe, hmode, hsignIn]

/-! ### What is kept of secrets, and where -/

/-- Two processes whose configurations are similar. -/
structure SimilarProcess (p q : Process) : Prop where
  cfg : Similar p.cfg q.cfg
  node : Option.Rel Similar p.node q.node

/-- Two states that only differ in secrets of the process. -/
structure SimilarState (s t : ControlState) : Prop where
  process : SimilarProcess s.process t.process
  disk : s.disk = t.disk
  log : s.log = t.log

/-- Bodies that are similar, or do not decode for the same reason. -/
inductive SimilarBody : Except JsString NetworkConfig → Except JsString NetworkConfig → Prop where
  | error (err : JsString) : SimilarBody (.error err) (.error err)
  | ok {c d : NetworkConfig} (h : Similar c d) : SimilarBody (.ok c) (.ok d)

/-- Calls that are similar, of which the launch and the write come to the same. -/
inductive SimilarCall : ControlCall → ControlCall → Prop where
  | getConfig : SimilarCall .getConfig .getConfig
  | putConfig {b b' : Except JsString NetworkConfig} (h : SimilarBody b b')
      (launch : Option EdgeError) (write : Option JsString) :
      SimilarCall (.putConfig b launch write) (.putConfig b' launch write)
  | test {b b' : Except JsString NetworkConfig} (h : SimilarBody b b') :
      SimilarCall (.test b) (.test b')
  | restart (launch : Option EdgeError) : SimilarCall (.restart launch) (.restart launch)

structure SimilarRequest (r r' : ControlRequest) : Prop where
  host : r.host = r'.host
  secret : r.secret = r'.secret
  call : SimilarCall r.call r'.call

lemma SimilarProcess.replaceLog {p q : Process} (h : SimilarProcess p q) {c d : NetworkConfig}
    (hcfg : Similar c d) : replaceLog p c = replaceLog q d := by
  have hsome : ∀ o o' : Option NetworkConfig, Option.Rel Similar o o' → o.isSome = o'.isSome := by
    rintro _ _ (_ | _) <;> rfl
  rw [Edge.replaceLog, Edge.replaceLog, hsome _ _ h.node, hcfg.string]

lemma Similar.replace (launch : Option EdgeError) (h : Similar c d) :
    SimilarProcess (Process.replace (fun _ => launch) c).1 (Process.replace (fun _ => launch) d).1 ∧
      (Process.replace (fun _ => launch) c).2 = (Process.replace (fun _ => launch) d).2 := by
  cases launch with
  | none => exact ⟨⟨h, .some h⟩, rfl⟩
  | some err => exact ⟨⟨h, .none⟩, rfl⟩

lemma Similar.save (h : Similar c d) : save ⟨0, c⟩ = save ⟨0, d⟩ := by
  simp only [Edge.save, h.applyDefaults.withoutSecrets]

/-- What a request that is applied leaves and is answered. -/
lemma Similar.persistingApply {p q : Process} (hp : SimilarProcess p q) (disk : OnDisk)
    (launch : Option EdgeError) (writes : Bool) (h : Similar c d) :
    SimilarProcess (persistingApply go (fun _ => launch) writes p disk c).process
        (persistingApply go (fun _ => launch) writes q disk d).process ∧
      (persistingApply go (fun _ => launch) writes p disk c).disk =
        (persistingApply go (fun _ => launch) writes q disk d).disk ∧
      (persistingApply go (fun _ => launch) writes p disk c).answer =
        (persistingApply go (fun _ => launch) writes q disk d).answer := by
  have hvalid : Edge.validate go c.applyDefaults = Edge.validate go d.applyDefaults :=
    h.applyDefaults.validate
  cases herrs : Edge.validate go d.applyDefaults with
  | cons err errs =>
      simp only [Edge.persistingApply, Process.apply, hvalid, herrs]
      exact ⟨hp, trivial, trivial⟩
  | nil =>
      simp only [Edge.persistingApply, Process.apply, hvalid, herrs]
      cases launch with
      | some err => exact ⟨⟨h.applyDefaults, .none⟩, rfl, rfl⟩
      | none =>
          cases writes with
          | true =>
              refine ⟨⟨h.applyDefaults, .some h.applyDefaults⟩, ?_, rfl⟩
              simp only [Process.replace, h.save, if_true]
          | false => exact ⟨⟨h.applyDefaults, .some h.applyDefaults⟩, rfl, rfl⟩

/-- A configuration that is applied. -/
lemma SimilarState.handlePutConfig {s t : ControlState} (h : SimilarState s t) (hcfg : Similar c d)
    (launch : Option EdgeError) (write : Option JsString) :
    SimilarState (handlePutConfig go srv s c launch write).1
        (handlePutConfig go srv t d launch write).1 ∧
      (handlePutConfig go srv s c launch write).2 =
        (handlePutConfig go srv t d launch write).2 := by
  have hdefaults := hcfg.applyDefaults
  obtain ⟨hprocess, hdisk, hanswer⟩ :=
    @Similar.persistingApply go _ _ _ _ h.process s.disk launch write.isNone hdefaults
  have hlog := h.process.replaceLog hdefaults.applyDefaults
  have hconfig := hprocess.cfg.withoutSecrets
  have hfile := h.disk
  simp only [Edge.handlePutConfig]
  rw [← hfile, hanswer, hlog, hdefaults.string, h.log]
  cases (Edge.persistingApply go (fun _ => launch) write.isNone t.process s.disk
    d.applyDefaults).answer with
  | some err => exact ⟨⟨hprocess, hdisk, rfl⟩, rfl⟩
  | none => exact ⟨⟨hprocess, hdisk, rfl⟩, by rw [hconfig]⟩

lemma SimilarState.handleCall {s t : ControlState} (h : SimilarState s t) {k k' : ControlCall}
    (hk : SimilarCall k k') :
    SimilarState (handleCall go srv s k).1 (handleCall go srv t k').1 ∧
      (handleCall go srv s k).2 = (handleCall go srv t k').2 := by
  cases hk with
  | getConfig =>
      simp only [Edge.handleCall, h.process.cfg.withoutSecrets]
      exact ⟨h, trivial⟩
  | putConfig hbody launch write =>
      cases hbody with
      | error err => exact ⟨h, rfl⟩
      | ok hcfg => exact h.handlePutConfig hcfg launch write
  | test hbody =>
      cases hbody with
      | error err => exact ⟨h, rfl⟩
      | ok hcfg => exact ⟨h, congrArg ControlReply.tested (hcfg.applyDefaults.runTest srv.deps)⟩
  | restart launch =>
      obtain ⟨hprocess, hanswer⟩ := h.process.cfg.replace launch
      simp only [Edge.handleCall, handleRestart]
      rw [hanswer, h.process.replaceLog h.process.cfg, h.log]
      exact ⟨⟨hprocess, h.disk, rfl⟩, rfl⟩

/-- One request keeps what is similar similar, and is answered the same. -/
theorem SimilarState.handle {s t : ControlState} (h : SimilarState s t) {r r' : ControlRequest}
    (hr : SimilarRequest r r') :
    SimilarState (handle go srv s r).1 (handle go srv t r').1 ∧
      (handle go srv s r).2 = (handle go srv t r').2 := by
  have hguards : withGuards srv r = withGuards srv r' := by
    rw [withGuards, withGuards, hr.host, hr.secret]
  rw [Edge.handle, Edge.handle, hguards]
  cases withGuards srv r' with
  | some refusal => exact ⟨h, rfl⟩
  | none => exact h.handleCall hr.call

/-- **Secrets stay inside.** However many requests are served: where only the letters of the
secrets in them are others, every answer is the same, and so are the file and the log. -/
theorem secrets_stay_inside {s t : ControlState} (h : SimilarState s t)
    {rs rs' : List ControlRequest} (hrs : List.Forall₂ SimilarRequest rs rs') :
    (serve go srv s rs).2 = (serve go srv t rs').2 ∧
      (serve go srv s rs).1.disk = (serve go srv t rs').1.disk ∧
      (serve go srv s rs).1.log = (serve go srv t rs').1.log := by
  induction hrs generalizing s t with
  | nil => exact ⟨rfl, h.disk, h.log⟩
  | cons hr _ ih =>
      obtain ⟨hstate, hreply⟩ := @SimilarState.handle go srv _ _ h _ _ hr
      obtain ⟨hreplies, hend⟩ := ih hstate
      exact ⟨by rw [serve, serve, hreply, hreplies], hend⟩

end Similar

/-- A configuration of a self-hosted control server is put with one key and with another. -/
theorem secrets_stay_inside_key :
    let s : ControlState := ⟨⟨defaultFile.network, none⟩, .missing, []⟩
    let srv : ControlServer := ⟨js "shared", js "netedge.json", answeringDeps⟩
    let put (key : JsString) : ControlRequest :=
      ⟨js "127.0.0.1:4000", js "shared", .putConfig (.ok (headscaleConfig key)) none none⟩
    (serve exampleGo srv s [put (js "hskey-1")]).2 = (serve exampleGo srv s [put (js "other")]).2 ∧
      (serve exampleGo srv s [put (js "hskey-1")]).1.disk =
        (serve exampleGo srv s [put (js "other")]).1.disk ∧
      (serve exampleGo srv s [put (js "hskey-1")]).1.log =
        (serve exampleGo srv s [put (js "other")]).1.log := by
  have hsame (c : NetworkConfig) : Similar c c := ⟨rfl, ⟨.rfl, .rfl⟩, ⟨.rfl, .rfl⟩⟩
  have hkeys : Similar (headscaleConfig (js "hskey-1")) (headscaleConfig (js "other")) :=
    ⟨rfl, ⟨by decide, by decide⟩, ⟨.rfl, .rfl⟩⟩
  exact secrets_stay_inside ⟨⟨hsame _, .none⟩, rfl, rfl⟩
    (.cons ⟨rfl, rfl, .putConfig (.ok hkeys) none none⟩ .nil)

end LocalCast.Edge
