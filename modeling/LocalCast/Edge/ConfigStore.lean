import LocalCast.Edge.Config
import LocalCast.Foundations.AtomicFile
import LocalCast.Foundations.JsonText

/-!
The configuration file of the sidecar on its disk: `Load` and `Save` of `internal/config/config.go`
over the file system.

* `saveBytes`: what `Save` writes; `onDisk` is what `Load` finds, and `onDisk_saveBytes` the round
  trip through the bytes.
* `load_after_run`: whatever saves are under way and wherever they fail, are killed or lose their
  power, a start reads the configuration of the last one that was finished, and never half of one.
* `bytes_without_secrets`: no byte on the disk depends on a secret.

A file whose members are no strings, or whose version is no integer, does not parse.
-/

namespace LocalCast.Edge

open JsString Json Runs AtomicFile

/-! ### The bytes of a configuration -/

/-- The texts of a configuration. -/
def NetworkConfig.texts (c : NetworkConfig) : List JsString :=
  [c.mode, c.controlURL, c.authKey, c.expose, c.certStrategy, c.certDomain, c.dnsProvider,
    c.dnsAPIToken, c.hostname]

/-- A configuration whose texts are UTF-8, as the strings of a JSON body are. -/
structure TextConfig where
  network : NetworkConfig
  texts : ∀ s ∈ network.texts, WellFormed s

def Document.toJson (d : Document) : Json :=
  .obj [(js "version", .num d.version),
    (js "network", .obj (d.network.map fun m => (m.1, .str m.2)))]

/-- What `Save` is called with: `config.File{Network: cfg}`. -/
def TextConfig.file (c : TextConfig) : ConfigFile := ⟨0, c.network⟩

/-- `Save`: the bytes of the temporary file. -/
def saveBytes (c : TextConfig) : List UInt8 := fileBytes Escapes.go (save c.file).toJson

/-! ### What a start finds -/

/-- The members of `NetworkConfig`, without case. -/
def networkKeys : List JsString :=
  [js "mode", js "controlurl", js "authkey", js "expose", js "certstrategy", js "certdomain",
    js "dnsprovider", js "dnsapitoken", js "hostname"]

/-- The members of the network that are known; `null` leaves one as it is, and what is no string
does not parse. -/
def readNetwork : List (JsString × Json) → Option (List (JsString × JsString))
  | [] => some []
  | (name, v) :: members =>
      if lower name ∈ networkKeys then
        match v with
        | .str s => (readNetwork members).map ((name, s) :: ·)
        | .null => readNetwork members
        | _ => none
      else readNetwork members

/-- One member of the document. -/
def readMember (d : Document) (m : JsString × Json) : Option Document :=
  if lower m.1 = js "version" then
    match m.2 with
    | .num q =>
        if q.den = 1 ∧ -2 ^ 63 ≤ q.num ∧ q.num < 2 ^ 63 then some { d with version := q.num }
        else none
    | .null => some d
    | _ => none
  else if lower m.1 = js "network" then
    match m.2 with
    | .obj members =>
        (readNetwork members).map fun network => { d with network := d.network ++ network }
    | .null => some d
    | _ => none
  else some d

/-- `json.Unmarshal` into a zero `File`. -/
def readDocument : Json → Option Document
  | .null => some ⟨0, []⟩
  | .obj members => members.foldlM readMember ⟨0, []⟩
  | _ => none

/-- What is at the path of the configuration. -/
def onDisk : Option (List UInt8) → OnDisk
  | none => .missing
  | some bytes =>
      match (parse (bytesText bytes)).bind readDocument with
      | some d => .document d
      | none => .malformed

/-! ### The round trip -/

lemma mem_marshal {c : NetworkConfig} {m : JsString × JsString} (h : m ∈ marshal c) :
    m.2 ∈ c.texts := by
  simp only [marshal, omitEmpty, List.mem_append, List.mem_cons, List.not_mem_nil, or_false,
    List.mem_ite_nil_left] at h
  simp only [NetworkConfig.texts, List.mem_cons, List.not_mem_nil, or_false]
  rcases h with (((((((rfl | ⟨-, rfl⟩) | ⟨-, rfl⟩) | rfl | rfl) | ⟨-, rfl⟩) | ⟨-, rfl⟩) | ⟨-, rfl⟩) |
    rfl) <;> simp

lemma name_of_mem_marshal {c : NetworkConfig} {m : JsString × JsString} (h : m ∈ marshal c) :
    m.1 ∈ [js "mode", js "controlUrl", js "authKey", js "expose", js "certStrategy",
      js "certDomain", js "dnsProvider", js "dnsApiToken", js "hostname"] := by
  simp only [marshal, omitEmpty, List.mem_append, List.mem_cons, List.not_mem_nil, or_false,
    List.mem_ite_nil_left] at h
  rcases h with (((((((rfl | ⟨-, rfl⟩) | ⟨-, rfl⟩) | rfl | rfl) | ⟨-, rfl⟩) | ⟨-, rfl⟩) |
    ⟨-, rfl⟩) | rfl) <;> simp

lemma lower_mem_networkKeys {c : NetworkConfig} {m : JsString × JsString} (h : m ∈ marshal c) :
    lower m.1 ∈ networkKeys := by
  have hkeys : ∀ name ∈ [js "mode", js "controlUrl", js "authKey", js "expose",
      js "certStrategy", js "certDomain", js "dnsProvider", js "dnsApiToken", js "hostname"],
      lower name ∈ networkKeys := by decide
  exact hkeys m.1 (name_of_mem_marshal h)

lemma wellFormed_name {c : NetworkConfig} {m : JsString × JsString} (h : m ∈ marshal c) :
    WellFormed m.1 := by
  have hname := name_of_mem_marshal h
  simp only [List.mem_cons, List.not_mem_nil, or_false] at hname
  rcases hname with h | h | h | h | h | h | h | h | h <;>
    · rw [h]
      exact wellFormed_js _

/-- What is saved is UTF-8 as well. -/
lemma wellFormed_saved (c : TextConfig) :
    ∀ s ∈ c.network.applyDefaults.withoutSecrets.texts, WellFormed s := by
  have htexts := c.texts
  simp only [NetworkConfig.texts, List.forall_mem_cons] at htexts
  obtain ⟨hmode, hcontrol, -, hexpose, hstrategy, hdomain, hprovider, -, hhost, -⟩ := htexts
  have hnil : WellFormed [] := ⟨[], rfl⟩
  simp only [NetworkConfig.texts, NetworkConfig.applyDefaults, NetworkConfig.withoutSecrets,
    List.forall_mem_cons]
  refine ⟨hmode, hcontrol, hnil, ?_, hstrategy, hdomain, hprovider, hnil, ?_,
    List.forall_mem_nil _⟩
  · split_ifs
    · exact wellFormed_js _
    · exact hexpose
  · split_ifs
    · exact wellFormed_js _
    · exact hhost

lemma whole_toJson (c : TextConfig) : Whole WellFormed (save c.file).toJson := by
  refine .obj ?_ ?_
  · simp only [List.forall_mem_cons]
    exact ⟨wellFormed_js _, wellFormed_js _, List.forall_mem_nil _⟩
  · simp only [List.forall_mem_cons]
    refine ⟨.num _, .obj ?_ ?_, List.forall_mem_nil _⟩
    · intro m hm
      obtain ⟨n, hn, rfl⟩ := List.mem_map.mp hm
      exact wellFormed_name hn
    · intro m hm
      obtain ⟨n, hn, rfl⟩ := List.mem_map.mp hm
      exact .str (wellFormed_saved c _ (mem_marshal hn))

lemma readNetwork_map {ns : List (JsString × JsString)} (h : ∀ m ∈ ns, lower m.1 ∈ networkKeys) :
    readNetwork (ns.map fun m => (m.1, .str m.2)) = some ns := by
  induction ns with
  | nil => rfl
  | cons m ns ih =>
      rw [List.map_cons, readNetwork, if_pos (h m List.mem_cons_self)]
      simp only [ih fun n hn => h n (List.mem_cons_of_mem _ hn), Option.map_some]

lemma readDocument_toJson (f : ConfigFile) : readDocument (save f).toJson = some (save f) := by
  have hnetwork : readNetwork ((save f).network.map fun m => (m.1, .str m.2)) =
      some (save f).network := readNetwork_map fun m hm => lower_mem_networkKeys hm
  have hversion : readMember ⟨0, []⟩ (js "version", .num version) = some ⟨version, []⟩ := rfl
  have hmember : readMember ⟨version, []⟩ (js "network",
      .obj ((save f).network.map fun m => (m.1, .str m.2))) = some (save f) := by
    have hother : lower (js "network") ≠ js "version" := by decide
    have hsame : lower (js "network") = js "network" := by decide
    simp only [readMember, if_neg hother, if_pos hsame, hnetwork, Option.map_some,
      List.nil_append]
    rfl
  have hjson : (save f).toJson = .obj [(js "version", .num version), (js "network",
      .obj ((save f).network.map fun m => (m.1, .str m.2)))] := rfl
  simp only [hjson, readDocument, List.foldlM_cons, hversion, hmember, Option.bind_eq_bind,
    Option.bind_some, List.foldlM_nil]
  rfl

/-- **A start finds what was saved.** -/
theorem onDisk_saveBytes (c : TextConfig) :
    onDisk (some (saveBytes c)) = .document (save c.file) := by
  rw [onDisk, saveBytes, parse_fileBytes (fun _ => wellFormed_go) (whole_toJson c),
    Option.bind_some, readDocument_toJson]

/-! ### Runs -/

/-- A node of a self-hosted control server, with its key. -/
def selfHosted : TextConfig where
  network :=
    { NetworkConfig.zero with
      mode := modeCustom
      controlURL := js "https://headscale.example.com"
      authKey := js "hskey"
      certStrategy := certExternalProxy
      certDomain := js "files.example.com" }
  texts := by
    have hnil : WellFormed [] := ⟨[], rfl⟩
    simp only [NetworkConfig.texts, List.forall_mem_cons]
    exact ⟨wellFormed_js _, wellFormed_js _, wellFormed_js _, hnil, wellFormed_js _,
      wellFormed_js _, hnil, hnil, hnil, List.forall_mem_nil _⟩

/-- What a start makes of the last save that was finished. -/
def reloaded : Option TextConfig → ConfigFile
  | none => defaultFile
  | some c => ⟨version, c.network.applyDefaults.withoutSecrets⟩

/-- **A start reads the last save that was finished**, whatever saves were under way, and wherever
they failed, were killed or lost their power. -/
theorem load_after_run {d : Disk JsString} {path : JsString} (hnew : d.content path = none)
    {as : List (AtomicFile.Action JsString TextConfig)} {t : State JsString TextConfig}
    (hrun : Run (Steps (AtomicFile.step saveBytes path true)) (State.init d) as t) :
    load (onDisk (t.disk.content path)) = .ok (reloaded t.committed) := by
  rw [content_of_run (whole_init hnew) hrun]
  cases t.committed with
  | none => rfl
  | some c =>
      rw [Option.map_some, onDisk_saveBytes, load_save]
      rfl

lemma temp_ne : js "netedge.json.1.tmp" ≠ js "netedge.json" := by decide

/-- The first run: the configuration of a self-hosted control server is saved, and read back
without its secrets. -/
theorem load_after_run_first : ∃ t : State JsString TextConfig,
    t.committed = some selfHosted ∧
      load (onDisk (t.disk.content (js "netedge.json"))) = .ok (reloaded t.committed) := by
  obtain ⟨t, hrun, hcommitted⟩ := exists_run_replace (s := State.init Disk.empty)
    saveBytes true temp_ne rfl selfHosted
  exact ⟨t, hcommitted, load_after_run rfl hrun⟩

/-! ### Secrets -/

lemma withoutSecrets_texts (c : TextConfig) :
    ∀ s ∈ c.network.withoutSecrets.texts, WellFormed s := by
  have htexts := c.texts
  simp only [NetworkConfig.texts, List.forall_mem_cons] at htexts
  obtain ⟨hmode, hcontrol, -, hexpose, hstrategy, hdomain, hprovider, -, hhost, -⟩ := htexts
  have hnil : WellFormed [] := ⟨[], rfl⟩
  simp only [NetworkConfig.texts, NetworkConfig.withoutSecrets, List.forall_mem_cons]
  exact ⟨hmode, hcontrol, hnil, hexpose, hstrategy, hdomain, hprovider, hnil, hhost,
    List.forall_mem_nil _⟩

/-- A configuration less its secrets. -/
def TextConfig.withoutSecrets (c : TextConfig) : TextConfig :=
  ⟨c.network.withoutSecrets, withoutSecrets_texts c⟩

lemma saveBytes_withoutSecrets (c : TextConfig) : saveBytes c.withoutSecrets = saveBytes c := rfl

/-- **No byte on the disk depends on a secret**, neither in the file nor in one that a save has
left behind: runs that save the same but for the secrets leave the same disk. -/
theorem bytes_without_secrets {d : Disk JsString} {path : JsString} {flush : Bool}
    {as bs : List (AtomicFile.Action JsString TextConfig)} {t u : State JsString TextConfig}
    (hsame : as.map (Action.map TextConfig.withoutSecrets) =
      bs.map (Action.map TextConfig.withoutSecrets))
    (has : Run (Steps (AtomicFile.step saveBytes path flush)) (State.init d) as t)
    (hbs : Run (Steps (AtomicFile.step saveBytes path flush)) (State.init d) bs u) :
    t.disk = u.disk := by
  have hmapped := run_map saveBytes_withoutSecrets has
  have hother := run_map saveBytes_withoutSecrets hbs
  rw [hsame] at hmapped
  have hend : t.map TextConfig.withoutSecrets = u.map TextConfig.withoutSecrets :=
    Option.some.inj ((exec_eq_some_iff.mpr hmapped).symm.trans (exec_eq_some_iff.mpr hother))
  calc t.disk
      = (t.map TextConfig.withoutSecrets).disk := rfl
    _ = (u.map TextConfig.withoutSecrets).disk := by rw [hend]
    _ = u.disk := rfl

/-- The same file saved with its key and without. -/
theorem bytes_without_secrets_key : ∃ t u : State JsString TextConfig,
    t.committed = some selfHosted ∧ u.committed = some selfHosted.withoutSecrets ∧
      t.disk = u.disk := by
  obtain ⟨t, has, hcommitted⟩ := exists_run_replace (s := State.init Disk.empty)
    saveBytes true temp_ne rfl selfHosted
  obtain ⟨u, hbs, hother⟩ := exists_run_replace (s := State.init Disk.empty)
    saveBytes true temp_ne rfl selfHosted.withoutSecrets
  refine ⟨t, u, hcommitted, hother, bytes_without_secrets ?_ has hbs⟩
  simp only [List.map_cons, List.map_nil, AtomicFile.Action.map, saveBytes_withoutSecrets]
  rfl

end LocalCast.Edge
