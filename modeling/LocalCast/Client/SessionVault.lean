import LocalCast.Foundations.AtomicFile
import LocalCast.Foundations.JsonText
import LocalCast.Foundations.Table

/-!
The sessions of the desktop client: `SessionVault` of `tokenStore.ts`, one file that holds those
of all servers, each encrypted.

* `SecretCodec`: what encrypts a text and gives it back.
* `VaultFile`, `loadVault`: the file, and what is made of any bytes at its path.
* `SessionVault.read`, `VaultCall`, `vaultStep`: reading a session, and the calls that write or
  clear one, each of which can be killed between any two calls of the file system.
* `load_vaultBytes`: a file is read back as it was written.
* `read_after_run`: after any calls, wherever they were killed, a server has the session that was
  last written for it and not cleared since, whatever was done with those of other servers.

The order that JavaScript gives keys that look like indices is left out.
-/

namespace LocalCast.Client

open JsString JsNumber Json Runs AtomicFile

/-! ### Sessions -/

/-- `isStoredSession`. -/
def isStoredSession : Json → Bool
  | .obj members =>
      ([js "deviceId", js "accessToken", js "refreshToken", js "host", js "davPassword"].all
        fun name => match get members name with
          | some (.str _) => true
          | _ => false) &&
      match get members (js "expiresAt") with
      | some (.num _) => true
      | _ => false
  | _ => false

/-- A session as it is written: an object with the members of one, whose numbers are integers. -/
structure SessionJson where
  json : Json
  integral : Integral json
  stored : isStoredSession json = true

/-- `SecretCodec`. The texts it makes of one text may differ. -/
structure SecretCodec where
  encrypt : ℕ → JsString → JsString
  decrypt : JsString → Option JsString

/-- `JSON.stringify` of a session. -/
def SessionJson.text (session : SessionJson) : JsString := render Escapes.js none 0 session.json

/-! ### The file -/

/-- A key of `sessions`, and its ciphertext. -/
structure VaultEntry where
  serverId : JsString
  blob : JsString
deriving DecidableEq

instance : Keyed VaultEntry JsString := ⟨VaultEntry.serverId⟩

/-- `VaultFile`. -/
abbrev VaultFile := Table VaultEntry

def proto : JsString := js "__proto__"

/-- The properties that an object literal has from its prototype. -/
def objectMembers : List JsString :=
  ["constructor", "hasOwnProperty", "isPrototypeOf", "propertyIsEnumerable", "toLocaleString",
    "toString", "valueOf", "__defineGetter__", "__defineSetter__", "__lookupGetter__",
    "__lookupSetter__"].map js ++ [proto]

/-- `sessions[key] = blob`; a text is no prototype. -/
def setEntry (file : VaultFile) (key blob : JsString) : VaultFile :=
  if key = proto then file else file.put ⟨key, blob⟩

def VaultFile.toJson (file : VaultFile) : Json :=
  .obj [(js "version", .num (1 : ℤ)),
    (js "sessions", .obj (file.rows.map fun e => (e.serverId, .str e.blob)))]

def vaultBytes (file : VaultFile) : List UInt8 := fileBytes Escapes.js (VaultFile.toJson file)

/-- `Object.entries` of a parsed value; none where it is no object. -/
def entriesOf : Json → Option (List (JsString × Json))
  | .obj members => some members
  | .arr items => some (items.zipIdx.map fun item => (decimal item.2, item.1))
  | _ => none

/-- One entry of `sessions`, kept where its value is a text; of two with one name the last counts. -/
def cleanEntry (entries : List (JsString × Json)) (file : VaultFile) (entry : JsString × Json) :
    VaultFile :=
  match get entries entry.1 with
  | some (.str blob) => setEntry file entry.1 blob
  | _ => file

def cleanEntries (entries : List (JsString × Json)) : VaultFile :=
  entries.foldl (cleanEntry entries) Table.empty

/-- `#load`. -/
def loadVault (content : Option (List UInt8)) : VaultFile :=
  match content.bind fun bytes => parse (bytesText bytes) with
  | some (.obj members) =>
      match (get members (js "sessions")).bind entriesOf with
      | some entries => cleanEntries entries
      | none => Table.empty
  | _ => Table.empty

/-! ### Calls -/

/-- `read`: what a name has from the prototype is not decrypted either. -/
def readSession (codec : SecretCodec) (content : Option (List UInt8)) (serverId : JsString) :
    Option Json := do
  let entry ← (loadVault content).get serverId
  let plaintext ← codec.decrypt entry.blob
  let parsed ← parse plaintext
  if isStoredSession parsed then some parsed else none

/-- A call of a store; `available` is whether the system has encrypted storage then. -/
inductive VaultCall where
  | write (serverId : JsString) (session : SessionJson) (available : Bool) (nonce : ℕ)
  | clear (serverId : JsString)

/-- The file that a call saves, where it saves one. -/
def VaultCall.saves (codec : SecretCodec) (file : VaultFile) : VaultCall → Option VaultFile
  | .write serverId session available nonce =>
      if available then some (setEntry file serverId (codec.encrypt nonce session.text)) else none
  | .clear serverId =>
      if (file.get serverId).isSome ∨ serverId ∈ objectMembers then
        some (file.delete fun e => e.serverId = serverId)
      else none

/-- A call, after how many calls of the file system the program is killed in it, if it is, and how
much of the file is written at once. -/
structure VaultStep where
  call : VaultCall
  killed : Option ℕ
  part : ℕ

def vaultPath : JsString := js "sessions.json"

/-- `path + '.tmp'`. -/
def vaultTemp : JsString := vaultPath ++ js ".tmp"

abbrev VaultDisk := State JsString VaultFile

def vaultStep (codec : SecretCodec) (s : VaultDisk) (a : VaultStep) : Option VaultDisk :=
  match a.call.saves codec (loadVault (s.disk.content vaultPath)) with
  | none => some s
  | some file =>
      exec (step vaultBytes vaultPath false) s
        (match a.killed with
          | none => calls vaultBytes vaultTemp file a.part
          | some k => killedAfter vaultBytes vaultTemp file a.part k)

/-! ### A file is read back -/

/-- No text is kept under the name of the prototype. -/
def Clean (file : VaultFile) : Prop := file.get proto = none

lemma get_setEntry (file : VaultFile) {key : JsString} (h : key ≠ proto) (blob k : JsString) :
    (setEntry file key blob).get k = if k = key then some ⟨key, blob⟩ else file.get k := by
  rw [setEntry, if_neg h]
  exact Table.get_put file ⟨key, blob⟩ k

lemma Clean.setEntry {file : VaultFile} (h : Clean file) (key blob : JsString) :
    Clean (setEntry file key blob) := by
  by_cases hkey : key = proto
  · rw [Client.setEntry, if_pos hkey]
    exact h
  · rw [Clean, get_setEntry file hkey, if_neg (Ne.symm hkey)]
    exact h

lemma Clean.delete {file : VaultFile} (h : Clean file) (p : VaultEntry → Bool) :
    Clean (file.delete p) := by
  rw [Clean, Table.get_delete, h, Option.filter_none]

lemma clean_cleanEntries (entries : List (JsString × Json)) : Clean (cleanEntries entries) := by
  have hstep (file : VaultFile) (h : Clean file) (entry : JsString × Json) :
      Clean (cleanEntry entries file entry) := by
    rw [cleanEntry]
    split
    · exact h.setEntry _ _
    · exact h
  have hall (rest : List (JsString × Json)) (file : VaultFile) (h : Clean file) :
      Clean (rest.foldl (cleanEntry entries) file) := by
    induction rest generalizing file with
    | nil => exact h
    | cons entry rest ih => exact ih _ (hstep file h entry)
  exact hall entries Table.empty rfl

lemma clean_loadVault (content : Option (List UInt8)) : Clean (loadVault content) := by
  rw [loadVault]
  split
  · split
    · exact clean_cleanEntries _
    · rfl
  · rfl

/-- A new key is put behind the others. -/
lemma rows_put (file : VaultFile) {e : VaultEntry} (h : e.serverId ∉ file.rows.map Keyed.key) :
    (file.put e).rows = file.rows ++ [e] := by
  have hinsert : file.insert e = some ⟨file.rows ++ [e], _⟩ := dif_neg h
  rw [Table.put, hinsert]

lemma rows_foldl_setEntry (rest : List VaultEntry) (file : VaultFile)
    (hnodup : ((file.rows ++ rest).map Keyed.key).Nodup) (hproto : ∀ e ∈ rest, e.serverId ≠ proto) :
    (rest.foldl (fun file e => setEntry file e.serverId e.blob) file).rows = file.rows ++ rest := by
  induction rest generalizing file with
  | nil => simp
  | cons e rest ih =>
      have hnew : e.serverId ∉ file.rows.map Keyed.key := by
        rw [List.map_append, List.map_cons] at hnodup
        exact fun hmem => (List.nodup_append.mp hnodup).2.2 _ hmem _ List.mem_cons_self rfl
      have hrows : (setEntry file e.serverId e.blob).rows = file.rows ++ [e] := by
        rw [setEntry, if_neg (hproto e List.mem_cons_self)]
        exact rows_put file hnew
      rw [List.foldl_cons, ih _ (by rwa [hrows, List.append_assoc]) fun x hx =>
        hproto x (List.mem_cons_of_mem _ hx), hrows, List.append_assoc]
      rfl

lemma get_map_rows (file : VaultFile) {e : VaultEntry} (he : e ∈ file.rows) :
    Json.get (file.rows.map fun e => (e.serverId, Json.str e.blob)) e.serverId =
      some (.str e.blob) := by
  refine get_of_mem (List.mem_map.mpr ⟨e, he, rfl⟩) ?_
  intro m hm hname
  obtain ⟨e', he', rfl⟩ := List.mem_map.mp hm
  rw [Table.eq_of_key he' he hname]

lemma eq_of_rows {file file' : VaultFile} (h : file.rows = file'.rows) : file = file' := by
  cases file
  cases file'
  simpa using h

lemma cleanEntries_map {file : VaultFile} (h : Clean file) :
    cleanEntries (file.rows.map fun e => (e.serverId, Json.str e.blob)) = file := by
  have hproto : ∀ e ∈ file.rows, e.serverId ≠ proto := fun e he hname =>
    Table.get_eq_none_iff.mp h (List.mem_map.mpr ⟨e, he, hname⟩)
  have hentry : ∀ e ∈ file.rows, ∀ acc,
      cleanEntry (file.rows.map fun e => (e.serverId, Json.str e.blob)) acc
        (e.serverId, .str e.blob) = setEntry acc e.serverId e.blob := by
    intro e he acc
    rw [cleanEntry, get_map_rows file he]
  have hfold : cleanEntries (file.rows.map fun e => (e.serverId, Json.str e.blob)) =
      file.rows.foldl (fun acc e => setEntry acc e.serverId e.blob) Table.empty := by
    rw [cleanEntries, List.foldl_map]
    exact List.foldl_ext _ _ _ fun acc e he => hentry e he acc
  have hrows := rows_foldl_setEntry file.rows Table.empty file.nodup hproto
  rw [← hfold] at hrows
  exact eq_of_rows (hrows.trans (List.nil_append _))

/-- **A file is read back as it was written.** -/
theorem load_vaultBytes {file : VaultFile} (h : Clean file) :
    loadVault (some (vaultBytes file)) = file := by
  have hwhole : Whole (fun _ => True) (VaultFile.toJson file) := by
    refine .obj (fun _ _ => trivial) ?_
    simp only [List.forall_mem_cons]
    refine ⟨.num _, .obj (fun _ _ => trivial) ?_, List.forall_mem_nil _⟩
    intro m hm
    obtain ⟨e, -, rfl⟩ := List.mem_map.mp hm
    exact .str trivial
  have hparse := parse_fileBytes (e := Escapes.js) (fun s _ => wellFormed_js_body s) hwhole
  have hsessions : (get [(js "version", Json.num (1 : ℤ)), (js "sessions",
      .obj (file.rows.map fun e => (e.serverId, .str e.blob)))] (js "sessions")).bind entriesOf =
      some (file.rows.map fun e => (e.serverId, .str e.blob)) := rfl
  rw [VaultFile.toJson] at hparse
  simp only [loadVault, vaultBytes, VaultFile.toJson, Option.bind_some, hparse, hsessions]
  exact cleanEntries_map h

/-! ### Runs -/

/-- Between two calls: the file is whole, nothing is under way, and what was saved is clean. -/
structure Settled (s : VaultDisk) : Prop where
  whole : AtomicFile.Whole vaultBytes vaultPath false s
  idle : Idle s
  clean : ∀ file, s.committed = some file → Clean file

/-- The file that a load finds. -/
def current (s : VaultDisk) : VaultFile := s.committed.getD Table.empty

lemma Settled.load {s : VaultDisk} (h : Settled s) :
    loadVault (s.disk.content vaultPath) = current s := by
  rw [h.whole.content, current]
  cases hfile : s.committed with
  | none => rfl
  | some file => exact load_vaultBytes (h.clean file hfile)

/-- A call counts where the program is not killed in it before its last call of the file system. -/
def VaultStep.counts (a : VaultStep) : Bool := a.killed.all fun k => 4 ≤ k

lemma vaultTemp_ne : vaultTemp ≠ vaultPath := by decide

lemma clean_saves {codec : SecretCodec} {file file' : VaultFile} (h : Clean file)
    {call : VaultCall} (hsaves : call.saves codec file = some file') : Clean file' := by
  cases call with
  | write serverId session available nonce =>
      simp only [VaultCall.saves] at hsaves
      split_ifs at hsaves
      cases hsaves
      exact h.setEntry _ _
  | clear serverId =>
      simp only [VaultCall.saves] at hsaves
      split_ifs at hsaves
      cases hsaves
      exact h.delete _

lemma Settled.of_exec {s t : VaultDisk} (h : Settled s) {as : List (Action JsString VaultFile)}
    (hexec : exec (step vaultBytes vaultPath false) s as = some t) (hidle : Idle t)
    (hclean : ∀ file, t.committed = some file → Clean file) : Settled t where
  whole := (exec_eq_some_iff.mp hexec).invariant
    (fun _ _ _ hwhole hstep => whole_step hwhole hstep) h.whole
  idle := hidle
  clean := hclean

/-- **A call is never stuck**, and the file is what it saves where it counts. -/
lemma Settled.step (codec : SecretCodec) {s : VaultDisk} (h : Settled s) (a : VaultStep) :
    ∃ t, vaultStep codec s a = some t ∧ Settled t ∧
      current t = if a.counts then (a.call.saves codec (current s)).getD (current s)
        else current s := by
  have hcurrent : Clean (current s) := by
    rw [← h.load]
    exact clean_loadVault _
  rw [vaultStep, h.load]
  cases hsaves : a.call.saves codec (current s) with
  | none => exact ⟨s, rfl, h, by rw [Option.getD_none, ite_self]⟩
  | some file =>
      have hfile : Clean file := clean_saves hcurrent hsaves
      cases hkilled : a.killed with
      | none =>
          obtain ⟨t, hexec, hidle, hcommitted⟩ :=
            exec_calls vaultBytes file h.idle vaultTemp_ne a.part
          refine ⟨t, hexec, h.of_exec hexec hidle fun file' hfile' => ?_, ?_⟩
          · cases hcommitted.symm.trans hfile'
            exact hfile
          · rw [VaultStep.counts, hkilled, current, hcommitted]
            rfl
      | some k =>
          obtain ⟨t, hexec, hidle, hcommitted⟩ :=
            exec_killedAfter vaultBytes file h.idle vaultTemp_ne a.part k
          refine ⟨t, hexec, h.of_exec hexec hidle fun file' hfile' => ?_, ?_⟩
          · rw [hcommitted] at hfile'
            split_ifs at hfile'
            · cases hfile'
              exact hfile
            · exact h.clean file' hfile'
          · rw [VaultStep.counts, hkilled, current, hcommitted]
            by_cases hk : 4 ≤ k <;> simp [hk, current]

/-! ### What a server reads -/

/-- What becomes of a server's session by a call. -/
def recorded (serverId : JsString) (session : Option Json) (a : VaultStep) : Option Json :=
  if a.counts then
    match a.call with
    | .write id written available _ =>
        if id = serverId ∧ available = true then some written.json else session
    | .clear id => if id = serverId then none else session
  else session

/-- A session read from a file that was loaded. -/
def readFile (codec : SecretCodec) (file : VaultFile) (serverId : JsString) : Option Json :=
  (file.get serverId).bind fun entry => (codec.decrypt entry.blob).bind fun plaintext =>
    (parse plaintext).bind fun parsed => if isStoredSession parsed then some parsed else none

lemma readSession_eq (codec : SecretCodec) (content : Option (List UInt8)) (serverId : JsString) :
    readSession codec content serverId = readFile codec (loadVault content) serverId := rfl

/-- A session comes back from its ciphertext. -/
lemma parse_text (session : SessionJson) : parse session.text = some session.json := by
  have hback : parse (session.text ++ []) = some session.json :=
    parse_render Escapes.js none session.integral 0 (by simp)
  rwa [List.append_nil] at hback

/-- **One call changes what its own server reads, and nothing else.** -/
lemma readFile_saves {codec : SecretCodec}
    (hcodec : ∀ n s, codec.decrypt (codec.encrypt n s) = some s) {serverId : JsString} (hid : serverId ≠ proto) {a : VaultStep} (ha : a.counts = true)
    (file : VaultFile) :
    readFile codec ((a.call.saves codec file).getD file) serverId =
      recorded serverId (readFile codec file serverId) a := by
  rw [recorded, if_pos ha]
  cases a.call with
  | write id session available nonce =>
      cases available with
      | false => simp [VaultCall.saves]
      | true =>
          simp only [VaultCall.saves, if_true, Option.getD_some, and_true]
          by_cases hproto : id = proto
          · have hne : id ≠ serverId := by
              rintro rfl
              exact hid hproto
            rw [setEntry, if_pos hproto, if_neg hne]
          · rw [readFile, get_setEntry file hproto]
            by_cases hsame : id = serverId
            · rw [if_pos hsame.symm, if_pos hsame, Option.bind_some, hcodec, Option.bind_some,
                parse_text, Option.bind_some, if_pos session.stored]
            · rw [if_neg (Ne.symm hsame), if_neg hsame, readFile]
  | clear id =>
      simp only [VaultCall.saves]
      by_cases hsame : id = serverId
      · rw [if_pos hsame]
        split_ifs with hthere
        · rw [Option.getD_some, readFile, Table.get_delete]
          cases hget : file.get serverId with
          | none => rfl
          | some e =>
              have hkey : e.serverId = id := (Table.key_of_get hget).trans hsame.symm
              simp [Option.filter_some, hkey]
        · have hnone : file.get serverId = none := by
            simpa [hsame] using (not_or.mp hthere).1
          rw [Option.getD_none, readFile, hnone, Option.bind_none]
      · rw [if_neg hsame]
        split_ifs with hthere
        · rw [Option.getD_some, readFile, readFile, Table.get_delete]
          cases hget : file.get serverId with
          | none => rfl
          | some e =>
              have hkey : e.serverId ≠ id := by
                rw [show e.serverId = serverId from Table.key_of_get hget]
                exact Ne.symm hsame
              simp [Option.filter_some, hkey]
        · rw [Option.getD_none]

/-- **A server has the session that was last written for it and not cleared since**, whatever was
done with those of others, and wherever a call was killed. -/
theorem read_after_run (codec : SecretCodec)
    (hcodec : ∀ n s, codec.decrypt (codec.encrypt n s) = some s) {d : Disk JsString}
    (hnew : d.content vaultPath = none) (as : List VaultStep) {serverId : JsString}
    (hid : serverId ≠ proto) :
    ∃ t, exec (vaultStep codec) (State.init d) as = some t ∧
      readSession codec (t.disk.content vaultPath) serverId =
        as.foldl (recorded serverId) none := by
  have hrun (as : List VaultStep) (s : VaultDisk) (h : Settled s) :
      ∃ t, exec (vaultStep codec) s as = some t ∧ Settled t ∧
        readFile codec (current t) serverId =
          as.foldl (recorded serverId) (readFile codec (current s) serverId) := by
    induction as generalizing s with
    | nil => exact ⟨s, rfl, h, rfl⟩
    | cons a as ih =>
        obtain ⟨u, hu, hsettled, hcurrent⟩ := h.step codec a
        obtain ⟨t, ht, hend, hread⟩ := ih u hsettled
        refine ⟨t, by rw [exec, hu, Option.bind_some, ht], hend, ?_⟩
        rw [hread, List.foldl_cons, hcurrent]
        cases ha : a.counts with
        | true => rw [if_pos rfl, readFile_saves hcodec hid ha]
        | false => simp [recorded, ha]
  obtain ⟨t, ht, hsettled, hread⟩ :=
    hrun as (State.init d) ⟨whole_init hnew, fun _ => rfl, by simp [State.init]⟩
  refine ⟨t, ht, ?_⟩
  rw [readSession_eq, hsettled.load, hread]
  rfl

/-- The session of a device. -/
def exampleSession (token : JsString) : SessionJson where
  json := .obj [(js "deviceId", .str (js "d1")), (js "accessToken", .str token),
    (js "refreshToken", .str (js "r1")), (js "expiresAt", .num (1790000000000 : ℤ)),
    (js "host", .str (js "ali-pc.tail1234.ts.net")), (js "davPassword", .str (js "dav"))]
  integral := by
    have hstr (s : JsString) : Integral (.str s) := .str trivial
    refine .obj (fun _ _ => trivial) ?_
    simp only [List.forall_mem_cons]
    exact ⟨hstr _, hstr _, hstr _, .num _, hstr _, hstr _, List.forall_mem_nil _⟩
  stored := rfl

/-- Two servers are paired, and the program is killed while the first one is signed out. -/
theorem read_after_run_killed : ∃ t,
    exec (vaultStep ⟨fun _ s => s, some⟩) (State.init Disk.empty)
      [⟨.write (js "a.ts.net") (exampleSession (js "t1")) true 0, none, 10⟩,
        ⟨.write (js "b.ts.net") (exampleSession (js "t2")) true 1, none, 10⟩,
        ⟨.clear (js "a.ts.net"), some 2, 10⟩] = some t ∧
      readSession ⟨fun _ s => s, some⟩ (t.disk.content vaultPath) (js "a.ts.net") =
        some (exampleSession (js "t1")).json := by
  obtain ⟨t, hexec, hread⟩ := read_after_run ⟨fun _ s => s, some⟩ (fun _ _ => rfl)
    (d := Disk.empty) rfl
    [⟨.write (js "a.ts.net") (exampleSession (js "t1")) true 0, none, 10⟩,
      ⟨.write (js "b.ts.net") (exampleSession (js "t2")) true 1, none, 10⟩,
      ⟨.clear (js "a.ts.net"), some 2, 10⟩] (show js "a.ts.net" ≠ proto by decide)
  exact ⟨t, hexec, hread⟩

end LocalCast.Client
