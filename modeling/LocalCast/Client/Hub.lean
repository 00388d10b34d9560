import LocalCast.Client.QrCode
import LocalCast.Db.Schema
import LocalCast.Foundations.Casing
import LocalCast.Foundations.Runs

/-!
`ClientHub` of the desktop client (`main/hub.ts`) with the registry of its servers
(`main/registry.ts`), the session vault, and the bearers that are attached to media requests
(`main/mediaAuth.ts`).

* `serverIdFor`, `registryAdd`: what a server is called, and the list of known servers.
* `Hub`, `hubStep`: the clients of the servers, the vault, and the media requests that wait for a
  session; a client that has lost its server may still write its session. The process may be
  started anew at any point.
* `serverIdFor_pairable`: the id of a server is its host.
* `Homely`: the invariant; `homely_step` is one step of the hub.
* `registry_sound`: every server is listed once, under its host, however its host was spelled.
* `bearer_stays_home`: a bearer goes only to the address of the server it was obtained from.

`toLowerCase` is a parameter that says what becomes of ASCII.
-/

namespace LocalCast.Client

open JsString Db Runs

/-! ### The registry -/

structure ServerRecord where
  id : JsString
  label : JsString
  host : JsString
  addedAt : Time
  lastConnectedAt : Option Time
deriving DecidableEq

/-- A unit of `[a-z0-9.-]`. -/
def isIdUnit (c : CodeUnit) : Bool := Server.isAlnum c || c = 46 || c = 45

def serverIdFor (lc : Lowercase) (host : JsString) : JsString :=
  (lc.toLowerCase (trim host)).map fun c => if isIdUnit c then c else 45

def defaultLabelFor (host : JsString) : JsString :=
  let first := ((splitOn (fun c => c = 46) host).head?).getD []
  if first.length > 0 then first else host

def baseUrlFor (host : JsString) : JsString := js "https://" ++ host

/-- `replace(/^https?:\/\//, '')`. -/
def withoutScheme (host : JsString) : JsString :=
  if (js "http://").isPrefixOf host then host.drop 7
  else if (js "https://").isPrefixOf host then host.drop 8
  else host

/-- `replace(/\/+$/, '')`. -/
def withoutSlashes (host : JsString) : JsString :=
  (host.reverse.dropWhile fun c => c = 47).reverse

/-- A host as `add` spells it. -/
def normalisedHost (lc : Lowercase) (host : JsString) : JsString :=
  withoutSlashes (withoutScheme (lc.toLowerCase (trim host)))

/-- A label that is not blank, trimmed. -/
def labelOf (label : Option JsString) : Option JsString :=
  (label.map trim).filter fun l => l.length > 0

/-- `ServerRegistry.add`: the servers and the record; `none` where it throws. -/
def registryAdd (lc : Lowercase) (servers : List ServerRecord) (host : JsString)
    (label : Option JsString) (now : Time) : Option (List ServerRecord × ServerRecord) :=
  let normalised := normalisedHost lc host
  if !isPairableHost normalised then none
  else
    let id := serverIdFor lc normalised
    match servers.find? fun server => server.id = id with
    | some existing =>
        let renamed := { existing with label := (labelOf label).getD existing.label }
        some (servers.map (fun s => if s.id = id then renamed else s), renamed)
    | none =>
        let record : ServerRecord :=
          { id := id
            label := (labelOf label).getD (defaultLabelFor normalised)
            host := normalised
            addedAt := now
            lastConnectedAt := none }
        some (servers ++ [record], record)

/-! ### The hub -/

/-- What the hub uses of a session. -/
structure HubSession where
  deviceId : JsString
  accessToken : JsString
deriving DecidableEq

/-- A `LocalCastClient`: its store is bound to a server, its requests go to `baseUrl`. -/
structure HubClient where
  serverId : JsString
  baseUrl : JsString
  session : Option HubSession
deriving DecidableEq

/-- An entry of the hub, whose client is given by its number. -/
structure HubEntry where
  record : ServerRecord
  client : ℕ
  deviceId : Option JsString
deriving DecidableEq

/-- The hub, the registry (whose file holds what is in memory) and the vault. `clients` are those
of this process, also where their entry is gone; `waiting` the media requests that wait for the
session of a client. `obtained` records the address of the client that stored a bearer, `attached`
the bearers that went out, with the address they went to. -/
structure Hub where
  servers : List ServerRecord
  entries : List HubEntry
  clients : List HubClient
  vault : JsString → Option HubSession
  waiting : List (JsString × ℕ)
  obtained : List (JsString × JsString)
  attached : List (JsString × JsString)

/-- A new installation. -/
def Hub.init : Hub where
  servers := []
  entries := []
  clients := []
  vault _ := none
  waiting := []
  obtained := []
  attached := []

/-- `#ensure`: the entry of a server, with the client it has or a new one. -/
def Hub.ensure (s : Hub) (record : ServerRecord) : Hub :=
  if s.entries.any fun e => e.record.id = record.id then
    { s with entries := s.entries.map fun e =>
        if e.record.id = record.id then { e with record := record } else e }
  else
    { s with
      entries := s.entries ++
        [{ record := record, client := s.clients.length
           deviceId := (s.vault record.id).map HubSession.deviceId }]
      clients := s.clients ++
        [{ serverId := record.id, baseUrl := baseUrlFor record.host, session := none }] }

/-- The constructor, over what the last process left behind. -/
def Hub.relaunch (s : Hub) : Hub :=
  s.servers.foldl Hub.ensure { s with entries := [], clients := [], waiting := [] }

/-- The session of client `n`, with what `session-changed` tells its entry. -/
def Hub.setSession (s : Hub) (n : ℕ) (session : Option HubSession) : Hub :=
  { s with
    clients := s.clients.modify n fun c => { c with session := session }
    entries := s.entries.map fun e =>
      if e.client = n then { e with deviceId := session.map HubSession.deviceId } else e }

/-- `CONTENT_PREFIX`. -/
def contentPrefix : JsString := js "/api/v1/files/"

/-- A media request in the sense of the listener: its filter, then its path. -/
def mediaUrl (lib : Url.Platform) (text : JsString) : Option Url :=
  (Url.parse lib text).filter fun url =>
    url.protocol = js "https:" && contentPrefix.isPrefixOf url.pathname

/-- `serverForUrl`: the entry of the server, the summaries being sorted by their age. -/
def Hub.serverForUrl (s : Hub) (url : Url) : Option HubEntry :=
  (s.entries.insertionSort fun a b => a.record.addedAt ≤ b.record.addedAt).find? fun e =>
    baseUrlFor e.record.host = Url.origin url && e.deviceId.isSome

/-- A server is added, connected to or removed; a client reads, stores or drops its session; a
media request comes in, or gets the session it waited for; the process starts anew. -/
inductive HubAction where
  | add (host : JsString) (label : Option JsString) (now : Time)
  | noteConnected (id : JsString) (at' : Time)
  | removed (id : JsString)
  | load (client : ℕ)
  | adopt (client : ℕ) (session : HubSession)
  | signOut (client : ℕ)
  | media (text : JsString)
  | answered (text : JsString) (client : ℕ)
  | relaunch

/-- One step; `none` where it is not enabled. A request that gets no bearer leaves no trace. -/
def hubStep (lc : Lowercase) (lib : Url.Platform) (s : Hub) : HubAction → Option Hub
  | .add host label now =>
      match registryAdd lc s.servers host label now with
      | none => some s
      | some (servers, record) => some ({ s with servers := servers }.ensure record)
  | .noteConnected id at' =>
      some { s with servers := s.servers.map fun r =>
        if r.id = id then { r with lastConnectedAt := some at' } else r }
  | .removed id =>
      some { s with
        entries := s.entries.filter fun e => e.record.id ≠ id
        servers := s.servers.filter fun r => r.id ≠ id }
  | .load n =>
      (s.clients[n]?).map fun c => s.setSession n (s.vault c.serverId)
  | .adopt n session =>
      (s.clients[n]?).map fun c =>
        { s.setSession n (some session) with
          vault := Function.update s.vault c.serverId (some session)
          obtained := (c.baseUrl, session.accessToken) :: s.obtained }
  | .signOut n =>
      (s.clients[n]?).map fun c =>
        { s.setSession n none with vault := Function.update s.vault c.serverId none }
  | .media text =>
      match (mediaUrl lib text).bind s.serverForUrl with
      | none => some s
      | some e => some { s with waiting := (text, e.client) :: s.waiting }
  | .answered text n =>
      if (text, n) ∈ s.waiting then
        let s := { s with waiting := s.waiting.erase (text, n) }
        match s.clients[n]?.bind HubClient.session with
        | none => some s
        | some session => some { s with attached := (text, session.accessToken) :: s.attached }
      else none
  | .relaunch => some s.relaunch

/-! ### The id of a server -/

section Ids

variable {lc : Lowercase} {host : JsString} {c : CodeUnit}

lemma lower_eq_self (hlow : ∀ c ∈ host, lowerUnit c = c) : lower host = host := by
  calc host.map lowerUnit = host.map id := List.map_congr_left hlow
    _ = host := List.map_id host

/-- A host that may be paired with, in lower case, has only the units of an id. -/
lemma unit_of_pairable (hpair : isPairableHost host = true) (hlow : ∀ c ∈ host, lowerUnit c = c) :
    ∀ c ∈ host, Server.isAlnum c = true ∨ c = 45 ∨ c = 46 := by
  have hlower := lower_eq_self hlow
  have hname : isQualifiedName host = true := by
    rw [isPairableHost] at hpair
    split_ifs at hpair
    exact hpair
  rw [isQualifiedName, hlower, Bool.and_eq_true] at hname
  exact Server.unit_of_host (.inr hname.2)

lemma isSpace_of_unit (h : Server.isAlnum c = true ∨ c = 45 ∨ c = 46) : isSpace c = false := by
  refine isSpace_of_printable (Server.unit_lt h) ?_
  rcases h with h | rfl | rfl
  · simp only [Server.isAlnum, JsNumber.isDigit, Bool.or_eq_true, Bool.and_eq_true,
      decide_eq_true_eq, UInt16.le_iff_toNat_le, UInt16.reduceToNat] at h
    rw [UInt16.lt_iff_toNat_lt]
    have hblank : (32 : UInt16).toNat = 32 := rfl
    omega
  · decide
  · decide

/-- **The id of a server is its host**, so different servers never share one. -/
lemma serverIdFor_pairable (hpair : isPairableHost host = true)
    (hlow : ∀ c ∈ host, lowerUnit c = c) : serverIdFor lc host = host := by
  have hunit := unit_of_pairable hpair hlow
  have htrim : trim host = host := trim_of_no_space fun c hc => isSpace_of_unit (hunit c hc)
  have hascii : lc.toLowerCase host = lower host :=
    lc.ascii host fun c hc => Server.unit_lt (hunit c hc)
  have hlower := lower_eq_self hlow
  rw [serverIdFor, htrim, hascii, hlower]
  have hkept : ∀ c ∈ host, (if isIdUnit c then c else 45) = id c := by
    intro c hc
    refine if_pos ?_
    rw [isIdUnit]
    rcases hunit c hc with h | rfl | rfl
    · rw [h, Bool.true_or, Bool.true_or]
    · decide
    · decide
  exact (List.map_congr_left hkept).trans (List.map_id host)

/-- What `add` makes of a host is in lower case. -/
lemma normalisedHost_low : ∀ c ∈ normalisedHost lc host, lowerUnit c = c := by
  intro c hc
  rw [normalisedHost, withoutSlashes, List.mem_reverse] at hc
  have hc := List.mem_reverse.mp ((List.dropWhile_sublist _).mem hc)
  rw [withoutScheme] at hc
  refine lc.settled (trim host) c ?_
  split_ifs at hc
  · exact List.mem_of_mem_drop hc
  · exact List.mem_of_mem_drop hc
  · exact hc

end Ids

/-! ### One step -/

/-- A record names a host that may be paired with, and its id is that host. -/
structure ServerRecord.Sound (r : ServerRecord) : Prop where
  pairable : isPairableHost r.host = true
  low : ∀ c ∈ r.host, lowerUnit c = c
  id : r.id = r.host

/-- The invariant: what a client obtained, its store holds, and its requests carry, is of the
address of its server. -/
structure Homely (lib : Url.Platform) (s : Hub) : Prop where
  servers : ∀ r ∈ s.servers, r.Sound
  nodup : (s.servers.map ServerRecord.id).Nodup
  entries : ∀ e ∈ s.entries, e.record.Sound ∧
    ∃ c, s.clients[e.client]? = some c ∧ c.serverId = e.record.id
  clients : ∀ c ∈ s.clients, c.baseUrl = baseUrlFor c.serverId ∧
    ∀ session, c.session = some session → (c.baseUrl, session.accessToken) ∈ s.obtained
  vault : ∀ id session, s.vault id = some session →
    (baseUrlFor id, session.accessToken) ∈ s.obtained
  waiting : ∀ x ∈ s.waiting, ∃ url c, mediaUrl lib x.1 = some url ∧
    s.clients[x.2]? = some c ∧ c.baseUrl = Url.origin url
  attached : ∀ x ∈ s.attached, ∃ url, mediaUrl lib x.1 = some url ∧
    (Url.origin url, x.2) ∈ s.obtained

section Step

variable {lc : Lowercase} {lib : Url.Platform} {s t : Hub}

lemma homely_init : Homely lib .init where
  servers _ h := absurd h List.not_mem_nil
  nodup := List.nodup_nil
  entries _ h := absurd h List.not_mem_nil
  clients _ h := absurd h List.not_mem_nil
  vault _ _ h := by cases h
  waiting _ h := absurd h List.not_mem_nil
  attached _ h := absurd h List.not_mem_nil

/-- A record that takes the place of the one with its id leaves the ids as they are. -/
lemma ids_replaced (servers : List ServerRecord) (renamed : ServerRecord) {id : JsString}
    (hid : renamed.id = id) :
    (servers.map fun s => if s.id = id then renamed else s).map ServerRecord.id
      = servers.map ServerRecord.id := by
  rw [List.map_map]
  refine List.map_congr_left fun s _ => ?_
  rw [Function.comp_apply]
  split_ifs with hs
  · exact hid.trans hs.symm
  · rfl

/-- A server that is added is listed once, however its host is spelled. -/
lemma registryAdd_sound {servers servers' : List ServerRecord} {record : ServerRecord}
    {host : JsString} {label : Option JsString} {now : Time}
    (h : registryAdd lc servers host label now = some (servers', record))
    (hsound : ∀ r ∈ servers, r.Sound) (hnodup : (servers.map ServerRecord.id).Nodup) :
    (∀ r ∈ servers', r.Sound) ∧ (servers'.map ServerRecord.id).Nodup ∧ record.Sound := by
  simp only [registryAdd] at h
  split at h
  · cases h
  · next hpair =>
    have hpair : isPairableHost (normalisedHost lc host) = true := by simpa using hpair
    split at h
    · next existing hfind =>
      obtain ⟨rfl, rfl⟩ := Prod.mk.inj (Option.some.inj h)
      have hold := hsound existing (List.mem_of_find?_eq_some hfind)
      have hnew : ({ existing with label := (labelOf label).getD existing.label } :
          ServerRecord).Sound := ⟨hold.pairable, hold.low, hold.id⟩
      have hid : existing.id = serverIdFor lc (normalisedHost lc host) :=
        by simpa using List.find?_some hfind
      refine ⟨?_, ?_, hnew⟩
      · rintro r hr
        obtain ⟨q, hq, rfl⟩ := List.mem_map.mp hr
        split_ifs
        · exact hnew
        · exact hsound q hq
      · rw [ids_replaced servers { existing with label := (labelOf label).getD existing.label } hid]
        exact hnodup
    · next hfind =>
      obtain ⟨rfl, rfl⟩ := Prod.mk.inj (Option.some.inj h)
      have hid : serverIdFor lc (normalisedHost lc host) = normalisedHost lc host :=
        serverIdFor_pairable hpair normalisedHost_low
      have hnew : ServerRecord.Sound
          { id := serverIdFor lc (normalisedHost lc host)
            label := (labelOf label).getD (defaultLabelFor (normalisedHost lc host))
            host := normalisedHost lc host
            addedAt := now
            lastConnectedAt := none } := ⟨hpair, normalisedHost_low, hid⟩
      refine ⟨?_, ?_, hnew⟩
      · intro r hr
        rcases List.mem_append.mp hr with hr | hr
        · exact hsound r hr
        · exact List.mem_singleton.mp hr ▸ hnew
      · rw [List.map_append, List.nodup_append]
        refine ⟨hnodup, List.nodup_singleton _, ?_⟩
        rintro id hid' _ hlast rfl
        obtain ⟨r, hr, hrid⟩ := List.mem_map.mp hid'
        have hne := List.find?_eq_none.mp hfind r hr
        rw [List.map_singleton, List.mem_singleton] at hlast
        exact hne (decide_eq_true (hrid.trans hlast))

/-- The entry of a server keeps its client; a new one gets a client of its own. -/
lemma Homely.ensure {record : ServerRecord} (h : Homely lib s) (hrecord : record.Sound) :
    Homely lib (s.ensure record) := by
  rw [Hub.ensure]
  split_ifs with hknown
  · refine { h with entries := ?_ }
    intro e he
    obtain ⟨q, hq, rfl⟩ := List.mem_map.mp he
    obtain ⟨hsound, c, hc, hid⟩ := h.entries q hq
    split_ifs with hsame
    · exact ⟨hrecord, c, hc, hid.trans hsame⟩
    · exact ⟨hsound, c, hc, hid⟩
  · have hold {n : ℕ} {c : HubClient} (hc : s.clients[n]? = some c) (new : HubClient) :
        (s.clients ++ [new])[n]? = some c := by
      rw [List.getElem?_append_left (List.getElem?_eq_some_iff.mp hc).1, hc]
    refine { h with entries := ?_, clients := ?_, waiting := ?_ }
    · intro e he
      rcases List.mem_append.mp he with he | he
      · obtain ⟨hsound, c, hc, hid⟩ := h.entries e he
        exact ⟨hsound, c, hold hc _, hid⟩
      · obtain rfl := List.mem_singleton.mp he
        exact ⟨hrecord, _, List.getElem?_concat_length, rfl⟩
    · intro c hc
      rcases List.mem_append.mp hc with hc | hc
      · exact h.clients c hc
      · obtain rfl := List.mem_singleton.mp hc
        refine ⟨?_, by rintro session ⟨⟩⟩
        rw [hrecord.id]
    · intro x hx
      obtain ⟨url, c, hurl, hc, hbase⟩ := h.waiting x hx
      exact ⟨url, c, hurl, hold hc _, hbase⟩

/-- A process that starts anew has the entries of its registry. -/
lemma Homely.relaunch (h : Homely lib s) : Homely lib s.relaunch := by
  have hfold : ∀ (records : List ServerRecord) (u : Hub), (∀ r ∈ records, r.Sound) →
      Homely lib u → Homely lib (records.foldl Hub.ensure u) := by
    intro records
    induction records with
    | nil => exact fun u _ hu => hu
    | cons r rest ih =>
        intro u hsound hu
        exact ih _ (fun q hq => hsound q (List.mem_cons_of_mem _ hq))
          (hu.ensure (hsound r List.mem_cons_self))
  refine hfold _ _ h.servers { h with entries := ?_, clients := ?_, waiting := ?_ }
  · exact fun _ he => absurd he List.not_mem_nil
  · exact fun _ hc => absurd hc List.not_mem_nil
  · exact fun _ hx => absurd hx List.not_mem_nil

/-- What a client holds is of its own address. -/
lemma Homely.setSession {n : ℕ} {session : Option HubSession} (h : Homely lib s)
    (hsession : ∀ c, s.clients[n]? = some c → ∀ new, session = some new →
      (c.baseUrl, new.accessToken) ∈ s.obtained) : Homely lib (s.setSession n session) := by
  have hmoved {m : ℕ} {c : HubClient} (hc : s.clients[m]? = some c) :
      ∃ c', (s.clients.modify n fun c => { c with session := session })[m]? = some c' ∧
        c'.serverId = c.serverId ∧ c'.baseUrl = c.baseUrl := by
    by_cases hm : n = m
    · subst hm
      rw [List.getElem?_modify_eq, hc]
      exact ⟨_, rfl, rfl, rfl⟩
    · rw [List.getElem?_modify_ne _ _ hm]
      exact ⟨c, hc, rfl, rfl⟩
  refine { h with entries := ?_, clients := ?_, waiting := ?_ }
  · intro e he
    obtain ⟨q, hq, rfl⟩ := List.mem_map.mp he
    obtain ⟨hsound, c, hc, hid⟩ := h.entries q hq
    obtain ⟨c', hc', hid', -⟩ := hmoved hc
    split_ifs
    · exact ⟨hsound, c', hc', hid'.trans hid⟩
    · exact ⟨hsound, c', hc', hid'.trans hid⟩
  · intro c hc
    obtain ⟨m, hm⟩ := List.mem_iff_getElem?.mp hc
    by_cases hmn : n = m
    · subst hmn
      rw [Hub.setSession, List.getElem?_modify_eq] at hm
      obtain ⟨q, hq, rfl⟩ := Option.map_eq_some_iff.mp hm
      exact ⟨(h.clients q (List.mem_of_getElem? hq)).1, fun new hnew => hsession q hq new hnew⟩
    · rw [Hub.setSession, List.getElem?_modify_ne _ _ hmn] at hm
      exact h.clients c (List.mem_of_getElem? hm)
  · intro x hx
    obtain ⟨url, c, hurl, hc, hbase⟩ := h.waiting x hx
    obtain ⟨c', hc', -, hbase'⟩ := hmoved hc
    exact ⟨url, c', hurl, hc', hbase'.trans hbase⟩

/-- What a store is given is of the address of its server. -/
lemma Homely.setVault (h : Homely lib s) (id : JsString) (session : Option HubSession)
    (hsession : ∀ new, session = some new → (baseUrlFor id, new.accessToken) ∈ s.obtained) :
    Homely lib { s with vault := Function.update s.vault id session } := by
  refine { h with vault := fun key held hheld => ?_ }
  by_cases hkey : key = id
  · subst hkey
    exact hsession held (by simpa using hheld)
  · exact h.vault key held (by simpa [Function.update_of_ne hkey] using hheld)

/-- A server that is picked for a media request is one whose address is the request's. -/
lemma origin_of_serverForUrl {url : Url} {e : HubEntry} (h : s.serverForUrl url = some e) :
    e ∈ s.entries ∧ baseUrlFor e.record.host = Url.origin url := by
  have hmem := List.mem_of_find?_eq_some h
  have hfound := List.find?_some h
  rw [Bool.and_eq_true, decide_eq_true_eq] at hfound
  exact ⟨(List.mem_insertionSort _).mp hmem, hfound.1⟩

/-- **One step** of the hub. -/
lemma homely_step {a : HubAction} (h : Homely lib s) (hstep : hubStep lc lib s a = some t) :
    Homely lib t := by
  cases a with
  | add host label now =>
      simp only [hubStep] at hstep
      split at hstep
      · obtain rfl := Option.some.inj hstep
        exact h
      · next servers record hadd =>
        obtain rfl := Option.some.inj hstep
        obtain ⟨hsound, hnodup, hrecord⟩ := registryAdd_sound hadd h.servers h.nodup
        exact Homely.ensure { h with servers := hsound, nodup := hnodup } hrecord
  | noteConnected id at' =>
      obtain rfl := Option.some.inj hstep
      refine { h with servers := ?_, nodup := ?_ }
      · intro r hr
        obtain ⟨q, hq, rfl⟩ := List.mem_map.mp hr
        have hsound := h.servers q hq
        split_ifs
        · exact ⟨hsound.pairable, hsound.low, hsound.id⟩
        · exact hsound
      · rw [List.map_map]
        have hkept : s.servers.map (ServerRecord.id ∘ fun r =>
            if r.id = id then { r with lastConnectedAt := some at' } else r)
            = s.servers.map ServerRecord.id := by
          refine List.map_congr_left fun r _ => ?_
          rw [Function.comp_apply]
          split_ifs <;> rfl
        rw [hkept]
        exact h.nodup
  | removed id =>
      obtain rfl := Option.some.inj hstep
      exact { h with
        servers := fun r hr => h.servers r (List.mem_of_mem_filter hr)
        nodup := h.nodup.sublist (List.filter_sublist.map _)
        entries := fun e he => h.entries e (List.mem_of_mem_filter he) }
  | load n =>
      obtain ⟨c, hc, rfl⟩ := Option.map_eq_some_iff.mp hstep
      refine h.setSession fun c' hc' new hnew => ?_
      obtain rfl := Option.some.inj (hc.symm.trans hc')
      rw [(h.clients c (List.mem_of_getElem? hc)).1]
      exact h.vault c.serverId new hnew
  | adopt n session =>
      obtain ⟨c, hc, rfl⟩ := Option.map_eq_some_iff.mp hstep
      have hbase := (h.clients c (List.mem_of_getElem? hc)).1
      -- what was obtained before stays obtained
      have hgrown : Homely lib
          { s with obtained := (c.baseUrl, session.accessToken) :: s.obtained } :=
        { h with
          clients := fun q hq => ⟨(h.clients q hq).1,
            fun old hold => List.mem_cons_of_mem _ ((h.clients q hq).2 old hold)⟩
          vault := fun id old hold => List.mem_cons_of_mem _ (h.vault id old hold)
          attached := fun x hx =>
            let ⟨url, hurl, hmem⟩ := h.attached x hx
            ⟨url, hurl, List.mem_cons_of_mem _ hmem⟩ }
      have hset : Homely lib
          (Hub.setSession { s with obtained := (c.baseUrl, session.accessToken) :: s.obtained } n
            (some session)) := by
        refine hgrown.setSession fun c' hc' new hnew => ?_
        obtain rfl := Option.some.inj (hc.symm.trans hc')
        obtain rfl := Option.some.inj hnew
        exact List.mem_cons_self
      refine hset.setVault c.serverId (some session) fun new hnew => ?_
      obtain rfl := Option.some.inj hnew
      exact hbase ▸ List.mem_cons_self
  | signOut n =>
      obtain ⟨c, hc, rfl⟩ := Option.map_eq_some_iff.mp hstep
      have hset : Homely lib (s.setSession n none) := h.setSession fun _ _ _ hnew => by cases hnew
      exact hset.setVault c.serverId none fun _ hnew => by cases hnew
  | media text =>
      simp only [hubStep] at hstep
      split at hstep
      · obtain rfl := Option.some.inj hstep
        exact h
      · next e hfound =>
        obtain rfl := Option.some.inj hstep
        obtain ⟨url, hurl, hserver⟩ := Option.bind_eq_some_iff.mp hfound
        obtain ⟨hmem, horigin⟩ := origin_of_serverForUrl hserver
        obtain ⟨hsound, c, hc, hid⟩ := h.entries e hmem
        have hbase := (h.clients c (List.mem_of_getElem? hc)).1
        refine { h with waiting := fun x hx => ?_ }
        rcases List.mem_cons.mp hx with rfl | hx
        · exact ⟨url, c, hurl, hc, by rw [hbase, hid, hsound.id, horigin]⟩
        · exact h.waiting x hx
  | answered text n =>
      simp only [hubStep] at hstep
      split_ifs at hstep with hwaits
      obtain ⟨url, c, hurl, hc, horigin⟩ := h.waiting (text, n) hwaits
      have hrest : Homely lib { s with waiting := s.waiting.erase (text, n) } :=
        { h with waiting := fun x hx => h.waiting x (List.mem_of_mem_erase hx) }
      split at hstep
      · obtain rfl := Option.some.inj hstep
        exact hrest
      · next session hsession =>
        obtain rfl := Option.some.inj hstep
        refine { hrest with attached := fun x hx => ?_ }
        rcases List.mem_cons.mp hx with rfl | hx
        · have hheld : c.session = some session := by simpa [hc] using hsession
          exact ⟨url, hurl, horigin ▸ (h.clients c (List.mem_of_getElem? hc)).2 session hheld⟩
        · exact h.attached x hx
  | relaunch =>
      obtain rfl := Option.some.inj hstep
      exact h.relaunch

lemma homely_of_run {as : List HubAction} (h : Run (Steps (hubStep lc lib)) .init as s) :
    Homely lib s := h.invariant (fun _ _ _ => homely_step) homely_init

end Step

/-! ### Two servers -/

/-- A platform that knows the names of ASCII. -/
def asciiNames : Url.Platform where
  domainToAscii name := some (lower name)
  ipv6 _ := none
  other _ _ := none

/-- Two servers are added, and their clients obtain a session each. -/
def twoServers : List HubAction :=
  [.add (js "ALPHA.ts.net") none 1, .add (js "https://beta.ts.net/") none 2,
    .adopt 0 ⟨js "d1", js "a"⟩, .adopt 1 ⟨js "d2", js "b"⟩]

/-! ### Runs -/

/-- **The registry.** Over any run of the hub, however hosts were spelled and whenever the process
was started anew, every server is listed once, its id being its host, in lower case and fit to be
paired with; and adding a host that is listed, in any spelling, lists nothing new. -/
theorem registry_sound {lc : Lowercase} {lib : Url.Platform} {s : Hub} {as : List HubAction}
    (h : Run (Steps (hubStep lc lib)) .init as s) :
    (s.servers.map ServerRecord.id).Nodup ∧
      (∀ r ∈ s.servers, r.id = r.host ∧ isPairableHost r.host = true ∧ lower r.host = r.host) ∧
      ∀ r ∈ s.servers, ∀ host label now, normalisedHost lc host = r.host →
        ∃ servers record, registryAdd lc s.servers host label now = some (servers, record) ∧
          record.id = r.id ∧ servers.map ServerRecord.id = s.servers.map ServerRecord.id := by
  have hinv := homely_of_run h
  refine ⟨hinv.nodup, fun r hr => ?_, fun r hr host label now hhost => ?_⟩
  · exact ⟨(hinv.servers r hr).id, (hinv.servers r hr).pairable,
      lower_eq_self (hinv.servers r hr).low⟩
  · have hpair : isPairableHost (normalisedHost lc host) = true :=
      hhost ▸ (hinv.servers r hr).pairable
    have hid : serverIdFor lc (normalisedHost lc host) = r.id :=
      (serverIdFor_pairable hpair normalisedHost_low).trans
        (hhost.trans (hinv.servers r hr).id.symm)
    cases hfind : s.servers.find? fun q => q.id = serverIdFor lc (normalisedHost lc host) with
    | none => exact absurd (decide_eq_true hid.symm) (List.find?_eq_none.mp hfind r hr)
    | some existing =>
        have hsame : existing.id = serverIdFor lc (normalisedHost lc host) := by
          simpa using List.find?_some hfind
        simp only [registryAdd, hpair, hfind]
        exact ⟨_, _, rfl, hsame.trans hid, ids_replaced s.servers _ hsame⟩

/-- A host that is spelled in another way. -/
theorem registry_sound_respelled : ∃ s,
    Run (Steps (hubStep Lowercase.basic asciiNames)) .init
      (twoServers ++ [.add (js " http://Alpha.TS.net//") (some (js "home")) 3]) s ∧
    s.servers.map ServerRecord.host = [js "alpha.ts.net", js "beta.ts.net"] ∧
    (s.servers.map ServerRecord.id).Nodup := by
  obtain ⟨s, hrun, hs⟩ := exists_run_of_exec (hubStep Lowercase.basic asciiNames) .init
    (twoServers ++ [.add (js " http://Alpha.TS.net//") (some (js "home")) 3])
    (fun s => s.servers.map ServerRecord.host = [js "alpha.ts.net", js "beta.ts.net"])
    (by decide +kernel)
  exact ⟨s, hrun, of_decide_eq_true hs, (registry_sound hrun).1⟩

/-- **No bearer leaks.** Over any run of the hub (servers added, removed and added again in any
spelling, clients that store sessions late, the process started anew), a media request gets a
bearer only if it goes to `/api/v1/files/` over `https`, and then one that a client of exactly
that address has obtained. -/
theorem bearer_stays_home {lc : Lowercase} {lib : Url.Platform} {s : Hub} {as : List HubAction}
    (h : Run (Steps (hubStep lc lib)) .init as s) :
    ∀ x ∈ s.attached, ∃ url, Url.parse lib x.1 = some url ∧ url.protocol = js "https:" ∧
      contentPrefix <+: url.pathname ∧ (Url.origin url, x.2) ∈ s.obtained := by
  intro x hx
  obtain ⟨url, hurl, hobtained⟩ := (homely_of_run h).attached x hx
  obtain ⟨hparse, hmedia⟩ := Option.filter_eq_some_iff.mp hurl
  rw [Bool.and_eq_true, decide_eq_true_eq, List.isPrefixOf_iff_prefix] at hmedia
  exact ⟨url, hparse, hmedia.1, hmedia.2, hobtained⟩

/-- The second server is asked for a film after its client was closed and the process started
anew; its bearer comes from the vault. -/
theorem bearer_stays_home_relaunched : ∃ s,
    Run (Steps (hubStep Lowercase.basic asciiNames)) .init
      (twoServers ++ [.relaunch, .load 1, .media (js "https://beta.ts.net/api/v1/files/f/content"),
        .answered (js "https://beta.ts.net/api/v1/files/f/content") 1]) s ∧
    s.attached = [(js "https://beta.ts.net/api/v1/files/f/content", js "b")] ∧
    ∀ x ∈ s.attached, ∃ url, Url.parse asciiNames x.1 = some url ∧ url.protocol = js "https:" ∧
      contentPrefix <+: url.pathname ∧ (Url.origin url, x.2) ∈ s.obtained := by
  obtain ⟨s, hrun, hs⟩ := exists_run_of_exec (hubStep Lowercase.basic asciiNames) .init
    (twoServers ++ [.relaunch, .load 1, .media (js "https://beta.ts.net/api/v1/files/f/content"),
      .answered (js "https://beta.ts.net/api/v1/files/f/content") 1])
    (fun s => s.attached = [(js "https://beta.ts.net/api/v1/files/f/content", js "b")])
    (by decide +kernel)
  exact ⟨s, hrun, of_decide_eq_true hs, bearer_stays_home hrun⟩

end LocalCast.Client
