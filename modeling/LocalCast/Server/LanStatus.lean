import LocalCast.Server.Fingerprint
import LocalCast.Server.Plaintext

/-!
The status of the local network: `lanStatus()` in every order of what can change it.

* `ShareState`, `shareStep`: the calls of `Plaintext` with the encrypted listener, and the
  publisher refreshing in between.
* `currentLanEndpoint`, `status`: the functions of the source.
* `Coherent`: the status tells the sockets. `Sound` says when, by what went wrong, what is bound
  and whether there is an address; `coherent_iff` is the equivalence.
* `Keeps`: which steps keep it; `sound_step` is the equivalence for one step.
* `status_coherent_iff`: a run of coherent states is one whose steps all keep them so.
* `status_contradicts`: the status after a listener could not be bound.

`listen()` is called once.
-/

namespace LocalCast.Server

open JsString JsNumber Runs

/-! ### The server -/

/-- What decides about the unencrypted listener; the publisher, where the local network is
served, and its files; the port of `lanServer`, and `lanListening`; how many calls of `dispose()`
have yet to come to it. -/
structure ShareState where
  switch : PlaintextState
  publisher : Option LanPublisher
  files : TlsFiles
  securePort : Option ℕ
  lanListening : Bool
  disposingSecure : ℕ

/-- `LanStatus['state']`. -/
inductive LanState where
  | off | listening | noAddress | failed
deriving DecidableEq

/-- `LanStatus`. -/
structure LanShareStatus extends LanStatus where
  state : LanState
  url : Option JsString
  fingerprint256 : Option JsString
  securePort : Option ℕ
deriving DecidableEq

/-- The addresses of the two listeners. -/
def plaintextUrl (host : JsString) (port : ℕ) : JsString :=
  js "http://" ++ host ++ js ":" ++ decimal port

def secureUrl (host : JsString) (port : ℕ) : JsString :=
  js "https://" ++ host ++ js ":" ++ decimal port

namespace ShareState

variable (s : ShareState)

/-- `lanCertificateNow`. -/
def lanCertificateNow : Option LanCertificate := s.publisher.bind LanPublisher.cert

/-- `lanCertificateNow()?.publishHost`. -/
def publishHost : Option JsString := s.lanCertificateNow.bind LanCertificate.publishHost

def currentLanEndpoint : Option LanEndpoint :=
  s.lanCertificateNow.bind fun cert => cert.publishHost.bind fun host =>
    match s.switch.plaintextPort with
    | some port => some ⟨plaintextUrl host port, []⟩
    | none => s.securePort.map fun port => ⟨secureUrl host port, cert.fingerprint256⟩

/-- `currentLanStatus`. -/
def status : LanShareStatus where
  toLanStatus := s.switch.lanStatus
  state :=
    if !s.switch.config.lan then .off
    else if s.switch.lanFailure.isSome && s.securePort.isNone then .failed
    else if s.publishHost.isNone then .noAddress
    else .listening
  url := s.currentLanEndpoint.map LanEndpoint.url
  fingerprint256 := s.lanCertificateNow.map LanCertificate.fingerprint256
  securePort := s.securePort

/-- A listener of the local network is bound. -/
def Bound : Prop := s.securePort ≠ none ∨ ∃ id, s.switch.ports id ≠ none

end ShareState

inductive ShareAction where
  /-- `listen()` has bound the encrypted listener. -/
  | secure (port : ℕ)
  /-- Anything else that the calls do, but for `dispose()` at the encrypted listener. -/
  | switch (a : PlaintextAction)
  | disposedSecure
  | refresh (seen interfaces : Interfaces) (attempt : Attempt)
  /-- Somebody else changes the files. -/
  | edited (files : TlsFiles)

/-- `createServer`; `none` where it throws. -/
def startSharing (crypto : Crypto) (options : SanOptions) (config : LanConfig)
    (interfaces : Interfaces) (attempt : Attempt) (files : TlsFiles) : Option ShareState :=
  if config.lan then
    match LanPublisher.new.reissue crypto options interfaces attempt files with
    | (none, _, _) => none
    | (some _, publisher, files) =>
        some ⟨.init config true, some publisher, files, none, false, 0⟩
  else some ⟨.init config false, none, files, none, false, 0⟩

def shareStep (crypto : Crypto) (options : SanOptions) (s : ShareState) :
    ShareAction → Option ShareState
  | .secure port =>
      (plaintextStep s.switch (.secure none)).map fun t =>
        { s with switch := t, securePort := some port, lanListening := true }
  | .switch (.secure none) => none
  | .switch .dispose =>
      (plaintextStep s.switch .dispose).map fun t =>
        { s with switch := t, disposingSecure := s.disposingSecure + 1 }
  | .switch .disposed =>
      -- one of the calls has come past the encrypted listener
      if s.disposingSecure < s.switch.disposing then
        (plaintextStep s.switch .disposed).map fun t => { s with switch := t }
      else none
  | .switch a => (plaintextStep s.switch a).map fun t => { s with switch := t }
  | .disposedSecure =>
      if s.disposingSecure = 0 then none
      else some { s with
        securePort := if s.lanListening then none else s.securePort
        disposingSecure := s.disposingSecure - 1 }
  | .refresh seen interfaces attempt =>
      match s.publisher with
      | none => none
      | some p =>
          match p.refresh crypto options seen interfaces attempt s.files with
          | (_, p, files) => some { s with publisher := some p, files := files }
  | .edited files => some { s with files := files }

/-! ### The law -/

/-- The status tells the sockets. -/
structure Coherent (s : ShareState) : Prop where
  url : s.status.url ≠ none → s.status.state = .listening
  error : s.status.error ≠ none ↔ s.status.state = .failed
  encrypted : s.status.encrypted = false ↔ ∃ host port, s.publishHost = some host ∧
    s.switch.plaintextPort = some port ∧ s.status.url = some (plaintextUrl host port)
  bound : s.status.state = .listening → s.Bound
  endpoint : ∀ endpoint, s.currentLanEndpoint = some endpoint → ∃ host port,
    (s.securePort = some port ∧ endpoint.url = secureUrl host port) ∨
    ∃ id, s.switch.ports id = some port ∧ endpoint.url = plaintextUrl host port

/-- The local network is not served; or it failed, and nothing on record is bound; or nothing
went wrong, and what is bound is published, or there is no address and no unencrypted listener
on record is bound. -/
def Sound (s : ShareState) : Prop :=
  s.switch.config.lan = false ∨
  (s.switch.lanFailure ≠ none ∧ s.securePort = none ∧ s.switch.plaintextPort = none) ∨
  (s.switch.lanFailure = none ∧ ((s.publishHost = none ∧ s.switch.plaintextPort = none) ∨
    (s.publishHost ≠ none ∧ s.Bound)))

/-- The unencrypted listener on record can be closed: there is none, or no address, or something
went wrong, or something else is bound. -/
def Closable (s : ShareState) : Prop :=
  s.switch.plaintextServer = none ∨ s.switch.lanFailure ≠ none ∨ s.publishHost = none ∨
    s.securePort ≠ none ∨ ∃ id, s.switch.plaintextServer ≠ some id ∧ s.switch.ports id ≠ none

/-- What the publisher publishes after a refresh. -/
def ShareState.refreshedHost (crypto : Crypto) (options : SanOptions) (s : ShareState)
    (seen interfaces : Interfaces) (attempt : Attempt) : Option JsString :=
  s.publisher.bind fun p =>
    (p.refresh crypto options seen interfaces attempt s.files).2.1.publishHost

/-- No listener fails to be bound while one on record is, and none on record is bound after a
failure or without an address. -/
def KeepsSwitch (s : ShareState) : PlaintextAction → Prop
  | .secure (some _) | .plaintextFailed _ | .closed (some _) =>
      s.securePort = none ∧ s.switch.plaintextPort = none
  | .plaintext _ => ∀ id, s.switch.listening = some (.plaintext id) →
      s.switch.plaintextServer = some id → s.switch.lanFailure = none ∧ s.publishHost ≠ none
  | .opened _ _ => s.switch.lanFailure = none ∧ s.publishHost ≠ none
  | .setLanPlaintext false => Closable s
  | .disposed => s.switch.plaintextListening = false ∨ Closable s
  | _ => True

/-- The steps that keep the status coherent, where the local network is served: in addition, the
last listener is not closed while there is an address, and an address is found, or lost, only
while a listener is bound, or no unencrypted one on record. -/
def Keeps (crypto : Crypto) (options : SanOptions) (s : ShareState) (a : ShareAction) : Prop :=
  s.switch.config.lan = false ∨
  match a with
  | .secure _ => s.switch.lanFailure = none ∧ s.switch.plaintextPort = none
  | .switch a => KeepsSwitch s a
  | .disposedSecure => s.lanListening = false ∨ s.switch.lanFailure ≠ none ∨
      s.publishHost = none ∨ ∃ id, s.switch.ports id ≠ none
  | .refresh seen interfaces attempt => s.switch.lanFailure ≠ none ∨
      ((s.refreshedHost crypto options seen interfaces attempt = none →
          s.switch.plaintextPort = none) ∧
        (s.refreshedHost crypto options seen interfaces attempt ≠ none → s.Bound))
  | .edited _ => True

variable {crypto : Crypto} {options : SanOptions} {s t : ShareState} {a : ShareAction}

/-! ### States -/

/-- Where the local network is not served nothing is bound and nothing failed. -/
structure Sharing (s : ShareState) : Prop where
  server : s.switch.hasLanServer = s.switch.config.lan
  listening : s.switch.config.lan = false →
    s.switch.listening = none ∨ s.switch.listening = some .loopback
  unserved : s.switch.config.lan = false → s.switch.plaintextServer = none ∧
    s.switch.opening = [] ∧ s.switch.closing = [] ∧ s.switch.lanFailure = none ∧
    s.securePort = none ∧ s.publisher = none

/-- Whether an address is published, and which. -/
lemma currentLanEndpoint_eq (s : ShareState) :
    s.currentLanEndpoint.map LanEndpoint.url = s.publishHost.bind fun host =>
      match s.switch.plaintextPort with
      | some port => some (plaintextUrl host port)
      | none => s.securePort.map (secureUrl host) := by
  rw [ShareState.currentLanEndpoint, ShareState.publishHost]
  cases s.lanCertificateNow with
  | none => rfl
  | some cert =>
      rw [Option.bind_some, Option.bind_some]
      cases cert.publishHost with
      | none => rfl
      | some host =>
          rw [Option.bind_some, Option.bind_some]
          cases s.switch.plaintextPort with
          | some port => rfl
          | none => cases s.securePort <;> rfl

/-- What is published is bound. -/
lemma endpoint_bound (s : ShareState) {endpoint : LanEndpoint}
    (h : s.currentLanEndpoint = some endpoint) : ∃ host port,
      (s.securePort = some port ∧ endpoint.url = secureUrl host port) ∨
      ∃ id, s.switch.ports id = some port ∧ endpoint.url = plaintextUrl host port := by
  have hurl := currentLanEndpoint_eq s
  rw [h, Option.map_some] at hurl
  obtain ⟨host, -, hurl⟩ := Option.bind_eq_some_iff.mp hurl.symm
  cases hplain : s.switch.plaintextPort with
  | some port =>
      simp only [hplain, Option.some.injEq] at hurl
      obtain ⟨id, -, hid⟩ := Option.bind_eq_some_iff.mp hplain
      exact ⟨host, port, .inr ⟨id, hid, hurl.symm⟩⟩
  | none =>
      simp only [hplain] at hurl
      obtain ⟨port, hport, hurl⟩ := Option.map_eq_some_iff.mp hurl
      exact ⟨host, port, .inl ⟨hport, hurl.symm⟩⟩

/-- A port on record is bound. -/
lemma ports_of_plaintextPort (h : s.switch.plaintextPort ≠ none) :
    ∃ id, s.switch.ports id ≠ none := by
  obtain ⟨port, hport⟩ := Option.ne_none_iff_exists'.mp h
  obtain ⟨id, -, hid⟩ := Option.bind_eq_some_iff.mp hport
  exact ⟨id, by simp [hid]⟩

/-- The status of a local network that is not served. -/
lemma coherent_of_unserved (hs : Sharing s) (hlan : s.switch.config.lan = false) : Coherent s := by
  obtain ⟨hserver, -, -, hfail, -, hpublisher⟩ := hs.unserved hlan
  have hstate : s.status.state = .off := by simp [ShareState.status, hlan]
  have hhost : s.publishHost = none := by
    rw [ShareState.publishHost, ShareState.lanCertificateNow, hpublisher]
    rfl
  have hurl : s.status.url = none := (currentLanEndpoint_eq s).trans (by rw [hhost]; rfl)
  have hplain : s.switch.plaintextPort = none := by
    rw [PlaintextState.plaintextPort, hserver]
    rfl
  refine ⟨fun h => absurd hurl h, ?_, ?_, fun h => ?_, fun _ => endpoint_bound s⟩
  · rw [hstate]
    exact iff_of_false (not_not.mpr hfail) (by decide)
  · refine iff_of_false (by simp [ShareState.status, PlaintextState.lanStatus, hplain]) ?_
    rintro ⟨host, _, hsome, _⟩
    cases hhost.symm.trans hsome
  · rw [hstate] at h
    cases h

/-- **When the status is coherent**, by the sockets, the failure and the address. -/
theorem coherent_iff (hs : Sharing s) : Coherent s ↔ Sound s := by
  cases hlan : s.switch.config.lan with
  | false => exact iff_of_true (coherent_of_unserved hs hlan) (.inl hlan)
  | true =>
      have hurl : s.status.url = _ := currentLanEndpoint_eq s
      have hports := ports_of_plaintextPort (s := s)
      have hcoherent : Coherent s ↔ (s.status.url ≠ none → s.status.state = .listening) ∧
          (s.switch.lanFailure ≠ none ↔ s.status.state = .failed) ∧
          (s.switch.plaintextPort.isNone = false ↔ ∃ host port, s.publishHost = some host ∧
            s.switch.plaintextPort = some port ∧ s.status.url = some (plaintextUrl host port)) ∧
          (s.status.state = .listening → s.Bound) :=
        ⟨fun h => ⟨h.url, h.error, h.encrypted, h.bound⟩,
          fun h => ⟨h.1, h.2.1, h.2.2.1, h.2.2.2, fun _ => endpoint_bound s⟩⟩
      rw [hcoherent, hurl, Sound, ShareState.Bound]
      cases hfail : s.switch.lanFailure <;> cases hsecure : s.securePort <;>
        cases hhost : s.publishHost <;> cases hplain : s.switch.plaintextPort <;>
        simp_all [ShareState.status]

/-! ### Steps -/

/-- No call changes what is served. -/
lemma plaintextStep_fixed {u v : PlaintextState} {a : PlaintextAction}
    (h : plaintextStep u a = some v) :
    v.config.lan = u.config.lan ∧ v.hasLanServer = u.hasLanServer := by
  have hlisten : u.listenPlaintext.config.lan = u.config.lan ∧
      u.listenPlaintext.hasLanServer = u.hasLanServer := by
    rw [PlaintextState.listenPlaintext]
    split
    · exact ⟨rfl, rfl⟩
    · split_ifs <;> exact ⟨rfl, rfl⟩
  have hset (enabled : Bool) : (u.setLanPlaintext enabled).config.lan = u.config.lan ∧
      (u.setLanPlaintext enabled).hasLanServer = u.hasLanServer := by
    rw [PlaintextState.setLanPlaintext]
    split_ifs
    · exact ⟨rfl, rfl⟩
    · split <;> exact ⟨rfl, rfl⟩
    · split <;> exact ⟨rfl, rfl⟩
  have hclose : u.closePlaintext.config.lan = u.config.lan ∧
      u.closePlaintext.hasLanServer = u.hasLanServer := by
    rw [PlaintextState.closePlaintext]
    split
    · exact ⟨rfl, rfl⟩
    · split_ifs <;> exact ⟨rfl, rfl⟩
  cases a with
  | setLanPlaintext enabled =>
      cases h
      exact hset enabled
  | secure error =>
      simp only [plaintextStep] at h
      split_ifs at h
      cases error <;> cases h
      · exact hlisten
      · exact ⟨rfl, rfl⟩
  | loopback bound =>
      simp only [plaintextStep] at h
      split_ifs at h <;> cases h
      · exact ⟨rfl, rfl⟩
      · exact ⟨rfl, rfl⟩
      · exact hlisten
  | disposed =>
      simp only [plaintextStep] at h
      split_ifs at h
      cases h
      exact hclose
  | plaintext port | plaintextFailed error =>
      rcases hl : u.listening with - | _ | _ | id <;>
        simp only [plaintextStep, hl, reduceCtorEq, Option.some.injEq] at h
      subst h
      exact ⟨rfl, rfl⟩
  | listen | opened id port | openFailed id error | closed error =>
      simp only [plaintextStep] at h
      split_ifs at h
      cases h
      exact ⟨rfl, rfl⟩
  | dispose =>
      cases h
      exact ⟨rfl, rfl⟩

/-- Where the local network is not served the calls do nothing to its listeners. -/
lemma plaintextStep_unserved {u v : PlaintextState} {a : PlaintextAction}
    (hlan : u.config.lan = false) (hlanServer : u.hasLanServer = false)
    (hlistening : u.listening = none ∨ u.listening = some .loopback)
    (hserver : u.plaintextServer = none) (hopening : u.opening = []) (hclosing : u.closing = [])
    (h : plaintextStep u a = some v) :
    (v.listening = none ∨ v.listening = some .loopback) ∧ v.plaintextServer = none ∧
      v.opening = [] ∧ v.closing = [] ∧ v.lanFailure = u.lanFailure := by
  cases a with
  | setLanPlaintext enabled =>
      cases h
      rw [PlaintextState.setLanPlaintext, hlan]
      exact ⟨hlistening, hserver, hopening, hclosing, rfl⟩
  | secure error =>
      simp only [plaintextStep] at h
      rcases hlistening with hl | hl <;> simp [hl] at h
  | loopback bound =>
      simp only [plaintextStep, hlanServer, Bool.false_eq_true, if_false] at h
      split_ifs at h <;> cases h
      · exact ⟨.inl rfl, hserver, hopening, hclosing, rfl⟩
      · simp [PlaintextState.listenPlaintext, hserver, hopening, hclosing]
  | disposed =>
      simp only [plaintextStep] at h
      split_ifs at h
      cases h
      simp [PlaintextState.closePlaintext, hlistening, hserver, hopening, hclosing]
  | plaintext port | plaintextFailed error =>
      rcases hlistening with hl | hl <;> simp [plaintextStep, hl] at h
  | listen =>
      simp only [plaintextStep] at h
      split_ifs at h
      cases h
      exact ⟨.inr rfl, hserver, hopening, hclosing, rfl⟩
  | opened id port | openFailed id error => simp [plaintextStep, hopening] at h
  | closed error => simp [plaintextStep, hclosing] at h
  | dispose =>
      cases h
      exact ⟨hlistening, hserver, hopening, hclosing, rfl⟩

/-- What a call does beside the encrypted listener. -/
lemma shareStep_switch {a : PlaintextAction} (h : shareStep crypto options s (.switch a) = some t) :
    plaintextStep s.switch a = some t.switch ∧ t.publisher = s.publisher ∧
      t.securePort = s.securePort ∧ a ≠ .secure none := by
  cases a with
  | secure error =>
      cases error with
      | none => cases h
      | some error =>
          obtain ⟨u, hu, rfl⟩ := Option.map_eq_some_iff.mp h
          exact ⟨hu, rfl, rfl, by simp⟩
  | disposed =>
      simp only [shareStep] at h
      split_ifs at h
      obtain ⟨u, hu, rfl⟩ := Option.map_eq_some_iff.mp h
      exact ⟨hu, rfl, rfl, by simp⟩
  | setLanPlaintext enabled | dispose =>
      cases h
      exact ⟨rfl, rfl, rfl, by simp⟩
  | listen | loopback bound | plaintext port | plaintextFailed error | opened id port
  | openFailed id error | closed error =>
      obtain ⟨u, hu, rfl⟩ := Option.map_eq_some_iff.mp h
      exact ⟨hu, rfl, rfl, by simp⟩

/-- What one step keeps. -/
lemma sharing_step (hs : Sharing s) (hstep : shareStep crypto options s a = some t) :
    Sharing t := by
  cases a with
  | secure port =>
      obtain ⟨u, hu, rfl⟩ := Option.map_eq_some_iff.mp hstep
      obtain ⟨hlan, hserver⟩ := plaintextStep_fixed hu
      have hserved : u.config.lan = true := by
        by_contra hfalse
        rw [Bool.not_eq_true, hlan] at hfalse
        rcases hs.listening hfalse with hl | hl <;> simp [plaintextStep, hl] at hu
      refine ⟨?_, fun hfalse => ?_, fun hfalse => ?_⟩
      · rw [hserver, hs.server, hlan]
      · cases hserved.symm.trans hfalse
      · cases hserved.symm.trans hfalse
  | switch a =>
      obtain ⟨hu, hpublisher, hsecure, -⟩ := shareStep_switch hstep
      obtain ⟨hlan, hserver⟩ := plaintextStep_fixed hu
      have hunserved (hfalse : t.switch.config.lan = false) :=
        have hfalse : s.switch.config.lan = false := hlan ▸ hfalse
        have hold := hs.unserved hfalse
        And.intro hold (plaintextStep_unserved hfalse (hs.server.trans hfalse)
          (hs.listening hfalse) hold.1 hold.2.1 hold.2.2.1 hu)
      refine ⟨by rw [hserver, hs.server, hlan], fun hfalse => (hunserved hfalse).2.1,
        fun hfalse => ?_⟩
      obtain ⟨⟨-, -, -, hfail, hold, hnone⟩, -, hnew, hopening, hclosing, hsame⟩ := hunserved hfalse
      exact ⟨hnew, hopening, hclosing, hsame.trans hfail, hsecure.trans hold,
        hpublisher.trans hnone⟩
  | disposedSecure =>
      simp only [shareStep] at hstep
      split at hstep
      · cases hstep
      cases hstep
      refine ⟨hs.server, hs.listening, fun hfalse => ?_⟩
      obtain ⟨hserver, hopening, hclosing, hfail, hsecure, hpublisher⟩ := hs.unserved hfalse
      refine ⟨hserver, hopening, hclosing, hfail, ?_, hpublisher⟩
      dsimp only
      split_ifs
      · rfl
      · exact hsecure
  | refresh seen interfaces attempt =>
      simp only [shareStep] at hstep
      split at hstep
      · cases hstep
      case h_2 p hp =>
        cases hstep
        refine ⟨hs.server, hs.listening, fun hfalse => ?_⟩
        cases hp.symm.trans (hs.unserved hfalse).2.2.2.2.2
  | edited files =>
      cases hstep
      exact ⟨hs.server, hs.listening, hs.unserved⟩

/-! ### What keeps the status coherent -/

lemma publishHost_congr (h : t.publisher = s.publisher) : t.publishHost = s.publishHost := by
  rw [ShareState.publishHost, ShareState.lanCertificateNow, h]
  rfl

/-- Another failure, or none, and the same sockets. -/
lemma sound_of_failure (hlan : t.switch.config.lan = true) (hfail : t.switch.lanFailure ≠ none) :
    Sound t ↔ t.securePort = none ∧ t.switch.plaintextPort = none := by
  simp [Sound, hlan, hfail]

/-- The states of a local network that is served. -/
lemma sound_served (hlan : s.switch.config.lan = true) :
    Sound s ↔
      (s.switch.lanFailure ≠ none ∧ s.securePort = none ∧ s.switch.plaintextPort = none) ∨
      (s.switch.lanFailure = none ∧ ((s.publishHost = none ∧ s.switch.plaintextPort = none) ∨
        (s.publishHost ≠ none ∧ (s.securePort ≠ none ∨ ∃ id, s.switch.ports id ≠ none)))) := by
  rw [Sound, hlan]
  exact or_iff_right (by decide)

lemma sound_congr (hlan : t.switch.config.lan = s.switch.config.lan)
    (hfail : t.switch.lanFailure = s.switch.lanFailure) (hsecure : t.securePort = s.securePort)
    (hplain : t.switch.plaintextPort = s.switch.plaintextPort)
    (hports : t.switch.ports = s.switch.ports) (hhost : t.publishHost = s.publishHost) :
    Sound t ↔ Sound s := by
  rw [Sound, Sound, ShareState.Bound, ShareState.Bound, hlan, hfail, hsecure, hplain, hports, hhost]

/-- `listen()` comes to the unencrypted listener: it fails if that is bound already. -/
lemma listenPlaintext_spec (u : PlaintextState) :
    (u.listenPlaintext.lanFailure = none ↔ u.lanFailure = none ∧ u.plaintextPort = none) ∧
    u.listenPlaintext.ports = u.ports ∧ u.listenPlaintext.plaintextPort = u.plaintextPort := by
  rw [PlaintextState.listenPlaintext]
  cases hserver : u.plaintextServer with
  | none => simp [PlaintextState.plaintextPort, hserver]
  | some id => cases hport : u.ports id <;> simp [PlaintextState.plaintextPort, hserver, hport]

/-- The encrypted listener is bound. -/
lemma sound_secure {port : ℕ} (hlan : s.switch.config.lan = true)
    (hstep : shareStep crypto options s (.secure port) = some t) :
    Sound t ↔ s.switch.lanFailure = none ∧ s.switch.plaintextPort = none := by
  obtain ⟨u, hu, rfl⟩ := Option.map_eq_some_iff.mp hstep
  have hserved := (plaintextStep_fixed hu).1.trans hlan
  simp only [plaintextStep] at hu
  split_ifs at hu
  cases hu
  obtain ⟨hfail, -, hplain⟩ := listenPlaintext_spec s.switch
  constructor
  · rintro (h | ⟨-, h, -⟩ | ⟨h, -⟩)
    · cases hserved.symm.trans h
    · cases h
    · exact hfail.mp h
  · intro h
    refine .inr (.inr ⟨hfail.mpr h, ?_⟩)
    by_cases hhost : s.publishHost = none
    · exact .inl ⟨hhost, hplain.trans h.2⟩
    · exact .inr ⟨hhost, .inl (Option.some_ne_none port)⟩

/-- The encrypted listener is closed. -/
lemma sound_disposedSecure (hlan : s.switch.config.lan = true) (h : Sound s)
    (hstep : shareStep crypto options s .disposedSecure = some t) :
    Sound t ↔ s.lanListening = false ∨ s.switch.lanFailure ≠ none ∨ s.publishHost = none ∨
      ∃ id, s.switch.ports id ≠ none := by
  obtain ⟨hswitch, hhost, hsecure⟩ : t.switch = s.switch ∧ t.publishHost = s.publishHost ∧
      t.securePort = if s.lanListening then none else s.securePort := by
    simp only [shareStep] at hstep
    split at hstep
    · cases hstep
    cases hstep
    exact ⟨rfl, rfl, rfl⟩
  cases hlistening : s.lanListening with
  | false =>
      rw [hlistening] at hsecure
      refine iff_of_true ((sound_congr ?_ ?_ hsecure ?_ ?_ hhost).mpr h) (.inl rfl) <;> rw [hswitch]
  | true =>
      have hclosed : t.securePort = none := hsecure.trans (by rw [hlistening]; rfl)
      have hold := (sound_served hlan).mp h
      rw [sound_served (hswitch ▸ hlan), hclosed, hhost, hswitch]
      simp only [ne_eq, not_true_eq_false, true_and, false_or, reduceCtorEq]
      tauto

/-- A refresh may find an address, or lose the one there was. -/
lemma sound_refresh {seen interfaces : Interfaces} {attempt : Attempt}
    (hlan : s.switch.config.lan = true) (h : Sound s)
    (hstep : shareStep crypto options s (.refresh seen interfaces attempt) = some t) :
    Sound t ↔ s.switch.lanFailure ≠ none ∨
      ((s.refreshedHost crypto options seen interfaces attempt = none →
          s.switch.plaintextPort = none) ∧
        (s.refreshedHost crypto options seen interfaces attempt ≠ none → s.Bound)) := by
  obtain ⟨hswitch, hhost, hsecure⟩ : t.switch = s.switch ∧
      t.publishHost = s.refreshedHost crypto options seen interfaces attempt ∧
      t.securePort = s.securePort := by
    simp only [shareStep] at hstep
    split at hstep
    · cases hstep
    case h_2 p hp =>
      cases hstep
      exact ⟨rfl, by rw [ShareState.refreshedHost, hp]; rfl, rfl⟩
  have hold := (sound_served hlan).mp h
  rw [sound_served (hswitch ▸ hlan), hhost, hsecure, hswitch, ShareState.Bound]
  tauto

/-- The unencrypted listener on record is taken off it. -/
lemma sound_close (hlan : s.switch.config.lan = true) (h : Sound s) {closing : ℕ}
    (hserver : s.switch.plaintextServer = some closing)
    (hserved : t.switch.config.lan = true) (hfail : t.switch.lanFailure = s.switch.lanFailure)
    (hsecure : t.securePort = s.securePort) (hhost : t.publishHost = s.publishHost)
    (hplain : t.switch.plaintextPort = none)
    (hports : t.switch.ports = Function.update s.switch.ports closing none) :
    Sound t ↔ Closable s := by
  have hold := (sound_served hlan).mp h
  have hother : (∃ id, t.switch.ports id ≠ none) ↔
      ∃ id, s.switch.plaintextServer ≠ some id ∧ s.switch.ports id ≠ none := by
    refine exists_congr fun id => ?_
    rw [hports, hserver, Function.update_apply]
    by_cases hid : id = closing
    · simp [hid]
    · simp [hid, Ne.symm hid]
  have hsome : s.switch.plaintextServer ≠ none := by simp [hserver]
  rw [sound_served hserved, hother, hfail, hsecure, hhost, hplain, Closable]
  tauto

/-- The unencrypted listener on record is bound. -/
lemma sound_open (hserved : t.switch.config.lan = true)
    (hfail : t.switch.lanFailure = s.switch.lanFailure)
    (hhost : t.publishHost = s.publishHost) (hplain : t.switch.plaintextPort ≠ none) :
    Sound t ↔ s.switch.lanFailure = none ∧ s.publishHost ≠ none := by
  have hbound := ports_of_plaintextPort hplain
  rw [sound_served hserved, hfail, hhost]
  tauto

/-- What a call does to the switch, while what is published stays. -/
structure Switching (s t : ShareState) : Prop where
  served : s.switch.config.lan = true ∧ t.switch.config.lan = true
  host : t.publishHost = s.publishHost
  secure : t.securePort = s.securePort

/-- A step that leaves what is bound and what failed. -/
lemma Switching.same (h : Switching s t) (hs : Sound s) (hports : t.switch.ports = s.switch.ports)
    (hserver : t.switch.plaintextServer = s.switch.plaintextServer)
    (hfail : t.switch.lanFailure = s.switch.lanFailure) : Sound t := by
  have hplain : t.switch.plaintextPort = s.switch.plaintextPort := by
    rw [PlaintextState.plaintextPort, PlaintextState.plaintextPort, hserver, hports]
  exact (sound_congr (h.served.2.trans h.served.1.symm) hfail h.secure hplain hports h.host).mpr hs

/-- A step after which the failure is reported. -/
lemma Switching.failed (h : Switching s t) (hports : t.switch.ports = s.switch.ports)
    (hserver : t.switch.plaintextServer = s.switch.plaintextServer)
    (hfail : t.switch.lanFailure ≠ none) :
    Sound t ↔ s.securePort = none ∧ s.switch.plaintextPort = none := by
  rw [sound_of_failure h.served.2 hfail, h.secure, PlaintextState.plaintextPort,
    PlaintextState.plaintextPort, hserver, hports]

/-- `listen()` has bound the unencrypted listener that was on record when it came to it. -/
lemma Switching.plaintext (h : Switching s t) (hs : Sound s) {port : ℕ}
    (hu : plaintextStep s.switch (.plaintext port) = some t.switch) :
    Sound t ↔ KeepsSwitch s (.plaintext port) := by
  rcases hl : s.switch.listening with - | _ | _ | id <;>
    simp only [plaintextStep, hl, reduceCtorEq, Option.some.injEq] at hu
  have hports : t.switch.ports = Function.update s.switch.ports id (some port) := by rw [← hu]
  have hrecord : t.switch.plaintextServer = s.switch.plaintextServer := by rw [← hu]
  have hfail : t.switch.lanFailure = s.switch.lanFailure := by rw [← hu]
  by_cases hserver : s.switch.plaintextServer = some id
  · have hplain : t.switch.plaintextPort ≠ none := by
      rw [PlaintextState.plaintextPort, hrecord, hports, hserver]
      simp
    rw [sound_open h.served.2 hfail h.host hplain]
    exact ⟨fun hopen _ _ _ => hopen, fun hkeeps => hkeeps id hl hserver⟩
  · -- a listener that is not on record any more
    refine iff_of_true ?_ fun id' hl' hserver' => ?_
    · have hplain : t.switch.plaintextPort = s.switch.plaintextPort := by
        rw [PlaintextState.plaintextPort, PlaintextState.plaintextPort, hrecord, hports]
        cases hid : s.switch.plaintextServer with
        | none => rfl
        | some id' =>
            have hne : id' ≠ id := fun heq => hserver (hid.trans (congrArg some heq))
            exact Function.update_of_ne hne _ _
      have hbound : ∃ id, t.switch.ports id ≠ none := ⟨id, by simp [hports]⟩
      rw [sound_served h.served.2, hplain, h.secure, h.host, hfail]
      rcases (sound_served h.served.1).mp hs with hold | ⟨hnone, hold | ⟨hhost, -⟩⟩
      · exact .inl hold
      · exact .inr ⟨hnone, .inl hold⟩
      · exact .inr ⟨hnone, .inr ⟨hhost, .inr hbound⟩⟩
    · rw [hl, Option.some.injEq, Listening.plaintext.injEq] at hl'
      exact absurd (hl' ▸ hserver') hserver

/-- `setLanPlaintext` opens a listener, which is not bound yet, or closes the one on record. -/
lemma Switching.set (h : Switching s t) (hs : Sound s) {enabled : Bool}
    (hu : plaintextStep s.switch (.setLanPlaintext enabled) = some t.switch) :
    Sound t ↔ KeepsSwitch s (.setLanPlaintext enabled) := by
  simp only [plaintextStep, PlaintextState.setLanPlaintext, h.served.1, Bool.not_true,
    Bool.false_eq_true, if_false, Option.some.injEq] at hu
  cases hserver : s.switch.plaintextServer with
  | none =>
      cases enabled with
      | false =>
          simp only [hserver, if_false, Bool.false_eq_true] at hu
          exact iff_of_true (h.same hs (by rw [← hu]) (by rw [← hu, hserver]) (by rw [← hu]))
            (.inl hserver)
      | true =>
          simp only [hserver, if_true] at hu
          exact iff_of_true (h.same hs (by rw [← hu]) (by rw [← hu, hserver]) (by rw [← hu]))
            trivial
  | some closing =>
      cases enabled with
      | false =>
          simp only [hserver, if_false, Bool.false_eq_true] at hu
          exact sound_close h.served.1 hs hserver h.served.2 (by rw [← hu]; rfl) h.secure h.host
            (by rw [← hu]; rfl) (by rw [← hu]; rfl)
      | true =>
          simp only [hserver, if_true] at hu
          exact iff_of_true (h.same hs (by rw [← hu]) (by rw [← hu, hserver]) (by rw [← hu]))
            trivial

/-- `dispose()` comes to the unencrypted listener. -/
lemma Switching.disposed (h : Switching s t) (hs : Sound s)
    (hu : plaintextStep s.switch .disposed = some t.switch) :
    Sound t ↔ KeepsSwitch s .disposed := by
  simp only [plaintextStep] at hu
  split_ifs at hu
  rw [Option.some.injEq] at hu
  have hkept (hclose : s.switch.closePlaintext = s.switch) : Sound t :=
    h.same hs (by rw [← hu, hclose]) (by rw [← hu, hclose]) (by rw [← hu, hclose])
  cases hserver : s.switch.plaintextServer with
  | none =>
      exact iff_of_true (hkept (by simp only [PlaintextState.closePlaintext, hserver]))
        (.inr (.inl hserver))
  | some id =>
      cases hlistening : s.switch.plaintextListening with
      | false =>
          exact iff_of_true (hkept (by simp [PlaintextState.closePlaintext, hserver, hlistening]))
            (.inl hlistening)
      | true =>
          have hclose : s.switch.closePlaintext = s.switch.shutdown id := by
            simp [PlaintextState.closePlaintext, hserver, hlistening]
          have hclosed : Sound t ↔ Closable s := by
            refine sound_close h.served.1 hs hserver h.served.2 ?_ h.secure h.host ?_ ?_
            · rw [← hu, hclose]
              rfl
            · rw [← hu, hclose, PlaintextState.plaintextPort]
              simp [PlaintextState.shutdown, hserver]
            · rw [← hu, hclose]
              rfl
          rw [hclosed, KeepsSwitch, hlistening]
          exact (or_iff_right (by decide)).symm

/-- What the calls do, beside the encrypted listener. -/
lemma sound_switch {a : PlaintextAction} (hsharing : Sharing s)
    (hlan : s.switch.config.lan = true) (hs : Sound s)
    (hstep : shareStep crypto options s (.switch a) = some t) : Sound t ↔ KeepsSwitch s a := by
  obtain ⟨hu, hpublisher, hsecure, hne⟩ := shareStep_switch hstep
  have h : Switching s t :=
    ⟨⟨hlan, (plaintextStep_fixed hu).1.trans hlan⟩, publishHost_congr hpublisher, hsecure⟩
  cases a with
  | plaintext port => exact h.plaintext hs hu
  | setLanPlaintext enabled => exact h.set hs hu
  | disposed => exact h.disposed hs hu
  | listen | openFailed id error =>
      simp only [plaintextStep] at hu
      split_ifs at hu
      rw [Option.some.injEq] at hu
      exact iff_of_true (h.same hs (by rw [← hu]) (by rw [← hu]) (by rw [← hu])) trivial
  | loopback bound =>
      simp only [plaintextStep, hsharing.server, hlan, if_true] at hu
      split_ifs at hu <;> rw [Option.some.injEq] at hu <;>
        exact iff_of_true (h.same hs (by rw [← hu]) (by rw [← hu]) (by rw [← hu])) trivial
  | secure error =>
      cases error with
      | none => exact absurd rfl hne
      | some error =>
          simp only [plaintextStep] at hu
          split_ifs at hu
          rw [Option.some.injEq] at hu
          exact h.failed (by rw [← hu]) (by rw [← hu]) (by simp [← hu])
  | plaintextFailed error =>
      rcases hl : s.switch.listening with - | _ | _ | id <;>
        simp only [plaintextStep, hl, reduceCtorEq, Option.some.injEq] at hu
      exact h.failed (by rw [← hu]) (by rw [← hu]) (by simp [← hu])
  | opened id port =>
      simp only [plaintextStep] at hu
      split_ifs at hu
      rw [Option.some.injEq] at hu
      refine sound_open h.served.2 (by rw [← hu]) h.host ?_
      simp [← hu, PlaintextState.plaintextPort]
  | closed error =>
      simp only [plaintextStep] at hu
      split_ifs at hu
      rw [Option.some.injEq] at hu
      cases error with
      | none =>
          exact iff_of_true (h.same hs (by rw [← hu]) (by rw [← hu]) (by rw [← hu]; rfl)) trivial
      | some error => exact h.failed (by rw [← hu]) (by rw [← hu]) (by simp [← hu])
  | dispose =>
      rw [plaintextStep, Option.some.injEq] at hu
      exact iff_of_true (h.same hs (by rw [← hu]) (by rw [← hu]) (by rw [← hu])) trivial

/-- What is served stays so. -/
lemma shareStep_lan (hstep : shareStep crypto options s a = some t) :
    t.switch.config.lan = s.switch.config.lan := by
  cases a with
  | secure port =>
      obtain ⟨u, hu, rfl⟩ := Option.map_eq_some_iff.mp hstep
      exact (plaintextStep_fixed hu).1
  | switch a => exact (plaintextStep_fixed (shareStep_switch hstep).1).1
  | disposedSecure =>
      simp only [shareStep] at hstep
      split at hstep
      · cases hstep
      cases hstep
      rfl
  | refresh seen interfaces attempt =>
      simp only [shareStep] at hstep
      split at hstep
      · cases hstep
      cases hstep
      rfl
  | edited files =>
      cases hstep
      rfl

/-- **One step**: from a coherent status it leads to one exactly if it keeps it. -/
lemma sound_step (hsharing : Sharing s) (hs : Sound s)
    (hstep : shareStep crypto options s a = some t) : Sound t ↔ Keeps crypto options s a := by
  cases hlan : s.switch.config.lan with
  | false => exact iff_of_true (.inl ((shareStep_lan hstep).trans hlan)) (.inl hlan)
  | true =>
      have hkeeps {P : Prop} : s.switch.config.lan = false ∨ P ↔ P := by
        rw [hlan]
        exact or_iff_right (by decide)
      unfold Keeps
      rw [hkeeps]
      cases a with
      | secure port => exact sound_secure hlan hstep
      | switch a => exact sound_switch hsharing hlan hs hstep
      | disposedSecure => exact sound_disposedSecure hlan hs hstep
      | refresh seen interfaces attempt => exact sound_refresh hlan hs hstep
      | edited files =>
          cases hstep
          exact iff_of_true hs trivial

/-! ### Runs -/

lemma sharing_start {config : LanConfig} {interfaces : Interfaces} {attempt : Attempt}
    {files : TlsFiles}
    (h : startSharing crypto options config interfaces attempt files = some s) : Sharing s := by
  rw [startSharing] at h
  split_ifs at h with hlan
  · split at h
    · cases h
    cases h
    exact ⟨hlan.symm, fun _ => .inl rfl, fun hfalse => by cases hlan.symm.trans hfalse⟩
  · cases h
    have hfalse : config.lan = false := by simpa using hlan
    refine ⟨hfalse.symm, fun _ => .inl rfl, fun _ => ⟨?_, rfl, rfl, rfl, rfl, rfl⟩⟩
    simp [PlaintextState.init, hfalse]

/-- **The status is coherent** along a run exactly if it is sound where the run begins and every
step keeps it. -/
theorem status_coherent_iff {config : LanConfig} {interfaces : Interfaces} {attempt : Attempt}
    {files : TlsFiles} {s₀ : ShareState} {before as : List ShareAction}
    (hstart : startSharing crypto options config interfaces attempt files = some s₀)
    (hrun : Run (Steps (shareStep crypto options)) s₀ before s) :
    Coherent s ∧ Run (Reaching Coherent (Steps (shareStep crypto options))) s as t ↔
      Sound s ∧ Run (Within (Keeps crypto options) (Steps (shareStep crypto options))) s as t := by
  have hsharing : Sharing s :=
    hrun.invariant (fun _ _ _ hs hstep => sharing_step hs hstep) (sharing_start hstart)
  have hexact : ∀ u b v, Sharing u → Coherent u → Steps (shareStep crypto options) u b v →
      (Coherent v ↔ Keeps crypto options u b) := by
    intro u b v hu hcoherent hstep
    rw [coherent_iff (sharing_step hu hstep)]
    exact sound_step hu ((coherent_iff hu).mp hcoherent) hstep
  rw [← coherent_iff hsharing]
  refine and_congr_right fun hcoherent => ?_
  exact Run.reaching_iff (fun _ _ _ hu hstep => sharing_step hu hstep) hexact hsharing hcoherent

/-! ### Concrete runs -/

/-- A server that serves the local network at one address. -/
lemma exists_started : ∃ s₀,
    startSharing textCrypto namelessOptions ⟨true, false⟩ at50 (goodAttempt 1) ⟨none, none⟩ =
      some s₀ := by
  have hinit : (startSharing textCrypto namelessOptions ⟨true, false⟩ at50 (goodAttempt 1)
    ⟨none, none⟩).isSome = true := by decide +kernel
  exact Option.isSome_iff_exists.mp hinit

/-- The encrypted listener is bound, and then the switch is turned on. -/
theorem status_coherent_switched : ∃ s₀ s t,
    startSharing textCrypto namelessOptions ⟨true, false⟩ at50 (goodAttempt 1) ⟨none, none⟩ =
      some s₀ ∧
    Run (Steps (shareStep textCrypto namelessOptions)) s₀
      [.switch .listen, .switch (.loopback true), .secure 8443] s ∧
    Coherent s ∧ Run (Reaching Coherent (Steps (shareStep textCrypto namelessOptions))) s
      [.switch (.setLanPlaintext true)] t := by
  obtain ⟨s₀, hs₀⟩ := exists_started
  have hexec : ((startSharing textCrypto namelessOptions ⟨true, false⟩ at50 (goodAttempt 1)
      ⟨none, none⟩).bind fun s => exec (shareStep textCrypto namelessOptions) s
        [.switch .listen, .switch (.loopback true), .secure 8443]).any (fun s =>
          s.switch.lanFailure.isNone && s.publishHost.isSome && s.securePort.isSome &&
            (shareStep textCrypto namelessOptions s (.switch (.setLanPlaintext true))).isSome) =
      true := by decide +kernel
  rw [hs₀, Option.bind_some] at hexec
  obtain ⟨s, hrun, hs⟩ := exists_run_of_exec _ _ _ _ hexec
  simp only [Bool.and_eq_true, Option.isNone_iff_eq_none] at hs
  obtain ⟨⟨⟨hfail, hhost⟩, hsecure⟩, hnext⟩ := hs
  obtain ⟨t, ht⟩ := Option.isSome_iff_exists.mp hnext
  have hsound : Sound s := .inr (.inr ⟨hfail, .inr ⟨Option.ne_none_iff_isSome.mpr hhost,
    .inl (Option.ne_none_iff_isSome.mpr hsecure)⟩⟩)
  exact ⟨s₀, s, t, hs₀, hrun,
    (status_coherent_iff hs₀ hrun).mpr ⟨hsound, .single ⟨.inr trivial, ht⟩⟩⟩

/-- **The status contradicts itself**: it names an error while it is listening, after the
unencrypted listener could not be bound; and it names an address while it has failed, after that
listener was bound beside an encrypted one that could not be. -/
theorem status_contradicts : ∃ s₀ s t,
    startSharing textCrypto namelessOptions ⟨true, false⟩ at50 (goodAttempt 1) ⟨none, none⟩ =
      some s₀ ∧
    Run (Steps (shareStep textCrypto namelessOptions)) s₀
      [.switch .listen, .switch (.loopback true), .secure 8443, .switch (.setLanPlaintext true),
        .switch (.openFailed 1 "in use"), .switch (.closed (some "in use"))] s ∧
    s.status.state = .listening ∧ s.status.error = some "in use" ∧ ¬ Coherent s ∧
    Run (Steps (shareStep textCrypto namelessOptions)) s₀
      [.switch .listen, .switch (.loopback true), .switch (.secure (some "in use")),
        .switch (.setLanPlaintext true), .switch (.opened 1 8420)] t ∧
    t.status.state = .failed ∧ t.status.url = some (js "http://192.168.1.50:8420") ∧
    ¬ Coherent t := by
  obtain ⟨s₀, hs₀⟩ := exists_started
  have hlistening : ((startSharing textCrypto namelessOptions ⟨true, false⟩ at50 (goodAttempt 1)
      ⟨none, none⟩).bind fun s => exec (shareStep textCrypto namelessOptions) s
        [.switch .listen, .switch (.loopback true), .secure 8443, .switch (.setLanPlaintext true),
          .switch (.openFailed 1 "in use"), .switch (.closed (some "in use"))]).any (fun s =>
          s.status.state = .listening && s.status.error = some "in use") = true := by
    decide +kernel
  have hfailed : ((startSharing textCrypto namelessOptions ⟨true, false⟩ at50 (goodAttempt 1)
      ⟨none, none⟩).bind fun s => exec (shareStep textCrypto namelessOptions) s
        [.switch .listen, .switch (.loopback true), .switch (.secure (some "in use")),
          .switch (.setLanPlaintext true), .switch (.opened 1 8420)]).any (fun s =>
          s.status.state = .failed && s.status.url = some (js "http://192.168.1.50:8420")) =
      true := by decide +kernel
  rw [hs₀, Option.bind_some] at hlistening hfailed
  obtain ⟨s, hrun, hs⟩ := exists_run_of_exec _ _ _ _ hlistening
  obtain ⟨t, hrun', ht⟩ := exists_run_of_exec _ _ _ _ hfailed
  simp only [Bool.and_eq_true, decide_eq_true_eq] at hs ht
  refine ⟨s₀, s, t, hs₀, hrun, hs.1, hs.2, fun hcoherent => ?_, hrun', ht.1, ht.2,
    fun hcoherent => ?_⟩
  · cases hs.1.symm.trans (hcoherent.error.mp (by simp [hs.2]))
  · cases ht.1.symm.trans (hcoherent.url (by simp [ht.2]))

end LocalCast.Server
