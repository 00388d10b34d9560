import LocalCast.Server.LanPublisher

/-!
The certificate that is published and the one that is presented: `createServer`, cut at its
awaits, with the publisher refreshing in between.

* `ServedState`, `servedStep`: the publisher, the encrypted listener once it was constructed, and
  what is bound.
* `currentLanEndpoint`: the address that goes into the code to scan.
* `FingerprintLaw`: the listener presents the certificate of the publisher, and what is published
  is the fingerprint of that.
* `keepsCertificate`: no refresh replaces the certificate before the listener is constructed.
* `fingerprint_served`: the law in every such run.
* `fingerprint_stale`: an address that changes while the modules are loaded.

A listener adopts every certificate that it is handed. The requests are left out.
-/

namespace LocalCast.Server

open JsString JsNumber Runs

/-! ### The server -/

/-- `lanServer`: the certificate it presents, and the port it is bound to. -/
structure LanListener where
  presents : LanCertificate
  port : Option ℕ

/-- The publisher and its files; `initialCert`; `lanServer`, which is not there before the modules
are loaded; and the port of the unencrypted listener. -/
structure ServedState where
  publisher : LanPublisher
  files : TlsFiles
  initialCert : LanCertificate
  lanServer : Option LanListener
  plaintextPort : Option ℕ

/-- `LanEndpoint`. -/
structure LanEndpoint where
  url : JsString
  fingerprint256 : JsString

namespace ServedState

variable (s : ServedState)

/-- `portOf(lanServer)`. -/
def securePort : Option ℕ := s.lanServer.bind LanListener.port

/-- `LanStatus.fingerprint256`. -/
def statusFingerprint : Option JsString := s.publisher.cert.map LanCertificate.fingerprint256

def currentLanEndpoint : Option LanEndpoint :=
  s.publisher.cert.bind fun cert => cert.publishHost.bind fun host =>
    match s.plaintextPort with
    | some port => some ⟨js "http://" ++ host ++ js ":" ++ decimal port, []⟩
    | none => s.securePort.map fun port =>
        ⟨js "https://" ++ host ++ js ":" ++ decimal port, cert.fingerprint256⟩

/-- `onCertificateChanged`. Before `lanServer` is initialised the access throws, which is
caught. -/
def adopt (cert : LanCertificate) : ServedState :=
  { s with lanServer := s.lanServer.map fun listener => { listener with presents := cert } }

end ServedState

inductive ServedAction where
  | refresh (seen interfaces : Interfaces) (attempt : Attempt)
  /-- The modules are registered and the listener is constructed. -/
  | construct
  | listen (port : ℕ)
  | close
  /-- The unencrypted listener is opened or closed. -/
  | plaintext (port : Option ℕ)
  /-- Somebody else changes the files. -/
  | edited (files : TlsFiles)

/-- `createServer`, up to its first await; `none` where it throws. -/
def createServer (crypto : Crypto) (options : SanOptions) (interfaces : Interfaces)
    (attempt : Attempt) (files : TlsFiles) : Option ServedState :=
  match LanPublisher.new.reissue crypto options interfaces attempt files with
  | (none, _, _) => none
  | (some initialCert, publisher, files) =>
      some
        { publisher := publisher
          files := files
          initialCert := initialCert
          lanServer := none
          plaintextPort := none }

def servedStep (crypto : Crypto) (options : SanOptions) (s : ServedState) :
    ServedAction → Option ServedState
  | .refresh seen interfaces attempt =>
      match s.publisher.refresh crypto options seen interfaces attempt s.files with
      | (.replaced cert, publisher, files) =>
          let t := { s with publisher := publisher, files := files }
          some (if some cert.fingerprint256 = s.statusFingerprint then t else t.adopt cert)
      | (_, publisher, files) => some { s with publisher := publisher, files := files }
  | .construct =>
      match s.lanServer with
      | none => some { s with lanServer := some ⟨s.initialCert, none⟩ }
      | some _ => none
  | .listen port =>
      match s.lanServer with
      | some ⟨presents, none⟩ => some { s with lanServer := some ⟨presents, some port⟩ }
      | _ => none
  | .close => some { s with lanServer := s.lanServer.map fun listener =>
      { listener with port := none } }
  | .plaintext port => some { s with plaintextPort := port }
  | .edited files => some { s with files := files }

/-! ### The law -/

/-- While the encrypted listener is bound it presents the certificate of the publisher, the
status reports its fingerprint, and so does an address that leads to it. -/
structure FingerprintLaw (s : ServedState) : Prop where
  presented : ∀ presents port, s.lanServer = some ⟨presents, some port⟩ →
    s.statusFingerprint = some presents.fingerprint256
  published : ∀ endpoint, s.currentLanEndpoint = some endpoint → s.plaintextPort = none →
    ∃ presents port, s.lanServer = some ⟨presents, some port⟩ ∧
      endpoint.fingerprint256 = presents.fingerprint256

/-- A refresh before the listener is constructed finds the same addresses, or fails, or leaves a
certificate with the same fingerprint. -/
def keepsCertificate (crypto : Crypto) (options : SanOptions) (s : ServedState) :
    ServedAction → Bool
  | .refresh seen interfaces attempt =>
      s.lanServer.isSome || signatureOf seen = s.publisher.signature ||
        ((ensureLanCertificate crypto (defaultSanHosts options interfaces) attempt s.files).1.all
          fun cert => some cert.fingerprint256 = s.statusFingerprint)
  | _ => true

/-! ### The invariant -/

/-- The listener, or what it will be constructed with, has the fingerprint of the publisher. -/
structure Served (s : ServedState) : Prop where
  waiting : s.lanServer = none → s.statusFingerprint = some s.initialCert.fingerprint256
  presented : ∀ listener, s.lanServer = some listener →
    s.statusFingerprint = some listener.presents.fingerprint256

variable {crypto : Crypto} {options : SanOptions} {s t : ServedState} {a : ServedAction}

lemma Served.law (h : Served s) : FingerprintLaw s where
  presented presents port hserver := h.presented _ hserver
  published endpoint hendpoint hplain := by
    rw [ServedState.currentLanEndpoint, Option.bind_eq_some_iff] at hendpoint
    obtain ⟨cert, hcert, hendpoint⟩ := hendpoint
    rw [Option.bind_eq_some_iff] at hendpoint
    obtain ⟨host, -, hendpoint⟩ := hendpoint
    simp only [hplain, Option.map_eq_some_iff] at hendpoint
    obtain ⟨port, hport, rfl⟩ := hendpoint
    rw [ServedState.securePort, Option.bind_eq_some_iff] at hport
    obtain ⟨⟨presents, _⟩, hserver, rfl⟩ := hport
    refine ⟨presents, port, hserver, ?_⟩
    have hsame := h.presented _ hserver
    rw [ServedState.statusFingerprint, hcert, Option.map_some, Option.some.injEq] at hsame
    exact hsame

/-! ### Steps -/

/-- A certificate with the fingerprint there was. -/
lemma Served.same (h : Served s) (hprint : t.statusFingerprint = s.statusFingerprint)
    (hcert : t.initialCert = s.initialCert) (hserver : t.lanServer = s.lanServer) : Served t where
  waiting := by rw [hserver, hprint, hcert]; exact h.waiting
  presented := by rw [hserver, hprint]; exact h.presented

/-- Another certificate, which the listener adopts. -/
lemma served_adopt {cert : LanCertificate} (hsome : s.lanServer.isSome = true)
    (hprint : s.statusFingerprint = some cert.fingerprint256) : Served (s.adopt cert) where
  waiting hnone := by
    rw [ServedState.adopt, Option.map_eq_none_iff] at hnone
    rw [hnone] at hsome
    cases hsome
  presented listener hlistener := by
    rw [ServedState.adopt, Option.map_eq_some_iff] at hlistener
    obtain ⟨_, -, rfl⟩ := hlistener
    exact hprint

lemma served_refresh (h : Served s) {seen interfaces : Interfaces} {attempt : Attempt}
    (hguard : keepsCertificate crypto options s (.refresh seen interfaces attempt) = true)
    (hstep : servedStep crypto options s (.refresh seen interfaces attempt) = some t) :
    Served t := by
  rw [servedStep, LanPublisher.refresh] at hstep
  split_ifs at hstep with hsame
  · cases hstep
    exact h.same rfl rfl rfl
  · simp only [keepsCertificate, hsame, decide_false, Bool.or_false, Bool.or_eq_true] at hguard
    rcases hensure : ensureLanCertificate crypto (defaultSanHosts options interfaces) attempt
      s.files with ⟨- | cert, files⟩
    · simp only [LanPublisher.reissue, hensure, Option.some.injEq] at hstep
      subst hstep
      exact h.same rfl rfl rfl
    · simp only [LanPublisher.reissue, hensure, Option.some.injEq] at hstep
      subst hstep
      split_ifs with hprint
      · exact h.same hprint rfl rfl
      · refine served_adopt ?_ rfl
        rcases hguard with hsome | hkept
        · exact hsome
        · simp only [hensure, Option.all_some, decide_eq_true_eq] at hkept
          contradiction

/-- **One step** keeps the invariant. -/
lemma served_step (h : Served s) (hguard : keepsCertificate crypto options s a = true)
    (hstep : servedStep crypto options s a = some t) : Served t := by
  cases a with
  | refresh seen interfaces attempt => exact served_refresh h hguard hstep
  | construct =>
      rw [servedStep] at hstep
      split at hstep
      case h_1 hnone =>
        cases hstep
        refine ⟨nofun, ?_⟩
        rintro _ ⟨⟩
        exact h.waiting hnone
      case h_2 => cases hstep
  | listen port =>
      rw [servedStep] at hstep
      split at hstep
      case h_1 presents hserver =>
        cases hstep
        refine ⟨nofun, ?_⟩
        rintro _ ⟨⟩
        exact h.presented ⟨presents, none⟩ hserver
      case h_2 => cases hstep
  | close =>
      cases hstep
      refine ⟨fun hnone => h.waiting (Option.map_eq_none_iff.mp hnone), ?_⟩
      intro listener hlistener
      obtain ⟨listener, hserver, rfl⟩ := Option.map_eq_some_iff.mp hlistener
      exact h.presented listener hserver
  | plaintext port =>
      cases hstep
      exact h.same rfl rfl rfl
  | edited files =>
      cases hstep
      exact h.same rfl rfl rfl

lemma served_init {interfaces : Interfaces} {attempt : Attempt} {files : TlsFiles}
    (h : createServer crypto options interfaces attempt files = some s) : Served s := by
  rw [createServer] at h
  rcases reissue_spec crypto options .new interfaces attempt files with
    ⟨_, hissue⟩ | ⟨cert, _, hissue, -⟩
  · rw [hissue] at h
    cases h
  · rw [hissue] at h
    cases h
    exact ⟨fun _ => rfl, nofun⟩

/-- **The fingerprint is the served one**: in every run in which no refresh replaces the
certificate before the listener is constructed, what is bound presents what is published. -/
theorem fingerprint_served {interfaces : Interfaces} {attempt : Attempt} {files : TlsFiles}
    {s₀ : ServedState} {as : List ServedAction}
    (hinit : createServer crypto options interfaces attempt files = some s₀)
    (h : Run (Guarded (fun s a => keepsCertificate crypto options s a)
      (servedStep crypto options)) s₀ as s) : FingerprintLaw s := by
  have hs : Served s :=
    h.invariant (fun _ _ _ hs hstep => served_step hs hstep.1 hstep.2) (served_init hinit)
  exact hs.law

/-! ### Concrete runs -/

/-- The address changes after the listener was constructed. -/
theorem fingerprint_served_moved : ∃ s₀ s,
    createServer textCrypto namelessOptions at50 (goodAttempt 1) ⟨none, none⟩ = some s₀ ∧
    Run (Guarded (fun s a => keepsCertificate textCrypto namelessOptions s a)
      (servedStep textCrypto namelessOptions)) s₀
      [.construct, .listen 8443, .refresh at73 at73 (goodAttempt 2)] s ∧
    (∃ endpoint, s.currentLanEndpoint = some endpoint ∧
      endpoint.url = js "https://192.168.1.73:8443") ∧ FingerprintLaw s := by
  have hinit : (createServer textCrypto namelessOptions at50 (goodAttempt 1)
    ⟨none, none⟩).isSome = true := by decide
  obtain ⟨s₀, hs₀⟩ := Option.isSome_iff_exists.mp hinit
  have hexec : ((createServer textCrypto namelessOptions at50 (goodAttempt 1)
      ⟨none, none⟩).bind fun s => exec (guarded
        (fun s a => keepsCertificate textCrypto namelessOptions s a)
        (servedStep textCrypto namelessOptions)) s
        [.construct, .listen 8443, .refresh at73 at73 (goodAttempt 2)]).any (fun s =>
          s.currentLanEndpoint.any fun e => e.url = js "https://192.168.1.73:8443") = true := by
    decide
  rw [hs₀, Option.bind_some] at hexec
  obtain ⟨s, hrun, hs⟩ := exists_guarded_run_of_exec _ _ _ _ _ hexec
  simp only [Option.any_eq_true, decide_eq_true_eq] at hs
  exact ⟨s₀, s, hs₀, hrun, hs, fingerprint_served hs₀ hrun⟩

/-- **The fingerprint is stale**: the address changes while the modules are loaded, and the
listener is constructed with the certificate of the old one. -/
theorem fingerprint_stale : ∃ s₀ s presents,
    createServer textCrypto namelessOptions at50 (goodAttempt 1) ⟨none, none⟩ = some s₀ ∧
    Run (Steps (servedStep textCrypto namelessOptions)) s₀
      [.refresh at73 at73 (goodAttempt 2), .construct, .listen 8443] s ∧
    s.lanServer = some ⟨presents, some 8443⟩ ∧
    s.statusFingerprint ≠ some presents.fingerprint256 ∧ ¬ FingerprintLaw s := by
  have hinit : (createServer textCrypto namelessOptions at50 (goodAttempt 1)
    ⟨none, none⟩).isSome = true := by decide
  obtain ⟨s₀, hs₀⟩ := Option.isSome_iff_exists.mp hinit
  have hexec : ((createServer textCrypto namelessOptions at50 (goodAttempt 1)
      ⟨none, none⟩).bind fun s => exec (servedStep textCrypto namelessOptions) s
        [.refresh at73 at73 (goodAttempt 2), .construct, .listen 8443]).any (fun s =>
          s.lanServer.any fun l => l.port = some 8443 &&
            s.statusFingerprint ≠ some l.presents.fingerprint256) = true := by
    decide
  rw [hs₀, Option.bind_some] at hexec
  obtain ⟨s, hrun, hs⟩ := exists_run_of_exec _ _ _ _ hexec
  rw [Option.any_eq_true] at hs
  obtain ⟨⟨presents, port⟩, hserver, hs⟩ := hs
  simp only [Bool.and_eq_true, decide_eq_true_eq] at hs
  obtain ⟨rfl, hstale⟩ := hs
  exact ⟨s₀, s, presents, hs₀, hrun, hserver, hstale, fun hlaw =>
    hstale (hlaw.presented presents 8443 hserver)⟩

end LocalCast.Server
