import LocalCast.Server.LanAddress

/-!
`net/selfSigned.ts`: the certificate of the local network, reused from its files or issued anew.

* `Crypto`: what the code uses of `node:crypto`; `Crypto.Lawful`: a certificate that was issued
  for a name covers it.
* `generateLanCertificate`, `loadLanCertificate`, `ensureLanCertificate`.
* `Attempt`: what goes wrong in one call, and what a write that fails leaves behind.
* `Fits`: a certificate covers some names and publishes one of them; `fits_of_ensure`: so does
  what `ensureLanCertificate` returns.
-/

namespace LocalCast.Server

open JsString JsNumber

/-! ### Names in a certificate -/

/-- A name or an address of the extension. -/
inductive GeneralName where
  | dnsName (name : JsString)
  | ipAddress (octets : List ℕ)
deriving DecidableEq

/-- `host.split('.')`, as numbers. -/
def octetsOf (host : JsString) : List ℕ := (splitOn (fun c => c = 46) host).map digitsValue

def generalName (host : JsString) : GeneralName :=
  if isIpv4 host then .ipAddress (octetsOf host) else .dnsName host

def subjectAltNames (hosts : List JsString) : List GeneralName := hosts.map generalName

/-! ### The library -/

/-- What is signed: the names and the time of a certificate. -/
structure Tbs where
  names : List GeneralName
  notBefore : ℤ
  notAfter : ℤ

/-- `X509Certificate`. A time that is no time is `none`, as is what `checkPrivateKey` says of a
text that is no key. -/
structure X509 where
  fingerprint256 : JsString
  subjectAltName : JsString
  validFrom : Option ℤ
  validTo : Option ℤ
  checkPrivateKey : JsString → Option Bool
  verifies : Bool
  checkHost : JsString → Bool
  checkIP : JsString → Bool

/-- `node:crypto`: a key and a certificate signed with it, as texts, from what is random in
them; and the certificate in a text. Either may throw. -/
structure Crypto where
  issue : ℕ → Tbs → Option (JsString × JsString)
  parse : JsString → Option X509

/-- A certificate matches the names and the addresses it was issued for. -/
structure Crypto.Lawful (crypto : Crypto) : Prop where
  host : ∀ {random : ℕ} {tbs : Tbs} {key cert name : JsString} {x : X509},
    crypto.issue random tbs = some (key, cert) → crypto.parse cert = some x →
    .dnsName name ∈ tbs.names → isDnsName name = true → x.checkHost name = true
  ip : ∀ {random : ℕ} {tbs : Tbs} {key cert address : JsString} {x : X509},
    crypto.issue random tbs = some (key, cert) → crypto.parse cert = some x →
    .ipAddress (octetsOf address) ∈ tbs.names → isIpv4 address = true →
      x.checkIP address = true

/-- Whether the name is covered. -/
def X509.covers (x : X509) (host : JsString) : Bool :=
  if isIpv4 host then x.checkIP host else x.checkHost host

/-! ### Certificates -/

/-- `LanCertificate`. -/
structure LanCertificate where
  keyPem : JsString
  certPem : JsString
  fingerprint256 : JsString
  hosts : List JsString
  publishHost : Option JsString
  validFrom : Option ℤ
  validTo : Option ℤ
deriving DecidableEq

/-- `LIFETIME_MS`. -/
def lifetimeMs : ℤ := 2 * 365 * 24 * 60 * 60 * 1000

/-- `RENEW_BEFORE_MS`. -/
def renewBeforeMs : ℤ := 30 * 24 * 60 * 60 * 1000

/-- The prefixes that `sanHostsOf` drops. -/
def sanPrefixes : List JsString := ["dns:", "ip address:", "ip:", "uri:", "email:"].map js

def withoutSanPrefix (part : JsString) : JsString :=
  match sanPrefixes.find? fun pre => pre.isPrefixOf (lower part) with
  | some pre => part.drop pre.length
  | none => part

def sanHostsOf (x : X509) : List JsString :=
  ((splitOn (fun c => c = 44) x.subjectAltName).map fun part =>
    trim (withoutSanPrefix (trim part))).filter fun part => !part.isEmpty

variable (crypto : Crypto)

def generateLanCertificate (hosts : List JsString) (now : ℤ) (random : ℕ) :
    Option LanCertificate :=
  if hosts.length = 0 then none
  else
    let notBefore := now - 60000
    let notAfter := notBefore + lifetimeMs
    match crypto.issue random ⟨subjectAltNames hosts, notBefore, notAfter⟩ with
    | none => none
    | some (keyPem, certPem) =>
        match crypto.parse certPem with
        | none => none
        | some parsed =>
            if !parsed.verifies || parsed.checkPrivateKey keyPem ≠ some true then none
            else some
              { keyPem := keyPem
                certPem := certPem
                fingerprint256 := parsed.fingerprint256
                hosts := hosts
                publishHost := publishHostFrom hosts
                validFrom := some notBefore
                validTo := some notAfter }

/-! ### Files -/

/-- `lan-key.pem` and `lan-cert.pem`. -/
structure TlsFiles where
  key : Option JsString
  cert : Option JsString

/-- What becomes of a write. One that fails may leave anything. -/
inductive WriteOutcome where
  | written
  | failed (left : Option JsString)

def WriteOutcome.result (text : JsString) : WriteOutcome → Option JsString
  | .written => some text
  | .failed left => left

def WriteOutcome.ok : WriteOutcome → Bool
  | .written => true
  | .failed _ => false

/-- One call: the time, what is random in it, and which of its accesses to the disk succeed. -/
structure Attempt where
  now : ℤ
  random : ℕ
  readable : Bool
  directory : Bool
  key : WriteOutcome
  cert : WriteOutcome

/-- The checks of `loadLanCertificate` behind the parsing. -/
def usable (x : X509) (keyPem : JsString) (hosts : List JsString) (now : ℤ) : Bool :=
  x.checkPrivateKey keyPem = some true && x.verifies &&
    !(x.validFrom.any fun validFrom => validFrom > now) &&
    (x.validTo.any fun validTo => !(validTo - now < renewBeforeMs)) &&
    hosts.all x.covers

def loadLanCertificate (files : TlsFiles) (readable : Bool) (hosts : List JsString) (now : ℤ) :
    Option LanCertificate :=
  if !readable then none
  else
    match files.key, files.cert with
    | some keyPem, some certPem =>
        match crypto.parse certPem with
        | none => none
        | some parsed =>
            if usable parsed keyPem hosts now then
              some
                { keyPem := keyPem
                  certPem := certPem
                  fingerprint256 := parsed.fingerprint256
                  hosts := sanHostsOf parsed
                  publishHost := publishHostFrom hosts
                  validFrom := parsed.validFrom
                  validTo := parsed.validTo }
            else none
    | _, _ => none

/-- `ensureLanCertificate`, with the files as it leaves them; `none` where it throws. -/
def ensureLanCertificate (hosts : List JsString) (attempt : Attempt) (files : TlsFiles) :
    Option LanCertificate × TlsFiles :=
  match loadLanCertificate crypto files attempt.readable hosts attempt.now with
  | some existing => (some existing, files)
  | none =>
      match generateLanCertificate crypto hosts attempt.now attempt.random with
      | none => (none, files)
      | some generated =>
          if !attempt.directory then (none, files)
          else
            let files := { files with key := attempt.key.result generated.keyPem }
            if !attempt.key.ok then (none, files)
            else
              let files := { files with cert := attempt.cert.result generated.certPem }
              if !attempt.cert.ok then (none, files) else (some generated, files)

/-! ### What is returned -/

/-- The certificate covers the names, and publishes the one that is chosen from them. -/
structure Fits (hosts : List JsString) (cert : LanCertificate) : Prop where
  published : cert.publishHost = publishHostFrom hosts
  covered : ∀ host ∈ hosts, (crypto.parse cert.certPem).any (fun x => x.covers host) = true

variable {crypto} {hosts : List JsString} {now : ℤ} {cert : LanCertificate}

/-- Every name of a certificate is an address or a name. -/
lemma of_mem_defaultSanHosts {options : SanOptions} {interfaces : Interfaces} {host : JsString}
    (h : host ∈ defaultSanHosts options interfaces) :
    isIpv4 host = true ∨ isDnsName host = true := by
  have hkept := (List.mem_filter.mp h).2
  rwa [Bool.or_eq_true] at hkept

/-- A certificate covers the name it was issued for. -/
lemma covers_of_issue (hlaw : crypto.Lawful) {random : ℕ} {notBefore notAfter : ℤ}
    {keyPem certPem host : JsString} {x : X509}
    (hissue : crypto.issue random ⟨subjectAltNames hosts, notBefore, notAfter⟩ =
      some (keyPem, certPem)) (hparse : crypto.parse certPem = some x) (hmem : host ∈ hosts)
    (hname : isIpv4 host = true ∨ isDnsName host = true) : x.covers host = true := by
  have hgeneral : generalName host ∈ subjectAltNames hosts := List.mem_map_of_mem hmem
  rw [generalName] at hgeneral
  rw [X509.covers]
  split_ifs with hip
  · rw [if_pos hip] at hgeneral
    exact hlaw.ip hissue hparse hgeneral hip
  · rw [if_neg hip] at hgeneral
    exact hlaw.host hissue hparse hgeneral (hname.resolve_left hip)

lemma fits_of_generate (hlaw : crypto.Lawful) {random : ℕ}
    (hnames : ∀ host ∈ hosts, isIpv4 host = true ∨ isDnsName host = true)
    (h : generateLanCertificate crypto hosts now random = some cert) :
    Fits crypto hosts cert := by
  rw [generateLanCertificate] at h
  split_ifs at h
  simp only at h
  split at h
  · cases h
  case h_2 keyPem certPem hissue =>
    split at h
    · cases h
    case h_2 parsed hparse =>
      split_ifs at h
      cases h
      refine ⟨rfl, fun host hmem => ?_⟩
      have hcovers := covers_of_issue hlaw hissue hparse hmem (hnames host hmem)
      simp [hparse, hcovers]

lemma fits_of_load {files : TlsFiles} {readable : Bool}
    (h : loadLanCertificate crypto files readable hosts now = some cert) :
    Fits crypto hosts cert := by
  rw [loadLanCertificate] at h
  split_ifs at h
  split at h
  case h_2 => cases h
  case h_1 keyPem certPem hkey hcert =>
    split at h
    · cases h
    case h_2 parsed hparse =>
      split_ifs at h with husable
      cases h
      simp only [usable, Bool.and_eq_true, List.all_eq_true] at husable
      refine ⟨rfl, fun host hmem => ?_⟩
      simp [hparse, husable.2 host hmem]

/-- What is returned was stored for these names, or is issued for them. -/
lemma load_or_generate {attempt : Attempt} {files files' : TlsFiles}
    (h : ensureLanCertificate crypto hosts attempt files = (some cert, files')) :
    loadLanCertificate crypto files attempt.readable hosts attempt.now = some cert ∨
    generateLanCertificate crypto hosts attempt.now attempt.random = some cert := by
  rw [ensureLanCertificate] at h
  split at h
  case h_1 existing hload =>
    cases h
    exact .inl hload
  case h_2 =>
    split at h
    · cases h
    case h_2 generated hgenerate =>
      split_ifs at h <;> cases h
      exact .inr hgenerate

/-- What `ensureLanCertificate` returns covers the names it was called with. -/
lemma fits_of_ensure (hlaw : crypto.Lawful) {attempt : Attempt} {files files' : TlsFiles}
    (hnames : ∀ host ∈ hosts, isIpv4 host = true ∨ isDnsName host = true)
    (h : ensureLanCertificate crypto hosts attempt files = (some cert, files')) :
    Fits crypto hosts cert := by
  rcases load_or_generate h with hload | hgenerate
  · exact fits_of_load hload
  · exact fits_of_generate hlaw hnames hgenerate

/-- A name that is published is one of those covered. -/
lemma Fits.publishes (h : Fits crypto hosts cert) {host : JsString}
    (hhost : cert.publishHost = some host) :
    (crypto.parse cert.certPem).any (fun x => x.covers host) = true :=
  h.covered host (publishHostFrom_mem (h.published.symm.trans hhost))

/-! ### A library -/

/-- A name as it is written in `subjectAltName`. -/
def GeneralName.text : GeneralName → JsString
  | .dnsName name => js "DNS:" ++ name
  | .ipAddress octets => js "IP Address:" ++ join [46] (octets.map decimal)

/-- Certificates that are their own contents, one item a line, signed by a number. -/
def textCrypto : Crypto where
  issue random tbs :=
    let lines := decimal random :: decimal tbs.notBefore.toNat :: decimal tbs.notAfter.toNat ::
      tbs.names.map GeneralName.text
    if lines.all fun line => !line.isEmpty && line.all fun c => c ≠ 10 then
      some (decimal random, join [10] lines)
    else none
  parse text :=
    match segments (fun c => c = 10) text with
    | random :: notBefore :: notAfter :: names => some
        { fingerprint256 := text
          subjectAltName := join (js ", ") names
          validFrom := some (digitsValue notBefore)
          validTo := some (digitsValue notAfter)
          checkPrivateKey := fun key => some (key = random)
          verifies := true
          checkHost := fun name => names.contains (GeneralName.text (.dnsName name))
          checkIP := fun address =>
            names.contains (GeneralName.text (.ipAddress (octetsOf address))) }
    | _ => none

lemma names_of_parse {random : ℕ} {tbs : Tbs} {key cert : JsString} {x : X509}
    (hissue : textCrypto.issue random tbs = some (key, cert))
    (hparse : textCrypto.parse cert = some x) :
    (∀ name, x.checkHost name = (tbs.names.map GeneralName.text).contains
      (GeneralName.text (.dnsName name))) ∧
    (∀ address, x.checkIP address = (tbs.names.map GeneralName.text).contains
      (GeneralName.text (.ipAddress (octetsOf address)))) ∧
    x.validFrom = some (tbs.notBefore.toNat : ℤ) ∧ x.validTo = some (tbs.notAfter.toNat : ℤ) := by
  simp only [textCrypto] at hissue
  split_ifs at hissue with hlines
  cases hissue
  have hback : segments (fun c => c = 10) (join [10] (decimal random ::
      decimal tbs.notBefore.toNat :: decimal tbs.notAfter.toNat ::
      tbs.names.map GeneralName.text)) = decimal random :: decimal tbs.notBefore.toNat ::
      decimal tbs.notAfter.toNat :: tbs.names.map GeneralName.text :=
    segments_join 10 (by decide) _ fun line hline => by
      have h := List.all_eq_true.mp hlines line hline
      simpa using h
  simp only [textCrypto, hback, Option.some.injEq] at hparse
  subst hparse
  exact ⟨fun _ => rfl, fun _ => rfl, by simp [digitsValue_decimal], by simp [digitsValue_decimal]⟩

lemma textCrypto_lawful : textCrypto.Lawful where
  host hissue hparse hmem _ := by
    rw [(names_of_parse hissue hparse).1]
    exact List.contains_iff_mem.mpr (List.mem_map_of_mem hmem)
  ip hissue hparse hmem _ := by
    rw [(names_of_parse hissue hparse).2.1]
    exact List.contains_iff_mem.mpr (List.mem_map_of_mem hmem)

end LocalCast.Server
