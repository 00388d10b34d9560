import LocalCast.Foundations.Runs
import LocalCast.Server.LanCertificate

/-!
`net/lanPublisher.ts`: the certificate follows the addresses of the machine.

* `LanPublisher`, `reissue`, `refresh`: the certificate with the signature of the addresses it
  was issued for.
* `WatchState`, `watchStep`: a publisher that is started and refreshed, any number of times, on
  files that may change in between.
* `RecoverLaw`: no refresh that follows a failed one skips the work, and after one that does not
  fail the certificate is the one for the table it read.
* `retried`: a refresh that follows a failed one reads other addresses.
* `published_recovers`: the law in every such run.
* `publisher_stuck`: after a write that failed, the new address is never published.

The interval of the timer, the log and `stop` are left out. The machine's own name does not
change.
-/

namespace LocalCast.Server

open JsString Runs

/-! ### The publisher -/

/-- `#cert` and `#signature`. -/
structure LanPublisher where
  cert : Option LanCertificate
  signature : JsString

/-- What comes of a refresh. -/
inductive Refreshed where
  | unchanged
  | replaced (cert : LanCertificate)
  | threw

namespace LanPublisher

/-- `new LanPublisher`. -/
def new : LanPublisher := ⟨none, []⟩

variable (crypto : Crypto) (options : SanOptions) (p : LanPublisher)

/-- `#reissue`: the signature is kept before the certificate is there. -/
def reissue (interfaces : Interfaces) (attempt : Attempt) (files : TlsFiles) :
    Option LanCertificate × LanPublisher × TlsFiles :=
  let p := { p with signature := signatureOf interfaces }
  match ensureLanCertificate crypto (defaultSanHosts options interfaces) attempt files with
  | (none, files) => (none, p, files)
  | (some cert, files) => (some cert, { p with cert := some cert }, files)

/-- `refresh`. The table is read once for the signature, and again for the certificate. -/
def refresh (seen interfaces : Interfaces) (attempt : Attempt) (files : TlsFiles) :
    Refreshed × LanPublisher × TlsFiles :=
  if signatureOf seen = p.signature then (.unchanged, p, files)
  else
    match p.reissue crypto options interfaces attempt files with
    | (none, p, files) => (.threw, p, files)
    | (some cert, p, files) => (.replaced cert, p, files)

/-- `publishHost`. -/
def publishHost : Option JsString := p.cert.bind LanCertificate.publishHost

end LanPublisher

/-! ### The run -/

/-- How the last call ended, and the table it went by. -/
inductive LastRefresh where
  | none
  | failed (interfaces : Interfaces)
  | done (interfaces : Interfaces)

/-- The publisher, once it was started, and the files; how the last call ended, and whether a
refresh that followed a failed one has skipped the work. -/
structure WatchState where
  publisher : Option LanPublisher
  files : TlsFiles
  last : LastRefresh
  skipped : Bool

inductive WatchAction where
  /-- A new publisher is started. -/
  | start (interfaces : Interfaces) (attempt : Attempt)
  | refresh (seen interfaces : Interfaces) (attempt : Attempt)
  /-- Somebody else changes the files. -/
  | edited (files : TlsFiles)

/-- The machine has the addresses of the table that the failed call went by. -/
def LastRefresh.failedOn (last : LastRefresh) (seen : Interfaces) : Bool :=
  match last with
  | .failed interfaces => lanIpv4Addresses seen = lanIpv4Addresses interfaces
  | _ => false

def watchStep (crypto : Crypto) (options : SanOptions) (s : WatchState) :
    WatchAction → Option WatchState
  | .start interfaces attempt =>
      match LanPublisher.new.reissue crypto options interfaces attempt s.files with
      | (none, _, files) => some { s with publisher := none, files := files, last := .none }
      | (some _, p, files) =>
          some { s with publisher := some p, files := files, last := .done interfaces }
  | .refresh seen interfaces attempt =>
      match s.publisher with
      | none => none
      | some p =>
          match p.refresh crypto options seen interfaces attempt s.files with
          | (.unchanged, p, files) =>
              some { publisher := some p, files := files, last := .done seen
                     skipped := s.skipped || s.last.failedOn seen }
          | (.replaced _, p, files) =>
              some { s with publisher := some p, files := files, last := .done interfaces }
          | (.threw, p, files) =>
              some { s with publisher := some p, files := files, last := .failed interfaces }
  | .edited files => some { s with files := files }

/-! ### The law -/

/-- The certificate is one that was made for this table. -/
def Computed (crypto : Crypto) (options : SanOptions) (interfaces : Interfaces)
    (cert : LanCertificate) : Prop :=
  ∃ attempt files files',
    ensureLanCertificate crypto (defaultSanHosts options interfaces) attempt files =
      (some cert, files')

/-- No work was skipped after a failure, and where the last call did not fail, the certificate is
one for the table it went by, covers every name of it, and the right one is published. -/
structure RecoverLaw (crypto : Crypto) (options : SanOptions) (s : WatchState) : Prop where
  attempted : s.skipped = false
  current : ∀ interfaces, s.last = .done interfaces → ∃ p cert, s.publisher = some p ∧
    p.cert = some cert ∧ Computed crypto options interfaces cert ∧
    p.publishHost = publishHostFrom (defaultSanHosts options interfaces) ∧
    Fits crypto (defaultSanHosts options interfaces) cert

/-- A refresh that follows a failed one finds other addresses than that one. -/
def retried (s : WatchState) : WatchAction → Bool
  | .refresh seen _ _ => !s.last.failedOn seen
  | _ => true

/-! ### The invariant -/

/-- The signature is that of the last table; where the call did not fail, the certificate was
made for it. -/
structure Recovering (crypto : Crypto) (options : SanOptions) (s : WatchState) : Prop where
  attempted : s.skipped = false
  failed : ∀ interfaces p, s.last = .failed interfaces → s.publisher = some p →
    p.signature = signatureOf interfaces
  done : ∀ interfaces, s.last = .done interfaces → ∃ p cert, s.publisher = some p ∧
    p.signature = signatureOf interfaces ∧ p.cert = some cert ∧
    Computed crypto options interfaces cert
  off : s.last = .none → s.publisher = none

variable {crypto : Crypto} {options : SanOptions} {s t : WatchState} {a : WatchAction}

lemma Computed.fits (hlaw : crypto.Lawful) {interfaces : Interfaces} {cert : LanCertificate}
    (h : Computed crypto options interfaces cert) :
    Fits crypto (defaultSanHosts options interfaces) cert := by
  obtain ⟨attempt, files, files', h⟩ := h
  exact fits_of_ensure hlaw (fun _ => of_mem_defaultSanHosts) h

/-- A certificate for a table is one for every table with its addresses. -/
lemma Computed.congr {interfaces interfaces' : Interfaces} {cert : LanCertificate}
    (h : Computed crypto options interfaces cert)
    (hsame : lanIpv4Addresses interfaces = lanIpv4Addresses interfaces') :
    Computed crypto options interfaces' cert := by
  rwa [Computed, ← hosts_of_addresses options hsame]

lemma Recovering.law (hlaw : crypto.Lawful) (h : Recovering crypto options s) :
    RecoverLaw crypto options s where
  attempted := h.attempted
  current interfaces hlast := by
    obtain ⟨p, cert, hp, -, hcert, hcomputed⟩ := h.done interfaces hlast
    have hfits := hcomputed.fits hlaw
    refine ⟨p, cert, hp, hcert, hcomputed, ?_, hfits⟩
    rw [LanPublisher.publishHost, hcert, Option.bind_some, hfits.published]

/-! ### Steps -/

variable (crypto options) in
/-- What `#reissue` leaves behind: the new signature in any case, and the certificate if it was
made. -/
lemma reissue_spec (p : LanPublisher) (interfaces : Interfaces) (attempt : Attempt)
    (files : TlsFiles) :
    (∃ files', p.reissue crypto options interfaces attempt files =
      (none, { p with signature := signatureOf interfaces }, files')) ∨
    ∃ cert files', p.reissue crypto options interfaces attempt files =
      (some cert, ⟨some cert, signatureOf interfaces⟩, files') ∧
      Computed crypto options interfaces cert := by
  rw [LanPublisher.reissue]
  split
  case h_1 files' _ => exact .inl ⟨files', rfl⟩
  case h_2 cert files' hensure =>
    exact .inr ⟨cert, files', rfl, attempt, files, files', hensure⟩

lemma recovering_start (h : Recovering crypto options s) {interfaces : Interfaces}
    {attempt : Attempt} (hstep : watchStep crypto options s (.start interfaces attempt) = some t) :
    Recovering crypto options t := by
  rcases reissue_spec crypto options .new interfaces attempt s.files with
    ⟨files, hissue⟩ | ⟨cert, files, hissue, hcomputed⟩
  · rw [watchStep, hissue] at hstep
    cases hstep
    exact ⟨h.attempted, nofun, nofun, fun _ => rfl⟩
  · rw [watchStep, hissue] at hstep
    cases hstep
    refine ⟨h.attempted, nofun, ?_, nofun⟩
    rintro _ ⟨⟩
    exact ⟨_, cert, rfl, rfl, rfl, hcomputed⟩

/-- A refresh that finds the signature it left. -/
lemma recovering_unchanged (h : Recovering crypto options s) {p : LanPublisher}
    {seen : Interfaces} (hp : s.publisher = some p) (hsame : signatureOf seen = p.signature)
    (hguard : s.last.failedOn seen = false) :
    Recovering crypto options { s with
      publisher := some p, last := .done seen, skipped := s.skipped || s.last.failedOn seen } := by
  refine ⟨by simp [h.attempted, hguard], nofun, ?_, nofun⟩
  rintro _ ⟨⟩
  cases hlast : s.last with
  | none => cases hp.symm.trans (h.off hlast)
  | failed interfaces =>
      have hother : lanIpv4Addresses seen ≠ lanIpv4Addresses interfaces := by
        simpa [LastRefresh.failedOn, hlast] using hguard
      exact absurd (addresses_of_signature (hsame.trans (h.failed interfaces p hlast hp))) hother
  | done interfaces =>
      obtain ⟨q, cert, hq, hsignature, hcert, hcomputed⟩ := h.done interfaces hlast
      cases hp.symm.trans hq
      have haddresses := addresses_of_signature (hsignature.symm.trans hsame.symm)
      exact ⟨p, cert, rfl, hsame.symm, hcert, hcomputed.congr haddresses⟩

lemma recovering_refresh (h : Recovering crypto options s) {seen interfaces : Interfaces}
    {attempt : Attempt} (hguard : retried s (.refresh seen interfaces attempt) = true)
    (hstep : watchStep crypto options s (.refresh seen interfaces attempt) = some t) :
    Recovering crypto options t := by
  simp only [retried, Bool.not_eq_true'] at hguard
  rw [watchStep] at hstep
  split at hstep
  · cases hstep
  case h_2 p hp =>
    by_cases hsame : signatureOf seen = p.signature
    · rw [LanPublisher.refresh, if_pos hsame] at hstep
      cases hstep
      exact recovering_unchanged h hp hsame hguard
    · rw [LanPublisher.refresh, if_neg hsame] at hstep
      rcases reissue_spec crypto options p interfaces attempt s.files
        with ⟨files, hissue⟩ | ⟨cert, files, hissue, hcomputed⟩
      · rw [hissue] at hstep
        cases hstep
        refine ⟨h.attempted, ?_, nofun, nofun⟩
        rintro _ _ ⟨⟩ ⟨⟩
        rfl
      · rw [hissue] at hstep
        cases hstep
        refine ⟨h.attempted, nofun, ?_, nofun⟩
        rintro _ ⟨⟩
        exact ⟨_, cert, rfl, rfl, rfl, hcomputed⟩

/-- **One step** keeps the invariant. -/
lemma recovering_step (h : Recovering crypto options s) (hguard : retried s a = true)
    (hstep : watchStep crypto options s a = some t) : Recovering crypto options t := by
  cases a with
  | start interfaces attempt => exact recovering_start h hstep
  | refresh seen interfaces attempt => exact recovering_refresh h hguard hstep
  | edited files =>
      cases hstep
      exact ⟨h.attempted, h.failed, h.done, h.off⟩

/-- Nothing was started yet. -/
def WatchState.init (files : TlsFiles) : WatchState := ⟨none, files, .none, false⟩

lemma recovering_init (files : TlsFiles) : Recovering crypto options (.init files) :=
  ⟨rfl, nofun, nofun, fun _ => rfl⟩

/-- **The publisher recovers**: in every run in which a refresh that follows a failed one finds
other addresses than that one, no work is skipped and the certificate is the current one. -/
theorem published_recovers (hlaw : crypto.Lawful) {files : TlsFiles} {as : List WatchAction}
    (h : Run (Guarded (fun s a => retried s a) (watchStep crypto options)) (.init files) as s) :
    RecoverLaw crypto options s := by
  have hs : Recovering crypto options s :=
    h.invariant (fun _ _ _ hs hstep => recovering_step hs hstep.1 hstep.2) (recovering_init files)
  exact hs.law hlaw

/-! ### Concrete runs -/

/-- A machine with one adapter. -/
def oneAdapter (address : JsString) (h : isIpv4 address = true) : Interfaces :=
  [(js "Wi-Fi", [⟨address, .ipv4, false, js "a2:c4:85:81:cc:0c", fun _ => h⟩])]

/-- A machine with no name for a certificate. -/
def namelessOptions : SanOptions := ⟨[], js "my_pc", lower⟩

/-- A call that succeeds. -/
def goodAttempt (random : ℕ) : Attempt := ⟨60000, random, true, true, .written, .written⟩

/-- A call that cannot write the certificate. -/
def badAttempt (random : ℕ) : Attempt := ⟨60000, random, true, true, .written, .failed none⟩

def at50 : Interfaces := oneAdapter (js "192.168.1.50") (by decide)

def at73 : Interfaces := oneAdapter (js "192.168.1.73") (by decide)

/-- A write fails for one address, and the next one is published. -/
theorem published_recovers_moved : ∃ s,
    Run (Guarded (fun s a => retried s a) (watchStep textCrypto namelessOptions))
      (.init ⟨none, none⟩) [.start at50 (goodAttempt 1), .refresh at73 at73 (badAttempt 2),
        .refresh at50 at50 (goodAttempt 3), .refresh at50 at50 (goodAttempt 4)] s ∧
    s.publisher.bind LanPublisher.publishHost = some (js "192.168.1.50") ∧
    RecoverLaw textCrypto namelessOptions s := by
  obtain ⟨s, hrun, hs⟩ := exists_guarded_run_of_exec (fun s a => retried s a)
    (watchStep textCrypto namelessOptions) (.init ⟨none, none⟩)
    [.start at50 (goodAttempt 1), .refresh at73 at73 (badAttempt 2),
      .refresh at50 at50 (goodAttempt 3), .refresh at50 at50 (goodAttempt 4)]
    (fun s => s.publisher.bind LanPublisher.publishHost = some (js "192.168.1.50"))
    (by decide)
  exact ⟨s, hrun, of_decide_eq_true hs, published_recovers textCrypto_lawful hrun⟩

/-- **The publisher is stuck**: the certificate for a new address could not be written, and the
next refresh does nothing. -/
theorem publisher_stuck : ∃ s,
    Run (Steps (watchStep textCrypto namelessOptions)) (.init ⟨none, none⟩)
      [.start at50 (goodAttempt 1), .refresh at73 at73 (badAttempt 2),
        .refresh at73 at73 (goodAttempt 3)] s ∧
    s.skipped = true ∧ lanIpv4Addresses at73 = [js "192.168.1.73"] ∧
    s.publisher.bind LanPublisher.publishHost = some (js "192.168.1.50") ∧
    ¬ RecoverLaw textCrypto namelessOptions s := by
  obtain ⟨s, hrun, hs⟩ := exists_run_of_exec (watchStep textCrypto namelessOptions)
    (.init ⟨none, none⟩) [.start at50 (goodAttempt 1), .refresh at73 at73 (badAttempt 2),
      .refresh at73 at73 (goodAttempt 3)]
    (fun s => s.skipped && s.publisher.bind LanPublisher.publishHost = some (js "192.168.1.50"))
    (by decide)
  rw [Bool.and_eq_true, decide_eq_true_eq] at hs
  exact ⟨s, hrun, hs.1, by decide, hs.2, fun hlaw => absurd (hlaw.attempted.symm.trans hs.1)
    (by decide)⟩

end LocalCast.Server
