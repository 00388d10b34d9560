import LocalCast.Server.LanPublisher

/-!
The certificate and the clock: a publisher that runs for any length of time, on tables of any
kind.

* `TickState`, `tickStep`: refreshes at times that do not decrease, with files that may change in
  between.
* `InForce`: after every refresh the certificate is valid, and outside the margin in which it is
  to be renewed.
* `renewable`: a refresh inside the margin finds other addresses, and what it writes is written.
* `in_force_of_ensure`: what `ensureLanCertificate` returns is in force.
* `never_expired`: the law in every run of such refreshes.
* `expired`: on a machine whose addresses stay, the certificate expires and is kept.
-/

namespace LocalCast.Server

open JsString JsNumber Runs

/-! ### The run -/

/-- A publisher that was started, its files, and the time of the last refresh. -/
structure TickState where
  publisher : LanPublisher
  files : TlsFiles
  clock : ℤ

inductive TickAction where
  | tick (seen interfaces : Interfaces) (attempt : Attempt)
  /-- Somebody else changes the files. -/
  | edited (files : TlsFiles)

/-- `start`; `none` where it throws. -/
def startTicking (crypto : Crypto) (options : SanOptions) (interfaces : Interfaces)
    (attempt : Attempt) (files : TlsFiles) : Option TickState :=
  match LanPublisher.new.reissue crypto options interfaces attempt files with
  | (none, _, _) => none
  | (some _, publisher, files) => some ⟨publisher, files, attempt.now⟩

/-- A refresh that throws is logged and the timer goes on. -/
def tickStep (crypto : Crypto) (options : SanOptions) (s : TickState) :
    TickAction → Option TickState
  | .tick seen interfaces attempt =>
      if attempt.now < s.clock then none
      else
        match s.publisher.refresh crypto options seen interfaces attempt s.files with
        | (_, publisher, files) => some ⟨publisher, files, attempt.now⟩
  | .edited files => some { s with files := files }

/-! ### The law -/

/-- The certificate is to be renewed. -/
def LanCertificate.inMargin (cert : LanCertificate) (now : ℤ) : Bool :=
  !cert.validTo.any fun validTo => !(validTo - now < renewBeforeMs)

/-- A certificate is held that is valid, and that has not come to its margin. -/
structure InForce (s : TickState) : Prop where
  valid : ∃ cert validFrom validTo, s.publisher.cert = some cert ∧
    cert.validFrom = some validFrom ∧ cert.validTo = some validTo ∧
    validFrom ≤ s.clock ∧ s.clock ≤ validTo
  renewed : ∀ cert, s.publisher.cert = some cert → cert.inMargin s.clock = false

/-- A refresh in the margin of the certificate finds other addresses, and the files hold a
certificate to use or a new one can be written. -/
def renewable (crypto : Crypto) (options : SanOptions) (s : TickState) : TickAction → Bool
  | .tick seen interfaces attempt =>
      !(s.publisher.cert.any fun cert => cert.inMargin attempt.now) ||
        (signatureOf seen ≠ s.publisher.signature &&
          ((loadLanCertificate crypto s.files attempt.readable
              (defaultSanHosts options interfaces) attempt.now).isSome ||
            (attempt.directory && attempt.key.ok && attempt.cert.ok)))
  | .edited _ => true

/-- Certificates can be issued for the names of every table, and say from when they are valid. -/
structure Crypto.Issues (crypto : Crypto) (options : SanOptions) : Prop where
  issued : ∀ interfaces random notBefore notAfter, ∃ key cert x,
    crypto.issue random ⟨subjectAltNames (defaultSanHosts options interfaces), notBefore,
      notAfter⟩ = some (key, cert) ∧ crypto.parse cert = some x ∧ x.verifies = true ∧
      x.checkPrivateKey key = some true
  dated : ∀ {text : JsString} {x : X509}, crypto.parse text = some x → x.validFrom.isSome = true

/-! ### What is returned is in force -/

variable {crypto : Crypto} {options : SanOptions} {s t : TickState} {a : TickAction}

/-- The certificate is valid, and far from its end. -/
def LanCertificate.InForceAt (cert : LanCertificate) (now : ℤ) : Prop :=
  ∃ validFrom validTo, cert.validFrom = some validFrom ∧ cert.validTo = some validTo ∧
    validFrom ≤ now ∧ renewBeforeMs ≤ validTo - now

lemma InForce.of_cert {cert : LanCertificate} (hcert : s.publisher.cert = some cert)
    (h : cert.InForceAt s.clock) : InForce s := by
  obtain ⟨validFrom, validTo, hfrom, hto, hle, hmargin⟩ := h
  refine ⟨⟨cert, validFrom, validTo, hcert, hfrom, hto, hle, ?_⟩, fun cert' hcert' => ?_⟩
  · have hpos : (0 : ℤ) ≤ renewBeforeMs := by decide
    omega
  · cases hcert.symm.trans hcert'
    simpa [LanCertificate.inMargin, hto] using hmargin

/-- What `ensureLanCertificate` returns is valid at the time of the call, and not to be renewed. -/
theorem in_force_of_ensure (hlaw : crypto.Issues options) {hosts : List JsString}
    {attempt : Attempt} {files files' : TlsFiles} {cert : LanCertificate}
    (h : ensureLanCertificate crypto hosts attempt files = (some cert, files')) :
    cert.InForceAt attempt.now := by
  rcases load_or_generate h with hload | hgenerate
  · rw [loadLanCertificate] at hload
    split_ifs at hload
    split at hload
    case h_2 => cases hload
    case h_1 keyPem certPem _ _ =>
      split at hload
      · cases hload
      case h_2 parsed hparse =>
        split_ifs at hload with husable
        cases hload
        simp only [usable, Bool.and_eq_true, Bool.not_eq_true', Option.any_eq_true,
          decide_eq_false_iff_not, not_lt] at husable
        obtain ⟨⟨⟨-, hfrom⟩, validTo, hto, hmargin⟩, -⟩ := husable
        obtain ⟨validFrom, hvalidFrom⟩ := Option.isSome_iff_exists.mp (hlaw.dated hparse)
        rw [hvalidFrom, Option.any_some, decide_eq_false_iff_not, not_lt] at hfrom
        exact ⟨validFrom, validTo, hvalidFrom, hto, hfrom, hmargin⟩
  · rw [generateLanCertificate] at hgenerate
    split_ifs at hgenerate
    simp only at hgenerate
    split at hgenerate
    · cases hgenerate
    case h_2 =>
      split at hgenerate
      · cases hgenerate
      case h_2 =>
        split_ifs at hgenerate
        cases hgenerate
        refine ⟨attempt.now - 60000, attempt.now - 60000 + lifetimeMs, rfl, rfl, by omega, ?_⟩
        rw [renewBeforeMs, lifetimeMs]
        omega

/-- A certificate that can be loaded or written is returned. -/
lemma ensure_isSome (hlaw : crypto.Issues options) {interfaces : Interfaces} {attempt : Attempt}
    {files : TlsFiles}
    (h : (loadLanCertificate crypto files attempt.readable (defaultSanHosts options interfaces)
        attempt.now).isSome = true ∨
      (attempt.directory = true ∧ attempt.key.ok = true ∧ attempt.cert.ok = true)) :
    ∃ cert files', ensureLanCertificate crypto (defaultSanHosts options interfaces) attempt files =
      (some cert, files') := by
  rw [ensureLanCertificate]
  cases hload : loadLanCertificate crypto files attempt.readable (defaultSanHosts options interfaces)
    attempt.now with
  | some existing => exact ⟨existing, files, rfl⟩
  | none =>
      rw [hload, Option.isSome_none, Bool.false_eq_true, false_or] at h
      obtain ⟨hdirectory, hkey, hcert⟩ := h
      obtain ⟨key, certPem, x, hissue, hparse, hverifies, hchecks⟩ := hlaw.issued interfaces
        attempt.random (attempt.now - 60000) (attempt.now - 60000 + lifetimeMs)
      have hlocal : js "localhost" ∈ defaultSanHosts options interfaces := by
        rw [defaultSanHosts, List.mem_filter, List.mem_eraseDups]
        exact ⟨by simp, by decide⟩
      have hhosts : (defaultSanHosts options interfaces).length ≠ 0 :=
        List.length_pos_of_mem hlocal |>.ne'
      simp [generateLanCertificate, hhosts, hissue, hparse, hverifies, hchecks, hdirectory, hkey,
        hcert]

/-! ### Every run -/

/-- The certificate that is held is in force. -/
def Holding (s : TickState) : Prop :=
  ∃ cert, s.publisher.cert = some cert ∧ cert.InForceAt s.clock

/-- A certificate outside its margin stays in force. -/
lemma LanCertificate.InForceAt.later {cert : LanCertificate} {now now' : ℤ}
    (h : cert.InForceAt now) (hle : now ≤ now') (hmargin : cert.inMargin now' = false) :
    cert.InForceAt now' := by
  obtain ⟨validFrom, validTo, hfrom, hto, hvalid, -⟩ := h
  refine ⟨validFrom, validTo, hfrom, hto, hvalid.trans hle, ?_⟩
  simpa [LanCertificate.inMargin, hto] using hmargin

/-- **One refresh** keeps a certificate in force. -/
lemma holding_step (hlaw : crypto.Issues options) (h : Holding s)
    (hguard : renewable crypto options s a = true) (hstep : tickStep crypto options s a = some t) :
    Holding t := by
  obtain ⟨cert, hcert, hforce⟩ := h
  cases a with
  | edited files =>
      cases hstep
      exact ⟨cert, hcert, hforce⟩
  | tick seen interfaces attempt =>
      rw [renewable, hcert, Option.any_some, Bool.or_eq_true, Bool.not_eq_true', Bool.and_eq_true,
        decide_eq_true_eq, Bool.or_eq_true, Bool.and_eq_true, Bool.and_eq_true, and_assoc] at hguard
      rw [tickStep, LanPublisher.refresh] at hstep
      split_ifs at hstep with hclock hsame
      · -- the addresses are the same, so the margin has not begun
        cases hstep
        have hmargin := hguard.resolve_right fun h => h.1 hsame
        exact ⟨cert, hcert, hforce.later (not_lt.mp hclock) hmargin⟩
      · rcases hensure : ensureLanCertificate crypto (defaultSanHosts options interfaces) attempt
          s.files with ⟨- | cert', files'⟩
        · -- the call throws, so the margin has not begun either
          have hmargin : cert.inMargin attempt.now = false := by
            refine hguard.resolve_right fun hrenew => ?_
            obtain ⟨cert', files', hsome⟩ := ensure_isSome hlaw hrenew.2
            rw [hensure] at hsome
            cases hsome
          simp only [LanPublisher.reissue, hensure, Option.some.injEq] at hstep
          subst hstep
          exact ⟨cert, hcert, hforce.later (not_lt.mp hclock) hmargin⟩
        · simp only [LanPublisher.reissue, hensure, Option.some.injEq] at hstep
          subst hstep
          exact ⟨cert', rfl, in_force_of_ensure hlaw hensure⟩

/-- **The certificate is never expired**: in every run whose refreshes find other addresses once
the margin of the certificate has begun, the certificate that is held after every refresh is
valid, and was renewed before it came to its margin. -/
theorem never_expired (hlaw : crypto.Issues options) {interfaces : Interfaces} {attempt : Attempt}
    {files : TlsFiles} {s₀ : TickState} {as : List TickAction}
    (hstart : startTicking crypto options interfaces attempt files = some s₀)
    (hrun : Run (Guarded (fun s a => renewable crypto options s a) (tickStep crypto options))
      s₀ as s) : InForce s := by
  have hholding : Holding s₀ := by
    rw [startTicking, LanPublisher.reissue] at hstart
    rcases hensure : ensureLanCertificate crypto (defaultSanHosts options interfaces) attempt
      files with ⟨- | cert, files'⟩
    · simp only [hensure] at hstart
      cases hstart
    · simp only [hensure] at hstart
      cases hstart
      exact ⟨cert, rfl, in_force_of_ensure hlaw hensure⟩
  obtain ⟨cert, hcert, hforce⟩ : Holding s :=
    hrun.invariant (fun _ _ _ h hstep => holding_step hlaw h hstep.1 hstep.2) hholding
  exact .of_cert hcert hforce

/-! ### Concrete runs -/

/-- Names and addresses are written on one line. -/
lemma generalName_line {host : JsString} (h : isIpv4 host = true ∨ isDnsName host = true) :
    (generalName host).text ≠ [] ∧ ∀ c ∈ (generalName host).text, c ≠ 10 := by
  have hdot : (10 : CodeUnit) ≠ 46 := by decide
  have hname : ∀ c ∈ host, c ≠ 10 := by
    rintro c hc rfl
    exact absurd (unit_of_host h 10 hc) (by decide)
  rw [generalName]
  split_ifs
  · refine ⟨by simp [GeneralName.text, js, encodeChar], fun c hc => ?_⟩
    rcases List.mem_append.mp hc with hc | hc
    · exact forall_of_all (p := fun c => c ≠ 10) (by decide) c hc
    · rintro rfl
      obtain ⟨piece, hpiece, hc⟩ := exists_mem_splitOn_unit hc hdot
      rw [splitOn_join 46 (by decide)] at hpiece
      · obtain ⟨n, -, rfl⟩ := List.mem_map.mp hpiece
        exact absurd (isDigit_of_mem_decimal hc) (by decide)
      · simp [octetsOf, splitOn_ne_nil]
      · intro p hp c hcp
        obtain ⟨n, -, rfl⟩ := List.mem_map.mp hp
        rw [decide_eq_false_iff_not]
        rintro rfl
        exact absurd (isDigit_of_mem_decimal hcp) (by decide)
  · refine ⟨by simp [GeneralName.text, js, encodeChar], fun c hc => ?_⟩
    rcases List.mem_append.mp hc with hc | hc
    · exact forall_of_all (p := fun c => c ≠ 10) (by decide) c hc
    · exact hname c hc

lemma textCrypto_issues (options : SanOptions) : textCrypto.Issues options where
  issued interfaces random notBefore notAfter := by
    set names := (subjectAltNames (defaultSanHosts options interfaces)).map GeneralName.text
      with hnames
    have hline : ∀ line ∈ names, line ≠ [] ∧ ∀ c ∈ line, c ≠ 10 := by
      intro line hline
      rw [hnames, subjectAltNames, List.map_map, List.mem_map] at hline
      obtain ⟨host, hhost, rfl⟩ := hline
      exact generalName_line (of_mem_defaultSanHosts hhost)
    have hdecimal (n : ℕ) : decimal n ≠ [] ∧ ∀ c ∈ decimal n, c ≠ 10 := by
      refine ⟨decimal_ne_nil n, ?_⟩
      rintro c hc rfl
      exact absurd (isDigit_of_mem_decimal hc) (by decide)
    set lines := decimal random :: decimal notBefore.toNat :: decimal notAfter.toNat :: names
      with hlines
    have hall : ∀ line ∈ lines, line ≠ [] ∧ ∀ c ∈ line, c ≠ 10 := by
      rw [hlines]
      simp only [List.forall_mem_cons]
      exact ⟨hdecimal _, hdecimal _, hdecimal _, hline⟩
    have hissue : textCrypto.issue random
        ⟨subjectAltNames (defaultSanHosts options interfaces), notBefore, notAfter⟩ =
          some (decimal random, join [10] lines) := by
      refine if_pos ?_
      rw [List.all_eq_true]
      intro line hmem
      simpa using hall line hmem
    have hback : segments (fun c => decide (c = 10)) (join [10] lines) = lines :=
      segments_join 10 (by decide) _ fun line hmem => by simpa using hall line hmem
    have hparse : ∃ x, textCrypto.parse (join [10] lines) = some x ∧ x.verifies = true ∧
        x.checkPrivateKey (decimal random) = some true := by
      simp only [textCrypto, hback]
      rw [hlines]
      exact ⟨_, rfl, rfl, congrArg some (decide_eq_true rfl)⟩
    obtain ⟨x, hx, hverifies, hchecks⟩ := hparse
    exact ⟨_, _, x, hissue, hx, hverifies, hchecks⟩
  dated {text x} h := by
    simp only [textCrypto] at h
    split at h
    case h_1 =>
      cases h
      rfl
    case h_2 => cases h

/-- A call at a time, which succeeds. -/
def attemptAt (now : ℤ) (random : ℕ) : Attempt := ⟨now, random, true, true, .written, .written⟩

/-- Two years after the start, to the hour. -/
def twoYears : ℤ := lifetimeMs - 3600000

/-- The address changes while the certificate is in its margin, and a new one is issued. -/
theorem never_expired_moved : ∃ s₀ s,
    startTicking textCrypto namelessOptions at50 (attemptAt 60000 1) ⟨none, none⟩ = some s₀ ∧
    Run (Guarded (fun s a => renewable textCrypto namelessOptions s a)
      (tickStep textCrypto namelessOptions)) s₀
      [.tick at50 at50 (attemptAt 65000 2), .tick at73 at73 (attemptAt twoYears 3),
        .tick at73 at73 (attemptAt (twoYears + 5000) 4)] s ∧
    s.clock = twoYears + 5000 ∧ InForce s := by
  have hstart : (startTicking textCrypto namelessOptions at50 (attemptAt 60000 1)
    ⟨none, none⟩).isSome = true := by decide
  obtain ⟨s₀, hs₀⟩ := Option.isSome_iff_exists.mp hstart
  have hexec : ((startTicking textCrypto namelessOptions at50 (attemptAt 60000 1)
      ⟨none, none⟩).bind fun s => exec (guarded
        (fun s a => renewable textCrypto namelessOptions s a) (tickStep textCrypto namelessOptions))
        s [.tick at50 at50 (attemptAt 65000 2), .tick at73 at73 (attemptAt twoYears 3),
          .tick at73 at73 (attemptAt (twoYears + 5000) 4)]).any (fun s =>
          s.clock = twoYears + 5000) = true := by
    decide
  rw [hs₀, Option.bind_some] at hexec
  obtain ⟨s, hrun, hs⟩ := exists_guarded_run_of_exec _ _ _ _ _ hexec
  exact ⟨s₀, s, hs₀, hrun, of_decide_eq_true hs, never_expired (textCrypto_issues _) hs₀ hrun⟩

/-- **The certificate expires**: the addresses stay, and two years later the refresh does nothing. -/
theorem expired : ∃ s₀ s cert,
    startTicking textCrypto namelessOptions at50 (attemptAt 60000 1) ⟨none, none⟩ = some s₀ ∧
    Run (Steps (tickStep textCrypto namelessOptions)) s₀
      [.tick at50 at50 (attemptAt 65000 2), .tick at50 at50 (attemptAt (lifetimeMs + 5000) 3)] s ∧
    s.publisher.cert = some cert ∧ cert.validTo = some lifetimeMs ∧ s.clock = lifetimeMs + 5000 ∧
    ¬ InForce s := by
  have hstart : (startTicking textCrypto namelessOptions at50 (attemptAt 60000 1)
    ⟨none, none⟩).isSome = true := by decide
  obtain ⟨s₀, hs₀⟩ := Option.isSome_iff_exists.mp hstart
  have hexec : ((startTicking textCrypto namelessOptions at50 (attemptAt 60000 1)
      ⟨none, none⟩).bind fun s => exec (tickStep textCrypto namelessOptions)
        s [.tick at50 at50 (attemptAt 65000 2), .tick at50 at50 (attemptAt (lifetimeMs + 5000) 3)]
        ).any (fun s => s.clock = lifetimeMs + 5000 &&
          s.publisher.cert.any fun cert => cert.validTo = some lifetimeMs) = true := by
    decide
  rw [hs₀, Option.bind_some] at hexec
  obtain ⟨s, hrun, hs⟩ := exists_run_of_exec _ _ _ _ hexec
  rw [Bool.and_eq_true, decide_eq_true_eq, Option.any_eq_true] at hs
  obtain ⟨hclock, cert, hcert, hto⟩ := hs
  have hto := of_decide_eq_true hto
  refine ⟨s₀, s, cert, hs₀, hrun, hcert, hto, hclock, fun hforce => ?_⟩
  obtain ⟨cert', validFrom, validTo, hcert', -, hto', -, hle⟩ := hforce.valid
  cases hcert.symm.trans hcert'
  cases hto.symm.trans hto'
  omega

end LocalCast.Server
