import LocalCast.Client.QrCode
import LocalCast.Server.Fingerprint

/-!
The code that `mint` shows: `auth/pairing.ts` with `currentLanEndpoint`, read by the client.

* `minted`: the answer of the operator's route, with the payload and the link.
* `IsCode`, `IsSecret`: what is drawn for a code and for a secret.
* `Publishable`: the certificate publishes a host that `publishHostFrom` chose and carries its
  fingerprint as Node prints it, and ports are ports; `publishable_of_run`: so it is in every run.
* `Works`: the answer satisfies its schema, and the link and the payload are accepted and say the
  same.
* `worksWhen`, `works_iff`: exactly when that is so.
* `plaintext_minted`: on the unencrypted listener it is not.
-/

namespace LocalCast.Auth

open JsString JsNumber Contract Client Server Runs

/-! ### Minting -/

/-- `CODE_ALPHABET`. -/
def CODE_ALPHABET : JsString := js "ABCDEFGHJKLMNPQRSTUVWXYZ23456789"

/-- `CODE_LENGTH`. -/
def CODE_LENGTH : ℕ := 4

/-- What `randomString(CODE_ALPHABET, CODE_LENGTH)` draws. -/
def IsCode (code : JsString) : Prop := code.length = CODE_LENGTH ∧ ∀ c ∈ code, c ∈ CODE_ALPHABET

/-- What `randomBytes(32).toString('base64url')` draws. -/
def IsSecret (secret : JsString) : Prop :=
  ∃ bytes : List ℕ, bytes.length = 32 ∧ (∀ b ∈ bytes, b < 256) ∧ secret = base64url bytes

/-- The payload and the link of `mint`, as the operator's route answers with them. -/
def minted (publicHost : JsString) (lan : Option LanEndpoint) (code secret : JsString)
    (expiresAt : ℤ) : MintPairingResponse :=
  { code := code
    qr :=
      { host := publicHost
        code := code
        secret := some secret
        url := lan.map LanEndpoint.url
        fp := lan.map LanEndpoint.fingerprint256 }
    link := lan.map fun endpoint => endpoint.url ++ js "/#p=" ++ code ++ js "." ++ secret
    expiresAt := expiresAt }

/-! ### The law -/

/-- The origin of an endpoint. -/
def originOf (lib : Url.Platform) (endpoint : LanEndpoint) : Option JsString :=
  (Url.parse lib endpoint.url).map Url.origin

/-- The answer satisfies its schema; the link is accepted with the same code, secret and origin;
and so is the payload as JSON, with the fingerprint. -/
structure Works (lib : Url.Platform) (toUpperCase : JsString → JsString)
    (lan : Option LanEndpoint) (m : MintPairingResponse) : Prop where
  response : checkMintResponse lib m.toJson = .ok m
  link : ∀ endpoint ∈ lan, ∃ link payload origin, m.link = some link ∧
    parseQrPayload lib toUpperCase link = .ok payload ∧ payload.code = m.code ∧
    payload.secret = m.qr.secret ∧ payload.url = some origin ∧ originOf lib endpoint = some origin
  json : ∃ payload, parseQrPayload lib toUpperCase m.qr.text = .ok payload ∧
    payload.code = m.code ∧ payload.secret = m.qr.secret ∧
    payload.url = lan.map LanEndpoint.url ∧ payload.fp = lan.map LanEndpoint.fingerprint256

/-- No unencrypted listener is published; where none is, the public host is one to pair with;
and where the encrypted one is, the public host is not empty and the published one is a host that
URLs accept. -/
def worksWhen (lib : Url.Platform) (publicHost : JsString) (s : ServedState) : Prop :=
  match s.publisher.publishHost with
  | none => isPairableHost publicHost = true
  | some host =>
      s.plaintextPort = none ∧
        match s.securePort with
        | none => isPairableHost publicHost = true
        | some _ => publicHost ≠ [] ∧ (Url.parseHost lib host).isSome = true

/-! ### What is published -/

/-- `fingerprint256`: the bytes of the digest, each as two digits. -/
def fingerprintText (digest : List ℕ) : JsString :=
  join [58] (digest.map fun b => [Url.upperHexDigit (b / 16), Url.upperHexDigit (b % 16)])

/-- A fingerprint as Node prints it. -/
def IsFingerprint (text : JsString) : Prop :=
  ∃ digest : List ℕ, digest.length = 32 ∧ (∀ b ∈ digest, b < 256) ∧ text = fingerprintText digest

/-- What the certificate of a server publishes, and the ports it is bound to. -/
structure Publishable (options : SanOptions) (s : ServedState) : Prop where
  host : ∀ cert, s.publisher.cert = some cert →
    ∃ interfaces, cert.publishHost = publishHostFrom (defaultSanHosts options interfaces)
  fingerprint : ∀ cert, s.publisher.cert = some cert → IsFingerprint cert.fingerprint256
  plaintextPort : ∀ port ∈ s.plaintextPort, port ≤ 65535
  securePort : ∀ port ∈ s.securePort, port ≤ 65535

/-! ### Codes and secrets -/

lemma isToken_of_isCode {code : JsString} (h : IsCode code) : IsToken code := by
  intro c hc
  have hall : ∀ c ∈ CODE_ALPHABET, ∃ v < 64, c = base64Digit v :=
    forall_of_all (p := fun c => ∃ v < 64, c = base64Digit v) (by decide +kernel)
  exact hall c (h.2 c hc)

lemma toUpperCase_code {toUpperCase : JsString → JsString}
    (hupper : ∀ s : JsString, (∀ c ∈ s, c.toNat < 128) → toUpperCase s = upper s)
    {code : JsString} (h : IsCode code) : toUpperCase code = code := by
  have hall : ∀ c ∈ CODE_ALPHABET, c.toNat < 128 ∧ upperUnit c = c :=
    forall_of_all (p := fun c => c.toNat < 128 ∧ upperUnit c = c) (by decide)
  rw [hupper code fun c hc => (hall c (h.2 c hc)).1, upper]
  exact (List.map_congr_left fun c hc => (hall c (h.2 c hc)).2).trans (List.map_id _)

/-- Base64url is made of its digits, four for three bytes. -/
lemma base64url_spec {bytes : List ℕ} (h : ∀ b ∈ bytes, b < 256) :
    IsToken (base64url bytes) ∧ 4 * bytes.length ≤ 3 * (base64url bytes).length := by
  have hdigit {v : ℕ} (hv : v < 64) : ∃ w < 64, base64Digit v = base64Digit w := ⟨v, hv, rfl⟩
  induction bytes using base64url.induct with
  | case1 => exact ⟨by simp [base64url, IsToken], by simp⟩
  | case2 a =>
      have ha := h a (by simp)
      refine ⟨?_, by simp [base64url]⟩
      simp only [base64url, IsToken, List.forall_mem_cons]
      exact ⟨hdigit (by omega), hdigit (by omega), by simp⟩
  | case3 a b =>
      have ha := h a (by simp)
      have hb := h b (by simp)
      refine ⟨?_, by simp [base64url]⟩
      simp only [base64url, IsToken, List.forall_mem_cons]
      exact ⟨hdigit (by omega), hdigit (by omega), hdigit (by omega), by simp⟩
  | case4 a b c rest ih =>
      have ha := h a (by simp)
      have hb := h b (by simp)
      have hc := h c (by simp)
      obtain ⟨htoken, hlength⟩ := ih fun x hx => h x (by simp [hx])
      constructor
      · rw [base64url, IsToken]
        simp only [List.forall_mem_cons]
        exact ⟨hdigit (by omega), hdigit (by omega), hdigit (by omega), hdigit (by omega), htoken⟩
      · rw [base64url]
        simp only [List.length_cons]
        omega

lemma of_isSecret {secret : JsString} (h : IsSecret secret) :
    IsToken secret ∧ 32 ≤ secret.length := by
  obtain ⟨bytes, hlength, hbytes, rfl⟩ := h
  have hspec := base64url_spec hbytes
  exact ⟨hspec.1, by omega⟩

/-- A fingerprint as Node prints it has the form that the contract asks for. -/
lemma isFingerprintSha256_of {text : JsString} (h : IsFingerprint text) :
    isFingerprintSha256 text = true := by
  obtain ⟨digest, hlength, hbytes, rfl⟩ := h
  have hall : ∀ v < 16, Url.upperHexDigit v ≠ 58 ∧ (isDigit (Url.upperHexDigit v) ||
      (65 ≤ Url.upperHexDigit v && Url.upperHexDigit v ≤ 70)) = true := by decide
  have hsplit : splitOn (fun c => decide (c = 58)) (fingerprintText digest) =
      digest.map fun b => [Url.upperHexDigit (b / 16), Url.upperHexDigit (b % 16)] := by
    refine splitOn_join 58 (by decide) _ ?_ ?_
    · rintro hnil
      rw [List.map_eq_nil_iff] at hnil
      rw [hnil] at hlength
      cases hlength
    · intro p hp c hc
      obtain ⟨b, hb, rfl⟩ := List.mem_map.mp hp
      have hlt := hbytes b hb
      rw [decide_eq_false_iff_not]
      rcases List.mem_cons.mp hc with rfl | hc
      · exact (hall _ (by omega)).1
      · rw [List.mem_singleton] at hc
        subst hc
        exact (hall _ (by omega)).1
  rw [isFingerprintSha256, hsplit, List.length_map, hlength, Bool.and_eq_true, List.all_eq_true]
  refine ⟨rfl, fun p hp => ?_⟩
  obtain ⟨b, hb, rfl⟩ := List.mem_map.mp hp
  have hlt := hbytes b hb
  rw [isUpperHexPair, List.all_cons, List.all_cons, List.all_nil,
    (hall (b / 16) (by omega)).2, (hall (b % 16) (by omega)).2]
  rfl

/-! ### Hosts -/

/-- What is published can stand in a URL. -/
lemma clean_of_published {host : JsString} (h : isIpv4 host = true ∨ isDnsName host = true) :
    Url.Clean host := by
  have hunits := unit_of_host h
  have hunit : ∀ n < 128, (isAlnum n.toUInt16 = true ∨ n.toUInt16 = 45 ∨ n.toUInt16 = 46) →
      Url.isForbidden n.toUInt16 = false := by decide
  have hascii : ∀ c ∈ host, c.toNat < 128 := fun c hc => unit_lt (hunits c hc)
  refine ⟨?_, hascii, fun c hc => ?_⟩
  · rintro rfl
    exact absurd h (by decide)
  · have hn := hunit c.toNat (hascii c hc)
    rw [Nat.toUInt16, UInt16.ofNat_toNat] at hn
    exact hn (hunits c hc)

/-- The endpoint of a server, by what is bound. -/
lemma currentLanEndpoint_eq (s : ServedState) : s.currentLanEndpoint =
    s.publisher.cert.bind fun cert => cert.publishHost.bind fun host =>
      s.plaintextPort.elim
        (s.securePort.map fun port =>
          ⟨Url.siteText (js "https") host (some port) [], cert.fingerprint256⟩)
        fun port => some ⟨Url.siteText (js "http") host (some port) [], []⟩ := by
  have hurl (scheme : JsString) (host : JsString) (port : ℕ) :
      Url.siteText scheme host (some port) [] =
        scheme ++ js "://" ++ host ++ js ":" ++ decimal port := by
    simp [Url.siteText, Url.portText, js, encodeChar]
  have hplain : js "http" ++ js "://" = js "http://" := by decide
  have hsecure : js "https" ++ js "://" = js "https://" := by decide
  simp only [ServedState.currentLanEndpoint, hurl, hplain, hsecure]
  cases s.plaintextPort with
  | none => simp only [Option.elim_none]
  | some port => simp only [Option.elim_some]

variable {lib : Url.Platform} {toUpperCase : JsString → JsString} {code secret publicHost : JsString}
  {expiresAt : ℤ}

/-- Without an endpoint there is no link, and the payload has to name a host to pair with. -/
lemma works_none (hcode : code.length = 4) (hsecret : 32 ≤ secret.length) :
    Works lib toUpperCase none (minted publicHost none code secret expiresAt) ↔
      isPairableHost publicHost = true := by
  constructor
  · intro h
    obtain ⟨payload, hparse, -⟩ := h.json
    exact ((parseQrPayload_text _ _).mp hparse).2.2.1 rfl
  · intro hhost
    have hne : publicHost ≠ [] := by
      rintro rfl
      exact absurd hhost (by decide)
    have hvalid : (minted publicHost none code secret expiresAt).qr.Valid lib :=
      { host := hne
        code := hcode
        secret := fun s hs => by
          cases hs
          exact hsecret
        url := fun s hs => by cases hs
        fp := fun s hs => by cases hs }
    refine ⟨?_, fun endpoint hendpoint => (by cases hendpoint), ?_⟩
    · exact (checkMintResponse_toJson _ _).mpr
        ⟨rfl, hcode, hvalid, fun s hs => by cases hs⟩
    · refine ⟨_, (parseQrPayload_text _ _).mpr ⟨rfl, hvalid, fun _ => hhost, ?_⟩, rfl, rfl, rfl, rfl⟩
      intro url hurl
      cases hurl

/-- The link of an endpoint. -/
lemma link_eq (host : JsString) (port : ℕ) (scheme : JsString) :
    Url.siteText scheme host (some port) [] ++ js "/#p=" ++ code ++ js "." ++ secret =
      Url.siteText scheme host (some port) (47 :: 35 :: fragmentText code secret) := by
  simp [Url.siteText, fragmentText, js, encodeChar]

/-- **The encrypted listener**: a public host, and a host that URLs accept. -/
lemma works_tls (hlaw : lib.Lawful) {host fp : JsString} {port : ℕ} (hhost : Url.Clean host)
    (hport : port ≤ 65535) (hfp : isFingerprintSha256 fp = true) (hcode : IsToken code)
    (hlength : code.length = 4) (hupper : toUpperCase code = code) (hsecret : IsToken secret)
    (hlong : 32 ≤ secret.length) :
    Works lib toUpperCase (some ⟨Url.siteText (js "https") host (some port) [], fp⟩)
      (minted publicHost (some ⟨Url.siteText (js "https") host (some port) [], fp⟩) code secret
        expiresAt) ↔ publicHost ≠ [] ∧ (Url.parseHost lib host).isSome = true := by
  have hports : ∀ p ∈ some port, p ≤ 65535 := by
    intro p hp
    cases hp
    exact hport
  have hsite :
      Url.parse lib (Url.siteText (js "https") host (some port) []) = _ :=
    Url.parse_site (.inr rfl) hhost hports Url.isTail_nil
  constructor
  · intro h
    obtain ⟨-, -, hvalid, -⟩ := (checkMintResponse_toJson _ _).mp h.response
    refine ⟨hvalid.host, ?_⟩
    have hurl := hvalid.url _ rfl
    rw [hsite, Option.isSome_map] at hurl
    exact hurl
  · rintro ⟨hne, hsome⟩
    obtain ⟨hostname, hp⟩ := Option.isSome_iff_exists.mp hsome
    have hurl : Url.parse lib (Url.siteText (js "https") host (some port) []) =
        some (Url.site (js "https") hostname (some port)) := by
      rw [hsite, hp]
      rfl
    have husable : isUsableOrigin lib (Url.siteText (js "https") host (some port) []) = true := by
      have hprotocol : js "https" ++ [58] = js "https:" := by decide
      have hroot : ([47] : JsString) = js "/" := by decide
      rw [isUsableOrigin, hurl]
      simp [Url.site, hprotocol, hroot]
    have hvalid : (minted publicHost (some ⟨Url.siteText (js "https") host (some port) [], fp⟩) code
        secret expiresAt).qr.Valid lib :=
      { host := hne
        code := hlength
        secret := fun s hs => by
          cases hs
          exact hlong
        url := fun s hs => by
          cases hs
          rw [hurl]
          rfl
        fp := fun s hs => by
          cases hs
          exact hfp }
    have hlink := (parseQrPayload_link hlaw (.inr rfl) hhost hports hcode hlength hupper hsecret hlong
      _).mpr ⟨hostname, hp, .inl rfl, rfl⟩
    refine ⟨?_, ?_, ?_⟩
    · refine (checkMintResponse_toJson _ _).mpr ⟨rfl, hlength, hvalid, ?_⟩
      intro link hl
      have htail : Url.IsTail (47 :: 35 :: fragmentText code secret) :=
        isTail_fragment hcode hsecret
      obtain rfl : _ = link := Option.some.inj hl
      dsimp only
      rw [link_eq, Url.parse_site (.inr rfl) hhost hports htail, hp]
      rfl
    · rintro endpoint ⟨⟩
      refine ⟨_, _, (Url.site (js "https") hostname (some port)).origin, congrArg some
        (link_eq host port _), hlink, rfl, rfl, rfl, ?_⟩
      · rw [originOf, hurl, Option.map_some]
    · refine ⟨_, (parseQrPayload_text _ _).mpr ⟨rfl, hvalid, ?_, ?_⟩, rfl, rfl, rfl, rfl⟩
      · rintro ⟨⟩
      · rintro url ⟨⟩
        exact husable

/-- **The unencrypted listener**: its endpoint has an empty fingerprint, which no schema takes. -/
theorem plaintext_minted (url : JsString) :
    ¬ Works lib toUpperCase (some ⟨url, []⟩)
      (minted publicHost (some ⟨url, []⟩) code secret expiresAt) := by
  intro h
  obtain ⟨-, -, hvalid, -⟩ := (checkMintResponse_toJson _ _).mp h.response
  exact absurd (hvalid.fp [] rfl) (by decide)

/-- **Exactly when a minted code works.** -/
theorem works_iff (hlaw : lib.Lawful)
    (hupper : ∀ s : JsString, (∀ c ∈ s, c.toNat < 128) → toUpperCase s = upper s)
    {options : SanOptions} {s : ServedState} (hs : Publishable options s) (hcode : IsCode code)
    (hsecret : IsSecret secret) (publicHost : JsString) (expiresAt : ℤ) :
    Works lib toUpperCase s.currentLanEndpoint
      (minted publicHost s.currentLanEndpoint code secret expiresAt) ↔
        worksWhen lib publicHost s := by
  have hnone (h : s.currentLanEndpoint = none) :
      Works lib toUpperCase s.currentLanEndpoint
        (minted publicHost s.currentLanEndpoint code secret expiresAt) ↔
          isPairableHost publicHost = true := by
    rw [h]
    exact works_none hcode.1 (of_isSecret hsecret).2
  rw [worksWhen, LanPublisher.publishHost]
  cases hcert : s.publisher.cert with
  | none => exact hnone (by rw [currentLanEndpoint_eq, hcert, Option.bind_none])
  | some cert =>
      rw [Option.bind_some]
      cases hhost : cert.publishHost with
      | none => exact hnone (by rw [currentLanEndpoint_eq, hcert, Option.bind_some, hhost]; rfl)
      | some host =>
          obtain ⟨interfaces, hpublished⟩ := hs.host cert hcert
          have hmem := publishHostFrom_mem (hpublished.symm.trans hhost)
          have hclean := clean_of_published (of_mem_defaultSanHosts hmem)
          have hendpoint : s.currentLanEndpoint = _ := currentLanEndpoint_eq s
          rw [hcert, Option.bind_some, hhost, Option.bind_some] at hendpoint
          dsimp only
          cases hplain : s.plaintextPort with
          | some port =>
              rw [hplain, Option.elim_some] at hendpoint
              rw [hendpoint]
              exact iff_of_false (plaintext_minted _) fun h => absurd h.1 (Option.some_ne_none port)
          | none =>
              rw [hplain, Option.elim_none] at hendpoint
              rw [and_iff_right rfl]
              cases hsecure : s.securePort with
              | none => exact hnone (by rw [hendpoint, hsecure]; rfl)
              | some port =>
                  rw [hsecure, Option.map_some] at hendpoint
                  rw [hendpoint]
                  exact works_tls hlaw hclean (hs.securePort port hsecure)
                    (isFingerprintSha256_of (hs.fingerprint cert hcert)) (isToken_of_isCode hcode)
                    hcode.1 (toUpperCase_code hupper hcode) (of_isSecret hsecret).1
                    (of_isSecret hsecret).2

/-! ### Hosts that URLs accept -/

/-- An address is accepted. -/
lemma parseHost_of_isIpv4 (hlaw : lib.Lawful) {host : JsString} (h : isIpv4 host = true) :
    (Url.parseHost lib host).isSome = true := by
  have hclean := clean_of_published (.inl h)
  have hdots : ∀ c ∈ host, isDigit c = true ∨ c = 46 := by
    intro c hc
    by_cases hdot : c = 46
    · exact .inr hdot
    · obtain ⟨p, hp, hcp⟩ := exists_mem_splitOn_unit hc hdot
      rw [isIpv4, Bool.and_eq_true, List.all_eq_true] at h
      exact .inl ((of_isStrictOctet (h.2 p hp)).2 c hcp)
  have hlower : lower host = host :=
    (List.map_congr_left fun c hc => (Url.isDigit_or_dot (hdots c hc)).2.2).trans (List.map_id _)
  have hplain : lib.domainToAscii host = some host := by
    rw [hlaw.plain hclean.nonempty hclean.ascii, hlower]
    intro label hlabel
    refine Url.isPunycode_of_head fun c hc => ?_
    have hdot := hdots c (of_mem_splitOn hlabel c hc).2
    rw [(Url.isDigit_or_dot hdot).2.2]
    rintro rfl
    exact absurd hdot (by decide)
  rw [isIpv4, Bool.and_eq_true, decide_eq_true_eq, List.all_eq_true] at h
  obtain ⟨hfour, hoctets⟩ := h
  obtain ⟨a, b, c, d, hsplit⟩ : ∃ a b c d, splitOn (fun c => decide (c = 46)) host = [a, b, c, d] :=
    List.length_eq_four.mp hfour
  have hoctet : ∀ p ∈ [a, b, c, d], p ≠ [] ∧ p.all isDigit = true ∧
      Url.ipv4Number p = some (digitsValue p) ∧ digitsValue p ≤ 255 := by
    intro p hp
    have hstrict := hoctets p (hsplit ▸ hp)
    simp only [isStrictOctet, Bool.and_eq_true, Bool.not_eq_true', List.isEmpty_eq_false_iff,
      Bool.or_eq_true, decide_eq_true_eq] at hstrict
    obtain ⟨⟨⟨hne, hall⟩, hzero⟩, hle⟩ := hstrict
    exact ⟨hne, hall, Url.ipv4Number_digits hne hall hzero, hle⟩
  obtain ⟨-, -, ha, hale⟩ := hoctet a (by simp)
  obtain ⟨-, -, hb, hble⟩ := hoctet b (by simp)
  obtain ⟨-, -, hc, hcle⟩ := hoctet c (by simp)
  obtain ⟨hdne, hdall, hd, hdle⟩ := hoctet d (by simp)
  have hparts : Url.domainParts host = [a, b, c, d] := by
    rw [Url.domainParts, hsplit, if_neg]
    simp [hdne]
  have hends : Url.endsInNumber host = true := by
    simp [Url.endsInNumber, hparts, hdne, hdall]
  have hvalue : (Url.parseIpv4 host).isSome = true := by
    have hlast : digitsValue d < 256 ^ (0 + 1) := by omega
    simp only [Url.parseIpv4, hparts, List.mapM_cons, List.mapM_nil, ha, hb, hc, hd,
      Option.pure_def, Option.bind_eq_bind, Option.bind_some, Url.ipv4Value,
      if_neg (Nat.not_lt.mpr hale), if_neg (Nat.not_lt.mpr hble), if_neg (Nat.not_lt.mpr hcle),
      if_pos hlast, Option.map_some, Option.isSome_some]
  rw [Url.parseHost_of_clean hclean, hplain, Option.bind_some, if_neg, if_pos hends,
    Option.isSome_map]
  · exact hvalue
  · rw [not_or, Bool.not_eq_true, List.any_eq_false]
    exact ⟨hclean.nonempty, fun c hc => by rw [hclean.allowed c hc]; decide⟩

/-- A name is accepted that ends in no number and has no labels that stand for others. -/
lemma parseHost_of_isDnsName (hlaw : lib.Lawful) {host : JsString} (h : isDnsName host = true)
    (hnumber : Url.endsInNumber (lower host) = false)
    (hlabels : ∀ label ∈ splitOn (fun c => decide (c = 46)) host, Url.isPunycode label = false) :
    (Url.parseHost lib host).isSome = true := by
  have hclean := clean_of_published (.inr h)
  have hallowed : ∀ n < 128, Url.isForbidden n.toUInt16 = false →
      Url.isForbidden (lowerUnit n.toUInt16) = false := by decide
  have hbad : ¬ (lower host = [] ∨ (lower host).any Url.isForbidden = true) := by
    rw [not_or, Bool.not_eq_true, List.any_eq_false]
    refine ⟨fun hnil => hclean.nonempty (List.map_eq_nil_iff.mp hnil), fun c hc => ?_⟩
    obtain ⟨d, hd, rfl⟩ := List.mem_map.mp hc
    have hn := hallowed d.toNat (hclean.ascii d hd)
    rw [Nat.toUInt16, UInt16.ofNat_toNat] at hn
    rw [hn (hclean.allowed d hd)]
    decide
  rw [Url.parseHost_of_clean hclean, hlaw.plain hclean.nonempty hclean.ascii hlabels,
    Option.bind_some, if_neg hbad, hnumber, if_neg Bool.false_ne_true]
  rfl

/-! ### Every run -/

/-- Only ports are bound. -/
def bindsPorts (a : ServedAction) : Bool :=
  match a with
  | .listen port => port ≤ 65535
  | .plaintext port => port.all fun port => port ≤ 65535
  | _ => true

variable {crypto : Crypto} {options : SanOptions}

/-- A certificate publishes the host that was chosen, and carries the fingerprint of its text. -/
lemma computed_published (hprint : ∀ {text : JsString} {x : X509}, crypto.parse text = some x →
      IsFingerprint x.fingerprint256) {interfaces : Interfaces} {cert : LanCertificate}
    (h : Computed crypto options interfaces cert) :
    cert.publishHost = publishHostFrom (defaultSanHosts options interfaces) ∧
      IsFingerprint cert.fingerprint256 := by
  obtain ⟨attempt, files, files', hensure⟩ := h
  rcases load_or_generate hensure with hload | hgenerate
  · rw [loadLanCertificate] at hload
    split_ifs at hload
    split at hload
    case h_2 => cases hload
    case h_1 keyPem certPem _ _ =>
      split at hload
      · cases hload
      case h_2 parsed hparse =>
        split_ifs at hload
        cases hload
        exact ⟨rfl, hprint hparse⟩
  · rw [generateLanCertificate] at hgenerate
    split_ifs at hgenerate
    simp only at hgenerate
    split at hgenerate
    · cases hgenerate
    case h_2 keyPem certPem hissue =>
      split at hgenerate
      · cases hgenerate
      case h_2 parsed hparse =>
        split_ifs at hgenerate
        cases hgenerate
        exact ⟨rfl, hprint hparse⟩

/-- The certificate was made for some table, and only ports are bound. -/
structure Publishing (crypto : Crypto) (options : SanOptions) (s : ServedState) : Prop where
  computed : ∀ cert, s.publisher.cert = some cert →
    ∃ interfaces, Computed crypto options interfaces cert
  plaintextPort : ∀ port ∈ s.plaintextPort, port ≤ 65535
  securePort : ∀ port ∈ s.securePort, port ≤ 65535

lemma securePort_adopt (s : ServedState) (cert : LanCertificate) :
    (s.adopt cert).securePort = s.securePort := by
  rw [ServedState.securePort, ServedState.adopt, ServedState.securePort]
  cases s.lanServer <;> rfl

lemma publishing_step {s t : ServedState} {a : ServedAction} (h : Publishing crypto options s)
    (hguard : bindsPorts a = true) (hstep : servedStep crypto options s a = some t) :
    Publishing crypto options t := by
  cases a with
  | refresh seen interfaces attempt =>
      rw [servedStep, LanPublisher.refresh] at hstep
      split_ifs at hstep
      · cases hstep
        exact h
      · rcases reissue_spec crypto options s.publisher interfaces attempt s.files with
          ⟨files, hissue⟩ | ⟨cert, files, hissue, hcomputed⟩
        · simp only [hissue, Option.some.injEq] at hstep
          subst hstep
          exact ⟨h.computed, h.plaintextPort, h.securePort⟩
        · simp only [hissue, Option.some.injEq] at hstep
          subst hstep
          have hnew : ∀ cert', some cert = some cert' →
              ∃ interfaces, Computed crypto options interfaces cert' := by
            rintro _ ⟨⟩
            exact ⟨interfaces, hcomputed⟩
          split_ifs
          · exact ⟨hnew, h.plaintextPort, h.securePort⟩
          · refine ⟨hnew, h.plaintextPort, ?_⟩
            rw [securePort_adopt]
            exact h.securePort
  | construct =>
      rw [servedStep] at hstep
      split at hstep
      case h_1 =>
        cases hstep
        exact ⟨h.computed, h.plaintextPort, fun port hport => by cases hport⟩
      case h_2 => cases hstep
  | listen port =>
      rw [servedStep] at hstep
      split at hstep
      case h_1 =>
        cases hstep
        refine ⟨h.computed, h.plaintextPort, ?_⟩
        rintro _ ⟨⟩
        exact of_decide_eq_true hguard
      case h_2 => cases hstep
  | close =>
      cases hstep
      refine ⟨h.computed, h.plaintextPort, fun port hport => ?_⟩
      rw [ServedState.securePort] at hport
      cases hserver : s.lanServer <;> rw [hserver] at hport <;> cases hport
  | plaintext port =>
      cases hstep
      refine ⟨h.computed, fun p hp => ?_, h.securePort⟩
      obtain rfl := Option.mem_def.mp hp
      exact of_decide_eq_true hguard
  | edited files =>
      cases hstep
      exact ⟨h.computed, h.plaintextPort, h.securePort⟩

/-- **Every run publishes what can be published.** -/
theorem publishable_of_run (hprint : ∀ {text : JsString} {x : X509}, crypto.parse text = some x →
      IsFingerprint x.fingerprint256) {interfaces : Interfaces} {attempt : Attempt}
    {files : TlsFiles} {s₀ s : ServedState} {as : List ServedAction}
    (hinit : createServer crypto options interfaces attempt files = some s₀)
    (hrun : Run (Guarded (fun _ a => bindsPorts a) (servedStep crypto options)) s₀ as s) :
    Publishable options s := by
  have hstart : Publishing crypto options s₀ := by
    rw [createServer] at hinit
    rcases reissue_spec crypto options .new interfaces attempt files with
      ⟨_, hissue⟩ | ⟨cert, _, hissue, hcomputed⟩
    · rw [hissue] at hinit
      cases hinit
    · rw [hissue] at hinit
      cases hinit
      refine ⟨?_, fun port hport => (by cases hport), fun port hport => (by cases hport)⟩
      rintro _ ⟨⟩
      exact ⟨interfaces, hcomputed⟩
  have hs : Publishing crypto options s :=
    hrun.invariant (fun _ _ _ h hstep => publishing_step h hstep.1 hstep.2) hstart
  refine ⟨fun cert hcert => ?_, fun cert hcert => ?_, hs.plaintextPort, hs.securePort⟩
  · obtain ⟨interfaces, hcomputed⟩ := hs.computed cert hcert
    exact ⟨interfaces, (computed_published hprint hcomputed).1⟩
  · obtain ⟨interfaces, hcomputed⟩ := hs.computed cert hcert
    exact (computed_published hprint hcomputed).2

/-! ### Concrete codes -/

/-- A platform for ASCII names. -/
def asciiPlatform : Url.Platform where
  domainToAscii name := if name.all fun c => c < 128 then some (lower name) else none
  ipv6 _ := none
  other _ _ := none

lemma asciiPlatform_lawful : asciiPlatform.Lawful := by
  have hlower : ∀ n < 128, lowerUnit n.toUInt16 < 128 := by decide
  have hunits {name : JsString} (h : name.all (fun c => decide (c < 128)) = true) :
      ∀ c ∈ lower name, c < 128 := by
    intro c hc
    obtain ⟨d, hd, rfl⟩ := List.mem_map.mp hc
    have hlt := of_decide_eq_true (List.all_eq_true.mp h d hd)
    have hn := hlower d.toNat (by simpa only [UInt16.lt_iff_toNat_lt, UInt16.reduceToNat] using hlt)
    rwa [Nat.toUInt16, UInt16.ofNat_toNat] at hn
  refine ⟨fun hne hascii _ => if_pos ?_, fun {name result} h c hc => ?_, fun {name result} h => ?_⟩
  · rw [List.all_eq_true]
    intro c hc
    rw [decide_eq_true_eq, UInt16.lt_iff_toNat_lt]
    exact hascii c hc
  · simp only [asciiPlatform] at h
    split_ifs at h with hall
    cases h
    have hlt := hunits hall c hc
    rwa [UInt16.lt_iff_toNat_lt] at hlt
  · simp only [asciiPlatform] at h ⊢
    split_ifs at h with hall
    cases h
    rw [if_pos, lower_lower]
    rw [List.all_eq_true]
    exact fun c hc => decide_eq_true (hunits hall c hc)

/-- A machine with an address and a certificate for it. -/
def sampleServer (plaintextPort securePort : Option ℕ) : ServedState :=
  let cert : LanCertificate :=
    { keyPem := []
      certPem := []
      fingerprint256 := fingerprintText (List.replicate 32 171)
      hosts := [js "localhost", js "127.0.0.1", js "192.168.1.50"]
      publishHost := some (js "192.168.1.50")
      validFrom := none
      validTo := none }
  { publisher := ⟨some cert, js "192.168.1.50"⟩
    files := ⟨none, none⟩
    initialCert := cert
    lanServer := some ⟨cert, securePort⟩
    plaintextPort := plaintextPort }

lemma sampleServer_publishable {plaintextPort securePort : Option ℕ}
    (hplain : ∀ port ∈ plaintextPort, port ≤ 65535) (hsecure : ∀ port ∈ securePort, port ≤ 65535) :
    Publishable namelessOptions (sampleServer plaintextPort securePort) where
  host := by
    rintro _ ⟨⟩
    exact ⟨at50, by decide +kernel⟩
  fingerprint := by
    rintro _ ⟨⟩
    exact ⟨List.replicate 32 171, by simp, by simp, rfl⟩
  plaintextPort := hplain
  securePort := hsecure

def sampleSecret : JsString := base64url (List.replicate 32 90)

lemma sampleSecret_isSecret : IsSecret sampleSecret :=
  ⟨List.replicate 32 90, by simp, by simp, rfl⟩

lemma sampleCode_isCode : IsCode (js "WJG6") := by
  have hall : (js "WJG6").all (fun c => CODE_ALPHABET.contains c) = true := by decide
  exact ⟨by decide, fun c hc => List.contains_iff_mem.mp (List.all_eq_true.mp hall c hc)⟩

/-- Over TLS the code works. -/
theorem works_tls_sample : Works asciiPlatform upper
    (sampleServer none (some 8420)).currentLanEndpoint
    (minted (js "localcast.local") (sampleServer none (some 8420)).currentLanEndpoint (js "WJG6")
      sampleSecret 1700000300000) := by
  have hs : Publishable namelessOptions (sampleServer none (some 8420)) := by
    refine sampleServer_publishable (fun port hport => by cases hport) ?_
    rintro _ ⟨⟩
    decide
  refine (works_iff asciiPlatform_lawful (fun _ _ => rfl) hs sampleCode_isCode sampleSecret_isSecret
    (js "localcast.local") 1700000300000).mpr ⟨rfl, by decide, ?_⟩
  decide +kernel

/-- **A code minted while the unencrypted listener is on does not work**: the answer and the
payload carry an empty fingerprint. -/
theorem plaintext_code_refused : ¬ Works asciiPlatform upper
    (sampleServer (some 8421) (some 8420)).currentLanEndpoint
    (minted (js "localcast.local") (sampleServer (some 8421) (some 8420)).currentLanEndpoint
      (js "WJG6") sampleSecret 1700000300000) ∧
    checkMintResponse asciiPlatform (minted (js "localcast.local")
      (sampleServer (some 8421) (some 8420)).currentLanEndpoint (js "WJG6") sampleSecret
        1700000300000).toJson = .error ["qr.fp"] := by
  have hcheck : checkMintResponse asciiPlatform (minted (js "localcast.local")
      (sampleServer (some 8421) (some 8420)).currentLanEndpoint (js "WJG6") sampleSecret
        1700000300000).toJson = .error ["qr.fp"] := by decide +kernel
  refine ⟨fun h => ?_, hcheck⟩
  rw [h.response] at hcheck
  cases hcheck

end LocalCast.Auth
