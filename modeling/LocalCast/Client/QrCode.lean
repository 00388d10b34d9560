import LocalCast.Contract.QrPayload
import LocalCast.Server.LanAddress

/-!
`pairing.ts` of the client: reading a code that was scanned, which is a link or the payload as
JSON.

* `isPairableHost`, `isUsableOrigin`: the addresses that a code may carry.
* `fromPairingUrl`, `parseQrPayload`: the payload of a code, or how it is refused.
* `parseQrPayload_text`: which payloads are accepted as JSON.
* `parseQrPayload_link`: which links are accepted.

`toUpperCase` is a parameter, and agrees with that of ASCII.
-/

namespace LocalCast.Client

open JsString JsNumber Contract

/-! ### Addresses -/

/-- `IPV4`, whatever the numbers are. -/
def isIpv4Like (host : JsString) : Bool :=
  let octets := splitOn (fun c => c = 46) host
  octets.length = 4 && octets.all fun p => 1 ≤ p.length && p.length ≤ 3 && p.all isDigit

/-- `DNS_NAME`, in either case: two labels or more. -/
def isQualifiedName (host : JsString) : Bool :=
  let labels := splitOn (fun c => c = 46) (lower host)
  1 < labels.length && labels.all Server.isLabel

def isPairableHost (host : JsString) : Bool :=
  if host.length = 0 ∨ host.length > 253 then false
  else if host.any fun c => isSpace c || [47, 64, 58, 92, 63, 35].contains c then false
  else if isIpv4Like host then false
  else isQualifiedName host

/-- The numbers of `172.16.0.0/12`. -/
def isLocalRange (host : JsString) : Bool :=
  ["127.", "10.", "192.168.", "169.254."].any (fun pre => (js pre).isPrefixOf host) ||
    (List.range 16).any fun n => (js "172." ++ decimal (16 + n) ++ [46]).isPrefixOf host

def isLocalHostname (hostname : JsString) : Bool :=
  let host := lower hostname
  if host = js "localhost" ∨ js ".localhost" <:+ host ∨ js ".local" <:+ host then true
  else isIpv4Like host && isLocalRange host

def isUsableOrigin (lib : Url.Platform) (value : JsString) : Bool :=
  match Url.parse lib value with
  | none => false
  | some url =>
      if url.protocol ≠ js "https:" ∧ !(url.protocol = js "http:" ∧ isLocalHostname url.hostname) then
        false
      else if url.username ≠ [] ∨ url.password ≠ [] then false
      else if url.search ≠ [] ∨ url.hash ≠ [] then false
      else url.pathname = js "/" ∨ url.pathname = []

/-! ### Codes -/

/-- What `parseQrPayload` throws: `pairing_invalid` with its reason and the fields it names, or
the error of the schema. -/
inductive QrError where
  | pairingInvalid (reason : String) (fields : Option (List String))
  | zodError (fields : List String)
deriving DecidableEq

def fromPairingUrl (lib : Url.Platform) (toUpperCase : JsString → JsString) (text : JsString) :
    Except QrError QrPayload :=
  match Url.parse lib text with
  | none => .error (.pairingInvalid "the scanned code is not a LocalCast pairing link" none)
  | some url =>
      let fragment := if url.hash.head? = some 35 then url.hash.drop 1 else url.hash
      let raw := (Url.getParam (Url.searchParams fragment) (js "p")).getD []
      let parts := splitOn (fun c => c = 46) raw
      let code := parts.head?.getD []
      let secret := parts[1]?
      if code = [] then .error (.pairingInvalid "that link has no pairing code in it" none)
      else if !isUsableOrigin lib url.origin then
        .error (.pairingInvalid "this pairing link points at an address LocalCast cannot use"
          (some ["url"]))
      else
        let payload : QrPayload :=
          { host := url.hostname
            code := toUpperCase code
            secret := secret.filter fun s => s ≠ []
            url := some url.origin
            fp := none }
        match checkQrPayload lib payload.toJson with
        | .ok payload => .ok payload
        | .error fields => .error (.zodError fields)

/-- `/^https?:\/\//i`. -/
def isLink (text : JsString) : Bool :=
  (js "http://").isPrefixOf (lower text) || (js "https://").isPrefixOf (lower text)

/-- `tryParseJson`. -/
def tryParseJson (text : JsString) : Option Json :=
  if text.length = 0 then some .null else Json.parse text

def parseQrPayload (lib : Url.Platform) (toUpperCase : JsString → JsString) (raw : JsString) :
    Except QrError QrPayload :=
  let text := trim raw
  if text.length = 0 then .error (.pairingInvalid "the scanned code was empty" none)
  else if isLink text then fromPairingUrl lib toUpperCase text
  else
    match tryParseJson text with
    | none => .error (.pairingInvalid "the scanned code is not a LocalCast pairing code" none)
    | some v =>
        match checkQrPayload lib v with
        | .error fields =>
            .error (.pairingInvalid "this pairing code is not one this app understands"
              (some (fields.map fun f => if f = "" then "(root)" else f)))
        | .ok data =>
            if data.url = none ∧ !isPairableHost data.host then
              .error (.pairingInvalid "this pairing code points at an address LocalCast cannot use"
                (some ["host"]))
            else if data.url.any fun url => !isUsableOrigin lib url then
              .error (.pairingInvalid "this pairing code points at an address LocalCast cannot use"
                (some ["url"]))
            else .ok data

/-! ### The payload as JSON -/

variable {lib : Url.Platform} {toUpperCase : JsString → JsString}

/-- **A payload as JSON is accepted** if it satisfies the schema and names an address that can be
used, and comes back as it was. -/
theorem parseQrPayload_text (p q : QrPayload) :
    parseQrPayload lib toUpperCase p.text = .ok q ↔ q = p ∧ p.Valid lib ∧
      (p.url = none → isPairableHost p.host = true) ∧
      ∀ url ∈ p.url, isUsableOrigin lib url = true := by
  have htrim : trim p.text = p.text := trimBy_of_ends _ (by decide) (by decide)
  have hne : ¬ p.text.length = 0 := by simp [QrPayload.text, Json.objectText]
  have hlink : isLink p.text = false := by
    simp [isLink, QrPayload.text, Json.objectText, lower, lowerUnit, js, encodeChar, List.isPrefixOf]
  rw [parseQrPayload, htrim, if_neg hne, hlink, if_neg Bool.false_ne_true, tryParseJson, if_neg hne, p.parse_text]
  dsimp only
  constructor
  · intro h
    split at h
    case h_1 => cases h
    case h_2 data hcheck =>
      obtain ⟨rfl, hvalid⟩ := (checkQrPayload_toJson _ _).mp hcheck
      split_ifs at h with h1 h2
      cases h
      refine ⟨rfl, hvalid, fun hnone => ?_, fun url hurl => ?_⟩
      · simpa [hnone] using h1
      · simpa [Option.mem_def.mp hurl] using h2
  · rintro ⟨rfl, hvalid, hhost, hurl⟩
    rw [(checkQrPayload_toJson _ _).mpr ⟨rfl, hvalid⟩]
    dsimp only
    rw [if_neg, if_neg]
    · cases hq : q.url with
      | none => simp
      | some url => simp [hurl url hq]
    · rintro ⟨hnone, hbad⟩
      rw [hhost hnone] at hbad
      cases hbad

/-! ### The link -/

/-- A text of the digits of base64url. -/
def IsToken (s : JsString) : Prop := ∀ c ∈ s, ∃ v < 64, c = base64Digit v

/-- A digit of base64url is nothing that a link gives a meaning to. -/
lemma token_unit {c : CodeUnit} (h : ∃ v < 64, c = base64Digit v) :
    c.toNat < 127 ∧ 32 < c ∧ Url.keepsFragment c = true ∧ c ≠ 46 ∧
      [(37 : CodeUnit), 38, 43, 61, 63].contains c = false := by
  obtain ⟨v, hv, rfl⟩ := h
  have hall : ∀ v < 64, (base64Digit v).toNat < 127 ∧ 32 < base64Digit v ∧
      Url.keepsFragment (base64Digit v) = true ∧ base64Digit v ≠ 46 ∧
      [(37 : CodeUnit), 38, 43, 61, 63].contains (base64Digit v) = false := by decide
  exact hall v hv

lemma isSpace_of_printable {c : CodeUnit} (h : c.toNat < 128) (hc : 32 < c) : isSpace c = false := by
  have hall : ∀ n < 128, 32 < n → isSpace n.toUInt16 = false := by decide
  have hn := hall c.toNat h (by simpa only [UInt16.lt_iff_toNat_lt, UInt16.reduceToNat] using hc)
  rwa [Nat.toUInt16, UInt16.ofNat_toNat] at hn

/-- `p=code.secret`. -/
def fragmentText (code secret : JsString) : JsString := js "p=" ++ (code ++ 46 :: secret)

variable {scheme host code secret : JsString} {port : Option ℕ}

lemma mem_fragmentText (hcode : IsToken code) (hsecret : IsToken secret) {c : CodeUnit}
    (hc : c ∈ fragmentText code secret) :
    c.toNat < 127 ∧ 32 < c ∧ Url.keepsFragment c = true := by
  simp only [fragmentText, List.mem_append, List.mem_cons] at hc
  rcases hc with hc | hc | rfl | hc
  · exact forall_of_all (p := fun c => c.toNat < 127 ∧ 32 < c ∧ Url.keepsFragment c = true)
      (by decide) c hc
  · have h := token_unit (hcode c hc)
    exact ⟨h.1, h.2.1, h.2.2.1⟩
  · decide
  · have h := token_unit (hsecret c hc)
    exact ⟨h.1, h.2.1, h.2.2.1⟩

lemma isTail_fragment (hcode : IsToken code) (hsecret : IsToken secret) :
    Url.IsTail (47 :: 35 :: fragmentText code secret) := by
  refine ⟨fun c hc => (Option.some.inj hc).symm, fun c hc => ?_⟩
  rcases List.mem_cons.mp hc with rfl | hc
  · decide
  · rcases List.mem_cons.mp hc with rfl | hc
    · decide
    · exact (mem_fragmentText hcode hsecret hc).2.1

/-- The code and the secret are read from the fragment. -/
lemma getParam_fragment (hcode : IsToken code) (hsecret : IsToken secret) :
    Url.getParam (Url.searchParams (fragmentText code secret)) (js "p") =
      some (code ++ 46 :: secret) := by
  have hplain : Url.IsPlain (code ++ 46 :: secret) := by
    intro c hc
    simp only [List.mem_append, List.mem_cons] at hc
    rcases hc with hc | rfl | hc
    · have h := token_unit (hcode c hc)
      exact ⟨by omega, h.2.2.2.2⟩
    · decide
    · have h := token_unit (hsecret c hc)
      exact ⟨by omega, h.2.2.2.2⟩
  have hname : Url.IsPlain (js "p") :=
    forall_of_all (p := fun c => c.toNat < 128 ∧ [(37 : CodeUnit), 38, 43, 61, 63].contains c = false)
      (by decide)
  have htext : fragmentText code secret = js "p" ++ 61 :: (code ++ 46 :: secret) := by
    simp [fragmentText, js, encodeChar]
  rw [htext, Url.searchParams_pair hname (by decide) hplain]
  simp [Url.getParam]

lemma splitOn_fragment (hcode : IsToken code) (hsecret : IsToken secret) :
    splitOn (fun c => decide (c = 46)) (code ++ 46 :: secret) = [code, secret] := by
  rw [splitOn_append_sep _ (fun c hc => decide_eq_false (token_unit (hcode c hc)).2.2.2.1) _
      (by decide),
    splitOn_of_no_sep _ fun c hc => decide_eq_false (token_unit (hsecret c hc)).2.2.2.1]

/-- The address of a host that was accepted may be used over TLS, and otherwise if it is a local
one. -/
lemma isUsableOrigin_site (hlaw : lib.Lawful) (hscheme : Url.IsWeb scheme) (htext : Url.Clean host)
    (hport : ∀ p ∈ port, p ≤ 65535) {hostname : JsString}
    (h : Url.parseHost lib host = some hostname) :
    isUsableOrigin lib (Url.site scheme hostname port).origin = true ↔
      scheme = js "https" ∨ isLocalHostname hostname = true := by
  rw [isUsableOrigin, Url.parse_origin hlaw hscheme htext hport h]
  rcases hscheme with rfl | rfl
  · have hne : js "http" ≠ js "https" := by decide
    have hprotocol : js "http:" ≠ js "https:" := by decide
    have hprotocol' : js "http" ++ [58] = js "http:" := by decide
    have hroot : ([47] : JsString) = js "/" := by decide
    cases hlocal : isLocalHostname hostname <;>
      simp [Url.site, hne, hprotocol, hprotocol', hlocal, hroot]
  · have hprotocol : js "https" ++ [58] = js "https:" := by decide
    have hroot : ([47] : JsString) = js "/" := by decide
    simp [Url.site, hprotocol, hroot]

/-- **A link is accepted** if its host is, over TLS or at a local address, and gives the code and
the secret and the origin. -/
theorem parseQrPayload_link (hlaw : lib.Lawful) (hscheme : Url.IsWeb scheme)
    (hhost : Url.Clean host) (hport : ∀ p ∈ port, p ≤ 65535) (hcode : IsToken code)
    (hlength : code.length = 4) (hupper : toUpperCase code = code) (hsecret : IsToken secret)
    (hlong : 32 ≤ secret.length) (q : QrPayload) :
    parseQrPayload lib toUpperCase
        (Url.siteText scheme host port (47 :: 35 :: fragmentText code secret)) = .ok q ↔
      ∃ hostname, Url.parseHost lib host = some hostname ∧
        (scheme = js "https" ∨ isLocalHostname hostname = true) ∧
        q = { host := hostname
              code := code
              secret := some secret
              url := some (Url.site scheme hostname port).origin
              fp := none } := by
  set link := Url.siteText scheme host port (47 :: 35 :: fragmentText code secret) with hlinkText
  have htail := isTail_fragment hcode hsecret
  have hparse : Url.parse lib link = _ := Url.parse_site hscheme hhost hport htail
  have hunits : ∀ c ∈ link, isSpace c = false := by
    intro c hc
    simp only [hlinkText, Url.siteText, List.mem_append, List.mem_cons] at hc
    rcases hc with (((hc | hc) | hc) | hc) | rfl | rfl | hc
    · rcases hscheme with rfl | rfl
      · exact forall_of_all (p := fun c => isSpace c = false) (by decide) c hc
      · exact forall_of_all (p := fun c => isSpace c = false) (by decide) c hc
    · exact forall_of_all (p := fun c => isSpace c = false) (by decide) c hc
    · exact isSpace_of_printable (hhost.ascii c hc) (hhost.printable c hc)
    · rcases Url.mem_portText hc with hdigit | rfl
      · exact isSpace_of_isDigit hdigit
      · decide
    · decide
    · decide
    · have h := mem_fragmentText hcode hsecret hc
      exact isSpace_of_printable (by omega) h.2.1
  have hne : ¬ link.length = 0 := by
    rcases hscheme with rfl | rfl <;> simp [hlinkText, Url.siteText, js, encodeChar]
  have hlink : isLink link = true := by
    rcases hscheme with rfl | rfl <;>
      simp [hlinkText, isLink, Url.siteText, js, encodeChar, lower, lowerUnit, List.isPrefixOf]
  rw [parseQrPayload, trim_of_no_space hunits, if_neg hne, if_pos hlink, fromPairingUrl, hparse]
  cases hp : Url.parseHost lib host with
  | none => simp
  | some hostname =>
      have hfragment : ∀ c ∈ fragmentText code secret, c.toNat < 127 ∧ Url.keepsFragment c = true :=
        fun c hc => ⟨(mem_fragmentText hcode hsecret hc).1, (mem_fragmentText hcode hsecret hc).2.2⟩
      have hshown : Url.shown 35 (fragmentText code secret) = 35 :: fragmentText code secret := by
        simp [Url.shown, fragmentText, js, encodeChar]
      have hcodeNe : code ≠ [] := by
        rintro rfl
        cases hlength
      have hsecretNe : secret ≠ [] := by
        rintro rfl
        simp at hlong
      have hurl : Url.parseTail (scheme ++ [58]) [] [] hostname
          (port.filter fun p => p ≠ Url.defaultPort scheme)
          (47 :: 35 :: fragmentText code secret) =
          { Url.site scheme hostname port with hash := 35 :: fragmentText code secret } := by
        rw [Url.parseTail_fragment hfragment, hshown]
        rfl
      set payload : QrPayload :=
        { host := hostname
          code := code
          secret := some secret
          url := some (Url.site scheme hostname port).origin
          fp := none } with hpayload
      have hvalid : payload.Valid lib :=
        { host := (Url.parseHost_again hlaw hhost hp).1.nonempty
          code := hlength
          secret := fun s hs => by
            cases hs
            exact hlong
          url := fun s hs => by
            cases hs
            rw [Url.parse_origin hlaw hscheme hhost hport hp]
            rfl
          fp := fun s hs => by cases hs }
      have hcheck := (checkQrPayload_toJson payload payload).mpr ⟨rfl, hvalid⟩
      have husable := isUsableOrigin_site hlaw hscheme hhost hport hp
      rw [Option.map_some, hurl]
      dsimp only
      rw [List.head?_cons, if_pos rfl, List.drop_one, List.tail_cons,
        getParam_fragment hcode hsecret, Option.getD_some, splitOn_fragment hcode hsecret]
      have horigin : ({ Url.site scheme hostname port with
          hash := 35 :: fragmentText code secret } : Url).origin =
          (Url.site scheme hostname port).origin := rfl
      have hpart : ([code, secret][1]?).filter (fun s => decide (s ≠ [])) = some secret := by
        simp [hsecretNe]
      have hfirst : [code, secret].head?.getD [] = code := rfl
      rw [hfirst, if_neg hcodeNe, horigin, hpart, hupper]
      have hsite : (Url.site scheme hostname port).hostname = hostname := rfl
      cases hu : isUsableOrigin lib (Url.site scheme hostname port).origin with
      | false =>
          rw [hu, Bool.false_eq_true, false_iff] at husable
          simp only [Bool.not_false, if_true, reduceCtorEq, false_iff]
          rintro ⟨hostname', hsame, hlocal, -⟩
          cases hsame
          exact husable hlocal
      | true =>
          rw [hu, eq_self, true_iff] at husable
          simp only [Bool.not_true, Bool.false_eq_true, if_false, hsite, ← hpayload, hcheck,
            Except.ok.injEq]
          constructor
          · rintro rfl
            exact ⟨hostname, rfl, husable, rfl⟩
          · rintro ⟨hostname', hsame, -, rfl⟩
            cases hsame
            rfl

end LocalCast.Client
