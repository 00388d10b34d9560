import LocalCast.Foundations.Json
import LocalCast.Foundations.Url

/-!
`qrPayloadSchema` and `mintPairingResponseSchema` of `api.ts`: what a code to scan carries, and
what the panel is told of a code that was minted.

* `QrPayload`, `toJson`, `text`: the payload, as a value and as `JSON.stringify` writes it;
  `parse_text` reads it back.
* `checkQrPayload`, `checkMintResponse`: `safeParse`, with the paths of the fields that are
  refused.
* `checkQrPayload_toJson`, `checkMintResponse_toJson`: which payloads and responses satisfy
  their schema.
-/

namespace LocalCast.Contract

open JsString JsNumber

/-! ### Fields -/

def stringField (ok : JsString → Bool) : Option Json → Option JsString
  | some (.str s) => if ok s then some s else none
  | _ => none

/-- `optional()`. -/
def optionalField {α : Type} (field : Option Json → Option α) : Option Json → Option (Option α)
  | none => some none
  | some v => (field (some v)).map some

/-- `nullable()`. -/
def nullableField {α : Type} (field : Option Json → Option α) : Option Json → Option (Option α)
  | some .null => some none
  | v => (field v).map some

/-- `z.literal` of a number. -/
def literalField (n : ℚ) : Option Json → Option Unit
  | some (.num m) => if m = n then some () else none
  | _ => none

/-- `z.number().int()`. -/
def intField : Option Json → Option ℤ
  | some (.num n) => if n.den = 1 then some n.num else none
  | _ => none

/-- The paths of the fields that are refused. -/
def refused (fields : List (String × Bool)) : List String :=
  (fields.filter fun f => !f.2).map Prod.fst

lemma stringField_str {ok : JsString → Bool} {s t : JsString} :
    stringField ok (some (.str s)) = some t ↔ t = s ∧ ok s = true := by
  rw [stringField]
  split_ifs with h
  · rw [Option.some.injEq, eq_comm]
    exact (and_iff_left h).symm
  · simp [h]

lemma optionalField_str {ok : JsString → Bool} {s t : Option JsString} :
    optionalField (stringField ok) (s.map Json.str) = some t ↔ t = s ∧ ∀ v ∈ s, ok v = true := by
  cases s with
  | none =>
      rw [Option.map_none, optionalField, Option.some.injEq, eq_comm]
      simp
  | some s =>
      rw [Option.map_some, optionalField, Option.map_eq_some_iff]
      constructor
      · rintro ⟨v, hv, rfl⟩
        obtain ⟨rfl, hok⟩ := stringField_str.mp hv
        simpa using hok
      · rintro ⟨rfl, hok⟩
        exact ⟨s, stringField_str.mpr ⟨rfl, hok s rfl⟩, rfl⟩

/-! ### The payload -/

/-- A pair of hexadecimal digits in upper case. -/
def isUpperHexPair (s : JsString) : Bool :=
  s.length = 2 && s.all fun c => isDigit c || (65 ≤ c && c ≤ 70)

/-- `fingerprintSha256Schema`. -/
def isFingerprintSha256 (s : JsString) : Bool :=
  let pairs := splitOn (fun c => c = 58) s
  pairs.length = 32 && pairs.all isUpperHexPair

/-- `QrPayload`; `v` is always one. -/
structure QrPayload where
  host : JsString
  code : JsString
  secret : Option JsString
  url : Option JsString
  fp : Option JsString
deriving DecidableEq

namespace QrPayload

variable (p : QrPayload)

/-- A string, as it is written and as it is read. -/
def written (s : JsString) : JsString × Json := (Json.quote s, .str s)

def fields : List (JsString × Option (JsString × Json)) :=
  [(js "v", some (js "1", .num 1)), (js "host", some (written p.host)),
    (js "code", some (written p.code)), (js "secret", p.secret.map written),
    (js "url", p.url.map written), (js "fp", p.fp.map written)]

def toJson : Json := .obj ((Json.present p.fields).map fun m => (m.1, m.2.2))

/-- `JSON.stringify` of the payload. -/
def text : JsString := Json.objectText ((Json.present p.fields).map fun m => (m.1, m.2.1))

end QrPayload

/-- `qrPayloadSchema.safeParse`. -/
def checkQrPayload (lib : Url.Platform) : Json → Except (List String) QrPayload
  | .obj members =>
      let v := literalField 1 (Json.get members (js "v"))
      let host := stringField (fun s => 1 ≤ s.length) (Json.get members (js "host"))
      let code := stringField (fun s => s.length = 4) (Json.get members (js "code"))
      let secret := optionalField (stringField fun s => 32 ≤ s.length)
        (Json.get members (js "secret"))
      let url := optionalField (stringField fun s => (Url.parse lib s).isSome)
        (Json.get members (js "url"))
      let fp := optionalField (stringField isFingerprintSha256) (Json.get members (js "fp"))
      match v, host, code, secret, url, fp with
      | some (), some host, some code, some secret, some url, some fp =>
          .ok ⟨host, code, secret, url, fp⟩
      | _, _, _, _, _, _ => .error (refused [("v", v.isSome), ("host", host.isSome),
          ("code", code.isSome), ("secret", secret.isSome), ("url", url.isSome), ("fp", fp.isSome)])
  | _ => .error [""]

/-- What the schema asks of a payload. -/
structure QrPayload.Valid (lib : Url.Platform) (p : QrPayload) : Prop where
  host : p.host ≠ []
  code : p.code.length = 4
  secret : ∀ s ∈ p.secret, 32 ≤ s.length
  url : ∀ s ∈ p.url, (Url.parse lib s).isSome = true
  fp : ∀ s ∈ p.fp, isFingerprintSha256 s = true

variable {lib : Url.Platform}

lemma QrPayload.get_toJson (p : QrPayload) {name : JsString} {v : Option (JsString × Json)}
    (h : (name, v) ∈ p.fields) :
    Json.get ((Json.present p.fields).map fun m => (m.1, m.2.2)) name = v.map Prod.snd := by
  rw [Json.present_map Prod.snd]
  refine Json.get_present ?_ (List.mem_map_of_mem h)
  rw [List.map_map]
  exact (by decide : [js "v", js "host", js "code", js "secret", js "url", js "fp"].Nodup)

/-- **The schema of the payload**: it gives back what it accepts, and accepts what is valid. -/
theorem checkQrPayload_toJson (p q : QrPayload) :
    checkQrPayload lib p.toJson = .ok q ↔ q = p ∧ p.Valid lib := by
  have hmap (s : Option JsString) : (s.map QrPayload.written).map Prod.snd = s.map Json.str := by
    cases s <;> rfl
  have hsecret : (js "secret", p.secret.map QrPayload.written) ∈ p.fields := by
    simp [QrPayload.fields]
  have hurl : (js "url", p.url.map QrPayload.written) ∈ p.fields := by simp [QrPayload.fields]
  have hfp : (js "fp", p.fp.map QrPayload.written) ∈ p.fields := by simp [QrPayload.fields]
  rw [QrPayload.toJson, checkQrPayload,
    p.get_toJson (v := some (js "1", .num 1)) (by simp [QrPayload.fields]),
    p.get_toJson (v := some (QrPayload.written p.host)) (by simp [QrPayload.fields]),
    p.get_toJson (v := some (QrPayload.written p.code)) (by simp [QrPayload.fields]),
    p.get_toJson hsecret, p.get_toJson hurl, p.get_toJson hfp, hmap, hmap, hmap]
  constructor
  · intro h
    split at h
    case h_2 => cases h
    case h_1 host code secret url fp _ hhost hcode hsecret hurl hfp =>
      obtain ⟨rfl, h1⟩ := stringField_str.mp hhost
      obtain ⟨rfl, h2⟩ := stringField_str.mp hcode
      obtain ⟨rfl, h3⟩ := optionalField_str.mp hsecret
      obtain ⟨rfl, h4⟩ := optionalField_str.mp hurl
      obtain ⟨rfl, h5⟩ := optionalField_str.mp hfp
      cases h
      refine ⟨rfl, ?_, by simpa using h2, fun s hs => by simpa using h3 s hs, h4, h5⟩
      rw [decide_eq_true_eq] at h1
      exact List.ne_nil_of_length_pos h1
  · rintro ⟨rfl, hvalid⟩
    have h1 : stringField (fun s => decide (1 ≤ s.length)) (some (.str q.host)) = some q.host :=
      stringField_str.mpr ⟨rfl, decide_eq_true (List.length_pos_iff.mpr hvalid.host)⟩
    have h2 : stringField (fun s => decide (s.length = 4)) (some (.str q.code)) = some q.code :=
      stringField_str.mpr ⟨rfl, decide_eq_true hvalid.code⟩
    have h3 := optionalField_str.mpr ⟨rfl, fun s hs => decide_eq_true (hvalid.secret s hs)⟩
    have h4 := optionalField_str.mpr ⟨rfl, hvalid.url⟩
    have h5 := optionalField_str.mpr ⟨rfl, hvalid.fp⟩
    have h0 : literalField 1 (some (.num 1)) = some () := by simp [literalField]
    simp only [Option.map_some, QrPayload.written, h0, h1, h2, h3, h4, h5]

/-- A payload that is not valid is refused. -/
lemma checkQrPayload_refused {p : QrPayload} (h : ¬ p.Valid lib) :
    ∃ fields, checkQrPayload lib p.toJson = .error fields := by
  cases hcheck : checkQrPayload lib p.toJson with
  | error fields => exact ⟨fields, rfl⟩
  | ok q => exact absurd ((checkQrPayload_toJson p q).mp hcheck).2 h

/-- **The text of a payload is read back.** -/
theorem QrPayload.parse_text (p : QrPayload) : Json.parse p.text = some p.toJson := by
  refine Json.parse_objectText (by simp [Json.present, fields]) ?_
  have hone : Json.Reads (js "1") (.num 1) := by
    intro fuel c rest hc
    refine Json.value_number (c := 49) (s := c :: rest) (by decide) ?_ fuel
    rcases hc with rfl | rfl <;> simp [Json.number, isDigit, digitsValue]
  have hopt (name : JsString) (s : Option JsString) : ∀ m ∈ Json.present [(name, s.map written)],
      Json.Reads m.2.1 m.2.2 := by
    intro m hm
    cases s with
    | none => simp [Json.present] at hm
    | some s =>
        obtain rfl : m = (name, written s) := by simpa [Json.present] using hm
        exact Json.reads_quote s
  intro m hm
  obtain ⟨⟨name, v⟩, hfield, hv⟩ := List.mem_filterMap.mp hm
  simp only [fields, List.mem_cons, List.not_mem_nil, or_false, Prod.mk.injEq] at hfield
  have hpresent : m ∈ Json.present [(name, v)] := by simpa [Json.present] using hv
  rcases hfield with ⟨rfl, rfl⟩ | ⟨rfl, rfl⟩ | ⟨rfl, rfl⟩ | ⟨rfl, rfl⟩ | ⟨rfl, rfl⟩ | ⟨rfl, rfl⟩
  · obtain rfl : m = (js "v", js "1", .num 1) := by simpa [Json.present] using hpresent
    exact hone
  · exact hopt _ (some p.host) m hpresent
  · exact hopt _ (some p.code) m hpresent
  · exact hopt _ p.secret m hpresent
  · exact hopt _ p.url m hpresent
  · exact hopt _ p.fp m hpresent

/-! ### The response -/

/-- What `mintPairingResponseSchema` describes. -/
structure MintPairingResponse where
  code : JsString
  qr : QrPayload
  link : Option JsString
  expiresAt : ℤ
deriving DecidableEq

namespace MintPairingResponse

variable (r : MintPairingResponse)

def members : List (JsString × Option Json) :=
  [(js "code", some (.str r.code)), (js "qr", some r.qr.toJson),
    (js "link", some ((r.link.map Json.str).getD .null)), (js "expiresAt", some (.num r.expiresAt))]

def toJson : Json := .obj (Json.present r.members)

end MintPairingResponse

/-- A path below a field. -/
def below (field path : String) : String := if path = "" then field else field ++ "." ++ path

/-- `mintPairingResponseSchema.safeParse`. -/
def checkMintResponse (lib : Url.Platform) : Json → Except (List String) MintPairingResponse
  | .obj members =>
      let code := stringField (fun s => s.length = 4) (Json.get members (js "code"))
      let qr := match Json.get members (js "qr") with
        | some v => checkQrPayload lib v
        | none => .error [""]
      let link := nullableField (stringField fun s => (Url.parse lib s).isSome)
        (Json.get members (js "link"))
      let expiresAt := intField (Json.get members (js "expiresAt"))
      match code, qr, link, expiresAt with
      | some code, .ok qr, some link, some expiresAt => .ok ⟨code, qr, link, expiresAt⟩
      | _, _, _, _ => .error (refused [("code", code.isSome)] ++
          (match qr with | .ok _ => [] | .error paths => paths.map (below "qr")) ++
          refused [("link", link.isSome), ("expiresAt", expiresAt.isSome)])
  | _ => .error [""]

/-- **The schema of the response.** -/
theorem checkMintResponse_toJson (r t : MintPairingResponse) :
    checkMintResponse lib r.toJson = .ok t ↔ t = r ∧ r.code.length = 4 ∧ r.qr.Valid lib ∧
      ∀ s ∈ r.link, (Url.parse lib s).isSome = true := by
  have hnames : (r.members.map Prod.fst).Nodup :=
    (by decide : [js "code", js "qr", js "link", js "expiresAt"].Nodup)
  have hget {name : JsString} {v : Option Json} (h : (name, v) ∈ r.members) :
      Json.get (Json.present r.members) name = v := Json.get_present hnames h
  have hlink (t : Option JsString) :
      nullableField (stringField fun s => (Url.parse lib s).isSome)
        (some ((r.link.map Json.str).getD .null)) = some t ↔
      t = r.link ∧ ∀ s ∈ r.link, (Url.parse lib s).isSome = true := by
    cases r.link with
    | none =>
        rw [Option.map_none, Option.getD_none, nullableField, Option.some.injEq, eq_comm]
        simp
    | some s => exact optionalField_str (s := some s)
  have hint : intField (some (.num r.expiresAt)) = some r.expiresAt := by simp [intField]
  rw [MintPairingResponse.toJson, checkMintResponse,
    hget (v := some (.str r.code)) (by simp [MintPairingResponse.members]),
    hget (v := some r.qr.toJson) (by simp [MintPairingResponse.members]),
    hget (v := some ((r.link.map Json.str).getD .null)) (by simp [MintPairingResponse.members]),
    hget (v := some (.num r.expiresAt)) (by simp [MintPairingResponse.members]), hint]
  constructor
  · intro h
    dsimp only at h
    split at h
    case h_2 => cases h
    case h_1 code qr link expiresAt hcode hqr hl he =>
      obtain ⟨rfl, h1⟩ := stringField_str.mp hcode
      obtain ⟨rfl, h2⟩ := (checkQrPayload_toJson _ _).mp hqr
      obtain ⟨rfl, h3⟩ := (hlink _).mp hl
      cases he
      cases h
      exact ⟨rfl, by simpa using h1, h2, h3⟩
  · rintro ⟨rfl, h1, h2, h3⟩
    have hcode : stringField (fun s => decide (s.length = 4)) (some (.str t.code)) = some t.code :=
      stringField_str.mpr ⟨rfl, decide_eq_true h1⟩
    have hqr := (checkQrPayload_toJson _ _).mpr ⟨rfl, h2⟩
    have hl := (hlink _).mpr ⟨rfl, h3⟩
    simp only [hcode, hqr, hl]

end LocalCast.Contract
