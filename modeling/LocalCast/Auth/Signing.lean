import Mathlib
import LocalCast.Auth.Credentials
import LocalCast.Foundations.Utf8

/-!
What the server signs under its one key: claim tickets, playback tickets and access tokens.

* `KeyedDigest`: HMAC under the key, written in base64url, as the runtime's `hmac`.
* `Message`, `Message.bytes`: the byte strings that are signed; `bytes_injective` tells them
  apart.
* `Signing`, `Unforged`: the calls that sign, and that a signature comes from one of them.
* `playback_tickets_sound`: the tickets that are accepted are those that were issued.
* `lone_surrogate_accepted`: a file id that is no UTF-16 shares its tickets.
-/

namespace LocalCast.Auth

open JsString Contract Db

/-! ### The digest -/

/-- A string of bytes. -/
def IsBytes (bytes : List ℕ) : Prop := ∀ b ∈ bytes, b < 256

/-- `createHmac('sha256', secret)`, taken to be injective. -/
structure KeyedDigest where
  mac : List ℕ → List ℕ
  isBytes : ∀ m, IsBytes m → IsBytes (mac m)
  injective : ∀ m m', IsBytes m → IsBytes m' → mac m = mac m' → m = m'

/-- `.update(message).digest('base64url')`. -/
def KeyedDigest.digest (k : KeyedDigest) (message : JsString) : JsString :=
  base64url (k.mac (utf8 message))

/-- A runtime that signs with the key. -/
def KeyedDigest.runtime (k : KeyedDigest) (rt : Runtime) : Runtime := { rt with hmac := k.digest }

/-! ### What is signed -/

/-- A text signed under the key: for a claim ticket, for a playback ticket, or the header and
the payload of an access token. -/
inductive Message where
  | claim (deviceId : JsString)
  | playback (deviceId fileId : JsString) (expiresAt : ℤ) (tokenVersion : ℕ)
  | jwt (header payload : List ℕ)

def Message.text : Message → JsString
  | .claim deviceId => js "claim:" ++ deviceId
  | .playback deviceId fileId expiresAt tokenVersion =>
      join [58] [js "playback", deviceId, fileId, js (toString expiresAt),
        js (toString tokenVersion)]
  | .jwt header payload => base64url header ++ 46 :: base64url payload

/-- The byte string that is signed. -/
def Message.bytes (m : Message) : List ℕ := utf8 m.text

/-- Device ids are UTF-16 without a colon, file ids are UTF-16, and bytes are bytes. -/
def Message.Plain : Message → Prop
  | .claim deviceId => WellFormed deviceId ∧ (58 : CodeUnit) ∉ deviceId
  | .playback deviceId fileId _ _ =>
      WellFormed deviceId ∧ (58 : CodeUnit) ∉ deviceId ∧ WellFormed fileId
  | .jwt header payload => IsBytes header ∧ IsBytes payload

lemma claimTicket_eq (k : KeyedDigest) (rt : Runtime) (deviceId : JsString) :
    claimTicket (k.runtime rt) deviceId = k.digest (Message.claim deviceId).text := rfl

lemma playbackSignature_eq (k : KeyedDigest) (rt : Runtime) (deviceId fileId : JsString)
    (expiresAt : ℤ) (tokenVersion : ℕ) :
    playbackSignature (k.runtime rt) deviceId fileId expiresAt tokenVersion =
      k.digest (Message.playback deviceId fileId expiresAt tokenVersion).text := rfl

/-! ### Telling the texts apart -/

/-- The units of a text of digits. -/
lemma mem_js_nat {n : ℕ} {c : CodeUnit} (h : c ∈ js n.repr) : 48 ≤ c ∧ c ≤ 57 := by
  obtain ⟨d, hd, hc⟩ := List.mem_flatMap.mp h
  rw [Nat.repr_eq_ofList_toDigits, String.toList_ofList] at hd
  have hdigit : d.isDigit = true := Nat.isDigit_of_mem_toDigits (by decide) (by decide) hd
  simp only [Char.isDigit, Bool.and_eq_true, decide_eq_true_eq, ge_iff_le,
    UInt32.le_iff_toNat_le] at hdigit
  have hzero : '0'.val.toNat = 48 := rfl
  have hnine : '9'.val.toNat = 57 := rfl
  have hvalue : d.val.toNat = d.toNat := rfl
  have hunit : c = d.toNat.toUInt16 := by
    rw [encodeChar, if_pos (by omega), List.mem_singleton] at hc
    exact hc
  have hc : c.toNat = d.toNat := by
    rw [hunit, Nat.toUInt16, UInt16.toNat_ofNat', Nat.mod_eq_of_lt (by omega)]
  simp only [UInt16.le_iff_toNat_le, hc, UInt16.reduceToNat]
  omega

/-- The units of a text of digits with a sign. -/
lemma mem_js_int {z : ℤ} {c : CodeUnit} (h : c ∈ js z.repr) : c = 45 ∨ (48 ≤ c ∧ c ≤ 57) := by
  rw [Int.repr_eq_if] at h
  split_ifs at h
  · exact .inr (mem_js_nat h)
  · rw [js, String.toList_append, List.flatMap_append, List.mem_append] at h
    rcases h with h | h
    · exact .inl (by simpa [encodeChar] using h)
    · exact .inr (mem_js_nat h)

lemma js_injective {s t : String} (h : js s = js t) : s = t := by
  have hchars : chars (js s) = chars (js t) := congrArg chars h
  rwa [js, js, chars_flatMap, chars_flatMap, String.toList_inj] at hchars

lemma int_injective {z z' : ℤ} (h : js (toString z) = js (toString z')) : z = z' :=
  Int.repr_injective (js_injective h)

lemma nat_injective {n n' : ℕ} (h : js (toString n) = js (toString n')) : n = n' :=
  Nat.repr_injective (js_injective h)

/-- A unit that is no digit is in no number. -/
lemma notMem_int {z : ℤ} {c : CodeUnit} (h : ¬ (c = 45 ∨ (48 ≤ c ∧ c ≤ 57))) :
    c ∉ js (toString z) := fun hc => h (mem_js_int hc)

lemma notMem_nat {n : ℕ} {c : CodeUnit} (h : ¬ (48 ≤ c ∧ c ≤ 57)) : c ∉ js (toString n) :=
  fun hc => h (mem_js_nat hc)

lemma playback_text (deviceId fileId : JsString) (expiresAt : ℤ) (tokenVersion : ℕ) :
    (Message.playback deviceId fileId expiresAt tokenVersion).text =
      js "playback" ++ 58 :: (deviceId ++ 58 :: ((fileId ++ 58 :: js (toString expiresAt)) ++
        58 :: js (toString tokenVersion))) := by
  simp [Message.text, join, List.intercalate]

/-- The units of base64url are its digits. -/
lemma mem_base64url {bytes : List ℕ} (h : IsBytes bytes) {c : CodeUnit}
    (hc : c ∈ base64url bytes) : ∃ v < 64, c = base64Digit v := by
  induction bytes using base64url.induct with
  | case1 => cases hc
  | case2 a =>
      have ha : a < 256 := h a (by simp)
      simp only [base64url, List.mem_cons, List.not_mem_nil, or_false] at hc
      rcases hc with rfl | rfl
      · exact ⟨_, by omega, rfl⟩
      · exact ⟨_, by omega, rfl⟩
  | case3 a b =>
      have ha : a < 256 := h a (by simp)
      have hb : b < 256 := h b (by simp)
      simp only [base64url, List.mem_cons, List.not_mem_nil, or_false] at hc
      rcases hc with rfl | rfl | rfl
      · exact ⟨_, by omega, rfl⟩
      · exact ⟨_, by omega, rfl⟩
      · exact ⟨_, by omega, rfl⟩
  | case4 a b d rest ih =>
      have ha : a < 256 := h a (by simp)
      have hb : b < 256 := h b (by simp)
      have hd : d < 256 := h d (by simp)
      simp only [base64url, List.mem_cons] at hc
      rcases hc with rfl | rfl | rfl | rfl | hc
      · exact ⟨_, by omega, rfl⟩
      · exact ⟨_, by omega, rfl⟩
      · exact ⟨_, by omega, rfl⟩
      · exact ⟨_, by omega, rfl⟩
      · exact ih (fun x hx => h x (by simp [hx])) hc

/-- What is no digit of base64url is in none. -/
lemma notMem_base64url {c : CodeUnit} (hc : base64Value c = none) {bytes : List ℕ}
    (h : IsBytes bytes) : c ∉ base64url bytes := by
  intro hmem
  obtain ⟨v, hv, rfl⟩ := mem_base64url h hmem
  rw [base64Value_base64Digit hv] at hc
  cases hc

lemma base64Digit_lt {v : ℕ} (hv : v < 64) : base64Digit v < 0x80 := by
  have hall : ∀ v < 64, base64Digit v < 0x80 := by decide +kernel
  exact hall v hv

lemma lt_of_mem_base64url {bytes : List ℕ} (h : IsBytes bytes) {c : CodeUnit}
    (hc : c ∈ base64url bytes) : c < 0x80 := by
  obtain ⟨v, hv, rfl⟩ := mem_base64url h hc
  exact base64Digit_lt hv

lemma wellFormed_base64url {bytes : List ℕ} (h : IsBytes bytes) : WellFormed (base64url bytes) := by
  refine wellFormed_of_units fun c hc => ?_
  have hlt : c < 0x80 := lt_of_mem_base64url h hc
  simp only [UInt16.le_iff_toNat_le, UInt16.lt_iff_toNat_lt, UInt16.reduceToNat] at hlt ⊢
  omega

lemma base64url_injective {bytes bytes' : List ℕ} (h : IsBytes bytes) (h' : IsBytes bytes')
    (heq : base64url bytes = base64url bytes') : bytes = bytes' := by
  rw [← ofBase64url_base64url h, ← ofBase64url_base64url h', heq]

lemma WellFormed.cons {c : CodeUnit} (hc : ¬ (0xD800 ≤ c ∧ c < 0xE000)) {s : JsString}
    (hs : WellFormed s) : WellFormed (c :: s) := (wellFormed_unit hc).append hs

/-- Texts of plain messages are UTF-16. -/
lemma wellFormed_text {m : Message} (h : m.Plain) : WellFormed m.text := by
  have hcolon : ¬ ((0xD800 : CodeUnit) ≤ 58 ∧ (58 : CodeUnit) < 0xE000) := by decide
  cases m with
  | claim deviceId => exact (wellFormed_js "claim:").append h.1
  | playback deviceId fileId expiresAt tokenVersion =>
      obtain ⟨hdevice, -, hfile⟩ := h
      rw [playback_text]
      refine (wellFormed_js "playback").append (WellFormed.cons hcolon (hdevice.append
        (WellFormed.cons hcolon (WellFormed.append ?_ (WellFormed.cons hcolon (wellFormed_js _))))))
      exact hfile.append (WellFormed.cons hcolon (wellFormed_js _))
  | jwt header payload =>
      exact (wellFormed_base64url h.1).append
        (WellFormed.cons (by decide) (wellFormed_base64url h.2))

/-- There is no colon in a text that is signed for an access token. -/
lemma colon_notMem_jwt {header payload : List ℕ} (h : (Message.jwt header payload).Plain) :
    (58 : CodeUnit) ∉ (Message.jwt header payload).text := by
  rw [Message.text, List.mem_append, List.mem_cons]
  rintro (hc | hc | hc)
  · exact notMem_base64url rfl h.1 hc
  · exact absurd hc (by decide)
  · exact notMem_base64url rfl h.2 hc

lemma colon_mem_claim (deviceId : JsString) : (58 : CodeUnit) ∈ (Message.claim deviceId).text :=
  List.mem_append_left _ (by decide)

lemma colon_mem_playback (deviceId fileId : JsString) (expiresAt : ℤ) (tokenVersion : ℕ) :
    (58 : CodeUnit) ∈ (Message.playback deviceId fileId expiresAt tokenVersion).text := by
  rw [playback_text]
  exact List.mem_append_right _ List.mem_cons_self

lemma claim_ne_playback (d deviceId fileId : JsString) (expiresAt : ℤ) (tokenVersion : ℕ) :
    (Message.claim d).text ≠ (Message.playback deviceId fileId expiresAt tokenVersion).text := by
  intro h
  rw [playback_text] at h
  have hhead : (99 : CodeUnit) = 112 := (List.cons.inj h).1
  exact absurd hhead (by decide)

lemma claim_text_injective {d d' : JsString}
    (h : (Message.claim d).text = (Message.claim d').text) : d = d' := List.append_cancel_left h

/-- The text of a playback ticket is cut at its first two colons and at its last two. -/
lemma playback_text_injective {d f d' f' : JsString} {e e' : ℤ} {v v' : ℕ}
    (hd : (58 : CodeUnit) ∉ d) (hd' : (58 : CodeUnit) ∉ d')
    (h : (Message.playback d f e v).text = (Message.playback d' f' e' v').text) :
    d = d' ∧ f = f' ∧ e = e' ∧ v = v' := by
  have hdigit : ¬ ((58 : CodeUnit) = 45 ∨ ((48 : CodeUnit) ≤ 58 ∧ (58 : CodeUnit) ≤ 57)) := by
    decide
  have hnat : ¬ ((48 : CodeUnit) ≤ 58 ∧ (58 : CodeUnit) ≤ 57) := by decide
  rw [playback_text, playback_text] at h
  obtain ⟨hdevice, hrest⟩ := cut_first hd hd' (List.cons.inj (List.append_inj h rfl).2).2
  obtain ⟨hfirst, hversion⟩ := cut_last (notMem_nat hnat) (notMem_nat hnat) hrest
  obtain ⟨hfile, hexpiry⟩ := cut_last (notMem_int hdigit) (notMem_int hdigit) hfirst
  exact ⟨hdevice, hfile, int_injective hexpiry, nat_injective hversion⟩

lemma jwt_text_injective {header payload header' payload' : List ℕ}
    (h : (Message.jwt header payload).Plain) (h' : (Message.jwt header' payload').Plain)
    (heq : (Message.jwt header payload).text = (Message.jwt header' payload').text) :
    header = header' ∧ payload = payload' := by
  obtain ⟨h1, h2⟩ := cut_first (notMem_base64url rfl h.1) (notMem_base64url rfl h'.1) heq
  exact ⟨base64url_injective h.1 h'.1 h1, base64url_injective h.2 h'.2 h2⟩

/-- **The signed byte strings are distinct**: a plain message is known by its bytes. -/
lemma bytes_injective {m m' : Message} (h : m.Plain) (h' : m'.Plain) (heq : m.bytes = m'.bytes) :
    m = m' := by
  have htext : m.text = m'.text := by
    rw [← ofUtf8_utf8 (wellFormed_text h), ← ofUtf8_utf8 (wellFormed_text h')]
    exact congrArg ofUtf8 heq
  cases m with
  | claim d =>
      cases m' with
      | claim d' => rw [claim_text_injective htext]
      | playback d' f' e' v' => exact absurd htext (claim_ne_playback _ _ _ _ _)
      | jwt header' payload' =>
          exact absurd (htext ▸ colon_mem_claim d) (colon_notMem_jwt h')
  | playback d f e v =>
      cases m' with
      | claim d' => exact absurd htext.symm (claim_ne_playback _ _ _ _ _)
      | playback d' f' e' v' =>
          obtain ⟨rfl, rfl, rfl, rfl⟩ := playback_text_injective h.2.1 h'.2.1 htext
          rfl
      | jwt header' payload' =>
          exact absurd (htext ▸ colon_mem_playback d f e v) (colon_notMem_jwt h')
  | jwt header payload =>
      cases m' with
      | claim d' => exact absurd (htext ▸ colon_mem_claim d') (colon_notMem_jwt h)
      | playback d' f' e' v' =>
          exact absurd (htext ▸ colon_mem_playback d' f' e' v') (colon_notMem_jwt h)
      | jwt header' payload' =>
          obtain ⟨rfl, rfl⟩ := jwt_text_injective h h' htext
          rfl

/-! ### Calls that sign -/

/-- A call that signs under the key; `jwt` is the signature of an access token. -/
inductive Signing where
  | claimTicket (deviceId : JsString)
  | issuePlaybackTicket (device : DeviceRow) (fileId : JsString) (ttlMs : ℕ) (now : Time)
  | jwt (header payload : List ℕ)

def Signing.message : Signing → Message
  | .claimTicket deviceId => .claim deviceId
  | .issuePlaybackTicket device fileId ttlMs now =>
      .playback device.id fileId (now + ttlMs : ℕ) device.token_version
  | .jwt header payload => .jwt header payload

/-- A signature that is a digest under the key is the one that some call made. -/
def Unforged (k : KeyedDigest) (calls : List Signing) (signature : JsString) : Prop :=
  (∃ message, signature = k.digest message) →
    ∃ call ∈ calls, signature = k.digest call.message.text

/-- The device, the expiry and the signature that a ticket denotes. -/
def denotes (lib : TokenLibrary) (ticket : JsString) : Option (JsString × ℤ × JsString) :=
  match splitOn (fun c => c = 46) ticket with
  | [deviceId, expiresText, given] =>
      (safeInteger (lib.number expiresText)).map fun expiresAt => (deviceId, expiresAt, given)
  | _ => none

section Tickets

variable {lib : TokenLibrary} {rt : Runtime} {st : AuthStore} {now : Time}
  {ticket fileId : JsString} {identity : DeviceIdentity}

/-- What a ticket that is accepted denotes. -/
lemma verifyPlaybackTicket_eq_ok_iff :
    verifyPlaybackTicket lib rt st ticket fileId now = .ok identity ↔
      ∃ deviceId expiresAt given device, denotes lib ticket = some (deviceId, expiresAt, given) ∧
        now < expiresAt ∧ st.getDevice deviceId = some device ∧ device.status = .active ∧
        chars given = chars (playbackSignature rt device.id fileId expiresAt device.token_version) ∧
        identityOf device = identity := by
  rw [verifyPlaybackTicket, denotes]
  rcases splitOn (fun c => c = 46) ticket with - | ⟨deviceId, - | ⟨expiresText, - | ⟨given, - | _⟩⟩⟩
  · simp
  · simp
  · simp
  · simp only
    cases hexpiry : safeInteger (lib.number expiresText) with
    | none => simp
    | some expiresAt =>
        simp only [Option.map_some, Option.some.injEq, Prod.mk.injEq]
        by_cases hpast : expiresAt ≤ now
        · simp only [hpast, if_true, reduceCtorEq, false_iff]
          rintro ⟨d, e, g, device, ⟨rfl, rfl, rfl⟩, hlt, -⟩
          exact absurd hlt (not_lt.mpr hpast)
        · rw [if_neg hpast]
          cases hdevice : st.getDevice deviceId with
          | none =>
              refine iff_of_false (by simp) ?_
              rintro ⟨d, e, g, device, ⟨rfl, rfl, rfl⟩, -, hget, -⟩
              exact absurd (hdevice.symm.trans hget) (by simp)
          | some device =>
              simp only
              split_ifs with hactive hsame
              · refine iff_of_false (by simp) ?_
                rintro ⟨d, e, g, device', ⟨rfl, rfl, rfl⟩, -, hget, hactive', -⟩
                obtain rfl := Option.some.inj (hdevice.symm.trans hget)
                exact hactive hactive'
              · refine iff_of_false (by simp) ?_
                rintro ⟨d, e, g, device', ⟨rfl, rfl, rfl⟩, -, hget, -, hchars, -⟩
                obtain rfl := Option.some.inj (hdevice.symm.trans hget)
                exact hsame hchars
              · constructor
                · intro h
                  exact ⟨_, _, _, device, ⟨rfl, rfl, rfl⟩, not_le.mp hpast, hdevice,
                    not_not.mp hactive, not_not.mp hsame, Except.ok.inj h⟩
                · rintro ⟨d, e, g, device', ⟨rfl, rfl, rfl⟩, -, hget, -, -, rfl⟩
                  obtain rfl := Option.some.inj (hdevice.symm.trans hget)
                  rfl
  · simp

/-- The signature given is the one expected where their bytes are the same. -/
lemma eq_of_chars_digest {k : KeyedDigest} {message given : JsString}
    (h : chars given = chars (k.digest message)) : given = k.digest message := by
  have hbytes : IsBytes (k.mac (utf8 message)) := k.isBytes _ fun b hb => lt_of_mem_utf8 hb
  have hdigest : WellFormed (k.digest message) := wellFormed_base64url hbytes
  have hgiven : WellFormed given := by
    refine wellFormed_of_chars ?_
    rw [h]
    intro hmem
    -- the replacement character is no unit of base64url
    have hunits : ∃ c ∈ k.digest message, c = 0xFFFD := by
      refine ⟨0xFFFD, ?_, rfl⟩
      rw [← hdigest.eq_flatMap]
      exact List.mem_flatMap.mpr ⟨_, hmem, by decide⟩
    obtain ⟨c, hc, rfl⟩ := hunits
    exact absurd (lt_of_mem_base64url hbytes hc) (by decide)
  rw [← hgiven.eq_flatMap, ← hdigest.eq_flatMap, h]

/-- The byte string of which a signature is the digest was signed by a call. -/
lemma signed_of_unforged {k : KeyedDigest} {calls : List Signing} {m : Message}
    (h : Unforged k calls (k.digest m.text)) : ∃ call ∈ calls, call.message.bytes = m.bytes := by
  obtain ⟨call, hcall, hdigest⟩ := h ⟨m.text, rfl⟩
  have hbytes (m : Message) : IsBytes m.bytes := fun b hb => lt_of_mem_utf8 hb
  have hmac : k.mac m.bytes = k.mac call.message.bytes :=
    base64url_injective (k.isBytes _ (hbytes m)) (k.isBytes _ (hbytes call.message)) hdigest
  exact ⟨call, hcall, (k.injective _ _ (hbytes m) (hbytes call.message) hmac).symm⟩

/-- What is checked as a playback ticket was signed as one. -/
lemma issued_of_bytes {calls : List Signing} (hcalls : ∀ call ∈ calls, call.message.Plain)
    {deviceId : JsString} {expiresAt : ℤ} {tokenVersion : ℕ}
    (hplain : (Message.playback deviceId fileId expiresAt tokenVersion).Plain)
    (h : ∃ call ∈ calls, call.message.bytes =
      (Message.playback deviceId fileId expiresAt tokenVersion).bytes) :
    ∃ device ttlMs issued, .issuePlaybackTicket device fileId ttlMs issued ∈ calls ∧
      device.id = deviceId ∧ ((issued + ttlMs : ℕ) : ℤ) = expiresAt ∧
      device.token_version = tokenVersion := by
  obtain ⟨call, hcall, hbytes⟩ := h
  have hmessage := bytes_injective (hcalls call hcall) hplain hbytes
  cases call with
  | claimTicket d => cases hmessage
  | jwt header payload => cases hmessage
  | issuePlaybackTicket device f ttlMs issued =>
      obtain ⟨hid, rfl, hexpiry, hversion⟩ := Message.playback.inj hmessage
      exact ⟨device, ttlMs, issued, hcall, hid, hexpiry, hversion⟩

/-- What is checked as a claim ticket was signed as one. -/
lemma claimed_of_bytes {calls : List Signing} (hcalls : ∀ call ∈ calls, call.message.Plain)
    {deviceId : JsString} (hplain : (Message.claim deviceId).Plain)
    (h : ∃ call ∈ calls, call.message.bytes = (Message.claim deviceId).bytes) :
    .claimTicket deviceId ∈ calls := by
  obtain ⟨call, hcall, hbytes⟩ := h
  have hmessage := bytes_injective (hcalls call hcall) hplain hbytes
  cases call with
  | claimTicket d =>
      obtain rfl := Message.claim.inj hmessage
      exact hcall
  | jwt header payload => cases hmessage
  | issuePlaybackTicket device f ttlMs issued => cases hmessage

/-- An issued ticket denotes what it was issued with. -/
lemma denotes_issued {k : KeyedDigest} {device : DeviceRow} {ttlMs : ℕ} {issued : Time}
    (hnumber : ∀ n : ℕ, n < 2 ^ 53 → lib.number (js (toString n)) = some (n : ℚ))
    (hdot : (46 : CodeUnit) ∉ device.id) (hsafe : issued + ttlMs < 2 ^ 53) :
    denotes lib (issuePlaybackTicket (k.runtime rt) device fileId ttlMs issued).1 =
      some (device.id, ((issued + ttlMs : ℕ) : ℤ),
        playbackSignature (k.runtime rt) device.id fileId (issued + ttlMs : ℕ)
          device.token_version) := by
  have hdots {s : JsString} (h : (46 : CodeUnit) ∉ s) (c : CodeUnit) (hc : c ∈ s) :
      decide (c = 46) = false := by
    refine decide_eq_false ?_
    rintro rfl
    exact h hc
  have hexpiry : (46 : CodeUnit) ∉ js (toString (issued + ttlMs)) := notMem_nat (by decide)
  have hsignature : (46 : CodeUnit) ∉ playbackSignature (k.runtime rt) device.id fileId
      (issued + ttlMs : ℕ) device.token_version :=
    notMem_base64url rfl (k.isBytes _ fun b hb => lt_of_mem_utf8 hb)
  have hsplit : splitOn (fun c => c = 46)
      (issuePlaybackTicket (k.runtime rt) device fileId ttlMs issued).1 =
        [device.id, js (toString (issued + ttlMs)), playbackSignature (k.runtime rt) device.id
          fileId (issued + ttlMs : ℕ) device.token_version] := by
    rw [issuePlaybackTicket]
    dsimp only
    rw [splitOn_append_sep _ (hdots hdot) 46 (by decide), splitOn_append_sep _ (hdots hexpiry) 46
      (by decide), splitOn_of_no_sep _ (hdots hsignature)]
  have hread : safeInteger (lib.number (js (toString (issued + ttlMs)))) =
      some ((issued + ttlMs : ℕ) : ℤ) := by
    rw [hnumber _ hsafe, safeInteger, Option.bind_some, Rat.den_natCast, Rat.num_natCast,
      Int.natAbs_natCast, if_pos ⟨rfl, Nat.le_sub_one_of_lt hsafe⟩]
  simp only [denotes, hsplit, hread, Option.map_some]

end Tickets

/-! ### The law -/

/-- Which playback tickets are accepted, and that signatures are kept apart. -/
structure TicketLaw (k : KeyedDigest) (rt : Runtime) (lib : TokenLibrary) (calls : List Signing)
    (st : AuthStore) (now : Time) : Prop where
  /-- A ticket is accepted for a file where it denotes the device, the expiry and the signature
  of one that was issued for that file, the device is active with the version it had, and the
  expiry is not past. -/
  exact : ∀ ticket fileId identity, WellFormed fileId →
    (∀ deviceId expiresAt given, denotes lib ticket = some (deviceId, expiresAt, given) →
      Unforged k calls given) →
    (verifyPlaybackTicket lib (k.runtime rt) st ticket fileId now = .ok identity ↔
      ∃ row ttlMs issued device, .issuePlaybackTicket row fileId ttlMs issued ∈ calls ∧
        denotes lib ticket = some (row.id, ((issued + ttlMs : ℕ) : ℤ),
          playbackSignature (k.runtime rt) row.id fileId (issued + ttlMs : ℕ) row.token_version) ∧
        st.getDevice row.id = some device ∧ device.status = .active ∧
        device.token_version = row.token_version ∧ now < issued + ttlMs ∧
        identityOf device = identity)
  /-- The ticket text that a call returns is such a ticket. -/
  accepted : ∀ row fileId ttlMs issued device, (46 : CodeUnit) ∉ row.id →
    issued + ttlMs < 2 ^ 53 → st.getDevice row.id = some device → device.status = .active →
    device.token_version = row.token_version → now < issued + ttlMs →
    verifyPlaybackTicket lib (k.runtime rt) st
      (issuePlaybackTicket (k.runtime rt) row fileId ttlMs issued).1 fileId now =
        .ok (identityOf device)
  /-- A claim ticket that is accepted was issued for that device. -/
  claims : ∀ deviceId ticket, WellFormed deviceId → (58 : CodeUnit) ∉ deviceId →
    Unforged k calls ticket → ticket = claimTicket (k.runtime rt) deviceId →
    .claimTicket deviceId ∈ calls
  /-- Plain messages are signed as different byte strings. -/
  apart : ∀ m m' : Message, m.Plain → m'.Plain → m.bytes = m'.bytes → m = m'

/-- **Playback tickets are sound and kept apart** from everything else that the server signs
with its key. -/
theorem playback_tickets_sound (k : KeyedDigest) (rt : Runtime) (lib : TokenLibrary)
    (hnumber : ∀ n : ℕ, n < 2 ^ 53 → lib.number (js (toString n)) = some (n : ℚ))
    {calls : List Signing} (hcalls : ∀ call ∈ calls, call.message.Plain) {st : AuthStore}
    (hids : ∀ device ∈ st.devices.rows, WellFormed device.id ∧ (58 : CodeUnit) ∉ device.id)
    (now : Time) : TicketLaw k rt lib calls st now where
  exact ticket fileId identity hfile hunforged := by
    rw [verifyPlaybackTicket_eq_ok_iff]
    constructor
    · rintro ⟨deviceId, expiresAt, given, device, hdenotes, hnow, hget, hactive, hchars, hidentity⟩
      obtain ⟨hmem, hid⟩ := Table.get_eq_some_iff.mp hget
      have hid : device.id = deviceId := hid
      obtain ⟨hwell, hcolon⟩ := hids device hmem
      have hgiven : given = playbackSignature (k.runtime rt) device.id fileId expiresAt
          device.token_version := eq_of_chars_digest hchars
      obtain ⟨row, ttlMs, issued, hcall, hrow, rfl, hversion⟩ :=
        issued_of_bytes hcalls ⟨hwell, hcolon, hfile⟩
          (signed_of_unforged (hgiven ▸ hunforged _ _ _ hdenotes))
      refine ⟨row, ttlMs, issued, device, hcall, ?_, ?_, hactive, hversion.symm, ?_, hidentity⟩
      · rw [hdenotes, hgiven, hrow, hversion, hid]
      · rw [hrow, hid]
        exact hget
      · exact_mod_cast hnow
    · rintro ⟨row, ttlMs, issued, device, -, hdenotes, hget, hactive, hversion, hnow, hidentity⟩
      have hid : device.id = row.id := Table.key_of_get hget
      refine ⟨_, _, _, device, hdenotes, by exact_mod_cast hnow, hget, hactive, ?_, hidentity⟩
      rw [hid, hversion]
  accepted row fileId ttlMs issued device hdot hsafe hget hactive hversion hnow := by
    have hid : device.id = row.id := Table.key_of_get hget
    rw [verifyPlaybackTicket_eq_ok_iff]
    refine ⟨_, _, _, device, denotes_issued hnumber hdot hsafe, by exact_mod_cast hnow, hget,
      hactive, ?_, rfl⟩
    rw [hid, hversion]
  claims deviceId ticket hwell hcolon hunforged hticket :=
    claimed_of_bytes hcalls ⟨hwell, hcolon⟩
      (signed_of_unforged (hticket ▸ hunforged))
  apart _ _ := bytes_injective

/-! ### A key -/

/-- The digest that leaves a byte string as it is. -/
def plainDigest : KeyedDigest where
  mac := id
  isBytes _ h := h
  injective _ _ _ _ h := h

lemma plainNumber_nat (n : ℕ) : plainNumber (js (toString n)) = some (n : ℚ) := by
  have hdigits (cs : List Char) (hcs : ∀ c ∈ cs, c.toNat < 128) (v : ℕ) :
      (cs.flatMap encodeChar).foldl (fun v c => 10 * v + (c.toNat - 48)) v =
        Nat.ofDigitChars 10 cs v := by
    induction cs generalizing v with
    | nil => simp
    | cons c cs ih =>
        have hc : c.toNat < 128 := hcs c List.mem_cons_self
        have hunit : encodeChar c = [c.toNat.toUInt16] := by rw [encodeChar, if_pos (by omega)]
        have hvalue : c.toNat.toUInt16.toNat = c.toNat := by
          rw [Nat.toUInt16, UInt16.toNat_ofNat', Nat.mod_eq_of_lt (by omega)]
        rw [List.flatMap_cons, hunit, List.singleton_append, List.foldl_cons, hvalue,
          ih fun d hd => hcs d (List.mem_cons_of_mem _ hd), Nat.ofDigitChars_cons]
        rfl
  have hascii : ∀ c ∈ Nat.toDigits 10 n, c.toNat < 128 := by
    intro c hc
    have hdigit : c.isDigit = true := Nat.isDigit_of_mem_toDigits (by decide) (by decide) hc
    simp only [Char.isDigit, Bool.and_eq_true, decide_eq_true_eq, ge_iff_le,
      UInt32.le_iff_toNat_le] at hdigit
    have hnine : '9'.val.toNat = 57 := rfl
    have hvalue : c.val.toNat = c.toNat := rfl
    omega
  have hjs : js (toString n) = (Nat.toDigits 10 n).flatMap encodeChar := by
    rw [js, Nat.toString_eq_repr, Nat.repr_eq_ofList_toDigits, String.toList_ofList]
  have hne : js (toString n) ≠ [] := by
    intro hnil
    have hchars : chars (js (toString n)) = [] := by rw [hnil, chars]
    rw [hjs, chars_flatMap] at hchars
    exact Nat.toDigits_ne_nil hchars
  have hall : (js (toString n)).all (fun c => 48 ≤ c && c ≤ 57) = true :=
    List.all_eq_true.mpr fun c hc => by simpa using mem_js_nat hc
  rw [plainNumber, if_pos ⟨hne, hall⟩, hjs, hdigits _ hascii, Nat.ofDigitChars_ten_toDigits]

def tvDevice : DeviceRow where
  id := js "d"
  user_id := js "owner"
  name := js "TV"
  platform := js "tv"
  status := .active
  token_version := 3
  dav_password_hash := none
  refresh_hash := none
  refresh_expires_at := none
  created_at := 0

def tvStore : AuthStore := { AuthStore.empty with devices := ⟨[tvDevice], by decide⟩ }

/-- A ticket for a film that is issued at one time and presented at the next. -/
theorem playback_tickets_sound_film :
    TicketLaw plainDigest plainRuntime plainLibrary
        [.issuePlaybackTicket tvDevice (js "film") PLAYBACK_TICKET_TTL_MS 5] tvStore 6 ∧
      verifyPlaybackTicket plainLibrary (plainDigest.runtime plainRuntime) tvStore
        (issuePlaybackTicket (plainDigest.runtime plainRuntime) tvDevice (js "film")
          PLAYBACK_TICKET_TTL_MS 5).1 (js "film") 6 = .ok (identityOf tvDevice) := by
  have hdevice : WellFormed tvDevice.id ∧ (58 : CodeUnit) ∉ tvDevice.id :=
    ⟨wellFormed_js "d", by decide⟩
  have hcalls : ∀ call ∈ [Signing.issuePlaybackTicket tvDevice (js "film")
      PLAYBACK_TICKET_TTL_MS 5], call.message.Plain := by
    intro call hcall
    obtain rfl := List.mem_singleton.mp hcall
    exact ⟨hdevice.1, hdevice.2, wellFormed_js "film"⟩
  have hids : ∀ device ∈ tvStore.devices.rows,
      WellFormed device.id ∧ (58 : CodeUnit) ∉ device.id := by
    intro device hmem
    obtain rfl := List.mem_singleton.mp hmem
    exact hdevice
  have hlaw := playback_tickets_sound plainDigest plainRuntime plainLibrary
    (fun n _ => plainNumber_nat n) hcalls hids 6
  exact ⟨hlaw, hlaw.accepted tvDevice (js "film") PLAYBACK_TICKET_TTL_MS 5 tvDevice (by decide)
    (by decide) rfl rfl rfl (by decide)⟩

/-- **A surrogate without its pair is signed as the replacement character**: the ticket of a
file id that is no UTF-16 is accepted for another file id. -/
theorem lone_surrogate_accepted :
    ([0xD800] : JsString) ≠ [0xFFFD] ∧
      (Message.playback (js "d") [0xD800] 1000 3).bytes =
        (Message.playback (js "d") [0xFFFD] 1000 3).bytes ∧
      verifyPlaybackTicket plainLibrary (plainDigest.runtime plainRuntime) tvStore
        (issuePlaybackTicket (plainDigest.runtime plainRuntime) tvDevice [0xD800]
          PLAYBACK_TICKET_TTL_MS 5).1 [0xFFFD] 6 = .ok (identityOf tvDevice) := by
  refine ⟨by decide, by decide +kernel, ?_⟩
  decide +kernel

end LocalCast.Auth
