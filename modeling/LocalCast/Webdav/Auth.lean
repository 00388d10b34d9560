import LocalCast.Auth.Tokens
import LocalCast.Foundations.Runs
import LocalCast.Foundations.Utf8

/-!
`modules/webdav/auth.ts`: basic authentication of the mount, with its cache of verified
passwords.

`check` awaits the key derivation, so an attempt is the read of the device row and the look at
the cache, and later the write to the cache; the devices change between the two, and between
attempts, as they like.

* `parseBasicAuth`, `check`, `verified`: the functions of the source, cut at the `await`.
* `withoutCache`: the answer to an attempt from the row that was read for it alone.
* `Truthful`: the invariant. Every entry is of a password that was verified against its hash.
* `cache_transparent`: whatever happens in between, every attempt is answered as it would be
  without the cache.
-/

namespace LocalCast.Webdav

open JsString Db Runs

/-! ### Credentials -/

structure BasicCredentials where
  user : JsString
  pass : JsString
deriving DecidableEq

/-- A character of the token of a `Basic` header. -/
def isTokenChar (c : CodeUnit) : Bool := (base64Value c).isSome && c ≠ 45 && c ≠ 95 || c = 61

/-- The token of `/^Basic\s+([A-Za-z0-9+/=]+)$/i`. -/
def basicToken (header : JsString) : Option JsString :=
  let rest := header.drop 5
  let token := rest.dropWhile isSpace
  if lower (header.take 5) = js "basic" ∧ token.length < rest.length ∧ token ≠ []
      ∧ token.all isTokenChar then some token
  else none

/-- The two sides of the first colon. -/
def splitColon (decoded : JsString) : Option BasicCredentials :=
  if decoded.contains 58 then
    some ⟨decoded.takeWhile (· ≠ 58), (decoded.dropWhile (· ≠ 58)).tail⟩
  else none

/-- `parseBasicAuth`. -/
def parseBasicAuth (header : Option JsString) : Option BasicCredentials :=
  (header.filter (· ≠ [])).bind fun header =>
    (basicToken (trim header)).bind fun token => splitColon (ofUtf8 (ofBase64url token))

/-! ### The authenticator -/

/-- The hashes: `sha256` of bytes, and `verifyDavPassword`. -/
structure DavCrypto where
  sha256 : List ℕ → List ℕ
  verifyDavPassword : JsString → JsString → Bool

/-- `DeviceIdentity`. -/
structure DeviceIdentity where
  id : JsString
  userId : JsString
  name : JsString
  platform : JsString
  tokenVersion : ℕ
deriving DecidableEq

inductive DavAuthResult where
  | ok (device : DeviceIdentity)
  | missing
  | badCredentials
  | notActive
deriving DecidableEq

structure CacheEntry where
  hash : JsString
  passwordDigest : List ℕ
  expiresAt : Time
deriving DecidableEq

/-- The password of an attempt whose key is being derived, and the row it was read with. -/
structure Verification where
  header : Option JsString
  rows : Table DeviceRow
  row : DeviceRow
  hash : JsString
  password : JsString

/-- An answered attempt: its header, the devices as they were when its row was read, and the
answer. -/
structure DavAnswer where
  header : Option JsString
  rows : Table DeviceRow
  result : DavAuthResult

/-- The devices, the cache, the verifications under way, and the answers so far. -/
structure DavState where
  devices : Table DeviceRow
  cache : JsString → Option CacheEntry
  calls : ℕ → Option Verification
  answers : List DavAnswer

namespace DavState

def init (devices : Table DeviceRow) : DavState :=
  { devices := devices, cache := fun _ => none, calls := fun _ => none, answers := [] }

def answer (s : DavState) (header : Option JsString) (rows : Table DeviceRow)
    (result : DavAuthResult) : DavState :=
  { s with answers := ⟨header, rows, result⟩ :: s.answers }

end DavState

def identityOf (row : DeviceRow) : DeviceIdentity :=
  ⟨row.id, row.user_id, row.name, row.platform, row.token_version⟩

/-- The device row of an attempt and its password hash, or the refusal. -/
def readRow (rows : Table DeviceRow) (header : Option JsString) :
    Except DavAuthResult (DeviceRow × JsString × JsString) :=
  match parseBasicAuth header with
  | none => .error .missing
  | some credentials =>
      match rows.get credentials.user with
      | none => .error .badCredentials
      | some row =>
          match row.dav_password_hash.filter (· ≠ []) with
          | none => .error .badCredentials
          | some hash =>
              if row.status ≠ .active then .error .notActive
              else .ok (row, hash, credentials.pass)

/-- The digest an entry of the cache keeps of a password. -/
def digest (crypto : DavCrypto) (password : JsString) : List ℕ := crypto.sha256 (utf8 password)

/-- The look of `check` at the cache. -/
def cached (crypto : DavCrypto) (s : DavState) (row : DeviceRow) (hash password : JsString)
    (now : Time) : Bool :=
  (s.cache row.id).any fun entry =>
    now < entry.expiresAt && entry.hash = hash && entry.passwordDigest = digest crypto password

inductive DavAction where
  /-- `authenticate` is called in slot `i`. -/
  | authenticate (i : ℕ) (header : Option JsString) (now : Time)
  /-- `verifyDavPassword` resolves. -/
  | verified (i : ℕ) (now : Time)
  /-- Passwords are rotated, devices approved, revoked, renamed or deleted. -/
  | operate (devices : Table DeviceRow)
  | clear

/-- One synchronous stretch; `none` where the action is not enabled. -/
def davStep (crypto : DavCrypto) (ttlMs : ℕ) (s : DavState) : DavAction → Option DavState
  | .authenticate i header now =>
      match readRow s.devices header with
      | .error result => some (s.answer header s.devices result)
      | .ok (row, hash, password) =>
          if cached crypto s row hash password now then
            some (s.answer header s.devices (.ok (identityOf row)))
          else match s.calls i with
            | some _ => none
            | none => some { s with
                calls := Function.update s.calls i
                  (some ⟨header, s.devices, row, hash, password⟩) }
  | .verified i now =>
      match s.calls i with
      | none => none
      | some call =>
          let s := { s with calls := Function.update s.calls i none }
          if crypto.verifyDavPassword call.password call.hash then
            some ({ s with
              cache := Function.update s.cache call.row.id
                (some ⟨call.hash, digest crypto call.password, now + ttlMs⟩) }.answer call.header
                  call.rows (.ok (identityOf call.row)))
          else
            some ({ s with cache := Function.update s.cache call.row.id none }.answer call.header
              call.rows .badCredentials)
  | .operate devices => some { s with devices := devices }
  | .clear => some { s with cache := fun _ => none }

/-! ### The answer without a cache -/

/-- What an attempt is answered where every password is verified anew. -/
def withoutCache (crypto : DavCrypto) (rows : Table DeviceRow) (header : Option JsString) :
    DavAuthResult :=
  match readRow rows header with
  | .error result => result
  | .ok (row, hash, password) =>
      if crypto.verifyDavPassword password hash then .ok (identityOf row) else .badCredentials

/-- The attempt is answered as it would be without a cache: it is accepted exactly where it names
an active device and its password verifies against the hash the device had then. -/
structure Transparent (crypto : DavCrypto) (answer : DavAnswer) : Prop where
  same : answer.result = withoutCache crypto answer.rows answer.header
  accepted : (∃ device, answer.result = .ok device) ↔
    ∃ credentials row hash, parseBasicAuth answer.header = some credentials ∧
      answer.rows.get credentials.user = some row ∧ row.status = .active ∧
      row.dav_password_hash = some hash ∧ hash ≠ [] ∧
      crypto.verifyDavPassword credentials.pass hash = true

/-! ### Passwords -/

lemma encodeChar_no_colon {c : Char} (hc : c ≠ ':') : ∀ u ∈ encodeChar c, u ≠ 58 := by
  have hvalid := toNat_char c
  rintro u hu rfl
  rw [encodeChar] at hu
  split_ifs at hu with hsmall
  · have hnat : c.toNat = 58 := by
      have h := congrArg UInt16.toNat (List.mem_singleton.mp hu)
      simp at h
      omega
    exact hc (Char.toNat_inj.mp hnat)
  · simp only [List.mem_cons, List.not_mem_nil, or_false] at hu
    rcases hu with hu | hu
    · have h := congrArg UInt16.toNat hu
      simp at h
      omega
    · have h := congrArg UInt16.toNat hu
      simp at h
      omega

/-- What follows the first colon of a text is a text. -/
lemma wellFormed_after_colon (cs : List Char) :
    WellFormed (((cs.flatMap encodeChar).dropWhile (· ≠ 58)).tail) := by
  induction cs with
  | nil => exact ⟨[], rfl⟩
  | cons c cs ih =>
      by_cases hc : c = ':'
      · subst hc
        exact ⟨cs, rfl⟩
      · rw [List.flatMap_cons, List.dropWhile_append_of_pos]
        · exact ih
        · exact fun u hu => decide_eq_true (encodeChar_no_colon hc u hu)

lemma wellFormed_pass {header : Option JsString} {credentials : BasicCredentials}
    (h : parseBasicAuth header = some credentials) : WellFormed credentials.pass := by
  rw [parseBasicAuth] at h
  obtain ⟨header, -, h⟩ := Option.bind_eq_some_iff.mp h
  obtain ⟨token, -, h⟩ := Option.bind_eq_some_iff.mp h
  rw [splitColon] at h
  split_ifs at h
  rw [← Option.some.inj h]
  exact wellFormed_after_colon _

/-- Texts with the same digest are the same. -/
lemma digest_inj {crypto : DavCrypto} (hsha : Function.Injective crypto.sha256)
    {p q : JsString} (hp : WellFormed p) (hq : WellFormed q)
    (h : digest crypto p = digest crypto q) : p = q := by
  rw [← ofUtf8_utf8 hp, ← ofUtf8_utf8 hq, hsha h]

/-! ### The invariant -/

/-- Every entry of the cache is of a password that was verified against its hash, and every
verification under way is of what its attempt read. -/
structure Truthful (crypto : DavCrypto) (s : DavState) : Prop where
  cache : ∀ id entry, s.cache id = some entry → ∃ password, WellFormed password ∧
    entry.passwordDigest = digest crypto password ∧
    crypto.verifyDavPassword password entry.hash = true
  calls : ∀ i call, s.calls i = some call →
    readRow call.rows call.header = .ok (call.row, call.hash, call.password)
  answers : ∀ answer ∈ s.answers, Transparent crypto answer

section Invariant

variable {crypto : DavCrypto} {ttlMs : ℕ} {s t : DavState} {rows : Table DeviceRow}
  {header : Option JsString} {row : DeviceRow} {hash password : JsString}

/-- The row of an attempt, and what it is read as. -/
inductive Read (rows : Table DeviceRow) (header : Option JsString) : Prop
  | refused {result : DavAuthResult} (h : readRow rows header = .error result)
      (hresult : ∀ device, result ≠ .ok device)
      (hnone : ∀ credentials row hash, parseBasicAuth header = some credentials →
        rows.get credentials.user = some row → row.status = .active →
          row.dav_password_hash = some hash → hash ≠ [] → False)
  | ok {credentials : BasicCredentials} {row : DeviceRow} {hash : JsString}
      (h : readRow rows header = .ok (row, hash, credentials.pass))
      (hparse : parseBasicAuth header = some credentials)
      (hrow : rows.get credentials.user = some row) (hactive : row.status = .active)
      (hhash : row.dav_password_hash = some hash) (hne : hash ≠ [])

/-- Every attempt is refused, or goes on with a row of an active device and its hash. -/
lemma read_cases (rows : Table DeviceRow) (header : Option JsString) : Read rows header := by
  cases hparse : parseBasicAuth header with
  | none =>
      have hread : readRow rows header = .error .missing := by simp only [readRow, hparse]
      refine .refused hread (by simp) ?_
      intro credentials row hash h
      cases hparse.symm.trans h
  | some credentials =>
      cases hrow : rows.get credentials.user with
      | none =>
          have hread : readRow rows header = .error .badCredentials := by
            simp only [readRow, hparse, hrow]
          refine .refused hread (by simp) ?_
          intro c row hash hc h
          obtain rfl := Option.some.inj (hparse.symm.trans hc)
          cases hrow.symm.trans h
      | some row =>
          cases hhash : row.dav_password_hash.filter (· ≠ []) with
          | none =>
              have hread : readRow rows header = .error .badCredentials := by
                simp only [readRow, hparse, hrow, hhash]
              refine .refused hread (by simp) ?_
              intro c r hash hc hr _ hstored hne
              obtain rfl := Option.some.inj (hparse.symm.trans hc)
              obtain rfl := Option.some.inj (hrow.symm.trans hr)
              simp [hstored, hne] at hhash
          | some hash =>
              obtain ⟨hstored, hnonempty⟩ := Option.filter_eq_some_iff.mp hhash
              by_cases hactive : row.status = .active
              · have hread : readRow rows header = .ok (row, hash, credentials.pass) := by
                  simp only [readRow, hparse, hrow, hhash]
                  exact if_neg (not_not.mpr hactive)
                exact .ok hread hparse hrow hactive hstored (of_decide_eq_true hnonempty)
              · have hread : readRow rows header = .error .notActive := by
                  simp only [readRow, hparse, hrow, hhash]
                  exact if_pos hactive
                refine .refused hread (by simp) ?_
                intro c r hash' hc hr hact
                obtain rfl := Option.some.inj (hparse.symm.trans hc)
                obtain rfl := Option.some.inj (hrow.symm.trans hr)
                exact absurd hact hactive

lemma wellFormed_of_readRow (h : readRow rows header = .ok (row, hash, password)) :
    WellFormed password := by
  cases read_cases rows header with
  | refused hread => cases h.symm.trans hread
  | @ok credentials row' hash' hread hparse =>
      have heq := Except.ok.inj (h.symm.trans hread)
      rw [(Prod.mk.inj (Prod.mk.inj heq).2).2]
      exact wellFormed_pass hparse

/-- An answer as without the cache is one to accept exactly as the devices say. -/
lemma transparent_of_same {answer : DavAnswer}
    (h : answer.result = withoutCache crypto answer.rows answer.header) :
    Transparent crypto answer := by
  refine ⟨h, ?_⟩
  rw [h, withoutCache]
  cases read_cases answer.rows answer.header with
  | refused hread hresult hnone =>
      rw [hread]
      refine iff_of_false (fun ⟨device, hdevice⟩ => hresult device hdevice) ?_
      rintro ⟨credentials, row, hash, hparse, hrow, hactive, hhash, hne, -⟩
      exact hnone credentials row hash hparse hrow hactive hhash hne
  | @ok credentials row hash hread hparse hrow hactive hhash hne =>
      rw [hread]
      dsimp only
      constructor
      · rintro ⟨device, hdevice⟩
        split_ifs at hdevice with hverify
        exact ⟨credentials, row, hash, hparse, hrow, hactive, hhash, hne, hverify⟩
      · rintro ⟨credentials', row', hash', hparse', hrow', -, hhash', -, hverify⟩
        obtain rfl := Option.some.inj (hparse.symm.trans hparse')
        obtain rfl := Option.some.inj (hrow.symm.trans hrow')
        obtain rfl := Option.some.inj (hhash.symm.trans hhash')
        exact ⟨_, if_pos hverify⟩

/-- An answered attempt that is as without the cache keeps the invariant. -/
lemma truthful_answer {result : DavAuthResult} (h : Truthful crypto s)
    (hresult : result = withoutCache crypto rows header) :
    Truthful crypto (s.answer header rows result) where
  cache := h.cache
  calls := h.calls
  answers := by
    intro answer hanswer
    rcases List.mem_cons.mp hanswer with rfl | hanswer
    · exact transparent_of_same hresult
    · exact h.answers answer hanswer

/-- The cache vouches for a password that was verified against the same hash. -/
lemma verified_of_cached (hsha : Function.Injective crypto.sha256) (h : Truthful crypto s)
    {now : Time} (hpassword : WellFormed password)
    (hcached : cached crypto s row hash password now = true) :
    crypto.verifyDavPassword password hash = true := by
  obtain ⟨entry, hentry, hhit⟩ := (Option.any_eq_true _ _).mp hcached
  simp only [Bool.and_eq_true, decide_eq_true_eq] at hhit
  obtain ⟨⟨-, hhash⟩, hdigest⟩ := hhit
  obtain ⟨verified, hwell, hkept, hverified⟩ := h.cache row.id entry hentry
  have hsame : verified = password := digest_inj hsha hwell hpassword (hkept.symm.trans hdigest)
  rw [← hsame, ← hhash]
  exact hverified

/-- One step keeps the invariant. -/
lemma truthful_step (hsha : Function.Injective crypto.sha256) {a : DavAction}
    (h : Truthful crypto s) (hstep : davStep crypto ttlMs s a = some t) : Truthful crypto t := by
  cases a with
  | authenticate i header now =>
      cases read_cases s.devices header with
      | refused hread =>
          simp only [davStep, hread, Option.some.injEq] at hstep
          subst hstep
          refine truthful_answer h ?_
          rw [withoutCache, hread]
      | @ok credentials row hash hread hparse =>
          simp only [davStep, hread] at hstep
          split_ifs at hstep with hcached
          · obtain rfl := Option.some.inj hstep
            refine truthful_answer h ?_
            have hverified := verified_of_cached hsha h (wellFormed_pass hparse) hcached
            rw [withoutCache, hread]
            exact (if_pos hverified).symm
          · cases hcall : s.calls i with
            | some call => simp [hcall] at hstep
            | none =>
                simp only [hcall, Option.some.injEq] at hstep
                subst hstep
                refine ⟨h.cache, fun j call hj => ?_, h.answers⟩
                dsimp only at hj
                rw [Function.update_apply] at hj
                split_ifs at hj
                · obtain rfl := Option.some.inj hj
                  exact hread
                · exact h.calls j call hj
  | verified i now =>
      cases hcall : s.calls i with
      | none => simp [davStep, hcall] at hstep
      | some call =>
          have hread := h.calls i call hcall
          have hcalls (j : ℕ) (other : Verification)
              (hj : Function.update s.calls i none j = some other) :
              readRow other.rows other.header = .ok (other.row, other.hash, other.password) := by
            rw [Function.update_apply] at hj
            split_ifs at hj
            exact h.calls j other hj
          simp only [davStep, hcall] at hstep
          split_ifs at hstep with hverify
          · obtain rfl := Option.some.inj hstep
            refine truthful_answer ⟨fun id entry hentry => ?_, hcalls, h.answers⟩ ?_
            · dsimp only at hentry
              rw [Function.update_apply] at hentry
              split_ifs at hentry
              · obtain rfl := Option.some.inj hentry
                exact ⟨call.password, wellFormed_of_readRow hread, rfl, hverify⟩
              · exact h.cache id entry hentry
            · rw [withoutCache, hread]
              exact (if_pos hverify).symm
          · obtain rfl := Option.some.inj hstep
            refine truthful_answer ⟨fun id entry hentry => ?_, hcalls, h.answers⟩ ?_
            · dsimp only at hentry
              rw [Function.update_apply] at hentry
              split_ifs at hentry
              exact h.cache id entry hentry
            · rw [withoutCache, hread]
              exact (if_neg hverify).symm
  | operate devices =>
      obtain rfl := Option.some.inj hstep
      exact ⟨h.cache, h.calls, h.answers⟩
  | clear =>
      obtain rfl := Option.some.inj hstep
      exact ⟨fun _ _ hentry => (by cases hentry), h.calls, h.answers⟩

end Invariant

/-! ### Every run -/

/-- **The cache is transparent.** Whatever the devices become between the read of a row and the
answer, and between attempts, every attempt is answered as it would be without the cache. -/
theorem cache_transparent {crypto : DavCrypto} (hsha : Function.Injective crypto.sha256)
    {ttlMs : ℕ} {devices : Table DeviceRow} {as : List DavAction} {s : DavState}
    (hrun : Run (Steps (davStep crypto ttlMs)) (.init devices) as s) :
    ∀ answer ∈ s.answers, Transparent crypto answer :=
  (hrun.invariant (I := Truthful crypto) (fun _ _ _ h hstep => truthful_step hsha h hstep)
    ⟨fun _ _ h => (by cases h), fun _ _ h => (by cases h), fun _ h => (by cases h)⟩).answers

/-! ### A rotated password -/

/-- The hash of the password `pw`, and of another one. -/
def pwHash : JsString :=
  js "scrypt$16384$8$1$AAECAwQFBgcICQoLDA0ODw==$9I59jaX8uj6pggbk906ZixJaZzYy9YxXDAPz+HKr1GU="

def newHash : JsString :=
  js "scrypt$16384$8$1$AAECAwQFBgcICQoLDA0ODw==$s+iKR5gC4PpBjmCXIWOVDxoAgrs7qUDfcHSNjwAcSzQ="

def pwDigest : List ℕ :=
  [48, 201, 82, 250, 177, 34, 195, 249, 117, 159, 2, 166, 217, 92, 55, 88, 178, 70, 180, 254,
    226, 57, 149, 123, 45, 79, 238, 70, 226, 97, 112, 196]

/-- The hashes at the password `pw`; elsewhere the digest is no string of bytes. -/
def pwCrypto : DavCrypto where
  sha256 bytes := if bytes = [112, 119] then pwDigest else 256 :: bytes
  verifyDavPassword password hash := password = js "pw" && hash = pwHash

lemma pwCrypto_injective : Function.Injective pwCrypto.sha256 := by
  intro b b' h
  simp only [pwCrypto, pwDigest] at h
  split_ifs at h with hb hb' hb'
  · rw [hb, hb']
  · cases (List.cons.inj h).1
  · cases (List.cons.inj h).1
  · exact (List.cons.inj h).2

def davDevice (hash : JsString) : DeviceRow :=
  { id := js "d", user_id := js "owner", name := js "Phone", platform := js "ios"
    status := .active, token_version := 1, dav_password_hash := some hash, refresh_hash := none
    refresh_expires_at := none, created_at := 0 }

/-- The device `d` with the password `pw`, and after its rotation. -/
def davDevices (hash : JsString) : Table DeviceRow := ⟨[davDevice hash], by simp⟩

/-- `d:pw`, three times: verified, from the cache, and after the password was rotated. -/
def rotatedPassword : List DavAction :=
  let header := some (js "Basic ZDpwdw==")
  [.authenticate 0 header 0, .verified 0 1, .authenticate 0 header 2, .operate (davDevices newHash),
    .authenticate 0 header 3, .verified 0 4]

/-- The first two attempts are accepted, the third is not. -/
theorem cache_transparent_rotated : ∃ s,
    Run (Steps (davStep pwCrypto 300000)) (.init (davDevices pwHash)) rotatedPassword s ∧
    s.answers.map DavAnswer.result = [.badCredentials, .ok (identityOf (davDevice pwHash)),
      .ok (identityOf (davDevice pwHash))] ∧
    ∀ answer ∈ s.answers, Transparent pwCrypto answer := by
  obtain ⟨s, hrun, hs⟩ := exists_run_of_exec (davStep pwCrypto 300000)
    (.init (davDevices pwHash)) rotatedPassword
    (fun s => s.answers.map DavAnswer.result = [.badCredentials,
      .ok (identityOf (davDevice pwHash)), .ok (identityOf (davDevice pwHash))])
    (by decide +kernel)
  exact ⟨s, hrun, of_decide_eq_true hs, cache_transparent pwCrypto_injective hrun⟩

end LocalCast.Webdav
