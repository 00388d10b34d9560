import LocalCast.Foundations.Base64
import LocalCast.Foundations.Casing
import LocalCast.Foundations.UriEncode

/-!
`certificates.ts` of the client: the one spelling to which the fingerprint of a certificate is
normalised before it is compared.

* `normaliseFingerprint`, `fingerprintsMatch`: the functions; `toUpperCase` is that of the mapping
  `u`. `base64ToBytes` is the decoder they bring along, a register of 32 bits that is pushed six at
  a time; `base64ToBytes_eq`.
* `Digest`, `Spelling`: 32 bytes and the ways in which they are documented to be spelt.
* `fromHex_eq_some`, `fromBase64_eq`: what either reader makes of a text.
-/

namespace LocalCast.Client

open JsString

/-! ### Reading -/

/-- `HEX_32_BYTES`. -/
def isHex32 (hex : JsString) : Bool := hex.length = 64 && hex.all isUpperHex

/-- `hex.match(/.{2}/g)`. -/
def pairs : JsString → List JsString
  | a :: b :: rest => [a, b] :: pairs rest
  | _ => []

def fromHex (hex : JsString) : Option JsString :=
  if isHex32 hex then some (join (js ":") (pairs hex)) else none

/-- `/^[A-Za-z0-9+/]{43}=$/`. -/
def isBase64Of32 (value : JsString) : Bool :=
  value.length = 44 && (value.take 43).all (fun c => base64Alphabet.contains c) &&
    value.drop 43 = [61]

/-- What the loop of `base64ToBytes` keeps: `buffer` is an integer of 32 bits. -/
structure Register where
  buffer : BitVec 32
  bits : ℕ
  out : List ℕ

/-- One turn of the loop. -/
def Register.push (r : Register) (index : ℕ) : Register :=
  let buffer := r.buffer <<< 6 ||| BitVec.ofNat 32 index
  let bits := r.bits + 6
  if 8 ≤ bits then
    { buffer := buffer
      bits := bits - 8
      out := r.out ++ [((buffer.sshiftRight (bits - 8)) &&& 0xFF#32).toNat] }
  else { r with buffer := buffer, bits := bits }

/-- `ALPHABET.indexOf(char)`, or the error. -/
def indexOf (char : CodeUnit) : Option ℕ :=
  if base64Alphabet.idxOf char < base64Alphabet.length then some (base64Alphabet.idxOf char)
  else none

def base64ToBytes (value : JsString) : Option (List ℕ) :=
  let clean := (value.reverse.dropWhile fun c => c = 61).reverse
  (clean.mapM indexOf).map fun indices => (indices.foldl Register.push ⟨0, 0, []⟩).out

/-- `b.toString(16).padStart(2, '0').toUpperCase()`. -/
def hexByte (b : ℕ) : JsString := [hexDigit (b / 16), hexDigit (b % 16)]

def fromBase64 (value : JsString) : Option JsString :=
  if !isBase64Of32 value then none
  else
    match base64ToBytes value with
    | none => none
    | some bytes =>
        if bytes.length ≠ 32 then none else some (join (js ":") (bytes.map hexByte))

/-! ### Normalising -/

/-- `/fingerprint/i.test(text)`. -/
def saysFingerprint (text : JsString) : Bool :=
  text.tails.any fun t => (js "fingerprint").isPrefixOf (lower t)

/-- `text.slice(text.lastIndexOf('=') + 1)`. -/
def afterEquals (text : JsString) : JsString := (text.reverse.takeWhile fun c => c ≠ 61).reverse

/-- The text, without the name that OpenSSL puts in front. -/
def unnamed (text : JsString) : JsString :=
  if saysFingerprint text ∧ 61 ∈ text then trim (afterEquals text) else text

/-- What follows `/^sha-?256\s*[/:]\s*/i`. -/
def afterSha256 (text : JsString) : Option JsString :=
  if lower (text.take 3) = js "sha" then
    let tail := text.drop 3
    let tail := if tail.head? = some 45 then tail.drop 1 else tail
    if tail.take 3 = js "256" then
      match (tail.drop 3).dropWhile isSpace with
      | mark :: rest => if mark = 47 ∨ mark = 58 then some (rest.dropWhile isSpace) else none
      | [] => none
    else none
  else none

/-- `/[\s:-]/`. -/
def isSeparator (c : CodeUnit) : Bool := isSpace c || c = 58 || c = 45

/-- `text.replace(/[\s:-]/g, '')`. -/
def compact (text : JsString) : JsString := text.filter fun c => !isSeparator c

def normaliseFingerprint (u : Uppercase) : Option JsString → Option JsString
  | none => none
  | some value =>
      let text := unnamed (trim value)
      match afterSha256 text with
      | some rest =>
          let rest := trim rest
          (fromBase64 rest).or (fromHex (u.toUpperCase (compact rest)))
      | none =>
          match fromBase64 text with
          | some base64 => some base64
          | none => fromHex (u.toUpperCase (compact text))

def fingerprintsMatch (u : Uppercase) (a b : Option JsString) : Bool :=
  match normaliseFingerprint u a, normaliseFingerprint u b with
  | some left, some right =>
      if left.length ≠ right.length then false
      else (left.zip right).foldl (fun diff p => diff ||| (p.1 ^^^ p.2)) 0 = 0
  | _, _ => false

/-! ### Digests and their spellings -/

/-- A SHA-256 digest. -/
@[ext]
structure Digest where
  bytes : List ℕ
  length_bytes : bytes.length = 32
  lt_of_mem : ∀ b ∈ bytes, b < 256

namespace Digest

variable (d : Digest)

/-- The canonical spelling, which is that of Node. -/
def canonical : JsString := join (js ":") (d.bytes.map hexByte)

/-- The digits alone. -/
def bare : JsString := d.bytes.flatMap hexByte

/-- The bytes in base64. -/
def base64 : JsString := JsString.base64 d.bytes

end Digest

/-- How a fingerprint is spelt: by Node, by Electron, by OpenSSL, or as people paste it. -/
inductive Spelling where
  | node
  | electron
  | openssl
  | pasted (lowerCase colons : Bool)

def Spelling.write (d : Digest) : Spelling → JsString
  | node => d.canonical
  | electron => js "sha256/" ++ d.base64
  | openssl => js "SHA256 Fingerprint=" ++ d.canonical
  | pasted lowerCase colons =>
      let text := if colons then d.canonical else d.bare
      if lowerCase then lower text else text

/-- The text in which a fingerprint is looked for: no name, no mark of the algorithm. -/
def body (value : JsString) : JsString :=
  let text := unnamed (trim value)
  match afterSha256 text with
  | some rest => trim rest
  | none => text

/-! ### base64 -/

section Base64

lemma toNat_push (b : BitVec 32) {index : ℕ} (h : index < 64) :
    (b <<< 6 ||| BitVec.ofNat 32 index).toNat = (b.toNat * 64 + index) % 2 ^ 32 := by
  have hshift : b.toNat <<< 6 % 2 ^ 32 = (b.toNat % 2 ^ 26) <<< 6 := by
    rw [Nat.shiftLeft_eq, Nat.shiftLeft_eq]
    omega
  rw [BitVec.toNat_or, BitVec.toNat_shiftLeft, BitVec.toNat_ofNat, hshift,
    Nat.mod_eq_of_lt (a := index) (by omega), ← Nat.shiftLeft_add_eq_or_of_lt (by omega),
    Nat.shiftLeft_eq]
  omega

lemma toNat_byte (b : BitVec 32) {k : ℕ} (h : k ≤ 24) :
    ((b.sshiftRight k) &&& 0xFF#32).toNat = b.toNat / 2 ^ k % 256 := by
  have hmask : (0xFF#32).toNat = 2 ^ 8 - 1 := rfl
  apply Nat.eq_of_testBit_eq
  intro i
  rw [BitVec.toNat_and, hmask, Nat.and_two_pow_sub_one_eq_mod, show 256 = 2 ^ 8 from rfl,
    Nat.testBit_mod_two_pow, Nat.testBit_mod_two_pow, Nat.testBit_div_two_pow]
  by_cases hi : i < 8
  · have hin : (b.sshiftRight k).toNat.testBit i = b.toNat.testBit (k + i) := by
      rw [← BitVec.getLsbD, BitVec.getLsbD_sshiftRight, if_pos (by omega),
        decide_eq_false (by omega), Bool.not_false, Bool.true_and, BitVec.getLsbD]
    rw [hin, Nat.add_comm]
  · rw [decide_eq_false hi, Bool.false_and, Bool.false_and]

/-- A digit that completes no byte. -/
lemma push_empty (b : BitVec 32) (out : List ℕ) {w : ℕ} (hw : w < 64) : ∃ b' : BitVec 32,
    b'.toNat = (b.toNat * 64 + w) % 2 ^ 32 ∧ Register.push ⟨b, 0, out⟩ w = ⟨b', 6, out⟩ :=
  ⟨b <<< 6 ||| BitVec.ofNat 32 w, toNat_push b hw, rfl⟩

/-- A digit that completes a byte, which is the upper eight of the bits that are held. -/
lemma push_byte (b : BitVec 32) (out : List ℕ) {k x : ℕ} (hk : k ≤ 4) (hx : x < 64) :
    ∃ b' : BitVec 32, b'.toNat = (b.toNat * 64 + x) % 2 ^ 32 ∧
      Register.push ⟨b, k + 2, out⟩ x =
        ⟨b', k, out ++ [(b.toNat * 64 + x) % 2 ^ 32 / 2 ^ k % 256]⟩ := by
  have hb := toNat_push b hx
  refine ⟨b <<< 6 ||| BitVec.ofNat 32 x, hb, ?_⟩
  have hbits : k + 2 + 6 - 8 = k := by omega
  rw [Register.push]
  simp only
  rw [if_pos (by omega), hbits, toNat_byte _ (by omega), hb]

/-- The bytes that leave the register are those of the digits. -/
lemma push_out {indices : List ℕ} (h : ∀ i ∈ indices, i < 64) (b : BitVec 32) (out : List ℕ) :
    (indices.foldl Register.push ⟨b, 0, out⟩).out = out ++ base64Bytes indices := by
  induction indices using base64Bytes.induct generalizing b out with
  | case1 => rw [List.foldl_nil, base64Bytes, List.append_nil]
  | case2 w =>
      obtain ⟨b1, -, h1⟩ := push_empty b out (h w (by simp))
      rw [List.foldl_cons, h1, List.foldl_nil, base64Bytes, List.append_nil]
  | case3 w x =>
      have hw := h w (by simp)
      have hx := h x (by simp)
      obtain ⟨b1, hb1, h1⟩ := push_empty b out hw
      obtain ⟨b2, hb2, h2⟩ := push_byte b1 out (k := 4) le_rfl hx
      have hbyte : (b1.toNat * 64 + x) % 2 ^ 32 / 2 ^ 4 % 256 = w * 4 + x / 16 := by omega
      rw [List.foldl_cons, h1, List.foldl_cons, h2, List.foldl_nil, hbyte, base64Bytes]
  | case4 w x y =>
      have hw := h w (by simp)
      have hx := h x (by simp)
      have hy := h y (by simp)
      obtain ⟨b1, hb1, h1⟩ := push_empty b out hw
      obtain ⟨b2, hb2, h2⟩ := push_byte b1 out (k := 4) le_rfl hx
      obtain ⟨b3, hb3, h3⟩ := push_byte b2 (out ++ [w * 4 + x / 16]) (k := 2) (by omega) hy
      have hbyte : (b1.toNat * 64 + x) % 2 ^ 32 / 2 ^ 4 % 256 = w * 4 + x / 16 := by omega
      have hbyte' : (b2.toNat * 64 + y) % 2 ^ 32 / 2 ^ 2 % 256 = x % 16 * 16 + y / 4 := by omega
      rw [List.foldl_cons, h1, List.foldl_cons, h2, List.foldl_cons, hbyte, h3, List.foldl_nil,
        hbyte', base64Bytes, List.append_assoc, List.singleton_append]
  | case5 w x y z rest ih =>
      have hw := h w (by simp)
      have hx := h x (by simp)
      have hy := h y (by simp)
      have hz := h z (by simp)
      obtain ⟨b1, hb1, h1⟩ := push_empty b out hw
      obtain ⟨b2, hb2, h2⟩ := push_byte b1 out (k := 4) le_rfl hx
      obtain ⟨b3, hb3, h3⟩ := push_byte b2 (out ++ [w * 4 + x / 16]) (k := 2) (by omega) hy
      obtain ⟨b4, -, h4⟩ := push_byte b3 (out ++ [w * 4 + x / 16] ++ [x % 16 * 16 + y / 4])
        (k := 0) (by omega) hz
      have hbyte : (b1.toNat * 64 + x) % 2 ^ 32 / 2 ^ 4 % 256 = w * 4 + x / 16 := by omega
      have hbyte' : (b2.toNat * 64 + y) % 2 ^ 32 / 2 ^ 2 % 256 = x % 16 * 16 + y / 4 := by omega
      have hbyte'' : (b3.toNat * 64 + z) % 2 ^ 32 / 2 ^ 0 % 256 = y % 4 * 64 + z := by omega
      rw [List.foldl_cons, h1, List.foldl_cons, h2, List.foldl_cons, hbyte, h3, List.foldl_cons,
        hbyte', h4, hbyte'', ih (fun i hi => h i (by simp [hi])), base64Bytes]
      simp

lemma mapM_indexOf {indices : List ℕ} (h : ∀ i ∈ indices, i < 64) :
    (indices.map base64Letter).mapM indexOf = some indices := by
  induction indices with
  | nil => rfl
  | cons i rest ih =>
      have hi := h i List.mem_cons_self
      have hindex : indexOf (base64Letter i) = some i := by
        rw [indexOf, idxOf_base64Letter hi]
        exact if_pos hi
      rw [List.map_cons, List.mapM_cons, hindex, ih fun j hj => h j (List.mem_cons_of_mem _ hj)]
      rfl

lemma pad_not_mem_letters {indices : List ℕ} (h : ∀ i ∈ indices, i < 64) :
    (61 : CodeUnit) ∉ indices.map base64Letter := by
  intro hmem
  obtain ⟨i, hi, heq⟩ := List.mem_map.mp hmem
  have hletter := base64Letter_mem (h i hi)
  rw [heq] at hletter
  exact absurd hletter (by decide)

/-- The decoder reads the digits that are written. -/
lemma base64ToBytes_eq {indices : List ℕ} (h : ∀ i ∈ indices, i < 64) :
    base64ToBytes (indices.map base64Letter ++ [61]) = some (base64Bytes indices) := by
  have hclean : ((indices.map base64Letter ++ [61]).reverse.dropWhile fun c => c = 61).reverse =
      indices.map base64Letter := by
    rw [List.reverse_append, List.reverse_singleton, List.singleton_append,
      List.dropWhile_cons_of_pos (by decide)]
    cases hrev : (indices.map base64Letter).reverse with
    | nil => rw [List.dropWhile_nil, ← hrev, List.reverse_reverse]
    | cons c rest =>
        have hmem : c ∈ indices.map base64Letter := by
          rw [← List.mem_reverse, hrev]
          exact List.mem_cons_self
        have hc : ¬ decide (c = 61) = true := by
          rw [decide_eq_true_eq]
          rintro rfl
          exact pad_not_mem_letters h hmem
        rw [List.dropWhile_cons, if_neg hc, ← hrev, List.reverse_reverse]
  rw [base64ToBytes, hclean, mapM_indexOf h, Option.map_some, push_out h, List.nil_append]

/-- What the pattern of base64 matches: 43 digits and the padding. -/
lemma isBase64Of32_iff {value : JsString} : isBase64Of32 value = true ↔
    ∃ indices : List ℕ, indices.length = 43 ∧ (∀ i ∈ indices, i < 64) ∧
      value = indices.map base64Letter ++ [61] := by
  rw [isBase64Of32]
  constructor
  · intro h
    simp only [Bool.and_eq_true, decide_eq_true_eq, List.all_eq_true, List.contains_iff_mem] at h
    obtain ⟨⟨hlength, hletters⟩, hpad⟩ := h
    refine ⟨(value.take 43).map base64Alphabet.idxOf, ?_, ?_, ?_⟩
    · rw [List.length_map, List.length_take, hlength]
      rfl
    · intro i hi
      obtain ⟨c, hc, rfl⟩ := List.mem_map.mp hi
      exact List.idxOf_lt_length_of_mem (hletters c hc)
    · have hback : ((value.take 43).map base64Alphabet.idxOf).map base64Letter = value.take 43 := by
        rw [List.map_map]
        exact (List.map_congr_left fun c hc => base64Letter_idxOf (hletters c hc)).trans
          (List.map_id _)
      rw [hback, ← hpad, List.take_append_drop]
  · rintro ⟨indices, hlength, hindices, rfl⟩
    have hlength' : (indices.map base64Letter).length = 43 := by rw [List.length_map, hlength]
    have hall : (indices.map base64Letter).all (fun c => base64Alphabet.contains c) = true := by
      rw [List.all_eq_true]
      intro c hc
      obtain ⟨i, hi, rfl⟩ := List.mem_map.mp hc
      exact List.contains_iff_mem.mpr (base64Letter_mem (hindices i hi))
    rw [List.length_append, hlength', List.take_left' hlength', List.drop_left' hlength', hall]
    rfl

/-- The reader of base64, on what its pattern matches. -/
lemma fromBase64_letters {indices : List ℕ} (hlength : indices.length = 43)
    (h : ∀ i ∈ indices, i < 64) : fromBase64 (indices.map base64Letter ++ [61]) =
      some (join (js ":") ((base64Bytes indices).map hexByte)) := by
  have hmatch := isBase64Of32_iff.mpr ⟨indices, hlength, h, rfl⟩
  have hbytes : (base64Bytes indices).length = 32 := by
    have hgroups : indices.length % 4 = 3 := by omega
    have hbytes := length_base64Bytes hgroups
    omega
  rw [fromBase64, hmatch, base64ToBytes_eq h]
  simp [hbytes]

/-- The last digit of 43 that leaves no bits over. -/
def isAligned (value : JsString) : Bool :=
  (js "AEIMQUYcgkosw048").contains (value.getD 42 0)

lemma aligned_iff {i : ℕ} (h : i < 64) :
    (js "AEIMQUYcgkosw048").contains (base64Letter i) = true ↔ i % 4 = 0 := by
  have hletters : js "AEIMQUYcgkosw048" = (List.range 16).map fun q => base64Letter (4 * q) := by
    decide
  rw [List.contains_iff_mem, hletters, List.mem_map]
  constructor
  · rintro ⟨q, hq, heq⟩
    have hq16 := List.mem_range.mp hq
    have hindex := congrArg base64Alphabet.idxOf heq
    rw [idxOf_base64Letter (by omega), idxOf_base64Letter h] at hindex
    omega
  · intro hi
    have hq : 4 * (i / 4) = i := by omega
    exact ⟨i / 4, List.mem_range.mpr (by omega), by rw [hq]⟩

lemma letters_inj {is ks : List ℕ} (hi : ∀ i ∈ is, i < 64) (hk : ∀ k ∈ ks, k < 64)
    (h : is.map base64Letter = ks.map base64Letter) : is = ks := by
  have h' := mapM_indexOf hi
  rw [h, mapM_indexOf hk] at h'
  exact (Option.some.inj h').symm

namespace Digest

variable (d : Digest)

lemma base64_eq : d.base64 = (sextets d.bytes).map base64Letter ++ [61] := by
  rw [base64, JsString.base64, d.length_bytes]
  rfl

lemma length_sextets : (sextets d.bytes).length = 43 := by
  have hgroups : d.bytes.length % 3 = 2 := by rw [d.length_bytes]
  have h := JsString.length_sextets hgroups
  rw [d.length_bytes] at h
  omega

lemma isBase64Of32_base64 : isBase64Of32 d.base64 = true :=
  isBase64Of32_iff.mpr ⟨_, d.length_sextets, lt_of_mem_sextets d.lt_of_mem, d.base64_eq⟩

/-- The bytes of a digest come back from their base64. -/
lemma fromBase64_base64 : fromBase64 d.base64 = some d.canonical := by
  rw [base64_eq, fromBase64_letters d.length_sextets (lt_of_mem_sextets d.lt_of_mem),
    base64Bytes_sextets d.lt_of_mem]
  rfl

end Digest

/-- **The reader of base64**: every text of the pattern is accepted, and is the base64 of what it
is read as when no bits are left over. -/
theorem fromBase64_eq {value : JsString} (h : isBase64Of32 value = true) :
    ∃ d : Digest, fromBase64 value = some d.canonical ∧
      (value = d.base64 ↔ isAligned value = true) := by
  obtain ⟨indices, hlength, hindices, rfl⟩ := isBase64Of32_iff.mp h
  have hgroups : indices.length % 4 = 3 := by omega
  have hbytes := length_base64Bytes hgroups
  have hlast : ∃ i, indices.getLast? = some i ∧ i < 64 ∧
      (indices.map base64Letter ++ [61]).getD 42 0 = base64Letter i := by
    have hlt : 42 < indices.length := by omega
    refine ⟨indices[42], ?_, hindices _ (List.getElem_mem hlt), ?_⟩
    · rw [List.getLast?_eq_getElem?, hlength, List.getElem?_eq_getElem hlt]
    · rw [List.getD_eq_getElem?_getD, List.getElem?_append_left (by simpa using hlt),
        List.getElem?_map, List.getElem?_eq_getElem hlt]
      rfl
  obtain ⟨i, hget, hi, hletter⟩ := hlast
  have hlt := lt_of_mem_base64Bytes hindices
  refine ⟨⟨base64Bytes indices, by omega, hlt⟩, fromBase64_letters hlength hindices, ?_⟩
  have hsextets := sextets_base64Bytes_iff hindices (by omega)
  rw [hget] at hsextets
  rw [Digest.base64_eq, isAligned, hletter, aligned_iff hi, List.append_left_inj]
  constructor
  · intro heq
    exact hsextets.mp (letters_inj hindices (lt_of_mem_sextets hlt) heq).symm i rfl
  · intro hzero
    have hall : ∀ d ∈ some i, d % 4 = 0 := by
      rintro d hd
      obtain rfl := Option.some.inj hd
      exact hzero
    rw [hsextets.mpr hall]

end Base64

/-! ### Hexadecimal -/

section Hex

/-- The units of the hexadecimal spellings. -/
def hexUnits : JsString := js "0123456789ABCDEFabcdef:"

lemma isUpperHex_iff {c : CodeUnit} : isUpperHex c = true ↔ ∃ v < 16, c = hexDigit v := by
  constructor
  · intro h
    rw [isUpperHex] at h
    simp only [Bool.or_eq_true, Bool.and_eq_true, decide_eq_true_eq, UInt16.le_iff_toNat_le,
      UInt16.reduceToNat] at h
    rcases h with ⟨h1, h2⟩ | ⟨h1, h2⟩
    · refine ⟨c.toNat - 48, by omega, UInt16.toNat_inj.mp ?_⟩
      rw [hexDigit_toNat (by omega), if_pos (by omega)]
      omega
    · refine ⟨c.toNat - 55, by omega, UInt16.toNat_inj.mp ?_⟩
      rw [hexDigit_toNat (by omega), if_neg (by omega)]
      omega
  · rintro ⟨v, hv, rfl⟩
    have hall : ((List.range 16).all fun v => isUpperHex (hexDigit v)) = true := by decide
    exact List.all_eq_true.mp hall v (List.mem_range.mpr hv)

/-- The byte of a pair of digits. -/
def readByte : JsString → Option ℕ
  | [a, b] => (hexVal a).bind fun v => (hexVal b).map fun w => v * 16 + w
  | _ => none

lemma readByte_hexByte {b : ℕ} (h : b < 256) : readByte (hexByte b) = some b := by
  have hback : b / 16 * 16 + b % 16 = b := by omega
  have hlow : b % 16 < 16 := by omega
  rw [hexByte, readByte, hexVal_hexDigit (by omega), hexVal_hexDigit hlow, Option.bind_some,
    Option.map_some, hback]

lemma map_readByte {bytes : List ℕ} (h : ∀ b ∈ bytes, b < 256) :
    (bytes.map hexByte).map readByte = bytes.map some := by
  rw [List.map_map]
  exact List.map_congr_left fun b hb => readByte_hexByte (h b hb)

lemma pairs_flatMap (bytes : List ℕ) : pairs (bytes.flatMap hexByte) = bytes.map hexByte := by
  induction bytes with
  | nil => rfl
  | cons b bytes ih =>
      rw [List.flatMap_cons, List.map_cons, ← ih]
      rfl

/-- Digits in pairs are bytes. -/
lemma exists_bytes (n : ℕ) {hex : JsString} (hlength : hex.length = 2 * n)
    (h : hex.all isUpperHex = true) : ∃ bytes : List ℕ, bytes.length = n ∧
      (∀ b ∈ bytes, b < 256) ∧ hex = bytes.flatMap hexByte := by
  induction n generalizing hex with
  | zero =>
      obtain rfl := List.length_eq_zero_iff.mp (by omega : hex.length = 0)
      exact ⟨[], rfl, by simp, rfl⟩
  | succ n ih =>
      rcases hex with _ | ⟨a, _ | ⟨b, rest⟩⟩
      · simp at hlength
      · simp only [List.length_cons, List.length_nil] at hlength
        omega
      · simp only [List.all_cons, Bool.and_eq_true] at h
        simp only [List.length_cons] at hlength
        obtain ⟨ha, hb, hrest⟩ := h
        obtain ⟨v, hv, rfl⟩ := isUpperHex_iff.mp ha
        obtain ⟨w, hw, rfl⟩ := isUpperHex_iff.mp hb
        obtain ⟨bytes, hbytes, hlt, rfl⟩ := ih (by omega) hrest
        have hhigh : (v * 16 + w) / 16 = v := by omega
        have hlow : (v * 16 + w) % 16 = w := by omega
        refine ⟨(v * 16 + w) :: bytes, by simp [hbytes], ?_, ?_⟩
        · simp only [List.forall_mem_cons]
          exact ⟨by omega, hlt⟩
        · rw [List.flatMap_cons, hexByte, hhigh, hlow]
          rfl

namespace Digest

variable (d : Digest)

lemma length_bare : d.bare.length = 64 := by
  have hlength (bytes : List ℕ) : (bytes.flatMap hexByte).length = 2 * bytes.length := by
    induction bytes with
    | nil => rfl
    | cons b bytes ih =>
        rw [List.flatMap_cons, List.length_append, ih, List.length_cons]
        show 2 + 2 * bytes.length = _
        omega
  rw [bare, hlength, d.length_bytes]

lemma bare_all : d.bare.all isUpperHex = true := by
  rw [List.all_eq_true]
  intro c hc
  obtain ⟨b, hb, hmem⟩ := List.mem_flatMap.mp hc
  have hlt := d.lt_of_mem b hb
  rw [hexByte, List.mem_cons, List.mem_singleton] at hmem
  rcases hmem with rfl | rfl
  · exact isUpperHex_iff.mpr ⟨b / 16, by omega, rfl⟩
  · exact isUpperHex_iff.mpr ⟨b % 16, by omega, rfl⟩

lemma fromHex_bare : fromHex d.bare = some d.canonical := by
  have hhex : isHex32 d.bare = true := by
    rw [isHex32, d.length_bare, d.bare_all]
    rfl
  rw [fromHex, if_pos hhex, bare, pairs_flatMap]
  rfl

/-- Digests of the same digits are the same. -/
lemma bare_injective : Function.Injective bare := by
  intro d e h
  have hpairs : (pairs d.bare).map readByte = (pairs e.bare).map readByte := by rw [h]
  rw [bare, bare, pairs_flatMap, pairs_flatMap, map_readByte d.lt_of_mem,
    map_readByte e.lt_of_mem] at hpairs
  exact Digest.ext (List.map_injective_iff.mpr (Option.some_injective ℕ) hpairs)

end Digest

/-- **The reader of hexadecimal** accepts the digits of a digest. -/
theorem fromHex_eq_some {hex f : JsString} (h : fromHex hex = some f) :
    ∃ d : Digest, hex = d.bare ∧ f = d.canonical := by
  rw [fromHex] at h
  split_ifs at h with hhex
  obtain ⟨hlength, hall⟩ : hex.length = 64 ∧ hex.all isUpperHex = true := by
    simpa [isHex32] using hhex
  obtain ⟨bytes, hbytes, hlt, rfl⟩ := exists_bytes 32 hlength hall
  refine ⟨⟨bytes, hbytes, hlt⟩, rfl, ?_⟩
  rw [← Option.some.inj h, pairs_flatMap]
  rfl

end Hex

end LocalCast.Client
