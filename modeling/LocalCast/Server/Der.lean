import LocalCast.Foundations.Asn1
import LocalCast.Server.LanCertificate

/-!
`net/der.ts` and the names of `net/selfSigned.ts`: the bytes of a certificate, as far as they are
written by hand.

* `tlv`, `integer`, `positiveInteger`, `bitString`, `octetString`, `oid`: the writer.
* `subjectAltNames`: the names of the certificate in bytes.
* `Datum`: what is given to the writer; `ReadsBack`: a reader finds it again.
* `reads_back_iff`: everything is found again but an identifier whose first two arcs take more than
  seven bits, of which the lowest eight are written.
-/

namespace LocalCast.Server.Der

open JsString JsNumber Asn1

/-! ### The writer -/

def TAG.INTEGER : UInt8 := 0x02
def TAG.BIT_STRING : UInt8 := 0x03
def TAG.OCTET_STRING : UInt8 := 0x04
def TAG.OID : UInt8 := 0x06
def TAG.SEQUENCE : UInt8 := 0x30

/-- `for (let n = value; n > 0; n = Math.floor(n / base)) digits.unshift(n % base)`. -/
def unshifted (base value : ℕ) : List ℕ := (Nat.digits base value).reverse

def tlv (tag : UInt8) (value : Bytes) : Bytes :=
  if value.length < 0x80 then [tag, value.length.toUInt8] ++ value
  else
    let size := unshifted 256 value.length
    [tag, (0x80 ||| size.length).toUInt8] ++ size.map Nat.toUInt8 ++ value

def sequence (parts : List Bytes) : Bytes := tlv TAG.SEQUENCE parts.flatten

def implicitPrimitive (n : ℕ) (value : Bytes) : Bytes := tlv (0x80 ||| n).toUInt8 value

def integer (value : ℕ) : Bytes :=
  if value = 0 then tlv TAG.INTEGER [0]
  else
    let bytes := unshifted 256 value
    tlv TAG.INTEGER ((if bytes.head?.any (fun b => b &&& 0x80 ≠ 0) then 0 :: bytes else bytes).map
      Nat.toUInt8)

/-- `raw.subarray(start)`, what is left without the leading zeros; the last byte stays. -/
def trimmed : Bytes → Bytes
  | 0 :: b :: rest => trimmed (b :: rest)
  | raw => raw

def positiveInteger (raw : Bytes) : Bytes :=
  let trimmed := trimmed raw
  let needsPad := trimmed.head?.any fun b => b &&& 0x80 ≠ 0
  tlv TAG.INTEGER (if needsPad then 0 :: trimmed else trimmed)

def octetString (value : Bytes) : Bytes := tlv TAG.OCTET_STRING value

def bitString (value : Bytes) (unusedBits : ℕ) : Bytes :=
  tlv TAG.BIT_STRING (unusedBits.toUInt8 :: value)

/-- `40 * arcs[0] + arcs[1]`, as a byte: both operations are on doubles, and infinity is `0`. -/
def firstByte (first second : ℕ) : UInt8 :=
  (((toDouble (40 * first)).bind fun n => toDouble (n + second)).getD 0).toUInt8

/-- The digits of an arc, the first step being taken in any case. -/
def chunk (arc : ℕ) : List ℕ := unshifted 128 (arc / 128) ++ [arc % 128]

/-- All but the last are marked. -/
def marked (chunk : List ℕ) : List ℕ := chunk.dropLast.map (· ||| 0x80) ++ chunk.getLast?.toList

def oid (dotted : JsString) : Except JsString Bytes :=
  let arcs := (splitOn (fun c => c = 46) dotted).map parseInt
  if arcs.length < 2 || arcs.any fun n => n.all (· < 0) then
    .error (js "not an object identifier: " ++ dotted)
  else
    let arcs := arcs.map fun n => (n.getD 0).toNat
    .ok (tlv TAG.OID (firstByte (arcs.getD 0 0) (arcs.getD 1 0) ::
      ((arcs.drop 2).flatMap fun arc => marked (chunk arc)).map Nat.toUInt8))

/-! ### The names of the certificate -/

/-- `Buffer.from(text, 'ascii')`: the low byte of each unit. -/
def ascii (text : JsString) : Bytes := text.map UInt16.toUInt8

/-- `[7] iPAddress` for an address, `[2] dNSName` for a name. -/
def nameBytes (host : JsString) : Bytes :=
  if isIpv4 host then
    implicitPrimitive 7 ((splitOn (fun c => c = 46) host).map fun part =>
      (((parseInt part).getD 0) % 256).toNat.toUInt8)
  else implicitPrimitive 2 (ascii host)

def subjectAltNames (hosts : List JsString) : Bytes := sequence (hosts.map nameBytes)

/-! ### Reading it back -/

/-- A name of `GeneralNames`, by its tag. -/
def readName (element : UInt8 × Bytes) : Option GeneralName :=
  if element.1 = 0x82 then
    if element.2.all (· < 128) then some (.dnsName (element.2.map UInt8.toUInt16)) else none
  else if element.1 = 0x87 then
    if element.2.length = 4 then some (.ipAddress (element.2.map UInt8.toNat)) else none
  else none

def readNames (bytes : Bytes) : Option (List GeneralName) :=
  ((readWhole TAG.SEQUENCE bytes).bind elements).bind fun es => es.mapM readName

/-- The host a name was written for. -/
def hostOf : GeneralName → JsString
  | .dnsName name => name
  | .ipAddress octets => join [46] (octets.map decimal)

/-- An object identifier: the first arc is `0`, `1` or `2`, and the second below forty under the
first two of these. Numbers are exact below `2 ^ 53`, and an array has less than `2 ^ 32` of
them. -/
structure ObjectIdentifier where
  first : ℕ
  second : ℕ
  arcs : List ℕ
  first_lt : first < 3
  second_lt : first < 2 → second < 40
  exact : ∀ arc ∈ first :: second :: arcs, arc < 2 ^ 53
  few : arcs.length < 2 ^ 32

def ObjectIdentifier.all (o : ObjectIdentifier) : List ℕ := o.first :: o.second :: o.arcs

def ObjectIdentifier.dotted (o : ObjectIdentifier) : JsString := join [46] (o.all.map decimal)

/-- What is given to the writer. A buffer has less than `2 ^ 53` bytes. -/
inductive Datum where
  | element (tag : UInt8) (value : Bytes) (htag : tag.toNat % 32 ≠ 31)
      (hsize : value.length < 2 ^ 53)
  | octetString (value : Bytes) (hsize : value.length < 2 ^ 53)
  | bitString (value : Bytes) (unusedBits : ℕ) (hunused : Unused unusedBits value)
      (hsize : value.length < 2 ^ 53)
  | integer (value : ℕ) (hexact : value < 2 ^ 53)
  | positiveInteger (raw : Bytes) (hne : raw ≠ []) (hsize : raw.length < 2 ^ 53)
  | oid (o : ObjectIdentifier)
  | subjectAltNames (hosts : List JsString)
      (hnames : ∀ host ∈ hosts, (isIpv4 host || isDnsName host) = true)
      (hsize : (hosts.map nameBytes).flatten.length < 2 ^ 53)

/-- A reader that takes nothing but the distinguished encoding finds what was written. -/
def ReadsBack : Datum → Prop
  | .element tag value _ _ => readElement (tlv tag value) = some ((tag, value), [])
  | .octetString value _ => readWhole TAG.OCTET_STRING (Der.octetString value) = some value
  | .bitString value unusedBits _ _ =>
      (readWhole TAG.BIT_STRING (Der.bitString value unusedBits)).bind readBits =
        some (unusedBits, value)
  | .integer value _ =>
      (readWhole TAG.INTEGER (Der.integer value)).bind readInteger = some (value : ℤ)
  | .positiveInteger raw _ _ =>
      (readWhole TAG.INTEGER (Der.positiveInteger raw)).bind readInteger = some (natural raw : ℤ)
  | .oid o => ∃ bytes, Der.oid o.dotted = .ok bytes ∧
      (readWhole TAG.OID bytes).bind readIdentifier = some o.all
  | .subjectAltNames hosts _ _ =>
      readNames (Der.subjectAltNames hosts) = some (hosts.map generalName) ∧
        (hosts.map generalName).map hostOf = hosts

/-- The first two arcs of an identifier fit into seven bits. -/
def FirstArcsFit : Datum → Prop
  | .oid o => 40 * o.first + o.second < 128
  | _ => True

/-! ### Elements -/

lemma or_top {d : ℕ} (h : d < 128) : 0x80 ||| d = 128 + d :=
  (Nat.two_pow_add_eq_or_of_lt (i := 7) h 1).symm

lemma and_top : ∀ d < 256, (d &&& 0x80 ≠ 0 ↔ 128 ≤ d) := by decide +kernel

/-- **An element** is read as it was written. -/
lemma readElement_tlv {tag : UInt8} {value : Bytes} (htag : tag.toNat % 32 ≠ 31)
    (hsize : value.length < 2 ^ 56) (rest : Bytes) :
    readElement (tlv tag value ++ rest) = some ((tag, value), rest) := by
  rw [tlv]
  split_ifs with hshort
  · exact readElement_of_readLength htag (readLength_short hshort (value ++ rest))
  · have hcount : (bytesOf value.length).length ≤ 7 := length_bytesOf_le_iff.mpr hsize
    have hlength : (unshifted 256 value.length).length = (bytesOf value.length).length := by
      rw [bytesOf, List.length_map, unshifted]
    have hbytes : [tag, (0x80 ||| (unshifted 256 value.length).length).toUInt8] ++
        (unshifted 256 value.length).map Nat.toUInt8 ++ value ++ rest =
        tag :: ((128 + (bytesOf value.length).length).toUInt8 ::
          (bytesOf value.length ++ (value ++ rest))) := by
      rw [hlength, or_top (by omega), List.append_assoc, List.append_assoc]
      rfl
    rw [hbytes]
    exact readElement_of_readLength htag
      (readLength_long (not_lt.mp hshort) (by omega) (value ++ rest))

lemma readWhole_tlv {tag : UInt8} {value : Bytes} (htag : tag.toNat % 32 ≠ 31)
    (hsize : value.length < 2 ^ 56) : readWhole tag (tlv tag value) = some value := by
  have h := readElement_tlv htag hsize []
  rw [List.append_nil] at h
  exact readWhole_of_readElement h

/-! ### Integers -/

lemma signPadded_digits (n : ℕ) :
    ((if (unshifted 256 n).head?.any (fun b => b &&& 0x80 ≠ 0) then 0 :: unshifted 256 n
      else unshifted 256 n).map Nat.toUInt8) = signPadded (bytesOf n) := by
  have hdigits : ∀ d ∈ unshifted 256 n, d < 256 :=
    fun d hd => Nat.digits_lt_base (by decide) (List.mem_reverse.mp hd)
  have hbytes : bytesOf n = (unshifted 256 n).map Nat.toUInt8 := rfl
  rw [hbytes, signPadded]
  cases hcase : unshifted 256 n with
  | nil => rfl
  | cons d ds =>
      have hd : d < 256 := hdigits d (hcase ▸ List.mem_cons_self)
      have htop : (decide (d &&& 0x80 ≠ 0)) = decide (128 ≤ d.toUInt8) := by
        rw [decide_eq_decide, and_top d hd, ← UInt8.not_lt, toUInt8_lt_iff hd, not_lt]
      rw [List.map_cons, List.head?_cons, List.head?_cons, Option.any_some, Option.any_some, htop]
      split_ifs
      · rfl
      · rfl

lemma length_signPadded (bytes : Bytes) : (signPadded bytes).length ≤ bytes.length + 1 := by
  rw [signPadded]
  split_ifs
  · exact le_rfl
  · exact Nat.le_succ _

/-- **A number** below `2 ^ 53` reads as itself. -/
lemma readInteger_integer {value : ℕ} (h : value < 2 ^ 53) :
    (readWhole TAG.INTEGER (integer value)).bind readInteger = some (value : ℤ) := by
  by_cases hzero : value = 0
  · rw [integer, if_pos hzero, hzero, readWhole_tlv (by decide) (by decide)]
    rfl
  · have hvalue : integer value = tlv TAG.INTEGER (signPadded (bytesOf value)) := by
      rw [integer, if_neg hzero]
      exact congrArg (tlv TAG.INTEGER) (signPadded_digits value)
    obtain ⟨b, bs, hbytes, hb⟩ := bytesOf_cons hzero
    have hlength : (bytesOf value).length ≤ 7 :=
      length_bytesOf_le_iff.mpr (h.trans (by norm_num))
    have hsize : (signPadded (bytesOf value)).length < 2 ^ 56 :=
      calc (signPadded (bytesOf value)).length
          ≤ (bytesOf value).length + 1 := length_signPadded _
        _ ≤ 8 := Nat.succ_le_succ hlength
        _ < 2 ^ 56 := by norm_num
    rw [hvalue, readWhole_tlv (by decide) hsize, Option.bind_some, hbytes,
      readInteger_signPadded fun hzero => absurd hzero hb, ← hbytes, natural_bytesOf]

lemma trimmed_cons {raw : Bytes} (h : raw ≠ []) :
    ∃ b rest, trimmed raw = b :: rest ∧ (b = 0 → rest = []) ∧
      natural (b :: rest) = natural raw ∧ (b :: rest).length ≤ raw.length := by
  induction raw with
  | nil => exact absurd rfl h
  | cons a raw ih =>
      cases raw with
      | nil =>
          refine ⟨a, [], ?_, fun _ => rfl, rfl, le_rfl⟩
          rw [trimmed]
          rintro b rest ⟨⟩
      | cons c raw =>
          by_cases ha : a = 0
          · obtain ⟨b, rest, htrimmed, hb, hvalue, hlength⟩ := ih (List.cons_ne_nil c raw)
            refine ⟨b, rest, ?_, hb, ?_, hlength.trans (Nat.le_succ _)⟩
            · rw [ha, trimmed, htrimmed]
            · rw [ha, natural_zero_cons, hvalue]
          · refine ⟨a, c :: raw, ?_, fun hzero => absurd hzero ha, rfl, le_rfl⟩
            rw [trimmed]
            rintro b rest ⟨⟩
            exact ha rfl

lemma topBit (b : UInt8) : (decide (b &&& 0x80 ≠ 0)) = decide (128 ≤ b) := by
  have hzero : b &&& 0x80 ≠ 0 ↔ b.toNat &&& 0x80 ≠ 0 := by
    rw [ne_eq, ← UInt8.toNat_inj, UInt8.toNat_and]
    rfl
  rw [decide_eq_decide, hzero, and_top b.toNat b.toNat_lt, UInt8.le_iff_toNat_le]
  rfl

/-- **Raw bytes** read as the number they stand for. -/
lemma readInteger_positiveInteger {raw : Bytes} (hne : raw ≠ []) (hsize : raw.length < 2 ^ 53) :
    (readWhole TAG.INTEGER (positiveInteger raw)).bind readInteger = some (natural raw : ℤ) := by
  obtain ⟨b, rest, htrimmed, hb, hvalue, hlength⟩ := trimmed_cons hne
  have hbytes : positiveInteger raw = tlv TAG.INTEGER (signPadded (b :: rest)) := by
    rw [positiveInteger, htrimmed, signPadded, List.head?_cons, Option.any_some, Option.any_some,
      topBit]
  have hpadded := length_signPadded (b :: rest)
  rw [hbytes, readWhole_tlv (by decide) (by omega), Option.bind_some, readInteger_signPadded hb,
    hvalue]

/-! ### Identifiers -/

lemma marked_chunk (arc : ℕ) : (marked (chunk arc)).map Nat.toUInt8 = arcBytes arc := by
  have hmarks : (unshifted 128 (arc / 128)).map (Nat.toUInt8 ∘ (· ||| 0x80)) =
      (unshifted 128 (arc / 128)).map fun d => (128 + d).toUInt8 := by
    refine List.map_congr_left fun d hd => ?_
    have hlt : d < 128 := Nat.digits_lt_base (by decide) (List.mem_reverse.mp hd)
    rw [Function.comp_apply, Nat.or_comm, or_top hlt]
  rw [chunk, marked, List.dropLast_concat, List.getLast?_concat, Option.toList_some,
    List.map_append, List.map_map, hmarks]
  rfl

lemma length_arcBytes {arc : ℕ} (h : arc < 2 ^ 53) : (arcBytes arc).length ≤ 8 := by
  have hdigits : (Nat.digits 128 (arc / 128)).length ≤ 7 :=
    (Nat.digits_length_le_iff (by decide) _).mpr
      (Nat.div_lt_of_lt_mul (h.trans (by norm_num)))
  rw [arcBytes, List.length_append, List.length_map, List.length_reverse, List.length_singleton]
  omega

lemma length_flatMap_arcBytes {arcs : List ℕ} (h : ∀ arc ∈ arcs, arc < 2 ^ 53) :
    (arcs.flatMap arcBytes).length ≤ 8 * arcs.length := by
  induction arcs with
  | nil => exact le_rfl
  | cons arc arcs ih =>
      have harc := length_arcBytes (h arc List.mem_cons_self)
      have hrest := ih fun x hx => h x (List.mem_cons_of_mem arc hx)
      rw [List.flatMap_cons, List.length_append, List.length_cons]
      omega

lemma parseInt_decimal {n : ℕ} (h : n < 2 ^ 53) : parseInt (decimal n) = some (n : ℤ) := by
  have hparse := parseInt_of_digits (decimal_ne_nil n) (fun _ => isDigit_of_mem_decimal)
    (by rwa [digitsValue_decimal])
  rwa [digitsValue_decimal] at hparse

lemma map_parseInt {arcs : List ℕ} (h : ∀ arc ∈ arcs, arc < 2 ^ 53) :
    (arcs.map decimal).map parseInt = arcs.map fun n : ℕ => some (n : ℤ) := by
  rw [List.map_map]
  exact List.map_congr_left fun arc harc => parseInt_decimal (h arc harc)

lemma splitOn_dotted (o : ObjectIdentifier) :
    splitOn (fun c => c = 46) o.dotted = o.all.map decimal := by
  refine splitOn_join 46 (by decide) _ (by simp [ObjectIdentifier.all]) ?_
  intro p hp c hc
  obtain ⟨n, -, rfl⟩ := List.mem_map.mp hp
  exact decide_eq_false fun h => by
    rw [h] at hc
    exact absurd (isDigit_of_mem_decimal hc) (by decide)

/-- The contents of an identifier. -/
def contents (o : ObjectIdentifier) : Bytes :=
  firstByte o.first o.second :: o.arcs.flatMap arcBytes

lemma oid_dotted (o : ObjectIdentifier) : oid o.dotted = .ok (tlv TAG.OID (contents o)) := by
  have hnumbers : (splitOn (fun c => c = 46) o.dotted).map parseInt =
      o.all.map fun n : ℕ => some (n : ℤ) := by
    rw [splitOn_dotted]
    exact map_parseInt o.exact
  have hnatural : ∀ n ∈ o.all.map fun n : ℕ => some (n : ℤ), n.all (· < 0) = false := by
    intro n hn
    obtain ⟨m, -, rfl⟩ := List.mem_map.mp hn
    exact decide_eq_false (not_lt.mpr (Int.natCast_nonneg m))
  have hvalid : (decide ((o.all.map fun n : ℕ => some (n : ℤ)).length < 2) ||
      (o.all.map fun n : ℕ => some (n : ℤ)).any fun n => n.all (· < 0)) = false := by
    rw [Bool.or_eq_false_iff, List.any_eq_false]
    refine ⟨decide_eq_false ?_, fun n hn => Bool.eq_false_iff.mp (hnatural n hn)⟩
    rw [List.length_map, ObjectIdentifier.all, List.length_cons, List.length_cons]
    omega
  have harcs : (o.all.map fun n : ℕ => some (n : ℤ)).map (fun n => (n.getD 0).toNat) = o.all := by
    rw [List.map_map]
    exact List.map_id _
  rw [oid, hnumbers, if_neg (Bool.eq_false_iff.mp hvalid), harcs]
  have hrest : (o.arcs.flatMap fun arc => marked (chunk arc)).map Nat.toUInt8 =
      o.arcs.flatMap arcBytes := by
    rw [List.map_flatMap]
    exact congrArg (fun f => o.arcs.flatMap f) (funext marked_chunk)
  exact congrArg (fun bytes => Except.ok (tlv TAG.OID (firstByte o.first o.second :: bytes))) hrest

lemma readWhole_contents (o : ObjectIdentifier) :
    readWhole TAG.OID (tlv TAG.OID (contents o)) = some (contents o) := by
  have hlength := length_flatMap_arcBytes fun arc harc =>
    o.exact arc (List.mem_cons_of_mem _ (List.mem_cons_of_mem _ harc))
  have hfew := o.few
  refine readWhole_tlv (by decide) ?_
  rw [contents, List.length_cons]
  omega

/-- The first two arcs are told apart. -/
lemma firstArcs_eq {first second : ℕ} (h : first < 3) (hsecond : first < 2 → second < 40) :
    firstArcs (40 * first + second) = [first, second] := by
  rw [firstArcs]
  split_ifs with hsmall hmiddle
  · have hfirst : first = 0 := by omega
    rw [hfirst, Nat.mul_zero, Nat.zero_add]
  · have hfirst : first = 1 := by omega
    rw [hfirst, Nat.mul_one, Nat.add_sub_cancel_left]
  · have hfirst : first = 2 := by omega
    rw [hfirst, Nat.add_sub_cancel_left]

/-- The number they are written as can be told from them. -/
lemma sum_of_firstArcs {n first second : ℕ} (h : firstArcs n = [first, second]) :
    40 * first + second = n := by
  rw [firstArcs] at h
  split_ifs at h with hsmall hmiddle
  · cases h
    omega
  · cases h
    omega
  · cases h
    omega

lemma length_firstArcs (n : ℕ) : (firstArcs n).length = 2 := by
  rw [firstArcs]
  split_ifs
  · rfl
  · rfl
  · rfl

/-- A first byte without a mark is read as it is. -/
lemma readIdentifier_unmarked {b : UInt8} (h : b < 128) (arcs : List ℕ) :
    readIdentifier (b :: arcs.flatMap arcBytes) = some (firstArcs b.toNat ++ arcs) := by
  have hnat : b.toNat % 128 = b.toNat := Nat.mod_eq_of_lt (UInt8.lt_iff_toNat_lt.mp h)
  rw [readIdentifier, subidentifiers_cons, if_pos h, subidentifiers_arcs, hnat, Option.getD_none,
    Nat.mul_zero, Nat.zero_add]
  rfl

/-- One with a mark runs into the arc behind it. -/
lemma readIdentifier_marked {b : UInt8} (h : ¬ b < 128) (arcs : List ℕ) {all : List ℕ}
    (hread : readIdentifier (b :: arcs.flatMap arcBytes) = some all) :
    all.length = arcs.length + 1 := by
  rw [readIdentifier, subidentifiers_cons, if_neg h] at hread
  split_ifs at hread with hzero
  · cases hread
  · cases arcs with
    | nil => cases hread
    | cons arc arcs =>
        obtain ⟨m, hm⟩ := subidentifiers_some_arc
          (128 * (none : Option ℕ).getD 0 + b.toNat % 128) arc (arcs.flatMap arcBytes)
        rw [List.flatMap_cons, hm, subidentifiers_arcs] at hread
        have hall : firstArcs m ++ arcs = all := Option.some.inj hread
        rw [← hall, List.length_append, length_firstArcs, List.length_cons]
        omega

/-- **An identifier** is read as it was written exactly if its first two arcs fit. -/
lemma readIdentifier_contents (o : ObjectIdentifier) :
    readIdentifier (contents o) = some o.all ↔ 40 * o.first + o.second < 128 := by
  rw [contents]
  constructor
  · intro hread
    by_cases hb : firstByte o.first o.second < 128
    · rw [readIdentifier_unmarked hb] at hread
      have hall : firstArcs (firstByte o.first o.second).toNat ++ o.arcs =
          [o.first, o.second] ++ o.arcs := Option.some.inj hread
      rw [sum_of_firstArcs (List.append_cancel_right hall)]
      exact UInt8.lt_iff_toNat_lt.mp hb
    · have hlength := readIdentifier_marked hb o.arcs hread
      rw [ObjectIdentifier.all, List.length_cons, List.length_cons] at hlength
      omega
  · intro hfit
    have hbyte : firstByte o.first o.second = (40 * o.first + o.second).toUInt8 := by
      rw [firstByte, toDouble, if_pos (by omega), Option.bind_some, toDouble, if_pos (by omega),
        Option.getD_some]
    have hlt : 40 * o.first + o.second < 256 := by omega
    rw [hbyte, readIdentifier_unmarked ((toUInt8_lt_iff hlt).mpr hfit), toNat_toUInt8 hlt,
      firstArcs_eq o.first_lt o.second_lt]
    rfl

/-! ### Names -/

/-- A name or an address of the certificate as an element. -/
def nameElement (host : JsString) : UInt8 × Bytes :=
  if isIpv4 host then (0x87, (splitOn (fun c => c = 46) host).map fun part =>
    (((parseInt part).getD 0) % 256).toNat.toUInt8)
  else (0x82, ascii host)

lemma nameBytes_eq (host : JsString) :
    nameBytes host = tlv (nameElement host).1 (nameElement host).2 := by
  rw [nameBytes, nameElement]
  split_ifs
  · rfl
  · rfl

lemma tag_nameElement (host : JsString) : (nameElement host).1.toNat % 32 ≠ 31 := by
  rw [nameElement]
  split_ifs
  · exact (by decide : (0x87 : UInt8).toNat % 32 ≠ 31)
  · exact (by decide : (0x82 : UInt8).toNat % 32 ≠ 31)

lemma length_nameElement (host : JsString) :
    (nameElement host).2.length ≤ (nameBytes host).length := by
  rw [nameBytes_eq, tlv]
  split_ifs
  · rw [List.length_append]
    exact Nat.le_add_left _ _
  · rw [List.length_append]
    exact Nat.le_add_left _ _

/-- An octet is written as the byte it is, and its digits are those of that byte. -/
lemma octet_eq {p : JsString} (h : isStrictOctet p = true) :
    (((parseInt p).getD 0) % 256).toNat.toUInt8.toNat = digitsValue p ∧
      decimal (digitsValue p) = p := by
  obtain ⟨hne, hdigits⟩ := of_isStrictOctet h
  simp only [isStrictOctet, Bool.and_eq_true, Bool.or_eq_true, decide_eq_true_eq] at h
  have hbyte : digitsValue p ≤ 255 := h.2
  have hmod : ((digitsValue p : ℤ) % 256).toNat = digitsValue p := by omega
  constructor
  · rw [parseInt_of_digits hne hdigits (by omega), Option.getD_some, hmod,
      toNat_toUInt8 (by omega)]
  · exact decimal_digitsValue hne hdigits h.1.2

/-- **A name** is read as it was written. -/
lemma readName_nameElement {host : JsString} (h : isIpv4 host = true ∨ isDnsName host = true) :
    readName (nameElement host) = some (generalName host) := by
  rw [nameElement, generalName]
  split_ifs with hip
  · rw [isIpv4, Bool.and_eq_true, decide_eq_true_eq, List.all_eq_true] at hip
    have hoctets : ((splitOn (fun c => c = 46) host).map fun part =>
        (((parseInt part).getD 0) % 256).toNat.toUInt8).map UInt8.toNat = octetsOf host := by
      rw [octetsOf, List.map_map]
      exact List.map_congr_left fun p hp => (octet_eq (hip.2 p hp)).1
    rw [readName, if_neg (by decide : ¬ (0x87 : UInt8) = 0x82), if_pos rfl,
      if_pos (by rw [List.length_map, hip.1]), hoctets]
  · have hunit : ∀ c ∈ host, c.toNat < 128 := fun c hc => unit_lt (unit_of_host h c hc)
    have hascii : (ascii host).all (· < 128) = true := by
      rw [ascii, List.all_map, List.all_eq_true]
      intro c hc
      have hc := hunit c hc
      refine decide_eq_true (UInt8.lt_iff_toNat_lt.mpr ?_)
      rw [UInt16.toNat_toUInt8, Nat.mod_eq_of_lt (by omega)]
      exact hc
    have hback : (ascii host).map UInt8.toUInt16 = host := by
      rw [ascii, List.map_map]
      refine (List.map_congr_left fun c hc => ?_).trans (List.map_id _)
      have hc := hunit c hc
      rw [Function.comp_apply, ← UInt16.toNat_inj, UInt8.toNat_toUInt16, UInt16.toNat_toUInt8,
        Nat.mod_eq_of_lt (by omega)]
      rfl
    rw [readName, if_pos rfl, if_pos hascii, hback]

/-- A host can be told from its name in the certificate. -/
lemma hostOf_generalName (host : JsString) : hostOf (generalName host) = host := by
  rw [generalName]
  split_ifs with hip
  · have hoctets : (octetsOf host).map decimal = splitOn (fun c => c = 46) host := by
      rw [octetsOf, List.map_map]
      rw [isIpv4, Bool.and_eq_true, List.all_eq_true] at hip
      exact (List.map_congr_left fun p hp => (octet_eq (hip.2 p hp)).2).trans (List.map_id _)
    rw [hostOf, hoctets, join_splitOn]
  · rfl

lemma mapM_readName {hosts : List JsString}
    (h : ∀ host ∈ hosts, isIpv4 host = true ∨ isDnsName host = true) :
    (hosts.map nameElement).mapM readName = some (hosts.map generalName) := by
  induction hosts with
  | nil => rfl
  | cons host hosts ih =>
      rw [List.map_cons, List.mapM_cons, readName_nameElement (h host List.mem_cons_self),
        ih fun x hx => h x (List.mem_cons_of_mem host hx)]
      rfl

/-- **The names of the certificate** are read as they were written. -/
lemma readNames_subjectAltNames {hosts : List JsString}
    (h : ∀ host ∈ hosts, isIpv4 host = true ∨ isDnsName host = true)
    (hsize : (hosts.map nameBytes).flatten.length < 2 ^ 53) :
    readNames (subjectAltNames hosts) = some (hosts.map generalName) := by
  have hread : ∀ host ∈ hosts, ∀ rest,
      readElement (nameBytes host ++ rest) = some (nameElement host, rest) := by
    intro host hhost rest
    have hpart : (nameBytes host).length ≤ (hosts.map nameBytes).flatten.length :=
      (List.sublist_flatten_of_mem (List.mem_map_of_mem hhost)).length_le
    have hlength := length_nameElement host
    rw [nameBytes_eq]
    exact readElement_tlv (tag_nameElement host) (by omega) rest
  have helements := elements_flatMap nameBytes nameElement hosts hread
  rw [List.flatMap_def] at helements
  rw [readNames, subjectAltNames, sequence, readWhole_tlv (by decide) (by omega),
    Option.bind_some, helements, Option.bind_some, mapM_readName h]

/-! ### What is read back -/

/-- **What is written is read back** exactly where no identifier has first two arcs that do not fit
into seven bits. -/
theorem reads_back_iff (d : Datum) : ReadsBack d ↔ FirstArcsFit d := by
  cases d with
  | element tag value htag hsize =>
      have h := readElement_tlv htag (show value.length < 2 ^ 56 by omega) []
      rw [List.append_nil] at h
      exact iff_of_true h trivial
  | octetString value hsize =>
      exact iff_of_true (readWhole_tlv (by decide) (by omega)) trivial
  | bitString value unusedBits hunused hsize =>
      refine iff_of_true ?_ trivial
      rw [ReadsBack, bitString, readWhole_tlv (by decide) (by rw [List.length_cons]; omega),
        Option.bind_some, readBits_of_unused hunused]
  | integer value hexact => exact iff_of_true (readInteger_integer hexact) trivial
  | positiveInteger raw hne hsize =>
      exact iff_of_true (readInteger_positiveInteger hne hsize) trivial
  | oid o =>
      rw [ReadsBack, FirstArcsFit, ← readIdentifier_contents]
      constructor
      · rintro ⟨bytes, hbytes, hread⟩
        rw [oid_dotted] at hbytes
        cases hbytes
        rwa [readWhole_contents, Option.bind_some] at hread
      · intro hread
        refine ⟨_, oid_dotted o, ?_⟩
        rw [readWhole_contents, Option.bind_some, hread]
  | subjectAltNames hosts hnames hsize =>
      have hhosts : ∀ host ∈ hosts, isIpv4 host = true ∨ isDnsName host = true :=
        fun host hhost => (Bool.or_eq_true _ _).mp (hnames host hhost)
      refine iff_of_true ⟨readNames_subjectAltNames hhosts hsize, ?_⟩ trivial
      rw [List.map_map]
      exact (List.map_congr_left fun host _ => hostOf_generalName host).trans (List.map_id _)

/-- `2.999`: the two arcs make `1079`, whose lowest eight bits are those of `1.15`. -/
def exampleIdentifier : ObjectIdentifier where
  first := 2
  second := 999
  arcs := []
  first_lt := by decide
  second_lt := by decide
  exact := by decide
  few := by decide

/-- **Another identifier** is read than was written. -/
theorem identifier_misread : ¬ ReadsBack (.oid exampleIdentifier) ∧
    oid (js "2.999") = .ok [0x06, 0x01, 0x37] ∧
    (readWhole TAG.OID [0x06, 0x01, 0x37]).bind readIdentifier = some [1, 15] := by
  have hbytes : oid (js "2.999") = .ok [0x06, 0x01, 0x37] := by decide
  have hread : (readWhole TAG.OID [0x06, 0x01, 0x37]).bind readIdentifier = some [1, 15] := by
    decide
  have hdotted : exampleIdentifier.dotted = js "2.999" := by decide
  refine ⟨?_, hbytes, hread⟩
  rintro ⟨bytes, hwritten, hback⟩
  rw [hdotted, hbytes] at hwritten
  cases hwritten
  rw [hread] at hback
  cases hback

end LocalCast.Server.Der
