import LocalCast.Foundations.JsNumber
import LocalCast.Foundations.UriDecode
import LocalCast.Foundations.Utf8

/-!
`URL` and `URLSearchParams` of the platform, for the schemes of the web.

* `percentEncode`, `percentDecode`: escapes, byte by byte.
* `parseHost`: a name or an address in the authority; the tables of internationalised names are
  a parameter (`Platform`), of which `Platform.Lawful` says what is documented.
* `parse`, `origin`: `new URL(text)` without a base, and `url.origin`.
* `parse_site`: the text of a scheme, a host and a port, alone or with a fragment.
* `parse_origin`: an origin is parsed to itself.
* `searchParams`: `new URLSearchParams(text)`.
-/

open JsString JsNumber

/-- `URL`: the parts as its getters show them; a port that is the one of the scheme is left
out. -/
structure Url where
  protocol : JsString
  username : JsString
  password : JsString
  hostname : JsString
  port : Option ℕ
  pathname : JsString
  search : JsString
  hash : JsString
deriving DecidableEq

namespace Url

/-! ### Percent escapes -/

def upperHexDigit (v : ℕ) : CodeUnit := if v < 10 then (48 + v).toUInt16 else (55 + v).toUInt16

/-- The bytes of a text, each that is not kept as an escape. -/
def percentEncode (keep : CodeUnit → Bool) (s : JsString) : JsString :=
  (utf8 s).flatMap fun b =>
    if b < 127 ∧ keep b.toUInt16 then [b.toUInt16]
    else [37, upperHexDigit (b / 16), upperHexDigit (b % 16)]

def percentDecode : List ℕ → List ℕ
  | 37 :: a :: b :: rest =>
      match hexVal a.toUInt16, hexVal b.toUInt16 with
      | some x, some y => (16 * x + y) :: percentDecode rest
      | _, _ => 37 :: percentDecode (a :: b :: rest)
  | b :: rest => b :: percentDecode rest
  | [] => []

/-- What a fragment keeps. -/
def keepsFragment (c : CodeUnit) : Bool := 32 < c && !([34, 60, 62, 96].contains c)

/-- What the query of a web address keeps. -/
def keepsQuery (c : CodeUnit) : Bool := 32 < c && !([34, 35, 39, 60, 62].contains c)

def keepsPath (c : CodeUnit) : Bool :=
  32 < c && !([34, 35, 60, 62, 63, 94, 96, 123, 125].contains c)

def keepsUserinfo (c : CodeUnit) : Bool :=
  keepsPath c && !([47, 58, 59, 61, 64, 91, 92, 93, 124].contains c)

/-! ### Hosts -/

/-- What the platform knows of names beyond ASCII, of IPv6, and of other schemes. -/
structure Platform where
  domainToAscii : JsString → Option JsString
  /-- The address between the brackets, as it is written. -/
  ipv6 : JsString → Option JsString
  /-- A URL of another scheme. -/
  other : JsString → JsString → Option Url

/-- A label of a name that stands for another one. -/
def isPunycode (label : JsString) : Bool := (js "xn--").isPrefixOf (lower label)

/-- An ASCII name without labels that stand for others is put in lower case; and a name that is
a result is ASCII and comes back. -/
structure Platform.Lawful (lib : Platform) : Prop where
  plain : ∀ {name : JsString}, name ≠ [] → (∀ c ∈ name, c.toNat < 128) →
    (∀ label ∈ splitOn (fun c => c = 46) name, isPunycode label = false) →
    lib.domainToAscii name = some (lower name)
  ascii : ∀ {name result : JsString}, lib.domainToAscii name = some result →
    ∀ c ∈ result, c.toNat < 128
  again : ∀ {name result : JsString}, lib.domainToAscii name = some result →
    lib.domainToAscii result = some result

/-- What no name may hold. -/
def isForbidden (c : CodeUnit) : Bool :=
  c < 32 || [32, 35, 37, 47, 58, 60, 62, 63, 64, 91, 92, 93, 94, 124, 127].contains c

/-- Digits of a radix, up to sixteen. -/
def radixValue (radix : ℕ) (s : JsString) : Option ℕ :=
  s.foldlM (fun v c => (hexVal c).bind fun d => if d < radix then some (radix * v + d) else none) 0

/-- A part of an IPv4 address: hexadecimal behind `0x`, octal behind `0`. -/
def ipv4Number (s : JsString) : Option ℕ :=
  if s = [] then none
  else if (js "0x").isPrefixOf (lower s) then radixValue 16 (s.drop 2)
  else if s.length ≥ 2 ∧ s.head? = some 48 then radixValue 8 (s.drop 1)
  else radixValue 10 s

/-- The parts of a name; one dot at the end does not count. -/
def domainParts (domain : JsString) : List JsString :=
  let parts := splitOn (fun c => c = 46) domain
  if parts.getLast? = some [] ∧ parts.length > 1 then parts.dropLast else parts

def endsInNumber (domain : JsString) : Bool :=
  (domainParts domain).getLast?.any fun last =>
    (last ≠ [] && last.all isDigit) || (ipv4Number last).isSome

/-- The last number fills the places that are left. -/
def ipv4Value : ℕ → List ℕ → Option ℕ
  | 0, _ | _, [] => none
  | places + 1, [last] => if last < 256 ^ (places + 1) then some last else none
  | places + 1, n :: m :: rest =>
      if n > 255 then none
      else (ipv4Value places (m :: rest)).map fun v => n * 256 ^ places + v

def parseIpv4 (domain : JsString) : Option ℕ :=
  ((domainParts domain).mapM ipv4Number).bind (ipv4Value 4)

def ipv4Text (n : ℕ) : JsString :=
  join [46] ([n / 256 ^ 3, n / 256 ^ 2 % 256, n / 256 % 256, n % 256].map decimal)

/-- The host of a web address, as it is written. -/
def parseHost (lib : Platform) (text : JsString) : Option JsString :=
  if text.head? = some 91 then
    if text.getLast? = some 93 then
      (lib.ipv6 text.tail.dropLast).map fun address => 91 :: (address ++ [93])
    else none
  else
    (lib.domainToAscii (ofUtf8 (percentDecode (utf8 text)))).bind fun domain =>
      if domain = [] ∨ domain.any isForbidden then none
      else if endsInNumber domain then (parseIpv4 domain).map ipv4Text
      else some domain

/-! ### Parsing -/

def isAlpha (c : CodeUnit) : Bool := (65 ≤ c && c ≤ 90) || (97 ≤ c && c ≤ 122)

def isSchemeUnit (c : CodeUnit) : Bool := isAlpha c || isDigit c || [43, 45, 46].contains c

/-- The scheme of a text, and what follows its colon. -/
def splitScheme (text : JsString) : Option (JsString × JsString) :=
  let scheme := text.takeWhile isSchemeUnit
  match text.dropWhile isSchemeUnit with
  | 58 :: rest => if scheme.head?.any isAlpha then some (lower scheme, rest) else none
  | _ => none

def isSlash (c : CodeUnit) : Bool := c = 47 || c = 92

def endsAuthority (c : CodeUnit) : Bool := isSlash c || c = 63 || c = 35

/-- What stands before the last `@`, and what follows it. -/
def cutUserinfo (authority : JsString) : JsString × JsString :=
  let back := authority.reverse
  ((back.dropWhile (· ≠ 64)).tail.reverse, (back.takeWhile (· ≠ 64)).reverse)

/-- The host, and what follows the first colon outside brackets. -/
def cutPort : Bool → JsString → JsString × Option JsString
  | _, [] => ([], none)
  | inBrackets, c :: rest =>
      if c = 58 ∧ !inBrackets then ([], some rest)
      else
        let cut := cutPort (if c = 91 then true else if c = 93 then false else inBrackets) rest
        (c :: cut.1, cut.2)

def defaultPort (scheme : JsString) : ℕ := if scheme = js "http" then 80 else 443

def parsePort (scheme : JsString) : Option JsString → Option (Option ℕ)
  | none => some none
  | some text =>
      if text = [] then some none
      else if !text.all isDigit ∨ digitsValue text > 65535 then none
      else some (if digitsValue text = defaultPort scheme then none else some (digitsValue text))

def isSingleDot (s : JsString) : Bool := [js ".", js "%2e"].contains (lower s)

def isDoubleDot (s : JsString) : Bool :=
  [js "..", js ".%2e", js "%2e.", js "%2e%2e"].contains (lower s)

/-- The segments of a path, those for the directory and the one above it resolved. -/
def resolveSegments : List JsString → List JsString → List JsString
  | path, [] => path
  | path, s :: rest =>
      let closed := if rest = [] then [[]] else []
      if isDoubleDot s then resolveSegments (path.dropLast ++ closed) rest
      else if isSingleDot s then resolveSegments (path ++ closed) rest
      else resolveSegments (path ++ [percentEncode keepsPath s]) rest

def parsePath (text : JsString) : JsString :=
  (resolveSegments [] (splitOn isSlash (text.drop 1))).flatMap fun s => 47 :: s

/-- A part that is empty is not shown. -/
def shown (mark : CodeUnit) (s : JsString) : JsString := if s = [] then [] else mark :: s

/-- What follows the authority. -/
def parseTail (protocol username password hostname : JsString) (port : Option ℕ)
    (text : JsString) : Url :=
  let path := text.takeWhile fun c => c ≠ 63 && c ≠ 35
  let rest := text.dropWhile fun c => c ≠ 63 && c ≠ 35
  let query := if rest.head? = some 63 then (rest.drop 1).takeWhile (· ≠ 35) else []
  let fragment := (rest.dropWhile (· ≠ 35)).drop 1
  { protocol := protocol
    username := username
    password := password
    hostname := hostname
    port := port
    pathname := parsePath path
    search := shown 63 (percentEncode keepsQuery query)
    hash := shown 35 (percentEncode keepsFragment fragment) }

/-- A web address behind its scheme. -/
def parseWeb (lib : Platform) (scheme text : JsString) : Option Url :=
  let text := text.dropWhile isSlash
  let authority := text.takeWhile fun c => !endsAuthority c
  let (userinfo, site) := cutUserinfo authority
  let (host, portText) := cutPort false site
  if host = [] then none
  else
    (parseHost lib host).bind fun hostname =>
      (parsePort scheme portText).map fun port =>
        parseTail (scheme ++ [58])
          (percentEncode keepsUserinfo (userinfo.takeWhile (· ≠ 58)))
          (percentEncode keepsUserinfo ((userinfo.dropWhile (· ≠ 58)).drop 1))
          hostname port (text.dropWhile fun c => !endsAuthority c)

/-- `new URL(text)`; `none` where it throws. -/
def parse (lib : Platform) (text : JsString) : Option Url :=
  let text := (trimBy (fun c => c ≤ 32) text).filter fun c => !([9, 10, 13].contains c)
  (splitScheme text).bind fun (scheme, rest) =>
    if scheme = js "http" ∨ scheme = js "https" then parseWeb lib scheme rest
    else (lib.other scheme rest).map fun url => { url with protocol := scheme ++ [58] }

def portText (port : Option ℕ) : JsString := (port.map fun p => 58 :: decimal p).getD []

/-- `url.origin` of a web address. -/
def origin (url : Url) : JsString :=
  url.protocol ++ js "//" ++ url.hostname ++ portText url.port

/-! ### Parameters -/

/-- A name or a value of a form. -/
def formDecode (s : JsString) : JsString :=
  ofUtf8 (percentDecode (utf8 (s.map fun c => if c = 43 then 32 else c)))

/-- `new URLSearchParams(text)`. -/
def searchParams (text : JsString) : List (JsString × JsString) :=
  let text := if text.head? = some 63 then text.tail else text
  (segments (fun c => c = 38) text).map fun piece =>
    (formDecode (piece.takeWhile (· ≠ 61)), formDecode ((piece.dropWhile (· ≠ 61)).drop 1))

/-- `params.get(name)`. -/
def getParam (params : List (JsString × JsString)) (name : JsString) : Option JsString :=
  (params.find? fun p => p.1 = name).map Prod.snd

/-! ### Texts without escapes -/

lemma percentDecode_of_notMem {bytes : List ℕ} (h : 37 ∉ bytes) : percentDecode bytes = bytes := by
  induction bytes with
  | nil => rfl
  | cons b rest ih =>
      rw [List.mem_cons, not_or] at h
      rw [percentDecode.eq_2 b rest (fun _ _ _ hb _ => h.1 hb.symm), ih h.2]

/-- An ASCII text without escapes stands for itself. -/
lemma decode_ascii {s : JsString} (h : ∀ c ∈ s, c.toNat < 128) (hno : (37 : CodeUnit) ∉ s) :
    ofUtf8 (percentDecode (utf8 s)) = s := by
  have hbytes : 37 ∉ utf8 s := by
    rw [utf8_ascii h, List.mem_map]
    rintro ⟨c, hc, h37⟩
    have hunit : c = 37 := UInt16.toNat_inj.mp h37
    exact hno (hunit ▸ hc)
  rw [percentDecode_of_notMem hbytes, ofUtf8_utf8 (wellFormed_ascii h)]

lemma percentEncode_of_kept {keep : CodeUnit → Bool} {s : JsString}
    (h : ∀ c ∈ s, c.toNat < 127 ∧ keep c = true) : percentEncode keep s = s := by
  rw [percentEncode, utf8_ascii fun c hc => (h c hc).1.trans (by decide), List.flatMap_map]
  induction s with
  | nil => rfl
  | cons c s ih =>
      obtain ⟨hlt, hkeep⟩ := h c List.mem_cons_self
      rw [List.flatMap_cons, ih fun d hd => h d (List.mem_cons_of_mem _ hd), if_pos]
      · simp [Nat.toUInt16, UInt16.ofNat_toNat]
      · simpa [Nat.toUInt16, UInt16.ofNat_toNat] using ⟨hlt, hkeep⟩

/-! ### Addresses -/

lemma hexVal_of_isDigit {c : CodeUnit} (h : isDigit c = true) : hexVal c = some (c.toNat - 48) := by
  simp only [isDigit, Bool.and_eq_true, decide_eq_true_eq] at h
  rw [hexVal, if_pos h]

lemma radixValue_digits {s : JsString} (hs : s.all isDigit = true) :
    radixValue 10 s = some (digitsValue s) := by
  have hfold (s : JsString) (hs : s.all isDigit = true) (v : ℕ) :
      s.foldlM (fun v c => (hexVal c).bind fun d =>
        if d < 10 then some (10 * v + d) else none) v =
        some (s.foldl (fun v c => 10 * v + (c.toNat - 48)) v) := by
    induction s generalizing v with
    | nil => rfl
    | cons c s ih =>
        rw [List.all_cons, Bool.and_eq_true] at hs
        have hlt : c.toNat - 48 < 10 := by
          have hc := hs.1
          simp only [isDigit, Bool.and_eq_true, decide_eq_true_eq, UInt16.le_iff_toNat_le,
            UInt16.reduceToNat] at hc
          omega
        rw [List.foldlM_cons, hexVal_of_isDigit hs.1]
        simp only [Option.bind_some, if_pos hlt, List.foldl_cons]
        exact ih hs.2 _
  exact hfold s hs 0

/-- A number that is not zero is written without a zero in front. -/
lemma head_decimal {n : ℕ} (h : 0 < n) : (decimal n).head? ≠ some 48 := by
  have haux (fuel : ℕ) : ∀ {n : ℕ}, 0 < n → n < fuel → ∀ acc : JsString,
      (decimalAux fuel n acc).head? ≠ some 48 := by
    induction fuel with
    | zero => exact fun _ hlt => absurd hlt (Nat.not_lt_zero _)
    | succ fuel ih =>
        intro n hpos hlt acc
        rw [decimalAux]
        split_ifs with h10
        · rw [List.head?_cons, ne_eq, Option.some.injEq]
          intro hzero
          have hvalue := congrArg UInt16.toNat hzero
          simp only [digit_toNat, UInt16.reduceToNat] at hvalue
          omega
        · exact ih (by omega) (by omega) _
  exact haux (n + 1) h (Nat.lt_succ_self n) []

/-- The units of addresses. -/
lemma isDigit_or_dot {c : CodeUnit} (h : isDigit c = true ∨ c = 46) :
    c.toNat < 128 ∧ isForbidden c = false ∧ lowerUnit c = c := by
  rcases h with h | rfl
  · have hall : ∀ d : ℕ, d < 10 → (digit d).toNat < 128 ∧ isForbidden (digit d) = false ∧
        lowerUnit (digit d) = digit d := by decide
    have hunit : digit (c.toNat - 48) = c ∧ c.toNat - 48 < 10 := by
      simp only [isDigit, Bool.and_eq_true, decide_eq_true_eq, UInt16.le_iff_toNat_le,
        UInt16.reduceToNat] at h
      refine ⟨UInt16.toNat_inj.mp ?_, by omega⟩
      rw [digit_toNat]
      omega
    rw [← hunit.1]
    exact hall _ hunit.2
  · decide

/-- Digits without a zero in front are a decimal number. -/
lemma ipv4Number_digits {s : JsString} (hne : s ≠ []) (hs : s.all isDigit = true)
    (hzero : s.length = 1 ∨ s.head? ≠ some 48) : ipv4Number s = some (digitsValue s) := by
  have hhex : (js "0x").isPrefixOf (lower s) = false := by
    rw [Bool.eq_false_iff, ne_eq, List.isPrefixOf_iff_prefix]
    rintro ⟨rest, hrest⟩
    have hx : (120 : CodeUnit) ∈ lower s := by
      rw [← hrest]
      exact List.mem_append_left _ (by decide)
    obtain ⟨c, hc, hlower⟩ := List.mem_map.mp hx
    have hdigit := List.all_eq_true.mp hs c hc
    rw [(isDigit_or_dot (.inl hdigit)).2.2] at hlower
    rw [hlower] at hdigit
    exact absurd hdigit (by decide)
  rw [ipv4Number, if_neg hne, hhex, if_neg Bool.false_ne_true, if_neg]
  · exact radixValue_digits hs
  · rintro ⟨hlength, hhead⟩
    rcases hzero with hone | hhead'
    · omega
    · exact hhead' hhead

lemma ipv4Number_decimal (n : ℕ) : ipv4Number (decimal n) = some n := by
  have hzero : (decimal n).length = 1 ∨ (decimal n).head? ≠ some 48 := by
    rcases Nat.eq_zero_or_pos n with rfl | hpos
    · exact .inl rfl
    · exact .inr (head_decimal hpos)
  rw [ipv4Number_digits (decimal_ne_nil n) (decimal_spec n).2.1 hzero, digitsValue_decimal]

lemma ipv4Value_lt {places v : ℕ} {numbers : List ℕ} (h : ipv4Value places numbers = some v) :
    v < 256 ^ places := by
  induction places, numbers using ipv4Value.induct generalizing v with
  | case1 => cases h
  | case2 places hne => simp [ipv4Value] at h
  | case3 places last hlt =>
      rw [ipv4Value, if_pos hlt] at h
      cases h
      exact hlt
  | case4 places last hge =>
      rw [ipv4Value, if_neg hge] at h
      cases h
  | case5 places n m rest hgt =>
      rw [ipv4Value, if_pos hgt] at h
      cases h
  | case6 places n m rest hle ih =>
      rw [ipv4Value, if_neg hle, Option.map_eq_some_iff] at h
      obtain ⟨w, hw, rfl⟩ := h
      have hlt := ih hw
      have hmul : n * 256 ^ places ≤ 255 * 256 ^ places := Nat.mul_le_mul_right _ (by omega)
      rw [pow_succ]
      omega

/-- The parts of an address as it is written. -/
lemma domainParts_ipv4Text (n : ℕ) : domainParts (ipv4Text n) =
    [n / 256 ^ 3, n / 256 ^ 2 % 256, n / 256 % 256, n % 256].map decimal := by
  have hnoDot (k : ℕ) : ∀ c ∈ decimal k, decide (c = 46) = false := by
    intro c hc
    have hmem := notMem_of_isDigit (isDigit_of_mem_decimal hc) (l := [46]) rfl
    simpa using hmem
  have hsplit : splitOn (fun c => decide (c = 46)) (ipv4Text n) =
      [n / 256 ^ 3, n / 256 ^ 2 % 256, n / 256 % 256, n % 256].map decimal := by
    simp only [ipv4Text, join, List.map_cons, List.map_nil, List.intercalate, List.intersperse,
      List.flatten_cons, List.flatten_nil, List.append_nil, List.singleton_append]
    rw [splitOn_append_sep _ (hnoDot _) _ (by decide), splitOn_append_sep _ (hnoDot _) _ (by decide),
      splitOn_append_sep _ (hnoDot _) _ (by decide), splitOn_of_no_sep _ (hnoDot _)]
  rw [domainParts, hsplit, if_neg]
  simp [decimal_ne_nil]

/-- **An address is read back.** -/
theorem parseIpv4_ipv4Text {n : ℕ} (h : n < 256 ^ 4) : parseIpv4 (ipv4Text n) = some n := by
  rw [parseIpv4, domainParts_ipv4Text]
  simp only [List.map_cons, List.map_nil, List.mapM_cons, List.mapM_nil, ipv4Number_decimal]
  have h1 : n / 256 ^ 2 % 256 ≤ 255 := by omega
  have h2 : n / 256 % 256 ≤ 255 := by omega
  have h3 : n / 256 ^ 3 ≤ 255 := by omega
  have h4 : n % 256 < 256 ^ (0 + 1) := by omega
  simp only [Option.pure_def, Option.bind_eq_bind, Option.bind_some, ipv4Value,
    if_neg (Nat.not_lt.mpr h1), if_neg (Nat.not_lt.mpr h2), if_neg (Nat.not_lt.mpr h3), if_pos h4,
    Option.map_some, Option.some.injEq]
  omega

/-! ### Hosts that are accepted -/

/-- What the host of a name or an address is made of. -/
structure Clean (host : JsString) : Prop where
  nonempty : host ≠ []
  ascii : ∀ c ∈ host, c.toNat < 128
  allowed : ∀ c ∈ host, isForbidden c = false

/-- None of the units that no name may hold. -/
lemma Clean.notMem {host : JsString} (h : Clean host) {c : CodeUnit} (hc : isForbidden c = true) :
    c ∉ host := by
  intro hmem
  rw [h.allowed c hmem] at hc
  cases hc

lemma Clean.printable {host : JsString} (h : Clean host) : ∀ c ∈ host, 32 < c := by
  intro c hc
  have hallowed := h.allowed c hc
  rw [isForbidden, Bool.or_eq_false_iff, decide_eq_false_iff_not, List.contains_eq_mem,
    decide_eq_false_iff_not] at hallowed
  have hspace : c ≠ 32 := by
    rintro rfl
    exact hallowed.2 (by decide)
  have hge := hallowed.1
  have hne : c.toNat ≠ 32 := fun heq => hspace (UInt16.toNat_inj.mp heq)
  simp only [UInt16.lt_iff_toNat_lt, UInt16.reduceToNat] at hge ⊢
  omega

variable {lib : Platform}

lemma parseHost_of_clean {host : JsString} (h : Clean host) : parseHost lib host =
    (lib.domainToAscii host).bind fun domain =>
      if domain = [] ∨ domain.any isForbidden then none
      else if endsInNumber domain then (parseIpv4 domain).map ipv4Text
      else some domain := by
  have hbracket : host.head? ≠ some 91 := by
    intro hhead
    exact h.notMem (c := 91) (by decide) (List.mem_of_head? hhead)
  rw [parseHost, if_neg hbracket, decode_ascii h.ascii (h.notMem (by decide))]

lemma mem_ipv4Text {n : ℕ} {c : CodeUnit} (h : c ∈ ipv4Text n) : isDigit c = true ∨ c = 46 := by
  simp only [ipv4Text, join, List.map_cons, List.map_nil, List.intercalate, List.intersperse,
    List.flatten_cons, List.flatten_nil, List.append_nil, List.mem_append,
    List.mem_singleton] at h
  rcases h with h | h | h | h | h | h | h
  · exact .inl (isDigit_of_mem_decimal h)
  · exact .inr h
  · exact .inl (isDigit_of_mem_decimal h)
  · exact .inr h
  · exact .inl (isDigit_of_mem_decimal h)
  · exact .inr h
  · exact .inl (isDigit_of_mem_decimal h)

lemma clean_ipv4Text (n : ℕ) : Clean (ipv4Text n) where
  nonempty hnil := by
    have hparts := congrArg List.length (domainParts_ipv4Text n)
    rw [hnil] at hparts
    simp [domainParts, splitOn] at hparts
  ascii c hc := (isDigit_or_dot (mem_ipv4Text hc)).1
  allowed c hc := (isDigit_or_dot (mem_ipv4Text hc)).2.1

lemma lower_ipv4Text (n : ℕ) : lower (ipv4Text n) = ipv4Text n := by
  refine (List.map_congr_left fun c hc => ?_).trans (List.map_id _)
  exact (isDigit_or_dot (mem_ipv4Text hc)).2.2

/-- A label that stands for another begins with a letter. -/
lemma isPunycode_of_head {label : JsString} (h : ∀ c ∈ label, lowerUnit c ≠ 120) :
    isPunycode label = false := by
  rw [isPunycode, Bool.eq_false_iff, ne_eq, List.isPrefixOf_iff_prefix]
  rintro ⟨rest, hrest⟩
  have hx : (120 : CodeUnit) ∈ lower label := by
    rw [← hrest]
    exact List.mem_append_left _ (by decide)
  obtain ⟨c, hc, hlower⟩ := List.mem_map.mp hx
  exact h c hc hlower

lemma endsInNumber_ipv4Text (n : ℕ) : endsInNumber (ipv4Text n) = true := by
  rw [endsInNumber, domainParts_ipv4Text]
  simp [ipv4Number_decimal]

/-- An address as it is written is accepted, and stays the same. -/
lemma parseHost_ipv4Text (hlaw : lib.Lawful) {n : ℕ} (h : n < 256 ^ 4) :
    parseHost lib (ipv4Text n) = some (ipv4Text n) := by
  have hclean := clean_ipv4Text n
  have hplain : lib.domainToAscii (ipv4Text n) = some (ipv4Text n) := by
    rw [hlaw.plain hclean.nonempty hclean.ascii, lower_ipv4Text]
    intro label hlabel
    refine isPunycode_of_head fun c hc => ?_
    have hunit := isDigit_or_dot (mem_ipv4Text (of_mem_splitOn hlabel c hc).2)
    rw [hunit.2.2]
    rintro rfl
    exact absurd (mem_ipv4Text (of_mem_splitOn hlabel _ hc).2) (by decide)
  rw [parseHost_of_clean hclean, hplain, Option.bind_some, if_neg, endsInNumber_ipv4Text,
    if_pos rfl, parseIpv4_ipv4Text h, Option.map_some]
  rw [not_or, Bool.not_eq_true, List.any_eq_false]
  exact ⟨hclean.nonempty, fun c hc => by rw [hclean.allowed c hc]; decide⟩

/-- **What is accepted stays the same**: the host of a result is made of what hosts are made of,
and parsed to itself. -/
theorem parseHost_again (hlaw : lib.Lawful) {text host : JsString} (htext : Clean text)
    (h : parseHost lib text = some host) : Clean host ∧ parseHost lib host = some host := by
  rw [parseHost_of_clean htext, Option.bind_eq_some_iff] at h
  obtain ⟨domain, hdomain, h⟩ := h
  split_ifs at h with hbad hnumber
  · rw [Option.map_eq_some_iff] at h
    obtain ⟨n, hn, rfl⟩ := h
    rw [parseIpv4, Option.bind_eq_some_iff] at hn
    obtain ⟨numbers, -, hvalue⟩ := hn
    exact ⟨clean_ipv4Text n, parseHost_ipv4Text hlaw (ipv4Value_lt hvalue)⟩
  · cases h
    rw [not_or, Bool.not_eq_true, List.any_eq_false] at hbad
    have hclean : Clean host :=
      { nonempty := hbad.1
        ascii := hlaw.ascii hdomain
        allowed := fun c hc => by simpa using hbad.2 c hc }
    refine ⟨hclean, ?_⟩
    rw [parseHost_of_clean hclean, hlaw.again hdomain, Option.bind_some, if_neg, if_neg hnumber]
    rw [not_or, Bool.not_eq_true, List.any_eq_false]
    exact hbad

/-! ### The text of an address -/

/-- The schemes of the web. -/
def IsWeb (scheme : JsString) : Prop := scheme = js "http" ∨ scheme = js "https"

/-- A path with what follows it, or nothing; without white space. -/
structure IsTail (tail : JsString) : Prop where
  begins : ∀ c, tail.head? = some c → c = 47
  printable : ∀ c ∈ tail, 32 < c

/-- A scheme, a host and a port, and what follows them. -/
def siteText (scheme host : JsString) (port : Option ℕ) (tail : JsString) : JsString :=
  scheme ++ js "://" ++ host ++ portText port ++ tail

lemma splitScheme_web {scheme : JsString} (h : IsWeb scheme) (rest : JsString) :
    splitScheme (scheme ++ 58 :: rest) = some (scheme, rest) := by
  rcases h with rfl | rfl <;>
    simp [splitScheme, js, encodeChar, isSchemeUnit, isAlpha, isDigit, lower, lowerUnit]

/-- What satisfies a condition up to a unit that does not. -/
lemma span_append {p : CodeUnit → Bool} {s tail : JsString} (hs : ∀ c ∈ s, p c = true)
    (htail : ∀ c, tail.head? = some c → p c = false) :
    (s ++ tail).takeWhile p = s ∧ (s ++ tail).dropWhile p = tail := by
  rw [List.takeWhile_append_of_pos hs, List.dropWhile_append_of_pos hs]
  cases tail with
  | nil => simp
  | cons c tail => simp [htail c rfl]

lemma mem_portText {port : Option ℕ} {c : CodeUnit} (h : c ∈ portText port) :
    isDigit c = true ∨ c = 58 := by
  cases port with
  | none => cases h
  | some p =>
      rcases List.mem_cons.mp h with rfl | h
      · exact .inr rfl
      · exact .inl (isDigit_of_mem_decimal h)

lemma portText_plain {port : Option ℕ} {c : CodeUnit} (h : c ∈ portText port) :
    32 < c ∧ c ≠ 64 ∧ endsAuthority c = false := by
  rcases mem_portText h with h | rfl
  · have hno := notMem_of_isDigit h (l := [64, 47, 92, 63, 35]) rfl
    simp only [List.mem_cons, List.not_mem_nil, not_or, or_false] at hno
    obtain ⟨h1, h2, h3, h4, h5⟩ := hno
    refine ⟨?_, h1, by simp [endsAuthority, isSlash, h2, h3, h4, h5]⟩
    simp only [isDigit, Bool.and_eq_true, decide_eq_true_eq, UInt16.le_iff_toNat_le,
      UInt16.lt_iff_toNat_lt, UInt16.reduceToNat] at h ⊢
    omega
  · decide

lemma cutPort_append {host : JsString} (h58 : (58 : CodeUnit) ∉ host) (h91 : (91 : CodeUnit) ∉ host)
    (port : Option ℕ) : cutPort false (host ++ portText port) = (host, port.map decimal) := by
  induction host with
  | nil =>
      cases port with
      | none => rfl
      | some p => simp [cutPort, portText]
  | cons c host ih =>
      rw [List.mem_cons, not_or] at h58 h91
      rw [List.cons_append, cutPort, if_neg fun hc => h58.1 hc.1.symm, if_neg (Ne.symm h91.1)]
      simp [ih h58.2 h91.2]

lemma cutUserinfo_of_notMem {authority : JsString} (h : (64 : CodeUnit) ∉ authority) :
    cutUserinfo authority = ([], authority) := by
  have hall : ∀ c ∈ authority.reverse, decide (c ≠ 64) = true := by
    intro c hc
    rw [decide_eq_true_eq]
    rintro rfl
    exact h (List.mem_reverse.mp hc)
  have hend : ∀ c, ([] : JsString).head? = some c → decide (c ≠ 64) = false := by simp
  have hspan := span_append hall hend
  rw [List.append_nil] at hspan
  rw [cutUserinfo, hspan.1, hspan.2]
  simp

lemma parsePort_decimal {scheme : JsString} {port : Option ℕ} (h : ∀ p ∈ port, p ≤ 65535) :
    parsePort scheme (port.map decimal) =
      some (port.filter fun p => p ≠ defaultPort scheme) := by
  cases port with
  | none => rfl
  | some p =>
      have hp := h p rfl
      rw [Option.map_some, parsePort]
      simp only [decimal_ne_nil, if_false, (decimal_spec p).2.1, digitsValue_decimal, Bool.not_true,
        Bool.false_eq_true, false_or, if_neg (Nat.not_lt.mpr hp), Option.filter_some]
      split_ifs with hdefault <;> simp_all

/-- **The text of an address is parsed**, as far as its host is accepted. -/
theorem parse_site {scheme host tail : JsString} {port : Option ℕ} (hscheme : IsWeb scheme)
    (hhost : Clean host) (hport : ∀ p ∈ port, p ≤ 65535) (htail : IsTail tail) :
    parse lib (siteText scheme host port tail) = (parseHost lib host).map fun hostname =>
      parseTail (scheme ++ [58]) [] [] hostname
        (port.filter fun p => p ≠ defaultPort scheme) tail := by
  have hsite : siteText scheme host port tail =
      scheme ++ 58 :: 47 :: 47 :: (host ++ portText port ++ tail) := by
    simp [siteText, js, encodeChar]
  have hprintable : ∀ c ∈ siteText scheme host port tail, 32 < c := by
    intro c hc
    simp only [siteText, List.mem_append] at hc
    rcases hc with (((hc | hc) | hc) | hc) | hc
    · rcases hscheme with rfl | rfl
      · exact forall_of_all (p := fun c => 32 < c) (by decide) c hc
      · exact forall_of_all (p := fun c => 32 < c) (by decide) c hc
    · exact forall_of_all (p := fun c => 32 < c) (by decide) c hc
    · exact hhost.printable c hc
    · exact (portText_plain hc).1
    · exact htail.printable c hc
  have htrim : trimBy (fun c => decide (c ≤ 32)) (siteText scheme host port tail) =
      siteText scheme host port tail :=
    trimBy_of_no_blank fun c hc => by simpa using hprintable c hc
  have hfilter : (siteText scheme host port tail).filter (fun c => !([9, 10, 13].contains c)) =
      siteText scheme host port tail := by
    rw [List.filter_eq_self]
    intro c hc
    rw [Bool.not_eq_true', List.contains_eq_mem, decide_eq_false_iff_not]
    intro hmem
    have hle : c ≤ 32 := forall_of_all (p := fun c => c ≤ 32) (by decide) c hmem
    exact absurd (hprintable c hc) (UInt16.not_lt.mpr hle)
  have hauthority : ∀ c ∈ host ++ portText port, (!endsAuthority c) = true := by
    intro c hc
    rw [Bool.not_eq_true']
    rcases List.mem_append.mp hc with hc | hc
    · have hno (d : CodeUnit) (hd : isForbidden d = true) : c ≠ d :=
        fun heq => hhost.notMem hd (heq ▸ hc)
      simp [endsAuthority, isSlash, hno 47 (by decide), hno 92 (by decide), hno 63 (by decide),
        hno 35 (by decide)]
    · exact (portText_plain hc).2.2
  have hends : ∀ c, tail.head? = some c → (!endsAuthority c) = false := by
    intro c hc
    rw [htail.begins c hc]
    rfl
  have hspan := span_append hauthority hends
  have hslashes : (47 :: 47 :: (host ++ portText port ++ tail)).dropWhile isSlash =
      host ++ portText port ++ tail := by
    cases hh : host with
    | nil => exact absurd hh hhost.nonempty
    | cons c rest =>
        have hslash : isSlash c = false := by
          have hc := hauthority c (List.mem_append_left _ (by simp [hh]))
          rw [Bool.not_eq_true', endsAuthority, Bool.or_assoc, Bool.or_eq_false_iff] at hc
          exact hc.1
        rw [List.dropWhile_cons_of_pos rfl, List.dropWhile_cons_of_pos rfl]
        exact List.dropWhile_cons_of_neg (by simp [hslash])
  have hweb : scheme = js "http" ∨ scheme = js "https" := hscheme
  have huser : (64 : CodeUnit) ∉ host ++ portText port := by
    rw [List.mem_append, not_or]
    exact ⟨hhost.notMem (by decide), fun hc => (portText_plain hc).2.1 rfl⟩
  rw [parse, htrim, hfilter, hsite, splitScheme_web hscheme, Option.bind_some]
  dsimp only
  rw [if_pos hweb, parseWeb, hslashes, hspan.1, hspan.2, cutUserinfo_of_notMem huser]
  dsimp only
  rw [cutPort_append (hhost.notMem (by decide)) (hhost.notMem (by decide))]
  dsimp only
  rw [if_neg hhost.nonempty, parsePort_decimal hport]
  cases parseHost lib host <;> rfl

/-! ### Origins -/

lemma isTail_nil : IsTail [] := ⟨by simp, by simp⟩

lemma percentEncode_nil (keep : CodeUnit → Bool) : percentEncode keep [] = [] := rfl

lemma parsePath_root : parsePath [47] = [47] := by decide

lemma parseTail_nil (protocol hostname : JsString) (port : Option ℕ) :
    parseTail protocol [] [] hostname port [] =
      ⟨protocol, [], [], hostname, port, [47], [], []⟩ := rfl

/-- A page with a fragment. -/
lemma parseTail_fragment {protocol hostname fragment : JsString} {port : Option ℕ}
    (h : ∀ c ∈ fragment, c.toNat < 127 ∧ keepsFragment c = true) :
    parseTail protocol [] [] hostname port (47 :: 35 :: fragment) =
      ⟨protocol, [], [], hostname, port, [47], [], shown 35 fragment⟩ := by
  simp [parseTail, percentEncode_of_kept h, percentEncode_nil, parsePath_root, shown]

/-- The address of a host that was accepted. -/
def site (scheme hostname : JsString) (port : Option ℕ) : Url :=
  ⟨scheme ++ [58], [], [], hostname, port.filter fun p => p ≠ defaultPort scheme, [47], [], []⟩

lemma origin_site (scheme hostname : JsString) (port : Option ℕ) : origin (site scheme hostname port) =
    siteText scheme hostname (port.filter fun p => p ≠ defaultPort scheme) [] := by
  simp [origin, site, siteText, js, encodeChar]

/-- **An origin is parsed to itself.** -/
theorem parse_origin (hlaw : lib.Lawful) {scheme text host : JsString} {port : Option ℕ}
    (hscheme : IsWeb scheme) (htext : Clean text) (hport : ∀ p ∈ port, p ≤ 65535)
    (h : parseHost lib text = some host) :
    parse lib (origin (site scheme host port)) = some (site scheme host port) := by
  obtain ⟨hhost, hagain⟩ := parseHost_again hlaw htext h
  have hkept : ∀ p ∈ port.filter fun p => p ≠ defaultPort scheme, p ≤ 65535 := by
    intro p hp
    exact hport p (Option.mem_filter_iff.mp hp).1
  rw [origin_site, parse_site hscheme hhost hkept isTail_nil, hagain, Option.map_some,
    parseTail_nil, Option.filter_filter]
  simp [site]

/-! ### Parameters -/

/-- A text that a form writes as it is. -/
def IsPlain (s : JsString) : Prop :=
  ∀ c ∈ s, c.toNat < 128 ∧ [(37 : CodeUnit), 38, 43, 61, 63].contains c = false

lemma formDecode_plain {s : JsString} (h : IsPlain s) : formDecode s = s := by
  have hno (d : CodeUnit) (hd : [(37 : CodeUnit), 38, 43, 61, 63].contains d = true) : d ∉ s := by
    intro hmem
    rw [(h d hmem).2] at hd
    cases hd
  have hmap : (s.map fun c => if c = 43 then 32 else c) = s := by
    refine (List.map_congr_left fun c hc => ?_).trans (List.map_id _)
    have h43 : c ≠ 43 := by
      rintro rfl
      exact hno 43 (by decide) hc
    exact if_neg h43
  rw [formDecode, hmap, decode_ascii (fun c hc => (h c hc).1) (hno 37 (by decide))]

/-- One name with its value. -/
lemma searchParams_pair {name value : JsString} (hname : IsPlain name) (hne : name ≠ [])
    (hvalue : IsPlain value) : searchParams (name ++ 61 :: value) = [(name, value)] := by
  have hno {s : JsString} (h : IsPlain s) {c : CodeUnit} (hc : c ∈ s) :
      c ≠ 38 ∧ c ≠ 61 ∧ c ≠ 63 := by
    have hplain := (h c hc).2
    rw [List.contains_eq_mem, decide_eq_false_iff_not] at hplain
    simp only [List.mem_cons, List.not_mem_nil, not_or, or_false] at hplain
    exact ⟨hplain.2.1, hplain.2.2.2.1, hplain.2.2.2.2⟩
  have hhead : (name ++ 61 :: value).head? ≠ some 63 := by
    cases hs : name with
    | nil => exact absurd hs hne
    | cons c rest =>
        rw [List.cons_append, List.head?_cons, ne_eq, Option.some.injEq]
        exact (hno hname (c := c) (by simp [hs])).2.2
  have hsplit : segments (fun c => decide (c = 38)) (name ++ 61 :: value) =
      [name ++ 61 :: value] := by
    have hamp : ∀ c ∈ name ++ 61 :: value, decide (c = 38) = false := by
      intro c hc
      rw [decide_eq_false_iff_not]
      rcases List.mem_append.mp hc with hc | hc
      · exact (hno hname hc).1
      · rcases List.mem_cons.mp hc with rfl | hc
        · decide
        · exact (hno hvalue hc).1
    rw [segments, splitOn_of_no_sep _ hamp]
    simp
  have hequals : ∀ c, (61 :: value).head? = some c → decide (c ≠ 61) = false := by
    intro c hc
    rw [List.head?_cons, Option.some.injEq] at hc
    simp [← hc]
  have hkey : ∀ c ∈ name, decide (c ≠ 61) = true := fun c hc => by
    simpa using (hno hname hc).2.1
  have hspan := span_append hkey hequals
  rw [searchParams, if_neg hhead, hsplit, List.map_singleton, hspan.1, hspan.2, formDecode_plain hname,
    List.drop_one, List.tail_cons, formDecode_plain hvalue]

end Url
