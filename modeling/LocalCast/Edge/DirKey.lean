import Mathlib.Data.List.DropRight
import Mathlib.Data.List.Forall2
import LocalCast.Edge.Config
import LocalCast.Foundations.Utf8

/-!
The state directory of a control server: `tsnetDir` and `sanitizeDirKey` of the sidecar.

* `normalise`, `sanitizeDirKey`, `tsnetKey`: the functions of the source.
* `sanitizeDirKey_spec`: every name is one that a file system takes.
* `Alike`, `SameName`: when two addresses are given one name, by their characters;
  `sanitizeDirKey_eq_iff` is the equivalence.
* `Separate`, `separate_iff`: two control servers have a directory each.
* `shared_directory`: two that share one.

The case of characters beyond ASCII and SHA-256 are parameters. A directory is its last component.
-/

namespace LocalCast.Edge

open JsString

/-! ### The functions of the source -/

/-- `maxDirKeyLen`. -/
def maxDirKeyLen : ℕ := 64

/-- `dirKeyDigestLen`. -/
def dirKeyDigestLen : ℕ := 12

/-- What of the Go library the name of a directory depends on: `unicode.ToLower` beyond ASCII,
and `sha256.Sum256`. -/
structure DirLibrary where
  lowerRune : Char → Char
  sha256 : List ℕ → List ℕ

variable (lib : DirLibrary)

/-- `unicode.ToLower`. -/
def toLowerRune (c : Char) : Char := if c.toNat < 128 then c.toLower else lib.lowerRune c

/-- `strings.TrimPrefix`. -/
def trimPrefix (start s : List Char) : List Char :=
  if start.isPrefixOf s then s.drop start.length else s

/-- `strings.Trim`, by the characters that are cut. -/
def trim (cut : Char → Bool) (s : List Char) : List Char := (s.dropWhile cut).rdropWhile cut

/-- `s` in `sanitizeDirKey`: the address in lower case, without its scheme. -/
def normalise (controlURL : JsString) : List Char :=
  trimPrefix "http://".toList
    (trimPrefix "https://".toList ((chars controlURL).map (toLowerRune lib)))

/-- The characters that are kept. -/
def kept (c : Char) : Bool :=
  ('a' ≤ c && c ≤ 'z') || ('0' ≤ c && c ≤ '9') || c = '-' || c = '.'

def dirRune (c : Char) : Char := if kept c then c else '_'

def hexDigit (n : ℕ) : Char := if n < 10 then Char.ofNat (48 + n) else Char.ofNat (87 + n)

/-- `hex.EncodeToString`. -/
def hexText (bytes : List ℕ) : List Char :=
  bytes.flatMap fun b => [hexDigit (b / 16 % 16), hexDigit (b % 16)]

/-- `[]byte(s)`. -/
def bytesOf (s : List Char) : List ℕ := s.flatMap fun c => utf8Point c.toNat

/-- The digest of the address, as far as it is appended. -/
def digest (s : List Char) : List Char :=
  (hexText (lib.sha256 (bytesOf s))).take dirKeyDigestLen

def sanitizeDirKey (controlURL : JsString) : List Char :=
  let s := normalise lib controlURL
  let out := trim (fun c => c = '.' || c = '_') (s.map dirRune)
  let out := if out = [] then "unnamed".toList else out
  if maxDirKeyLen < out.length then
    out.take (maxDirKeyLen - dirKeyDigestLen - 1) ++ '-' :: digest lib s
  else out

/-- The directory that `tsnetDir` makes. -/
def tsnetKey (cfg : NetworkConfig) : List Char :=
  if cfg.mode = modeCustom then "custom-".toList ++ sanitizeDirKey lib cfg.controlURL
  else "default".toList

/-! ### Names -/

lemma kept_iff (c : Char) : kept c = true ↔
    ('a' ≤ c ∧ c ≤ 'z') ∨ ('0' ≤ c ∧ c ≤ '9') ∨ c = '-' ∨ c = '.' := by
  simp [kept, or_assoc]

/-- The letters of a name. -/
def IsDirRune (c : Char) : Prop := kept c = true ∨ c = '_'

lemma isDirRune_dirRune (c : Char) : IsDirRune (dirRune c) := by
  rw [dirRune]
  split_ifs with h
  · exact .inl h
  · exact .inr rfl

lemma kept_hexDigit (n : ℕ) : kept (hexDigit (n % 16)) = true := by
  have hall : ∀ n < 16, kept (hexDigit n) = true := by decide
  exact hall _ (Nat.mod_lt _ (by decide))

variable {lib}

lemma kept_of_mem_digest {s : List Char} {c : Char} (h : c ∈ digest lib s) : kept c = true := by
  obtain ⟨b, -, hc⟩ := List.mem_flatMap.mp (List.mem_of_mem_take h)
  rcases List.mem_cons.mp hc with rfl | hc
  · exact kept_hexDigit _
  · obtain rfl := List.mem_singleton.mp hc
    exact kept_hexDigit b

/-- What is left of an address before it is cut. -/
def named (s : List Char) : List Char :=
  if trim (fun c => c = '.' || !kept c) s = [] then "unnamed".toList
  else trim (fun c => c = '.' || !kept c) s

/-- A name that is not cut. -/
def Short (s : List Char) : Prop := (named s).length ≤ maxDirKeyLen

instance (s : List Char) : Decidable (Short s) :=
  inferInstanceAs (Decidable ((named s).length ≤ maxDirKeyLen))

variable (lib) in
/-- A name that is cut, with its digest. -/
def shortened (s : List Char) : List Char :=
  (named s).take (maxDirKeyLen - dirKeyDigestLen - 1) ++ '-' :: digest lib s

lemma dirRune_of_kept {c : Char} (h : kept c = true) : dirRune c = c := if_pos h

lemma map_dirRune_of_kept {s : List Char} (h : ∀ c ∈ s, kept c = true) : s.map dirRune = s :=
  (List.map_congr_left fun c hc => dirRune_of_kept (h c hc)).trans (List.map_id s)

lemma trim_map (cut : Char → Bool) (f : Char → Char) (s : List Char) :
    trim cut (s.map f) = (trim (cut ∘ f) s).map f := by
  rw [trim, trim, List.rdropWhile, List.rdropWhile, List.dropWhile_map, List.map_reverse,
    ← List.map_reverse, List.dropWhile_map]

/-- What is cut at the ends of an address. -/
lemma cut_comp_dirRune : (fun c => decide (c = '.') || decide (c = '_')) ∘ dirRune =
    fun c => decide (c = '.') || !kept c := by
  funext c
  rw [Function.comp_apply, dirRune]
  cases hkept : kept c with
  | false => simp
  | true =>
      have hne : c ≠ '_' := by
        rintro rfl
        exact absurd hkept (by decide)
      simp [hne]

lemma named_map (s : List Char) :
    (if trim (fun c => c = '.' || c = '_') (s.map dirRune) = [] then "unnamed".toList
      else trim (fun c => c = '.' || c = '_') (s.map dirRune)) = (named s).map dirRune := by
  rw [trim_map, cut_comp_dirRune, named]
  by_cases h : trim (fun c => decide (c = '.') || !kept c) s = []
  · rw [if_pos h, if_pos (List.map_eq_nil_iff.mpr h)]
    decide
  · rw [if_neg h, if_neg (mt List.map_eq_nil_iff.mp h)]

/-- The letters are replaced before the name is cut, or behind it. -/
lemma sanitizeDirKey_eq (controlURL : JsString) : sanitizeDirKey lib controlURL =
    (if Short (normalise lib controlURL) then named (normalise lib controlURL)
      else shortened lib (normalise lib controlURL)).map dirRune := by
  have hdigest : ('-' :: digest lib (normalise lib controlURL)).map dirRune =
      '-' :: digest lib (normalise lib controlURL) :=
    map_dirRune_of_kept (List.forall_mem_cons.mpr ⟨by decide, fun _ => kept_of_mem_digest⟩)
  unfold sanitizeDirKey
  simp only [named_map, List.length_map]
  by_cases h : Short (normalise lib controlURL)
  · rw [if_pos h, if_neg (Nat.not_lt.mpr h)]
  · rw [if_neg h, if_pos (Nat.lt_of_not_le h), shortened, List.map_append, hdigest,
      List.map_take]

lemma named_ne_nil (s : List Char) : named s ≠ [] := by
  rw [named]
  split_ifs with h
  · decide
  · exact h

/-- **A name** is not empty, not too long, and made of the letters of names. -/
theorem sanitizeDirKey_spec (controlURL : JsString) : sanitizeDirKey lib controlURL ≠ [] ∧
    (sanitizeDirKey lib controlURL).length ≤ maxDirKeyLen ∧
    ∀ c ∈ sanitizeDirKey lib controlURL, IsDirRune c := by
  rw [sanitizeDirKey_eq]
  refine ⟨?_, ?_, fun c hc => ?_⟩
  · rw [Ne, List.map_eq_nil_iff]
    split_ifs
    · exact named_ne_nil _
    · simp [shortened]
  · rw [List.length_map]
    split_ifs with h
    · exact h
    · have hdigest : (digest lib (normalise lib controlURL)).length ≤ dirKeyDigestLen :=
        List.length_take_le _ _
      have htake := List.length_take_le (maxDirKeyLen - dirKeyDigestLen - 1)
        (named (normalise lib controlURL))
      rw [shortened, List.length_append, List.length_cons]
      simp only [maxDirKeyLen, dirKeyDigestLen] at *
      omega
  · obtain ⟨d, -, rfl⟩ := List.mem_map.mp hc
    exact isDirRune_dirRune d

/-! ### Addresses of one name -/

/-- Two texts that are the same up to characters that are not kept. -/
def Alike : List Char → List Char → Prop :=
  List.Forall₂ fun c d => c = d ∨ (kept c = false ∧ kept d = false)

instance (s t : List Char) : Decidable (Alike s t) :=
  inferInstanceAs (Decidable (List.Forall₂ _ s t))

lemma dirRune_eq_iff {c d : Char} :
    dirRune c = dirRune d ↔ c = d ∨ (kept c = false ∧ kept d = false) := by
  have hne {c : Char} (h : kept c = true) : c ≠ '_' := by
    rintro rfl
    exact absurd h (by decide)
  rw [dirRune, dirRune]
  cases hc : kept c <;> cases hd : kept d
  · simp
  · simp only [Bool.false_eq_true, if_false, if_true, reduceCtorEq, and_false, or_false]
    exact iff_of_false (hne hd).symm fun h => by simp [h, hd] at hc
  · simp only [Bool.false_eq_true, if_false, if_true, reduceCtorEq, false_and, or_false]
    exact iff_of_false (hne hc) fun h => by simp [h, hd] at hc
  · simp

lemma map_dirRune_eq_iff {s t : List Char} : s.map dirRune = t.map dirRune ↔ Alike s t := by
  rw [← List.forall₂_eq_eq_eq, List.forall₂_map_left_iff, List.forall₂_map_right_iff]
  exact ⟨fun h => h.imp fun _ _ => dirRune_eq_iff.mp, fun h => h.imp fun _ _ => dirRune_eq_iff.mpr⟩

variable (lib) in
/-- Two addresses that are given one name: short ones that are alike where they are not cut; long
ones only if they are the same; and a short one that is alike a long one with its digest. -/
def SameName (s t : List Char) : Prop :=
  (Short s ∧ Short t ∧ Alike (named s) (named t)) ∨ (¬ Short s ∧ ¬ Short t ∧ s = t) ∨
  (Short s ∧ ¬ Short t ∧ Alike (named s) (shortened lib t)) ∨
  (¬ Short s ∧ Short t ∧ Alike (shortened lib s) (named t))

lemma bytesOf_injective {s t : List Char} (h : bytesOf s = bytesOf t) : s = t := by
  rw [← utf8Chars_flatMap s, ← utf8Chars_flatMap t]
  exact congrArg utf8Chars h

/-- Long names are the same only for the same address. -/
lemma shortened_map_eq_iff {s t : List Char} (hs : ¬ Short s) (ht : ¬ Short t)
    (hfree : digest lib s = digest lib t → bytesOf s = bytesOf t) :
    (shortened lib s).map dirRune = (shortened lib t).map dirRune ↔ s = t := by
  refine ⟨fun h => ?_, fun h => h ▸ rfl⟩
  have hdigest (s : List Char) : ('-' :: digest lib s).map dirRune = '-' :: digest lib s :=
    map_dirRune_of_kept (List.forall_mem_cons.mpr ⟨by decide, fun _ => kept_of_mem_digest⟩)
  have hlength {s : List Char} (hs : ¬ Short s) :
      ((named s).take (maxDirKeyLen - dirKeyDigestLen - 1)).length =
        maxDirKeyLen - dirKeyDigestLen - 1 := by
    rw [List.length_take, Nat.min_eq_left]
    exact (by decide : maxDirKeyLen - dirKeyDigestLen - 1 ≤ maxDirKeyLen).trans
      (Nat.le_of_not_le hs)
  rw [shortened, shortened, List.map_append, List.map_append, hdigest, hdigest] at h
  have hparts := List.append_inj h (by rw [List.length_map, List.length_map, hlength hs, hlength ht])
  exact bytesOf_injective (hfree (List.cons.inj hparts.2).2)

/-- **When two addresses are given one name.** -/
theorem sanitizeDirKey_eq_iff {u v : JsString}
    (hfree : digest lib (normalise lib u) = digest lib (normalise lib v) →
      bytesOf (normalise lib u) = bytesOf (normalise lib v)) :
    sanitizeDirKey lib u = sanitizeDirKey lib v ↔
      SameName lib (normalise lib u) (normalise lib v) := by
  rw [sanitizeDirKey_eq, sanitizeDirKey_eq, SameName]
  by_cases hu : Short (normalise lib u) <;> by_cases hv : Short (normalise lib v)
  · simp only [hu, hv, if_true, map_dirRune_eq_iff]
    simp
  · simp only [hu, hv, if_true, if_false, map_dirRune_eq_iff]
    simp
  · simp only [hu, hv, if_true, if_false, map_dirRune_eq_iff]
    simp
  · simp only [hu, hv, if_false, shortened_map_eq_iff hu hv hfree]
    simp

/-! ### Control servers -/

/-- The host with its port, and the path without slashes at its end, of an address in lower case
without its scheme. -/
def serverOf (s : List Char) : List Char × List Char :=
  let s := s.takeWhile fun c => c ≠ '?' && c ≠ '#'
  let authority := s.takeWhile fun c => c ≠ '/'
  ((authority.reverse.takeWhile fun c => c ≠ '@').reverse,
    (s.dropWhile fun c => c ≠ '/').rdropWhile fun c => c = '/')

variable (lib) in
/-- Two control servers that are not the same have a directory each. -/
def Separate (cfg cfg' : NetworkConfig) : Prop :=
  serverOf (normalise lib cfg.controlURL) ≠ serverOf (normalise lib cfg'.controlURL) →
    tsnetKey lib cfg ≠ tsnetKey lib cfg'

lemma tsnetKey_custom {cfg : NetworkConfig} (h : cfg.mode = modeCustom) :
    tsnetKey lib cfg = "custom-".toList ++ sanitizeDirKey lib cfg.controlURL := if_pos h

/-- **Control servers have a directory each** unless their addresses are given one name, and each
name is one that a file system takes; the digest tells the two addresses apart. -/
theorem separate_iff {cfg cfg' : NetworkConfig} (hmode : cfg.mode = modeCustom)
    (hmode' : cfg'.mode = modeCustom)
    (hfree : digest lib (normalise lib cfg.controlURL) =
        digest lib (normalise lib cfg'.controlURL) →
      bytesOf (normalise lib cfg.controlURL) = bytesOf (normalise lib cfg'.controlURL)) :
    (sanitizeDirKey lib cfg.controlURL ≠ [] ∧
      (sanitizeDirKey lib cfg.controlURL).length ≤ maxDirKeyLen ∧
      ∀ c ∈ sanitizeDirKey lib cfg.controlURL, IsDirRune c) ∧
    (Separate lib cfg cfg' ↔
      serverOf (normalise lib cfg.controlURL) = serverOf (normalise lib cfg'.controlURL) ∨
        ¬ SameName lib (normalise lib cfg.controlURL) (normalise lib cfg'.controlURL)) := by
  refine ⟨sanitizeDirKey_spec _, ?_⟩
  rw [Separate, tsnetKey_custom hmode, tsnetKey_custom hmode', Ne, Ne,
    List.append_right_inj, sanitizeDirKey_eq_iff hfree]
  tauto

/-! ### Concrete addresses -/

/-- A tenant of a control server. -/
def tenantURL (tenant : String) : String :=
  "https://headscale.internal.example-corporation.test/tenants/engineering/" ++ tenant

/-- The library on the inputs of the examples: letters of ASCII, and the digests of two
tenants. -/
def exampleLibrary : DirLibrary where
  lowerRune := id
  sha256 bytes :=
    if bytes = bytesOf ((tenantURL "alpha").toList.drop 8) then
      [186, 29, 243, 230, 197, 22, 194, 60, 179, 234, 217, 152, 23, 65, 78, 206, 13, 194, 245, 193,
        54, 108, 158, 86, 136, 186, 122, 91, 227, 202, 48, 249]
    else if bytes = bytesOf ((tenantURL "beta").toList.drop 8) then
      [72, 1, 175, 236, 254, 110, 222, 84, 64, 155, 166, 116, 130, 242, 123, 220, 45, 138, 211, 125,
        187, 241, 82, 51, 90, 169, 180, 33, 174, 194, 236, 243]
    else []

/-- A self-hosted control server behind a proxy. -/
def customConfig (controlURL : String) : NetworkConfig where
  mode := modeCustom
  controlURL := js controlURL
  authKey := js "hskey"
  expose := exposeTailnet
  certStrategy := certExternalProxy
  certDomain := js "cast.example.com"
  dnsProvider := []
  dnsAPIToken := []
  hostname := defaultHostname

/-- Two tenants whose addresses differ behind the cut. -/
theorem separate_tenants : Separate exampleLibrary (customConfig (tenantURL "alpha"))
      (customConfig (tenantURL "beta")) ∧
    tsnetKey exampleLibrary (customConfig (tenantURL "alpha")) =
      "custom-headscale.internal.example-corporation.test_tenants-ba1df3e6c516".toList := by
  have hiff : Separate exampleLibrary (customConfig (tenantURL "alpha"))
      (customConfig (tenantURL "beta")) ↔ _ := (separate_iff rfl rfl (by decide)).2
  refine ⟨hiff.mpr (.inr ?_), by decide⟩
  unfold SameName
  decide

/-- **A directory is shared** by a control server on a port and one on a path: both are accepted,
and the colon and the slash are replaced alike. -/
theorem shared_directory :
    let go : GoLibrary :=
      { parseURL := fun raw =>
          if (js "https://").isPrefixOf raw then some ⟨true, js "https"⟩ else none
        quote := fun s => js "\"" ++ s ++ js "\"" }
    let port := customConfig "https://hs.example.com:8080"
    let path := customConfig "https://hs.example.com/8080"
    validate go port = [] ∧ validate go path = [] ∧
    tsnetKey exampleLibrary port = "custom-hs.example.com_8080".toList ∧
    tsnetKey exampleLibrary path = "custom-hs.example.com_8080".toList ∧
    ¬ Separate exampleLibrary port path := by
  refine ⟨by decide, by decide, by decide, by decide, fun h => ?_⟩
  exact h (by decide) (by decide)

end LocalCast.Edge
