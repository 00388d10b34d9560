import LocalCast.Client.Certificates

/-!
What the normalisation of fingerprints promises, and for which digests and texts it keeps it.

* `normaliseFingerprint_some`: what is made of a text depends on its `body`.
* `normaliseFingerprint_hexText`, `normaliseFingerprint_electron`: the documented spellings.
* `carries_iff`, `fingerprintsMatch_iff`: what is accepted, and what matches.
* `normalised_iff`: the promises hold of a digest whose base64 does not say `fingerprint`, and of a
  text that is neither base64 with bits left over nor hexadecimal with a ligature in it; of no
  other.
-/

namespace LocalCast.Client

open JsString

/-! ### Words and marks -/

section Text

lemma saysFingerprint_cons (c : CodeUnit) (text : JsString) : saysFingerprint (c :: text) =
    ((js "fingerprint").isPrefixOf (lower (c :: text)) || saysFingerprint text) := by
  rw [saysFingerprint, List.tails_cons, List.any_cons]
  rfl

/-- The word begins with an `f`. -/
lemma saysFingerprint_cons_of_ne {c : CodeUnit} (text : JsString) (h : lowerUnit c ≠ 102) :
    saysFingerprint (c :: text) = saysFingerprint text := by
  have hword : js "fingerprint" = 102 :: js "ingerprint" := rfl
  have hne : ((102 : CodeUnit) == lowerUnit c) = false := by simpa using h.symm
  rw [saysFingerprint_cons, lower, List.map_cons, hword, List.isPrefixOf_cons_cons, hne,
    Bool.false_and, Bool.false_or]

/-- The word has a `g` in it. -/
lemma saysFingerprint_eq_false {text : JsString} (h : ∀ c ∈ text, lowerUnit c ≠ 103) :
    saysFingerprint text = false := by
  rw [saysFingerprint, List.any_eq_false]
  intro t ht hword
  have hmem : (103 : CodeUnit) ∈ lower t :=
    (List.isPrefixOf_iff_prefix.mp hword).subset (by decide)
  obtain ⟨c, hc, heq⟩ := List.mem_map.mp hmem
  exact h c (((List.mem_tails _ _).mp ht).subset hc) heq

lemma saysFingerprint_append {text : JsString} (h : saysFingerprint text = true)
    (rest : JsString) : saysFingerprint (text ++ rest) = true := by
  induction text with
  | nil => exact absurd h (by decide)
  | cons c text ih =>
      rw [saysFingerprint_cons, Bool.or_eq_true] at h
      rw [List.cons_append, saysFingerprint_cons, Bool.or_eq_true]
      rcases h with hword | h
      · left
        rw [List.isPrefixOf_iff_prefix] at hword ⊢
        refine hword.trans ⟨lower rest, ?_⟩
        rw [lower, lower, lower, ← List.map_append, List.cons_append]
      · exact .inr (ih h)

lemma afterEquals_append {text : JsString} (rest : JsString) (h : 61 ∉ text) :
    afterEquals (rest ++ 61 :: text) = text := by
  have hall : ∀ c ∈ text.reverse, decide (c ≠ 61) = true := by
    intro c hc
    rw [decide_eq_true_eq]
    rintro rfl
    exact h (List.mem_reverse.mp hc)
  rw [afterEquals, List.reverse_append, List.reverse_cons, List.append_assoc,
    List.takeWhile_append_of_pos hall, List.singleton_append, List.takeWhile_cons,
    if_neg (by decide), List.append_nil, List.reverse_reverse]

lemma afterSha256_eq_none {c : CodeUnit} (text : JsString) (h : lowerUnit c ≠ 115) :
    afterSha256 (c :: text) = none := by
  rw [afterSha256, if_neg]
  rw [List.take_succ_cons, lower, List.map_cons]
  exact fun heq => h (List.cons.inj heq).1

lemma fromBase64_eq_none {text : JsString} (h : isBase64Of32 text = false) :
    fromBase64 text = none := by
  rw [fromBase64, h]
  rfl

lemma pad_mem {text : JsString} (h : isBase64Of32 text = true) : 61 ∈ text := by
  obtain ⟨indices, -, -, rfl⟩ := isBase64Of32_iff.mp h
  simp

/-- What is made of a text depends on its body. -/
lemma normaliseFingerprint_some (u : Uppercase) (value : JsString) :
    normaliseFingerprint u (some value) =
      (fromBase64 (body value)).or (fromHex (u.toUpperCase (compact (body value)))) := by
  rw [normaliseFingerprint, body]
  simp only
  cases afterSha256 (unnamed (trim value)) with
  | some rest => rfl
  | none =>
      simp only
      cases fromBase64 (unnamed (trim value)) with
      | none => rw [Option.none_or]
      | some base64 => rw [Option.some_or]

/-! ### The documented spellings -/

/-- What the units of hexadecimal spellings are not, and what becomes of them. -/
lemma of_mem_hexUnits {c : CodeUnit} (h : c ∈ hexUnits) : isSpace c = false ∧ c ≠ 61 ∧
    lowerUnit c ≠ 103 ∧ lowerUnit c ≠ 115 ∧ isSeparator (lowerUnit c) = isSeparator c ∧
    (isSeparator c = false → becomesHex c = true ∧ c ≠ ligature) ∧ lowerUnit c ∈ hexUnits := by
  have hall := forall_of_all (s := hexUnits) (p := fun c => isSpace c = false ∧ c ≠ 61 ∧
    lowerUnit c ≠ 103 ∧ lowerUnit c ≠ 115 ∧ isSeparator (lowerUnit c) = isSeparator c ∧
    (isSeparator c = false → becomesHex c = true ∧ c ≠ ligature) ∧ lowerUnit c ∈ hexUnits)
    (by decide)
  exact hall c h

section Spelt

variable {text : JsString} (htext : ∀ c ∈ text, c ∈ hexUnits)

include htext

lemma trim_hexText : trim text = text :=
  trim_of_no_space fun c hc => (of_mem_hexUnits (htext c hc)).1

lemma body_hexText : body text = text := by
  have hunnamed : unnamed text = text := by
    rw [unnamed, saysFingerprint_eq_false fun c hc => (of_mem_hexUnits (htext c hc)).2.2.1]
    exact if_neg fun h => Bool.false_ne_true h.1
  have hsha : afterSha256 text = none := by
    cases text with
    | nil => rfl
    | cons c rest =>
        exact afterSha256_eq_none rest (of_mem_hexUnits (htext c List.mem_cons_self)).2.2.2.1
  rw [body, trim_hexText htext, hunnamed]
  simp only [hsha]

/-- Digits and separators are read as the digits. -/
lemma normaliseFingerprint_hexText (u : Uppercase) {d : Digest}
    (hbare : upper (compact text) = d.bare) :
    normaliseFingerprint u (some text) = some d.canonical := by
  have hbase64 : isBase64Of32 text = false := by
    rw [Bool.eq_false_iff]
    intro h
    exact (of_mem_hexUnits (htext 61 (pad_mem h))).2.1 rfl
  have hunit {c : CodeUnit} (hc : c ∈ compact text) : becomesHex c = true ∧ c ≠ ligature := by
    obtain ⟨hmem, hsep⟩ := List.mem_filter.mp hc
    exact (of_mem_hexUnits (htext c hmem)).2.2.2.2.2.1 (by simpa using hsep)
  have hupper : u.toUpperCase (compact text) = d.bare := by
    rw [toUpperCase_of_hex u (List.all_eq_true.mpr fun c hc => (hunit hc).1), ← hbare, upper,
      List.map_eq_flatMap]
    exact List.flatMap_congr fun c hc => if_neg (hunit hc).2
  rw [normaliseFingerprint_some, body_hexText htext, fromBase64_eq_none hbase64, Option.none_or,
    hupper, d.fromHex_bare]

end Spelt

namespace Digest

variable (d : Digest)

lemma bare_units : ∀ c ∈ d.bare, c ∈ hexUnits := by
  intro c hc
  obtain ⟨v, hv, rfl⟩ := isUpperHex_iff.mp (List.all_eq_true.mp d.bare_all c hc)
  have hall : ((List.range 16).all fun v => hexUnits.contains (hexDigit v)) = true := by decide
  exact List.contains_iff_mem.mp (List.all_eq_true.mp hall v (List.mem_range.mpr hv))

lemma canonical_units : ∀ c ∈ d.canonical, c ∈ hexUnits := by
  intro c hc
  rcases mem_join hc with hcolon | ⟨p, hp, hmem⟩
  · exact List.mem_singleton.mp hcolon ▸ by decide
  · obtain ⟨b, hb, rfl⟩ := List.mem_map.mp hp
    exact d.bare_units c (List.mem_flatMap.mpr ⟨b, hb, hmem⟩)

lemma compact_bare : compact d.bare = d.bare := by
  have hdigits : ((List.range 16).all fun v => !isSeparator (hexDigit v)) = true := by decide
  rw [compact, List.filter_eq_self]
  intro c hc
  obtain ⟨v, hv, rfl⟩ := isUpperHex_iff.mp (List.all_eq_true.mp d.bare_all c hc)
  exact List.all_eq_true.mp hdigits v (List.mem_range.mpr hv)

lemma upper_bare : upper d.bare = d.bare := by
  have hdigits : ((List.range 16).all fun v => upperUnit (hexDigit v) == hexDigit v) = true := by
    decide
  have hsame : ∀ c ∈ d.bare, upperUnit c = id c := by
    intro c hc
    obtain ⟨v, hv, rfl⟩ := isUpperHex_iff.mp (List.all_eq_true.mp d.bare_all c hc)
    exact eq_of_beq (List.all_eq_true.mp hdigits v (List.mem_range.mpr hv))
  rw [upper, List.map_congr_left hsame, List.map_id]

/-- Without its colons the canonical spelling is the digits. -/
lemma compact_canonical : compact d.canonical = d.bare := by
  have hpieces (ps : List JsString) : compact (join (js ":") ps) = ps.flatMap compact := by
    induction ps with
    | nil => rfl
    | cons p ps ih =>
        cases ps with
        | nil => simp [join, List.intercalate]
        | cons q ps =>
            have hjoin : join (js ":") (p :: q :: ps) = p ++ 58 :: join (js ":") (q :: ps) := rfl
            rw [hjoin, compact, List.filter_append, List.filter_cons_of_neg (by decide),
              List.flatMap_cons, ← ih]
            rfl
  rw [canonical, hpieces, List.flatMap_map, ← compact_bare, bare, compact, List.filter_flatMap]
  rfl

lemma canonical_injective : Function.Injective canonical := by
  intro d e h
  refine bare_injective ?_
  rw [← compact_canonical, ← compact_canonical, h]

end Digest

lemma compact_lower {text : JsString} (h : ∀ c ∈ text, c ∈ hexUnits) :
    compact (lower text) = lower (compact text) := by
  rw [compact, compact, lower, lower, List.filter_map]
  congr 1
  refine List.filter_congr fun c hc => ?_
  rw [Function.comp_apply, (of_mem_hexUnits (h c hc)).2.2.2.2.1]

lemma upper_lower (text : JsString) : upper (lower text) = upper text := by
  rw [upper, upper, lower, List.map_map]
  exact List.map_congr_left fun c _ => upperUnit_lowerUnit c

/-- Every spelling but that of Electron is normalised. -/
lemma normaliseFingerprint_canonical (u : Uppercase) (d : Digest) :
    normaliseFingerprint u (some d.canonical) = some d.canonical :=
  normaliseFingerprint_hexText d.canonical_units u (by rw [d.compact_canonical, d.upper_bare])

lemma normaliseFingerprint_pasted (u : Uppercase) (d : Digest) (lowerCase colons : Bool) :
    normaliseFingerprint u (some ((Spelling.pasted lowerCase colons).write d)) =
      some d.canonical := by
  have hwrite : (Spelling.pasted lowerCase colons).write d =
      if lowerCase then lower (if colons then d.canonical else d.bare)
      else if colons then d.canonical else d.bare := rfl
  have hunits : ∀ c ∈ (if colons then d.canonical else d.bare), c ∈ hexUnits := by
    cases colons with
    | true => exact d.canonical_units
    | false => exact d.bare_units
  have hcompact : compact (if colons then d.canonical else d.bare) = d.bare := by
    cases colons with
    | true => exact d.compact_canonical
    | false => exact d.compact_bare
  rw [hwrite]
  generalize (if colons then d.canonical else d.bare) = text at hunits hcompact
  cases lowerCase with
  | false =>
      rw [if_neg Bool.false_ne_true]
      exact normaliseFingerprint_hexText hunits u (by rw [hcompact, d.upper_bare])
  | true =>
      rw [if_pos rfl]
      refine normaliseFingerprint_hexText ?_ u ?_
      · intro c hc
        obtain ⟨c', hc', rfl⟩ := List.mem_map.mp hc
        exact (of_mem_hexUnits (hunits c' hc')).2.2.2.2.2.2
      · rw [compact_lower hunits, upper_lower, hcompact, d.upper_bare]

/-- The name that OpenSSL prints is cut off. -/
lemma normaliseFingerprint_openssl (u : Uppercase) (d : Digest) :
    normaliseFingerprint u (some (Spelling.openssl.write d)) = some d.canonical := by
  have hpad : (61 : CodeUnit) ∉ d.canonical := fun h =>
    (of_mem_hexUnits (d.canonical_units 61 h)).2.1 rfl
  have hequals : js "SHA256 Fingerprint=" = js "SHA256 Fingerprint" ++ [61] := by decide
  have hname : js "SHA256 Fingerprint=" ++ d.canonical =
      js "SHA256 Fingerprint" ++ 61 :: d.canonical := by
    rw [hequals, List.append_assoc, List.singleton_append]
  have htrim : trim (js "SHA256 Fingerprint=" ++ d.canonical) =
      js "SHA256 Fingerprint=" ++ d.canonical := by
    rcases List.eq_nil_or_concat d.canonical with hnil | ⟨init, last, hlast⟩
    · rw [hnil]
      decide
    · have hspace : isSpace last = false := by
        refine (of_mem_hexUnits (d.canonical_units last ?_)).1
        rw [hlast]
        simp
      rw [hlast, List.concat_eq_append, ← List.append_assoc]
      exact trimBy_of_ends (js "HA256 Fingerprint=" ++ init) (by decide) hspace
  have hunnamed : unnamed (js "SHA256 Fingerprint=" ++ d.canonical) = d.canonical := by
    have hword : saysFingerprint (js "SHA256 Fingerprint=") = true := by decide
    have hmem : (61 : CodeUnit) ∈ js "SHA256 Fingerprint=" ++ d.canonical :=
      List.mem_append_left _ (by decide)
    rw [unnamed, if_pos ⟨saysFingerprint_append hword _, hmem⟩, hname,
      afterEquals_append _ hpad, trim_hexText d.canonical_units]
  have hbody : body (Spelling.openssl.write d) = body d.canonical := by
    have hself : unnamed (trim d.canonical) = d.canonical := by
      rw [trim_hexText d.canonical_units, unnamed,
        saysFingerprint_eq_false fun c hc => (of_mem_hexUnits (d.canonical_units c hc)).2.2.1]
      exact if_neg fun h => Bool.false_ne_true h.1
    rw [body, body, Spelling.write, htrim, hunnamed, hself]
  rw [normaliseFingerprint_some, hbody, ← normaliseFingerprint_some,
    normaliseFingerprint_canonical]

/-- The units of base64 are no separators. -/
lemma of_mem_base64Units {c : CodeUnit} (h : c ∈ 61 :: base64Alphabet) :
    isSpace c = false ∧ isSeparator c = false ∧ c ≠ ligature := by
  have hall := forall_of_all (s := 61 :: base64Alphabet)
    (p := fun c => isSpace c = false ∧ isSeparator c = false ∧ c ≠ ligature) (by decide)
  exact hall c h

lemma base64_units {text : JsString} (h : isBase64Of32 text = true) :
    ∀ c ∈ text, c ∈ 61 :: base64Alphabet := by
  obtain ⟨indices, -, hindices, rfl⟩ := isBase64Of32_iff.mp h
  intro c hc
  rcases List.mem_append.mp hc with hmem | hpad
  · obtain ⟨i, hi, rfl⟩ := List.mem_map.mp hmem
    exact List.mem_cons_of_mem _ (base64Letter_mem (hindices i hi))
  · obtain rfl := List.mem_singleton.mp hpad
    exact List.mem_cons_self

lemma dropWhile_of_no_space {text : JsString} (h : ∀ c ∈ text, isSpace c = false) :
    text.dropWhile isSpace = text := by
  cases text with
  | nil => rfl
  | cons c rest =>
      rw [List.dropWhile_cons, if_neg (Bool.eq_false_iff.mp (h c List.mem_cons_self))]

/-- The spelling of Electron is accepted when its base64 does not say the word for which the name
of OpenSSL is recognised; then nothing is left of it. -/
lemma normaliseFingerprint_electron (u : Uppercase) (d : Digest) :
    normaliseFingerprint u (some (Spelling.electron.write d)) =
      if saysFingerprint d.base64 then none else some d.canonical := by
  have hunits := base64_units d.isBase64Of32_base64
  have hspace : ∀ c ∈ d.base64, isSpace c = false := fun c hc =>
    (of_mem_base64Units (hunits c hc)).1
  have htrim : trim (js "sha256/" ++ d.base64) = js "sha256/" ++ d.base64 := by
    refine trim_of_no_space fun c hc => ?_
    rcases List.mem_append.mp hc with hmem | hmem
    · exact forall_of_all (s := js "sha256/") (p := fun c => isSpace c = false) (by decide) c hmem
    · exact hspace c hmem
  have hspoken : saysFingerprint (js "sha256/" ++ d.base64) = saysFingerprint d.base64 := by
    have hpieces : js "sha256/" ++ d.base64 =
        115 :: 104 :: 97 :: 50 :: 53 :: 54 :: 47 :: d.base64 := rfl
    rw [hpieces, saysFingerprint_cons_of_ne _ (by decide), saysFingerprint_cons_of_ne _ (by decide),
      saysFingerprint_cons_of_ne _ (by decide), saysFingerprint_cons_of_ne _ (by decide),
      saysFingerprint_cons_of_ne _ (by decide), saysFingerprint_cons_of_ne _ (by decide),
      saysFingerprint_cons_of_ne _ (by decide)]
  rw [normaliseFingerprint_some, body, Spelling.write, htrim]
  cases hword : saysFingerprint d.base64 with
  | true =>
      have hbase64 : js "sha256/" ++ d.base64 =
          (js "sha256/" ++ (sextets d.bytes).map base64Letter) ++ 61 :: [] := by
        rw [d.base64_eq, List.append_assoc]
      have hpad : (61 : CodeUnit) ∈ js "sha256/" ++ d.base64 := by
        rw [hbase64]
        simp
      have hunnamed : unnamed (js "sha256/" ++ d.base64) = [] := by
        rw [unnamed, if_pos ⟨hspoken.trans hword, hpad⟩, hbase64,
          afterEquals_append _ List.not_mem_nil]
        rfl
      rw [hunnamed]
      rfl
  | false =>
      have hunnamed : unnamed (js "sha256/" ++ d.base64) = js "sha256/" ++ d.base64 := by
        rw [unnamed, hspoken, hword]
        exact if_neg fun h => Bool.false_ne_true h.1
      have hsha : afterSha256 (js "sha256/" ++ d.base64) = some d.base64 := by
        show some (d.base64.dropWhile isSpace) = some d.base64
        rw [dropWhile_of_no_space hspace]
      rw [hunnamed]
      simp only [hsha]
      rw [trim_of_no_space hspace, d.fromBase64_base64, Option.some_or]
      rfl

end Text

/-! ### What is accepted -/

/-- A text of the pattern of base64 whose last digit has bits left over. -/
def IsSlack (text : JsString) : Prop := isBase64Of32 text = true ∧ isAligned text = false

/-- Hexadecimal digits and ligatures, as many as make 64 digits. -/
def IsLigatured (text : JsString) : Prop :=
  ligature ∈ text ∧ text.all becomesHex = true ∧ text.length + text.count ligature = 64

instance (text : JsString) : Decidable (IsSlack text) := inferInstanceAs (Decidable (_ ∧ _))

instance (text : JsString) : Decidable (IsLigatured text) := inferInstanceAs (Decidable (_ ∧ _))

/-- A text carries the digest: its 64 digits, or its base64. -/
def Carries (d : Digest) (text : JsString) : Prop := upper text = d.bare ∨ text = d.base64

section Accepted

variable (u : Uppercase) (value : JsString)

/-- Only canonical spellings are returned. -/
lemma exists_digest {value : Option JsString} {f : JsString}
    (h : normaliseFingerprint u value = some f) : ∃ d : Digest, f = d.canonical := by
  cases value with
  | none => cases h
  | some value =>
      rw [normaliseFingerprint_some] at h
      cases hmatch : isBase64Of32 (body value) with
      | true =>
          obtain ⟨d, hd, -⟩ := fromBase64_eq hmatch
          rw [hd, Option.some_or] at h
          exact ⟨d, (Option.some.inj h).symm⟩
      | false =>
          rw [fromBase64_eq_none hmatch, Option.none_or] at h
          obtain ⟨d, -, hf⟩ := fromHex_eq_some h
          exact ⟨d, hf⟩

/-- What is returned is returned again. -/
lemma normaliseFingerprint_idem (value : Option JsString) :
    normaliseFingerprint u (normaliseFingerprint u value) = normaliseFingerprint u value := by
  cases h : normaliseFingerprint u value with
  | none => rfl
  | some f =>
      obtain ⟨d, rfl⟩ := exists_digest u h
      exact normaliseFingerprint_canonical u d

lemma length_upperHex (text : JsString) :
    (text.flatMap upperHexUnit).length = text.length + text.count ligature := by
  induction text with
  | nil => rfl
  | cons c text ih =>
      rw [List.flatMap_cons, List.length_append, ih, List.length_cons, List.count_cons,
        upperHexUnit]
      by_cases hc : c = ligature
      · rw [if_pos hc, if_pos (beq_iff_eq.mpr hc)]
        simp only [List.length_cons, List.length_nil]
        omega
      · rw [if_neg hc, if_neg (by simpa using hc)]
        simp only [List.length_cons, List.length_nil]
        omega

lemma upperHex_all {text : JsString} (h : text.all becomesHex = true) :
    (text.flatMap upperHexUnit).all isUpperHex = true := by
  induction text with
  | nil => rfl
  | cons c text ih =>
      rw [List.all_cons, Bool.and_eq_true] at h
      rw [List.flatMap_cons, List.all_append, ih h.2, Bool.and_true, upperHexUnit]
      by_cases hc : c = ligature
      · rw [if_pos hc]
        rfl
      · rw [if_neg hc, List.all_cons, List.all_nil, Bool.and_true]
        have hunit := h.1
        rw [becomesHex, decide_eq_false hc, Bool.or_false] at hunit
        exact hunit

/-- Neither spelling that carries a digest has a ligature in it. -/
lemma Carries.no_ligature {d : Digest} {text : JsString} (h : Carries d text) :
    ligature ∉ text := by
  intro hmem
  rcases h with hbare | rfl
  · have hupper : upperUnit ligature ∈ d.bare := hbare ▸ List.mem_map_of_mem hmem
    exact absurd (d.bare_units _ hupper) (by decide)
  · exact (of_mem_base64Units (base64_units d.isBase64Of32_base64 _ hmem)).2.2 rfl

/-- A text of the pattern of base64 carries what it is read as when no bits are left over. -/
lemma carries_base64 {text : JsString} (h : isBase64Of32 text = true) :
    (∀ f, fromBase64 text = some f → ∃ d : Digest, f = d.canonical ∧ Carries d (compact text)) ↔
      isAligned text = true := by
  obtain ⟨d, hd, haligned⟩ := fromBase64_eq h
  have hcompact : compact text = text := by
    rw [compact, List.filter_eq_self]
    intro c hc
    rw [(of_mem_base64Units (base64_units h c hc)).2.1]
    rfl
  have hbare (e : Digest) : upper text ≠ e.bare := by
    intro heq
    have hpad : upperUnit 61 ∈ e.bare := heq ▸ List.mem_map_of_mem (pad_mem h)
    exact (of_mem_hexUnits (e.bare_units _ hpad)).2.1 (by decide)
  rw [hcompact, ← haligned]
  constructor
  · intro hall
    obtain ⟨e, he, hcarries⟩ := hall _ hd
    obtain rfl := Digest.canonical_injective he
    exact hcarries.resolve_left (hbare d)
  · intro heq f hf
    rw [hd] at hf
    exact ⟨d, (Option.some.inj hf).symm, .inr heq⟩

/-- Hexadecimal text carries what it is read as when there is no ligature in it. -/
lemma carries_hex (text : JsString) :
    (∀ f, fromHex (u.toUpperCase text) = some f →
      ∃ d : Digest, f = d.canonical ∧ Carries d text) ↔ ¬ IsLigatured text := by
  constructor
  · rintro hall ⟨hmem, hhex, hlength⟩
    have hread : isHex32 (u.toUpperCase text) = true := by
      rw [toUpperCase_of_hex u hhex, isHex32, length_upperHex, hlength, upperHex_all hhex]
      rfl
    obtain ⟨d, -, hcarries⟩ := hall _ (if_pos hread)
    exact hcarries.no_ligature hmem
  · intro hnot f hf
    obtain ⟨d, hbare, rfl⟩ := fromHex_eq_some hf
    have hhex : text.all becomesHex = true :=
      hex_of_toUpperCase u (by rw [hbare]; exact d.bare_all)
    rw [toUpperCase_of_hex u hhex] at hbare
    have hmem : ligature ∉ text := by
      intro hmem
      refine hnot ⟨hmem, hhex, ?_⟩
      rw [← length_upperHex, hbare, d.length_bare]
    refine ⟨d, rfl, .inl ?_⟩
    rw [← hbare, upper, List.map_eq_flatMap]
    refine List.flatMap_congr fun c hc => (if_neg ?_).symm
    rintro rfl
    exact hmem hc

/-- **Everything accepted carries the digest it is normalised to**, unless bits are left over in it
or a ligature stands for two of its digits. -/
theorem carries_iff : (∀ f, normaliseFingerprint u (some value) = some f →
      ∃ d : Digest, f = d.canonical ∧ Carries d (compact (body value))) ↔
    ¬ IsSlack (body value) ∧ ¬ IsLigatured (compact (body value)) := by
  rw [normaliseFingerprint_some]
  generalize body value = text
  cases hmatch : isBase64Of32 text with
  | true =>
      have hread : (fromBase64 text).or (fromHex (u.toUpperCase (compact text))) =
          fromBase64 text := by
        obtain ⟨d, hd, -⟩ := fromBase64_eq hmatch
        rw [hd, Option.some_or]
      have hligature : ¬ IsLigatured (compact text) := by
        rintro ⟨hmem, -⟩
        have htext := base64_units hmatch _ (List.mem_filter.mp hmem).1
        exact (of_mem_base64Units htext).2.2 rfl
      rw [hread, carries_base64 hmatch, IsSlack, hmatch, and_iff_left hligature]
      simp
  | false =>
      rw [fromBase64_eq_none hmatch, Option.none_or, carries_hex, IsSlack, hmatch]
      simp

/-- Differences are collected; there is none between equal texts alone. -/
lemma diff_eq_zero (left right : JsString) (diff : CodeUnit) (h : left.length = right.length) :
    (left.zip right).foldl (fun diff p => diff ||| (p.1 ^^^ p.2)) diff = 0 ↔
      diff = 0 ∧ left = right := by
  induction left generalizing right diff with
  | nil =>
      obtain rfl := List.length_eq_zero_iff.mp h.symm
      simp
  | cons l left ih =>
      cases right with
      | nil => cases h
      | cons r right =>
          rw [List.zip_cons_cons, List.foldl_cons, ih right _ (Nat.succ.inj h),
            UInt16.or_eq_zero_iff, UInt16.xor_eq_zero_iff, List.cons.injEq, and_assoc]

/-- **Two fingerprints match** exactly when both are accepted and denote one digest. -/
theorem fingerprintsMatch_iff (a b : Option JsString) : fingerprintsMatch u a b = true ↔
    ∃ d : Digest, normaliseFingerprint u a = some d.canonical ∧
      normaliseFingerprint u b = some d.canonical := by
  have hequal (left right : JsString) : (if left.length ≠ right.length then false
      else decide ((left.zip right).foldl (fun diff p => diff ||| (p.1 ^^^ p.2)) 0 = 0)) = true ↔
        left = right := by
    by_cases hlength : left.length = right.length
    · rw [if_neg (not_not.mpr hlength), decide_eq_true_eq, diff_eq_zero left right 0 hlength,
        and_iff_right rfl]
    · rw [if_pos hlength]
      exact iff_of_false Bool.false_ne_true fun heq => hlength (congrArg List.length heq)
  rw [fingerprintsMatch]
  cases ha : normaliseFingerprint u a with
  | none => simp
  | some left =>
      cases hb : normaliseFingerprint u b with
      | none => simp
      | some right =>
          obtain ⟨d, rfl⟩ := exists_digest u ha
          simp only [hequal]
          constructor
          · rintro rfl
            exact ⟨d, rfl, rfl⟩
          · rintro ⟨e, he, hf⟩
            rw [Option.some.inj he, Option.some.inj hf]

end Accepted

/-! ### What normalisation promises -/

/-- The promises, for a digest and for a text: the digest comes out of each of its spellings and no
other does; normalising again changes nothing; an accepted text carries what it is normalised to;
and it matches what denotes the same digest. -/
structure Normalised (u : Uppercase) (d : Digest) (value : Option JsString) : Prop where
  spelt : ∀ s : Spelling, normaliseFingerprint u (some (s.write d)) = some d.canonical
  distinct : ∀ e : Digest, e ≠ d → e.canonical ≠ d.canonical
  idempotent : normaliseFingerprint u (normaliseFingerprint u value) =
    normaliseFingerprint u value
  carried : ∀ text f, value = some text → normaliseFingerprint u value = some f →
    ∃ e : Digest, f = e.canonical ∧ Carries e (compact (body text))
  matched : ∀ other, fingerprintsMatch u value other = true ↔
    ∃ e : Digest, normaliseFingerprint u value = some e.canonical ∧
      normaliseFingerprint u other = some e.canonical

/-- **Normalisation** keeps its promises for the digests whose base64 does not say `fingerprint`,
and for the texts that are neither base64 with bits left over nor digits with a ligature among
them. -/
theorem normalised_iff (u : Uppercase) (d : Digest) (value : Option JsString) :
    Normalised u d value ↔ saysFingerprint d.base64 = false ∧
      ∀ text, value = some text → ¬ IsSlack (body text) ∧ ¬ IsLigatured (compact (body text)) := by
  constructor
  · intro h
    constructor
    · have helectron := h.spelt .electron
      rw [normaliseFingerprint_electron] at helectron
      cases hword : saysFingerprint d.base64 with
      | false => rfl
      | true =>
          rw [hword] at helectron
          cases helectron
    · rintro text rfl
      exact (carries_iff u text).mp fun f hf => h.carried text f rfl hf
  · rintro ⟨hword, htext⟩
    refine ⟨?_, fun e hne heq => hne (Digest.canonical_injective heq),
      normaliseFingerprint_idem u value, ?_, fingerprintsMatch_iff u value⟩
    · intro s
      cases s with
      | node => exact normaliseFingerprint_canonical u d
      | electron =>
          rw [normaliseFingerprint_electron, hword]
          rfl
      | openssl => exact normaliseFingerprint_openssl u d
      | pasted lowerCase colons => exact normaliseFingerprint_pasted u d lowerCase colons
    · rintro text f rfl hf
      exact (carries_iff u text).mpr (htext text rfl) f hf

/-- The digest whose base64 begins with the word. -/
def wordedDigest : Digest where
  bytes := [22, 41, 224, 122, 186, 107, 138, 123, 64] ++ List.replicate 23 0
  length_bytes := by decide
  lt_of_mem := by decide

theorem electron_spelling_refused : Spelling.electron.write wordedDigest =
      js "sha256/FingerprintAAAAAAAAAAAAAAAAAAAAAAAAAAAAAAAA=" ∧
    normaliseFingerprint .basic (some (Spelling.electron.write wordedDigest)) = none ∧
    ¬ Normalised .basic wordedDigest none := by
  have hnone :
      normaliseFingerprint .basic (some (Spelling.electron.write wordedDigest)) = none := by
    decide
  refine ⟨by decide, hnone, fun h => ?_⟩
  have hspelt := h.spelt .electron
  rw [hnone] at hspelt
  cases hspelt

end LocalCast.Client
