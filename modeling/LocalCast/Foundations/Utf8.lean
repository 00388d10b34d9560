import LocalCast.Foundations.JsString
import Mathlib.Data.String.Basic

/-!
UTF-8 text and base64url, as `Buffer` reads and writes them. A byte is a number below 256.

* `WellFormed`: strings that are UTF-16; `chars_flatMap` reads their characters back.
* `toWellFormed`: what becomes of a string that is not.
* `utf8`, `ofUtf8`: `Buffer.from(s, 'utf8')`, a surrogate without its pair being `U+FFFD`, and
  `buffer.toString('utf8')`, each ill-formed stretch being one. `ofUtf8_utf8` is the round trip.
* `base64url`, `ofBase64url`: the text of bytes, and the bytes of a text; `ofBase64url_base64url`.
-/

namespace JsString

/-! ### Well-formed strings -/

/-- The string is the UTF-16 of a text. -/
def WellFormed (s : JsString) : Prop := ∃ cs : List Char, s = cs.flatMap encodeChar

lemma WellFormed.append {s t : JsString} (hs : WellFormed s) (ht : WellFormed t) :
    WellFormed (s ++ t) := by
  obtain ⟨cs, rfl⟩ := hs
  obtain ⟨ds, rfl⟩ := ht
  exact ⟨cs ++ ds, List.flatMap_append.symm⟩

lemma wellFormed_js (s : String) : WellFormed (js s) := ⟨s.toList, rfl⟩

lemma wellFormed_encodeChar (c : Char) : WellFormed (encodeChar c) := ⟨[c], by simp⟩

lemma encodeChar_ofNat {v : ℕ} (h : v < 0xD800 ∨ (0xDFFF < v ∧ v < 0x10000)) :
    encodeChar (Char.ofNat v) = [v.toUInt16] := by
  have hvalid : v.isValidChar := by
    rw [Nat.isValidChar]
    omega
  have hv : (Char.ofNat v).toNat = v := by
    rw [Char.ofNat, dif_pos hvalid]
    rfl
  rw [encodeChar, hv, if_pos (by omega)]

/-- A unit that is half of no pair. -/
lemma wellFormed_unit {c : CodeUnit} (h : ¬ (0xD800 ≤ c ∧ c < 0xE000)) : WellFormed [c] := by
  refine ⟨[Char.ofNat c.toNat], ?_⟩
  have hlt := c.toNat_lt
  simp only [UInt16.le_iff_toNat_le, UInt16.lt_iff_toNat_lt, UInt16.reduceToNat] at h
  rw [List.flatMap_singleton, encodeChar_ofNat (by omega), Nat.toUInt16, UInt16.ofNat_toNat]

lemma wellFormed_of_units {s : JsString} (h : ∀ c ∈ s, ¬ (0xD800 ≤ c ∧ c < 0xE000)) :
    WellFormed s := by
  induction s with
  | nil => exact ⟨[], rfl⟩
  | cons c s ih =>
      exact (wellFormed_unit (h c List.mem_cons_self)).append
        (ih fun d hd => h d (List.mem_cons_of_mem _ hd))

/-- A pair of surrogates. -/
lemma wellFormed_pair {c d : CodeUnit} (hc : 0xD800 ≤ c ∧ c < 0xDC00) (hd : 0xDC00 ≤ d ∧ d < 0xE000) :
    WellFormed [c, d] := by
  simp only [UInt16.le_iff_toNat_le, UInt16.lt_iff_toNat_lt, UInt16.reduceToNat] at hc hd
  set v := 0x10000 + (c.toNat - 0xD800) * 0x400 + (d.toNat - 0xDC00) with hv
  have hvalid : v.isValidChar := by
    rw [Nat.isValidChar]
    omega
  have hback : (Char.ofNat v).toNat = v := by
    rw [Char.ofNat, dif_pos hvalid]
    rfl
  have hhigh : 0xD800 + (v - 0x10000) / 0x400 = c.toNat := by omega
  have hlow : 0xDC00 + (v - 0x10000) % 0x400 = d.toNat := by omega
  refine ⟨[Char.ofNat v], ?_⟩
  rw [List.flatMap_singleton, encodeChar, hback, if_neg (by omega), hhigh, hlow]
  exact congrArg₂ (fun a b => [a, b]) UInt16.ofNat_toNat.symm UInt16.ofNat_toNat.symm

/-- The numbers of a scalar value. -/
lemma toNat_char (c : Char) : c.toNat < 0xD800 ∨ (0xDFFF < c.toNat ∧ c.toNat < 0x110000) := c.valid

lemma chars_encodeChar (c : Char) (rest : JsString) :
    chars (encodeChar c ++ rest) = c :: chars rest := by
  have hvalid := toNat_char c
  by_cases hlow : c.toNat < 0x10000
  · have hsmall : c.toNat.toUInt16.toNat = c.toNat := by
      rw [Nat.toUInt16, UInt16.toNat_ofNat', Nat.mod_eq_of_lt hlow]
    have hplain : ¬ (0xD800 ≤ c.toNat.toUInt16 ∧ c.toNat.toUInt16 < 0xDC00) := by
      simp only [UInt16.le_iff_toNat_le, UInt16.lt_iff_toNat_lt, hsmall, UInt16.reduceToNat]
      omega
    have hsingle : chars.single c.toNat.toUInt16 = c := by
      have hplain' : ¬ (0xD800 ≤ c.toNat.toUInt16 ∧ c.toNat.toUInt16 < 0xE000) := by
        simp only [UInt16.le_iff_toNat_le, UInt16.lt_iff_toNat_lt, hsmall, UInt16.reduceToNat]
        omega
      rw [chars.single, if_neg hplain', hsmall, Char.ofNat_toNat]
    rw [encodeChar, if_pos hlow, List.singleton_append]
    cases rest with
    | nil => exact congrArg (· :: []) hsingle
    | cons d rest =>
        rw [chars, if_neg (fun h => hplain ⟨h.1, h.2.1⟩), hsingle]
  · have hhigh : (0xD800 + (c.toNat - 0x10000) / 0x400).toUInt16.toNat =
        0xD800 + (c.toNat - 0x10000) / 0x400 := by
      rw [Nat.toUInt16, UInt16.toNat_ofNat', Nat.mod_eq_of_lt (by omega)]
    have hlast : (0xDC00 + (c.toNat - 0x10000) % 0x400).toUInt16.toNat =
        0xDC00 + (c.toNat - 0x10000) % 0x400 := by
      rw [Nat.toUInt16, UInt16.toNat_ofNat', Nat.mod_eq_of_lt (by omega)]
    rw [encodeChar, if_neg hlow, List.cons_append, List.singleton_append, chars, if_pos, hhigh,
      hlast]
    · have hvalue : 0x10000 + (0xD800 + (c.toNat - 0x10000) / 0x400 - 0xD800) * 0x400 +
          (0xDC00 + (c.toNat - 0x10000) % 0x400 - 0xDC00) = c.toNat := by omega
      rw [hvalue, Char.ofNat_toNat]
    · simp only [UInt16.le_iff_toNat_le, UInt16.lt_iff_toNat_lt, hhigh, hlast, UInt16.reduceToNat]
      omega

/-- The characters of a text come back. -/
lemma chars_flatMap (cs : List Char) : chars (cs.flatMap encodeChar) = cs := by
  induction cs with
  | nil => rfl
  | cons c cs ih => rw [List.flatMap_cons, chars_encodeChar, ih]

lemma WellFormed.eq_flatMap {s : JsString} (h : WellFormed s) :
    (chars s).flatMap encodeChar = s := by
  obtain ⟨cs, rfl⟩ := h
  rw [chars_flatMap]

/-- Well-formed strings of the same text are the same. -/
lemma WellFormed.eq_of_toText {s t : JsString} (hs : WellFormed s) (ht : WellFormed t)
    (h : toText s = toText t) : s = t := by
  rw [← hs.eq_flatMap, ← ht.eq_flatMap, String.ofList_injective h]

/-- A string whose characters are those of a text without replacement characters is it. -/
lemma wellFormed_of_chars {s : JsString} (h : Char.ofNat 0xFFFD ∉ chars s) : WellFormed s := by
  have hunit {c : CodeUnit} (hc : Char.ofNat 0xFFFD ≠ chars.single c) : WellFormed [c] := by
    refine wellFormed_unit fun hsurrogate => hc ?_
    rw [chars.single, if_pos hsurrogate]
  induction s using chars.induct with
  | case1 => exact ⟨[], rfl⟩
  | case2 c =>
      rw [chars, List.mem_singleton] at h
      exact hunit h
  | case3 c d cs hpair ih =>
      rw [chars, if_pos hpair, List.mem_cons, not_or] at h
      exact (wellFormed_pair ⟨hpair.1, hpair.2.1⟩ hpair.2.2).append (ih h.2)
  | case4 c d cs hpair ih =>
      rw [chars, if_neg hpair, List.mem_cons, not_or] at h
      exact (hunit h.1).append (ih h.2)

/-- `s.toWellFormed()`: a surrogate without its pair becomes `U+FFFD`. -/
def toWellFormed (s : JsString) : JsString := (chars s).flatMap encodeChar

/-- A text without replacement characters is the well-formed string of itself alone. -/
lemma toWellFormed_eq_iff {s t : JsString} (ht : WellFormed t) (hmem : (0xFFFD : CodeUnit) ∉ t) :
    toWellFormed s = t ↔ s = t := by
  constructor
  · intro h
    have hs : WellFormed s := by
      refine wellFormed_of_chars fun hreplaced => hmem ?_
      rw [← h]
      exact List.mem_flatMap.mpr ⟨_, hreplaced, by decide⟩
    rw [← h, toWellFormed, hs.eq_flatMap]
  · rintro rfl
    exact ht.eq_flatMap

/-! ### UTF-8 -/

/-- The bytes of a code point. -/
def utf8Point (v : ℕ) : List ℕ :=
  if v < 0x80 then [v]
  else if v < 0x800 then [0xC0 + v / 64, 0x80 + v % 64]
  else if v < 0x10000 then [0xE0 + v / 4096, 0x80 + v / 64 % 64, 0x80 + v % 64]
  else [0xF0 + v / 262144, 0x80 + v / 4096 % 64, 0x80 + v / 64 % 64, 0x80 + v % 64]

/-- `Buffer.from(s, 'utf8')`. -/
def utf8 (s : JsString) : List ℕ := (chars s).flatMap fun c => utf8Point c.toNat

/-- Whether a byte may be the second of the sequence that a byte begins. -/
def isSecond (b c : ℕ) : Bool :=
  (if b = 0xE0 then 0xA0 else if b = 0xF0 then 0x90 else 0x80) ≤ c &&
    c < (if b = 0xED then 0xA0 else if b = 0xF4 then 0x90 else 0xC0)

def isTail (c : ℕ) : Bool := 0x80 ≤ c && c < 0xC0

def replacement : Char := Char.ofNat 0xFFFD

/-- The characters of bytes: every maximal stretch of bytes that begins a sequence and does not
complete it is one replacement character, as is every byte that begins none. -/
def utf8Chars : List ℕ → List Char
  | [] => []
  | b :: rest =>
      if b < 0x80 then Char.ofNat b :: utf8Chars rest
      else if 0xC2 ≤ b ∧ b < 0xF5 then
        match rest with
        | [] => [replacement]
        | c :: rest₁ =>
            if isSecond b c then
              if b < 0xE0 then Char.ofNat ((b - 0xC0) * 64 + (c - 0x80)) :: utf8Chars rest₁
              else match rest₁ with
                | [] => [replacement]
                | d :: rest₂ =>
                    if isTail d then
                      if b < 0xF0 then
                        Char.ofNat ((b - 0xE0) * 4096 + (c - 0x80) * 64 + (d - 0x80)) ::
                          utf8Chars rest₂
                      else match rest₂ with
                        | [] => [replacement]
                        | e :: rest₃ =>
                            if isTail e then
                              Char.ofNat ((b - 0xF0) * 262144 + (c - 0x80) * 4096 +
                                (d - 0x80) * 64 + (e - 0x80)) :: utf8Chars rest₃
                            else replacement :: utf8Chars (e :: rest₃)
                    else replacement :: utf8Chars (d :: rest₂)
            else replacement :: utf8Chars (c :: rest₁)
      else replacement :: utf8Chars rest

/-- `buffer.toString('utf8')`. -/
def ofUtf8 (bytes : List ℕ) : JsString := (utf8Chars bytes).flatMap encodeChar

lemma isSecond_of {b c : ℕ} (h1 : 0x80 ≤ c) (h2 : c < 0xC0) (h3 : b = 0xE0 → 0xA0 ≤ c)
    (h4 : b = 0xF0 → 0x90 ≤ c) (h5 : b = 0xED → c < 0xA0) (h6 : b = 0xF4 → c < 0x90) :
    isSecond b c = true := by
  simp only [isSecond, Bool.and_eq_true, decide_eq_true_eq]
  constructor <;> split_ifs <;> omega

lemma isTail_mod (v : ℕ) : isTail (0x80 + v % 64) = true := by
  simp only [isTail, Bool.and_eq_true, decide_eq_true_eq]
  omega

/-- The bytes of a scalar value are read as that value. -/
lemma utf8Chars_utf8Point (c : Char) (rest : List ℕ) :
    utf8Chars (utf8Point c.toNat ++ rest) = c :: utf8Chars rest := by
  have hvalid := toNat_char c
  have hback {v : ℕ} (h : v = c.toNat) : Char.ofNat v = c := by rw [h, Char.ofNat_toNat]
  rw [utf8Point]
  split_ifs with h1 h2 h3
  · rw [List.singleton_append, utf8Chars.eq_def]
    simp only [if_pos h1, hback rfl]
  · have hlead : ¬ 0xC0 + c.toNat / 64 < 0x80 ∧ 0xC2 ≤ 0xC0 + c.toNat / 64 ∧
        0xC0 + c.toNat / 64 < 0xF5 ∧ 0xC0 + c.toNat / 64 < 0xE0 := by omega
    have hsecond : isSecond (0xC0 + c.toNat / 64) (0x80 + c.toNat % 64) = true := by
      apply isSecond_of <;> omega
    rw [List.cons_append, List.singleton_append, utf8Chars.eq_def]
    simp only [if_neg hlead.1, hlead.2.1, hlead.2.2.1, hlead.2.2.2, and_self, if_true, hsecond]
    rw [hback (by omega)]
  · have hlead : ¬ 0xE0 + c.toNat / 4096 < 0x80 ∧ 0xC2 ≤ 0xE0 + c.toNat / 4096 ∧
        0xE0 + c.toNat / 4096 < 0xF5 ∧ ¬ 0xE0 + c.toNat / 4096 < 0xE0 ∧
        0xE0 + c.toNat / 4096 < 0xF0 := by omega
    have hsecond : isSecond (0xE0 + c.toNat / 4096) (0x80 + c.toNat / 64 % 64) = true := by
      apply isSecond_of <;> omega
    rw [List.cons_append, List.cons_append, List.singleton_append, utf8Chars.eq_def]
    simp only [if_neg hlead.1, hlead.2.1, hlead.2.2.1, if_neg hlead.2.2.2.1, hlead.2.2.2.2,
      and_self, if_true, hsecond, isTail_mod]
    rw [hback (by omega)]
  · have hlead : ¬ 0xF0 + c.toNat / 262144 < 0x80 ∧ 0xC2 ≤ 0xF0 + c.toNat / 262144 ∧
        0xF0 + c.toNat / 262144 < 0xF5 ∧ ¬ 0xF0 + c.toNat / 262144 < 0xE0 ∧
        ¬ 0xF0 + c.toNat / 262144 < 0xF0 := by omega
    have hsecond : isSecond (0xF0 + c.toNat / 262144) (0x80 + c.toNat / 4096 % 64) = true := by
      apply isSecond_of <;> omega
    rw [List.cons_append, List.cons_append, List.cons_append, List.singleton_append,
      utf8Chars.eq_def]
    simp only [if_neg hlead.1, hlead.2.1, hlead.2.2.1, if_neg hlead.2.2.2.1, if_neg hlead.2.2.2.2,
      and_self, if_true, hsecond, isTail_mod]
    rw [hback (by omega)]

lemma utf8Chars_flatMap (cs : List Char) :
    utf8Chars (cs.flatMap fun c => utf8Point c.toNat) = cs := by
  induction cs with
  | nil => rfl
  | cons c cs ih => rw [List.flatMap_cons, utf8Chars_utf8Point, ih]

/-- A well-formed string comes back from its bytes. -/
theorem ofUtf8_utf8 {s : JsString} (h : WellFormed s) : ofUtf8 (utf8 s) = s := by
  rw [ofUtf8, utf8, utf8Chars_flatMap, h.eq_flatMap]

/-! ### The order of bytes -/

/-- A lower code point has lower bytes, whatever follows them. -/
lemma utf8Point_lt {v w : ℕ} (h : v < w) (hw : w < 0x110000) (s t : List ℕ) :
    utf8Point v ++ s < utf8Point w ++ t := by
  unfold utf8Point
  split_ifs <;> simp only [List.cons_append, List.nil_append, List.cons_lt_cons_iff] <;> omega

lemma utf8Chars_strictMono :
    StrictMono fun cs : List Char => cs.flatMap fun c => utf8Point c.toNat := by
  intro cs ds h
  induction cs generalizing ds with
  | nil =>
      cases ds with
      | nil => exact absurd h (lt_irrefl _)
      | cons d ds =>
          have hpos : (0 : ℕ) < ((d :: ds).flatMap fun c => utf8Point c.toNat).length := by
            rw [List.flatMap_cons, List.length_append, utf8Point]
            split_ifs <;> simp only [List.length_cons] <;> omega
          obtain ⟨b, bs, hbs⟩ := List.exists_cons_of_length_pos hpos
          show [] < (d :: ds).flatMap fun c => utf8Point c.toNat
          rw [hbs]
          exact List.nil_lt_cons b bs
  | cons c cs ih =>
      cases ds with
      | nil => exact absurd h (List.not_lt_nil _)
      | cons d ds =>
          simp only [List.flatMap_cons]
          rcases List.cons_lt_cons_iff.mp h with hlt | ⟨rfl, hlt⟩
          · have hvalid := toNat_char d
            have hlt : c.toNat < d.toNat := hlt
            exact utf8Point_lt hlt (by omega) _ _
          · exact List.append_left_lt (ih hlt)

/-- Texts are in the order of their bytes. -/
theorem toText_lt_iff {s t : JsString} : toText s < toText t ↔ utf8 s < utf8 t := by
  rw [String.lt_iff, toText, toText, String.toList_ofList, String.toList_ofList]
  exact utf8Chars_strictMono.lt_iff_lt.symm

/-! ### ASCII -/

lemma wellFormed_ascii {s : JsString} (h : ∀ c ∈ s, c.toNat < 128) : WellFormed s := by
  refine wellFormed_of_units fun c hc => ?_
  have hlt := h c hc
  simp only [UInt16.le_iff_toNat_le, UInt16.lt_iff_toNat_lt, UInt16.reduceToNat]
  omega

lemma chars_ascii {s : JsString} (h : ∀ c ∈ s, c.toNat < 128) :
    chars s = s.map fun c => Char.ofNat c.toNat := by
  have hunit (c : CodeUnit) (hc : c.toNat < 128) : encodeChar (Char.ofNat c.toNat) = [c] := by
    rw [encodeChar_ofNat (by omega), Nat.toUInt16, UInt16.ofNat_toNat]
  have hback : s = (s.map fun c => Char.ofNat c.toNat).flatMap encodeChar := by
    induction s with
    | nil => rfl
    | cons c s ih =>
        rw [List.map_cons, List.flatMap_cons, hunit c (h c List.mem_cons_self),
          ← ih fun d hd => h d (List.mem_cons_of_mem _ hd)]
        rfl
  conv_lhs => rw [hback]
  exact chars_flatMap _

/-- The bytes of an ASCII text are its units. -/
lemma utf8_ascii {s : JsString} (h : ∀ c ∈ s, c.toNat < 128) : utf8 s = s.map UInt16.toNat := by
  rw [utf8, chars_ascii h, List.flatMap_map]
  induction s with
  | nil => rfl
  | cons c s ih =>
      have hc := h c List.mem_cons_self
      have hvalid : c.toNat.isValidChar := .inl (by omega)
      have hpoint : utf8Point (Char.ofNat c.toNat).toNat = [c.toNat] := by
        rw [Char.ofNat, dif_pos hvalid]
        exact if_pos hc
      rw [List.flatMap_cons, ih fun d hd => h d (List.mem_cons_of_mem _ hd), hpoint]
      rfl

/-! ### base64url -/

/-- The digits of base64url. -/
def base64Digit (v : ℕ) : CodeUnit :=
  if v < 26 then (65 + v).toUInt16
  else if v < 52 then (71 + v).toUInt16
  else if v < 62 then (v - 4).toUInt16
  else if v = 62 then 45 else 95

/-- The value of a digit of base64 or base64url. -/
def base64Value (c : CodeUnit) : Option ℕ :=
  if 65 ≤ c ∧ c ≤ 90 then some (c.toNat - 65)
  else if 97 ≤ c ∧ c ≤ 122 then some (c.toNat - 71)
  else if 48 ≤ c ∧ c ≤ 57 then some (c.toNat + 4)
  else if c = 45 ∨ c = 43 then some 62
  else if c = 95 ∨ c = 47 then some 63
  else none

/-- `buffer.toString('base64url')`. -/
def base64url : List ℕ → JsString
  | [] => []
  | [a] => [base64Digit (a / 4), base64Digit (a % 4 * 16)]
  | [a, b] => [base64Digit (a / 4), base64Digit (a % 4 * 16 + b / 16), base64Digit (b % 16 * 4)]
  | a :: b :: c :: rest =>
      base64Digit (a / 4) :: base64Digit (a % 4 * 16 + b / 16) ::
        base64Digit (b % 16 * 4 + c / 64) :: base64Digit (c % 64) :: base64url rest

/-- The bytes of digits, six bits each; what is left of the last is dropped. -/
def base64Bytes : List ℕ → List ℕ
  | [] | [_] => []
  | [w, x] => [w * 4 + x / 16]
  | [w, x, y] => [w * 4 + x / 16, x % 16 * 16 + y / 4]
  | w :: x :: y :: z :: rest =>
      (w * 4 + x / 16) :: (x % 16 * 16 + y / 4) :: (y % 4 * 64 + z) :: base64Bytes rest

/-- `Buffer.from(s, 'base64url')`: what is no digit is passed over. -/
def ofBase64url (s : JsString) : List ℕ := base64Bytes (s.filterMap base64Value)

lemma base64Value_base64Digit {v : ℕ} (h : v < 64) : base64Value (base64Digit v) = some v := by
  have hall : ∀ v < 64, base64Value (base64Digit v) = some v := by decide +kernel
  exact hall v h

/-- Bytes come back from their text. -/
theorem ofBase64url_base64url {bytes : List ℕ} (h : ∀ b ∈ bytes, b < 256) :
    ofBase64url (base64url bytes) = bytes := by
  induction bytes using base64url.induct with
  | case1 => rfl
  | case2 a =>
      have ha : a < 256 := h a (by simp)
      have h1 : a / 4 < 64 := by omega
      have h2 : a % 4 * 16 < 64 := by omega
      simp only [base64url, ofBase64url, List.filterMap_cons, List.filterMap_nil,
        base64Value_base64Digit h1, base64Value_base64Digit h2, base64Bytes]
      have hback : a / 4 * 4 + a % 4 * 16 / 16 = a := by omega
      rw [hback]
  | case3 a b =>
      have ha : a < 256 := h a (by simp)
      have hb : b < 256 := h b (by simp)
      have h1 : a / 4 < 64 := by omega
      have h2 : a % 4 * 16 + b / 16 < 64 := by omega
      have h3 : b % 16 * 4 < 64 := by omega
      simp only [base64url, ofBase64url, List.filterMap_cons, List.filterMap_nil,
        base64Value_base64Digit h1, base64Value_base64Digit h2, base64Value_base64Digit h3,
        base64Bytes]
      have hback1 : a / 4 * 4 + (a % 4 * 16 + b / 16) / 16 = a := by omega
      have hback2 : (a % 4 * 16 + b / 16) % 16 * 16 + b % 16 * 4 / 4 = b := by omega
      rw [hback1, hback2]
  | case4 a b c rest ih =>
      have ha : a < 256 := h a (by simp)
      have hb : b < 256 := h b (by simp)
      have hc : c < 256 := h c (by simp)
      have ih := ih fun x hx => h x (by simp [hx])
      have h1 : a / 4 < 64 := by omega
      have h2 : a % 4 * 16 + b / 16 < 64 := by omega
      have h3 : b % 16 * 4 + c / 64 < 64 := by omega
      have h4 : c % 64 < 64 := by omega
      rw [ofBase64url] at ih ⊢
      simp only [base64url, List.filterMap_cons, base64Value_base64Digit h1,
        base64Value_base64Digit h2, base64Value_base64Digit h3, base64Value_base64Digit h4,
        base64Bytes, ih]
      have hback1 : a / 4 * 4 + (a % 4 * 16 + b / 16) / 16 = a := by omega
      have hback2 : (a % 4 * 16 + b / 16) % 16 * 16 + (b % 16 * 4 + c / 64) / 4 = b := by omega
      have hback3 : (b % 16 * 4 + c / 64) % 4 * 64 + c % 64 = c := by omega
      rw [hback1, hback2, hback3]

/-- Bytes of a text are bytes. -/
lemma lt_of_mem_utf8 {s : JsString} {b : ℕ} (h : b ∈ utf8 s) : b < 256 := by
  obtain ⟨c, -, hb⟩ := List.mem_flatMap.mp h
  have hvalid := toNat_char c
  rw [utf8Point] at hb
  split_ifs at hb <;> simp only [List.mem_cons, List.not_mem_nil, or_false] at hb <;> omega

end JsString
