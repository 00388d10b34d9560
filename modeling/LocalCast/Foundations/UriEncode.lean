import LocalCast.Foundations.UriDecode
import LocalCast.Foundations.Utf8

/-!
`encodeURIComponent` of ECMAScript, and what `decodeURIComponent` makes of its output.

* `encodeURIComponent`: unreserved units stay, a surrogate without its pair makes the whole
  encoding fail (`none`, where the language throws a `URIError`), and everything else is the
  escaped bytes of its UTF-8.
* `decode_encode`: the round trip of a well-formed string; `wellFormed_decode`: what a
  well-formed string decodes to is well-formed.
* `wellFormed_split`: the pieces of a well-formed string are; `segments_append_sep`: a separator
  at the end adds none.
-/

namespace JsString

/-! ### The encoder -/

/-- Letters, digits and `-_.!~*'()`. -/
def isUnreserved (c : CodeUnit) : Bool :=
  (48 ≤ c && c ≤ 57) || (65 ≤ c && c ≤ 90) || (97 ≤ c && c ≤ 122) ||
    [45, 95, 46, 33, 126, 42, 39, 40, 41].contains c

/-- A hexadecimal digit, in upper case. -/
def hexDigit (v : ℕ) : CodeUnit := if v < 10 then (48 + v).toUInt16 else (55 + v).toUInt16

/-- `%HH`. -/
def escapeByte (b : ℕ) : JsString := [37, hexDigit (b / 16), hexDigit (b % 16)]

/-- The escapes of a code point. -/
def escapePoint (v : ℕ) : JsString := (utf8Point v).flatMap escapeByte

/-- A unit that is not the first of a pair. -/
def encodeUnit (c : CodeUnit) : Option JsString :=
  if isUnreserved c then some [c]
  else if 0xD800 ≤ c ∧ c < 0xE000 then none
  else some (escapePoint c.toNat)

/-- `encodeURIComponent`. -/
def encodeURIComponent : JsString → Option JsString
  | [] => some []
  | [c] => encodeUnit c
  | c :: d :: cs =>
      if 0xD800 ≤ c ∧ c < 0xDC00 ∧ 0xDC00 ≤ d ∧ d < 0xE000 then do
        let tail ← encodeURIComponent cs
        some (escapePoint (0x10000 + (c.toNat - 0xD800) * 0x400 + (d.toNat - 0xDC00)) ++ tail)
      else do
        let head ← encodeUnit c
        let tail ← encodeURIComponent (d :: cs)
        some (head ++ tail)

/-! ### Its text, character by character -/

/-- What becomes of a character. -/
def encodeUriChar (c : Char) : JsString :=
  if isUnreserved c.toNat.toUInt16 ∧ c.toNat < 0x10000 then [c.toNat.toUInt16]
  else escapePoint c.toNat

lemma isUnreserved_lt {c : CodeUnit} (h : isUnreserved c = true) : c.toNat < 128 := by
  simp only [isUnreserved, Bool.or_eq_true, Bool.and_eq_true, decide_eq_true_eq,
    List.contains_eq_mem, List.mem_cons, List.not_mem_nil, or_false, UInt16.le_iff_toNat_le,
    UInt16.reduceToNat] at h
  rcases h with ((h | h) | h) | h
  · omega
  · omega
  · omega
  · rcases h with rfl | rfl | rfl | rfl | rfl | rfl | rfl | rfl | rfl <;> decide

/-- A unit that stands for a character is encoded as it. -/
lemma encodeUnit_char {c : Char} (h : c.toNat < 0x10000) :
    encodeUnit c.toNat.toUInt16 = some (encodeUriChar c) := by
  have hvalid := toNat_char c
  have hnat : c.toNat.toUInt16.toNat = c.toNat := by
    rw [Nat.toUInt16, UInt16.toNat_ofNat', Nat.mod_eq_of_lt h]
  rw [encodeUnit, encodeUriChar]
  by_cases hfree : isUnreserved c.toNat.toUInt16 = true
  · rw [if_pos hfree, if_pos ⟨hfree, h⟩]
  · have hpair : ¬ (0xD800 ≤ c.toNat.toUInt16 ∧ c.toNat.toUInt16 < 0xE000) := by
      simp only [UInt16.le_iff_toNat_le, UInt16.lt_iff_toNat_lt, hnat, UInt16.reduceToNat]
      omega
    rw [if_neg hfree, if_neg hpair, if_neg fun h => hfree h.1, hnat]

lemma encodeURIComponent_char (c : Char) (rest : JsString) :
    encodeURIComponent (encodeChar c ++ rest) =
      (encodeURIComponent rest).map (encodeUriChar c ++ ·) := by
  have hvalid := toNat_char c
  by_cases hlow : c.toNat < 0x10000
  · have hnat : c.toNat.toUInt16.toNat = c.toNat := by
      rw [Nat.toUInt16, UInt16.toNat_ofNat', Nat.mod_eq_of_lt hlow]
    have hplain : ¬ (0xD800 ≤ c.toNat.toUInt16 ∧ c.toNat.toUInt16 < 0xDC00) := by
      simp only [UInt16.le_iff_toNat_le, UInt16.lt_iff_toNat_lt, hnat, UInt16.reduceToNat]
      omega
    rw [encodeChar, if_pos hlow, List.singleton_append]
    cases rest with
    | nil =>
        rw [show encodeURIComponent [] = some [] from rfl, Option.map_some, List.append_nil,
          ← encodeUnit_char hlow]
        rfl
    | cons d rest =>
        rw [encodeURIComponent, if_neg fun h => hplain ⟨h.1, h.2.1⟩, encodeUnit_char hlow]
        cases encodeURIComponent (d :: rest) with
        | none => rfl
        | some tail => rfl
  · have hhigh : (0xD800 + (c.toNat - 0x10000) / 0x400).toUInt16.toNat =
        0xD800 + (c.toNat - 0x10000) / 0x400 := by
      rw [Nat.toUInt16, UInt16.toNat_ofNat', Nat.mod_eq_of_lt (by omega)]
    have hlast : (0xDC00 + (c.toNat - 0x10000) % 0x400).toUInt16.toNat =
        0xDC00 + (c.toNat - 0x10000) % 0x400 := by
      rw [Nat.toUInt16, UInt16.toNat_ofNat', Nat.mod_eq_of_lt (by omega)]
    have hvalue : 0x10000 + (0xD800 + (c.toNat - 0x10000) / 0x400 - 0xD800) * 0x400 +
        (0xDC00 + (c.toNat - 0x10000) % 0x400 - 0xDC00) = c.toNat := by omega
    rw [encodeChar, if_neg hlow, List.cons_append, List.singleton_append, encodeURIComponent,
      if_pos, hhigh, hlast, hvalue, encodeUriChar, if_neg fun h => hlow h.2]
    · cases encodeURIComponent rest with
      | none => rfl
      | some tail => rfl
    · simp only [UInt16.le_iff_toNat_le, UInt16.lt_iff_toNat_lt, hhigh, hlast, UInt16.reduceToNat]
      omega

/-- A text is encoded character by character. -/
lemma encodeURIComponent_flatMap (cs : List Char) :
    encodeURIComponent (cs.flatMap encodeChar) = some (cs.flatMap encodeUriChar) := by
  induction cs with
  | nil => rfl
  | cons c cs ih =>
      rw [List.flatMap_cons, encodeURIComponent_char, ih, Option.map_some, List.flatMap_cons]

/-- What is encoded is well-formed. -/
lemma wellFormed_of_encode {s t : JsString} (h : encodeURIComponent s = some t) :
    WellFormed s := by
  have hunit {c : CodeUnit} {t : JsString} (h : encodeUnit c = some t) : WellFormed [c] := by
    refine wellFormed_unit fun hpair => ?_
    rw [encodeUnit] at h
    split_ifs at h with hfree
    · have hlt := isUnreserved_lt hfree
      simp only [UInt16.le_iff_toNat_le, UInt16.reduceToNat] at hpair
      omega
  induction s using encodeURIComponent.induct generalizing t with
  | case1 => exact ⟨[], rfl⟩
  | case2 c => exact hunit h
  | case3 c d cs hpair ih =>
      rw [encodeURIComponent, if_pos hpair] at h
      obtain ⟨tail, htail, -⟩ := Option.bind_eq_some_iff.mp h
      exact (wellFormed_pair ⟨hpair.1, hpair.2.1⟩ hpair.2.2).append (ih htail)
  | case4 c d cs hpair ih =>
      rw [encodeURIComponent, if_neg hpair] at h
      obtain ⟨head, hhead, h⟩ := Option.bind_eq_some_iff.mp h
      obtain ⟨tail, htail, -⟩ := Option.bind_eq_some_iff.mp h
      exact (hunit hhead).append (ih htail)

/-! ### The units of the output -/

lemma hexDigit_toNat {v : ℕ} (h : v < 16) :
    (hexDigit v).toNat = if v < 10 then 48 + v else 55 + v := by
  rw [hexDigit]
  split_ifs <;> rw [Nat.toUInt16, UInt16.toNat_ofNat', Nat.mod_eq_of_lt (by omega)]

lemma hexVal_hexDigit {v : ℕ} (h : v < 16) : hexVal (hexDigit v) = some v := by
  have hnat := hexDigit_toNat h
  simp only [hexVal, UInt16.le_iff_toNat_le, UInt16.reduceToNat, hnat]
  split_ifs <;> first | omega | exact congrArg some (by omega)

/-- An unreserved unit or `%`. -/
def isUriUnit (c : CodeUnit) : Bool := isUnreserved c || c == 37

lemma isUriUnit_hexDigit {v : ℕ} (h : v < 16) : isUriUnit (hexDigit v) = true := by
  have hnat := hexDigit_toNat h
  have hdigit : (48 ≤ hexDigit v ∧ hexDigit v ≤ 57) ∨ (65 ≤ hexDigit v ∧ hexDigit v ≤ 90) := by
    simp only [UInt16.le_iff_toNat_le, UInt16.reduceToNat, hnat]
    split_ifs <;> omega
  rw [isUriUnit, isUnreserved]
  rcases hdigit with hdigit | hdigit
  · simp [hdigit]
  · simp [hdigit]

lemma utf8Point_lt_256 {c : Char} {b : ℕ} (h : b ∈ utf8Point c.toNat) : b < 256 := by
  have hvalid := toNat_char c
  rw [utf8Point] at h
  split_ifs at h <;>
    simp only [List.mem_cons, List.not_mem_nil, or_false] at h <;> omega

/-- The output is made of unreserved units and escapes. -/
lemma isUriUnit_of_encodeUriChar {c : Char} {u : CodeUnit} (h : u ∈ encodeUriChar c) :
    isUriUnit u = true := by
  rw [encodeUriChar] at h
  split_ifs at h with hfree
  · rw [List.mem_singleton.mp h, isUriUnit, hfree.1, Bool.true_or]
  · obtain ⟨b, hb, hu⟩ := List.mem_flatMap.mp h
    have hlt := utf8Point_lt_256 hb
    simp only [escapeByte, List.mem_cons, List.not_mem_nil, or_false] at hu
    rcases hu with rfl | rfl | rfl
    · rfl
    · exact isUriUnit_hexDigit (by omega)
    · exact isUriUnit_hexDigit (by omega)

lemma isUriUnit_of_encode {s t : JsString} (h : encodeURIComponent s = some t) :
    ∀ c ∈ t, isUriUnit c = true := by
  obtain ⟨cs, rfl⟩ := wellFormed_of_encode h
  rw [encodeURIComponent_flatMap, Option.some.injEq] at h
  rintro u hu
  rw [← h] at hu
  obtain ⟨c, hc, hu⟩ := List.mem_flatMap.mp hu
  exact isUriUnit_of_encodeUriChar hu

/-! ### Decoding the output -/

lemma takeEscape_escapeByte {b : ℕ} (h : b < 256) (rest : JsString) :
    takeEscape (escapeByte b ++ rest) = some (b, rest) := by
  rw [escapeByte, List.cons_append, List.cons_append, List.singleton_append, takeEscape,
    hexVal_hexDigit (by omega), hexVal_hexDigit (by omega)]
  exact congrArg (fun v => some (v, rest)) (by omega)

lemma takeContinuation_escapeByte {n v b : ℕ} (h : b < 64) (rest : JsString) :
    takeContinuation (n + 1) v (escapeByte (0x80 + b) ++ rest) =
      takeContinuation n (64 * v + b) rest := by
  rw [takeContinuation, takeEscape_escapeByte (by omega)]
  have hvalue : 64 * v + (0x80 + b - 0x80) = 64 * v + b := by omega
  simp only [Option.bind_eq_bind, Option.bind_some]
  rw [if_pos (by omega), hvalue]

/-- The escapes of a scalar value are read as it. -/
lemma takePoint_escapePoint (c : Char) (rest : JsString) :
    takePoint (escapePoint c.toNat ++ rest) = some (c.toNat, rest) := by
  have hvalid := toNat_char c
  rw [escapePoint, utf8Point, takePoint]
  split_ifs with h1 h2 h3
  · rw [List.flatMap_singleton, takeEscape_escapeByte (by omega)]
    simp only [Option.bind_eq_bind, Option.bind_some]
    rw [if_pos h1]
  · simp only [List.flatMap_cons, List.flatMap_nil, List.append_nil, List.append_assoc]
    rw [takeEscape_escapeByte (by omega)]
    simp only [Option.bind_eq_bind, Option.bind_some]
    rw [if_neg (by omega), if_pos (by omega), takeContinuation_escapeByte (by omega),
      takeContinuation]
    exact congrArg (fun v => some (v, rest)) (by omega)
  · simp only [List.flatMap_cons, List.flatMap_nil, List.append_nil, List.append_assoc]
    rw [takeEscape_escapeByte (by omega)]
    simp only [Option.bind_eq_bind, Option.bind_some]
    rw [if_neg (by omega), if_neg (by omega), if_pos (by omega),
      takeContinuation_escapeByte (by omega), takeContinuation_escapeByte (by omega),
      takeContinuation]
    simp only [Option.bind_some]
    rw [if_pos (by omega)]
    exact congrArg (fun v => some (v, rest)) (by omega)
  · simp only [List.flatMap_cons, List.flatMap_nil, List.append_nil, List.append_assoc]
    rw [takeEscape_escapeByte (by omega)]
    simp only [Option.bind_eq_bind, Option.bind_some]
    rw [if_neg (by omega), if_neg (by omega), if_neg (by omega), if_pos (by omega),
      takeContinuation_escapeByte (by omega), takeContinuation_escapeByte (by omega),
      takeContinuation_escapeByte (by omega), takeContinuation]
    simp only [Option.bind_some]
    rw [if_pos (by omega)]
    exact congrArg (fun v => some (v, rest)) (by omega)

lemma encodePoint_toNat (c : Char) : encodePoint c.toNat = encodeChar c := rfl

/-- The escapes begin with `%`. -/
lemma escapePoint_eq_cons (v : ℕ) : ∃ tail, escapePoint v = 37 :: tail := by
  rw [escapePoint, utf8Point]
  split_ifs <;> exact ⟨_, rfl⟩

/-- One turn of the decoder reads what the encoder wrote for a character. -/
lemma decodeLoop_encodeUriChar (fuel : ℕ) (c : Char) (rest : JsString) :
    decodeLoop (fuel + 1) (encodeUriChar c ++ rest) =
      (decodeLoop fuel rest).map (encodeChar c ++ ·) := by
  rw [encodeUriChar]
  split_ifs with hfree
  · have hpercent : c.toNat.toUInt16 ≠ 37 := by
      intro h
      rw [h] at hfree
      exact absurd hfree.1 (by decide)
    rw [List.singleton_append, decodeLoop, if_neg hpercent, encodeChar, if_pos hfree.2]
    cases decodeLoop fuel rest with
    | none => rfl
    | some tail => rfl
  · obtain ⟨tail, htail⟩ := escapePoint_eq_cons c.toNat
    have htake := takePoint_escapePoint c rest
    rw [htail, List.cons_append] at htake ⊢
    rw [decodeLoop, if_pos rfl, htake]
    simp only [Option.bind_eq_bind, Option.bind_some]
    cases decodeLoop fuel rest with
    | none => rfl
    | some tail => rfl

lemma encodeUriChar_ne_nil (c : Char) : encodeUriChar c ≠ [] := by
  rw [encodeUriChar]
  split_ifs
  · exact List.cons_ne_nil _ _
  · obtain ⟨tail, htail⟩ := escapePoint_eq_cons c.toNat
    rw [htail]
    exact List.cons_ne_nil _ _

lemma decodeLoop_flatMap (cs : List Char) {fuel : ℕ}
    (h : (cs.flatMap encodeUriChar).length ≤ fuel) :
    decodeLoop fuel (cs.flatMap encodeUriChar) = some (cs.flatMap encodeChar) := by
  induction cs generalizing fuel with
  | nil =>
      rw [List.flatMap_nil, List.flatMap_nil]
      cases fuel <;> rfl
  | cons c cs ih =>
      have hpos := List.length_pos_iff.mpr (encodeUriChar_ne_nil c)
      rw [List.flatMap_cons, List.length_append] at h
      obtain ⟨fuel, rfl⟩ : ∃ n, fuel = n + 1 := ⟨fuel - 1, by omega⟩
      rw [List.flatMap_cons, decodeLoop_encodeUriChar, ih (by omega), Option.map_some,
        List.flatMap_cons]

/-- **A well-formed string is encoded, and its encoding decodes to it.** -/
theorem decode_encode {s : JsString} (hs : WellFormed s) :
    ∃ t, encodeURIComponent s = some t ∧ decodeURIComponent t = some s := by
  obtain ⟨cs, rfl⟩ := hs
  exact ⟨_, encodeURIComponent_flatMap cs, decodeLoop_flatMap cs le_rfl⟩

lemma encode_ne_nil {s t : JsString} (hs : s ≠ []) (hwf : WellFormed s)
    (h : encodeURIComponent s = some t) : t ≠ [] := by
  rintro rfl
  obtain ⟨u, hu, hdecode⟩ := decode_encode hwf
  rw [h, Option.some.injEq] at hu
  subst hu
  exact hs (Option.some.inj hdecode).symm

/-! ### Decoding a well-formed string -/

/-- A unit outside the surrogates is a character of its own. -/
lemma WellFormed.tail {c : CodeUnit} {s : JsString} (h : WellFormed (c :: s))
    (hc : ¬ (0xD800 ≤ c ∧ c < 0xE000)) : WellFormed s := by
  obtain ⟨cs, hcs⟩ := h
  cases cs with
  | nil => cases hcs
  | cons d cs =>
      have hvalid := toNat_char d
      rw [List.flatMap_cons, encodeChar] at hcs
      split_ifs at hcs with hlow
      · exact ⟨cs, (List.cons.inj hcs).2⟩
      · refine absurd ?_ hc
        have hhigh : (0xD800 + (d.toNat - 0x10000) / 0x400).toUInt16.toNat =
            0xD800 + (d.toNat - 0x10000) / 0x400 := by
          rw [Nat.toUInt16, UInt16.toNat_ofNat', Nat.mod_eq_of_lt (by omega)]
        rw [(List.cons.inj hcs).1]
        simp only [UInt16.le_iff_toNat_le, UInt16.lt_iff_toNat_lt, hhigh, UInt16.reduceToNat]
        omega

/-- A surrogate has its pair. -/
lemma WellFormed.pair {c : CodeUnit} {s : JsString} (h : WellFormed (c :: s))
    (hc : 0xD800 ≤ c ∧ c < 0xE000) :
    ∃ d rest, s = d :: rest ∧ WellFormed [c, d] ∧ d ≠ 37 ∧ WellFormed rest := by
  obtain ⟨cs, hcs⟩ := h
  cases cs with
  | nil => cases hcs
  | cons d cs =>
      have hvalid := toNat_char d
      rw [List.flatMap_cons] at hcs
      by_cases hlow : d.toNat < 0x10000
      · have hnat : d.toNat.toUInt16.toNat = d.toNat := by
          rw [Nat.toUInt16, UInt16.toNat_ofNat', Nat.mod_eq_of_lt hlow]
        rw [encodeChar, if_pos hlow, List.singleton_append] at hcs
        rw [(List.cons.inj hcs).1] at hc
        simp only [UInt16.le_iff_toNat_le, UInt16.lt_iff_toNat_lt, hnat, UInt16.reduceToNat] at hc
        omega
      · have hlast : (0xDC00 + (d.toNat - 0x10000) % 0x400).toUInt16.toNat =
            0xDC00 + (d.toNat - 0x10000) % 0x400 := by
          rw [Nat.toUInt16, UInt16.toNat_ofNat', Nat.mod_eq_of_lt (by omega)]
        have hchar := wellFormed_encodeChar d
        rw [encodeChar, if_neg hlow] at hcs hchar
        rw [List.cons_append, List.singleton_append] at hcs
        rw [(List.cons.inj hcs).1]
        refine ⟨_, _, (List.cons.inj hcs).2, hchar, ?_, ⟨cs, rfl⟩⟩
        intro h
        have hvalue := congrArg UInt16.toNat h
        rw [hlast] at hvalue
        simp only [UInt16.reduceToNat] at hvalue
        omega

lemma takeEscape_eq_some {s rest : JsString} {b : ℕ} (h : takeEscape s = some (b, rest)) :
    b < 256 ∧ (WellFormed s → WellFormed rest) := by
  have hdigit {c : CodeUnit} {v : ℕ} (h : hexVal c = some v) :
      v < 16 ∧ ¬ (0xD800 ≤ c ∧ c < 0xE000) := by
    simp only [hexVal, UInt16.le_iff_toNat_le, UInt16.lt_iff_toNat_lt, UInt16.reduceToNat] at h ⊢
    split_ifs at h <;> simp only [Option.some.injEq] at h <;> omega
  unfold takeEscape at h
  split at h
  · rename_i a c tail
    obtain ⟨x, hx, h⟩ := Option.bind_eq_some_iff.mp h
    obtain ⟨y, hy, h⟩ := Option.bind_eq_some_iff.mp h
    obtain ⟨rfl, rfl⟩ := Prod.mk.inj (Option.some.inj h)
    have hfirst := hdigit hx
    have hsecond := hdigit hy
    exact ⟨by omega, fun hs => ((hs.tail (by decide)).tail hfirst.2).tail hsecond.2⟩
  · cases h

lemma takeContinuation_eq_some {n v w : ℕ} {s rest : JsString}
    (h : takeContinuation n v s = some (w, rest)) :
    w < 64 ^ n * (v + 1) ∧ (WellFormed s → WellFormed rest) := by
  induction n generalizing v s with
  | zero =>
      obtain ⟨rfl, rfl⟩ := Prod.mk.inj (Option.some.inj h)
      exact ⟨by omega, id⟩
  | succ n ih =>
      rw [takeContinuation] at h
      obtain ⟨⟨b, tail⟩, hb, h⟩ := Option.bind_eq_some_iff.mp h
      simp only at h
      split_ifs at h with hrange
      obtain ⟨hlt, htail⟩ := ih h
      refine ⟨lt_of_lt_of_le hlt ?_, fun hs => htail ((takeEscape_eq_some hb).2 hs)⟩
      rw [pow_succ, mul_assoc]
      exact Nat.mul_le_mul_left _ (by omega)

/-- What an escape stands for is a scalar value. -/
lemma takePoint_eq_some {s rest : JsString} {v : ℕ} (h : takePoint s = some (v, rest)) :
    v.isValidChar ∧ (WellFormed s → WellFormed rest) := by
  rw [takePoint] at h
  obtain ⟨⟨b, tail⟩, hb, h⟩ := Option.bind_eq_some_iff.mp h
  obtain ⟨hlt, htail⟩ := takeEscape_eq_some hb
  simp only at h
  rw [Nat.isValidChar]
  split_ifs at h with h1 h2 h3 h4
  · obtain ⟨rfl, rfl⟩ := Prod.mk.inj (Option.some.inj h)
    exact ⟨by omega, htail⟩
  · obtain ⟨hbound, hrest⟩ := takeContinuation_eq_some h
    exact ⟨by omega, fun hs => hrest (htail hs)⟩
  · obtain ⟨⟨w, rest'⟩, hw, h⟩ := Option.bind_eq_some_iff.mp h
    obtain ⟨hbound, hrest⟩ := takeContinuation_eq_some hw
    simp only at h
    split_ifs at h with hscalar
    obtain ⟨rfl, rfl⟩ := Prod.mk.inj (Option.some.inj h)
    exact ⟨by omega, fun hs => hrest (htail hs)⟩
  · obtain ⟨⟨w, rest'⟩, hw, h⟩ := Option.bind_eq_some_iff.mp h
    obtain ⟨hbound, hrest⟩ := takeContinuation_eq_some hw
    simp only at h
    split_ifs at h with hscalar
    obtain ⟨rfl, rfl⟩ := Prod.mk.inj (Option.some.inj h)
    exact ⟨by omega, fun hs => hrest (htail hs)⟩

lemma wellFormed_encodePoint {v : ℕ} (h : v.isValidChar) : WellFormed (encodePoint v) := by
  have hv : (Char.ofNat v).toNat = v := by
    rw [Char.ofNat, dif_pos h]
    rfl
  have hchar := wellFormed_encodeChar (Char.ofNat v)
  rwa [← encodePoint_toNat, hv] at hchar

lemma wellFormed_decodeLoop {fuel : ℕ} {s t : JsString} (hs : WellFormed s)
    (h : decodeLoop fuel s = some t) : WellFormed t := by
  induction fuel using Nat.strong_induction_on generalizing s t with
  | _ fuel ih =>
      cases s with
      | nil =>
          have hnil : t = [] := by
            cases fuel <;> exact (Option.some.inj h).symm
          rw [hnil]
          exact ⟨[], rfl⟩
      | cons c cs =>
          cases fuel with
          | zero => cases h
          | succ fuel =>
              rw [decodeLoop] at h
              split_ifs at h with hc
              · obtain ⟨⟨v, rest⟩, hv, h⟩ := Option.bind_eq_some_iff.mp h
                obtain ⟨tail, htail, h⟩ := Option.bind_eq_some_iff.mp h
                obtain ⟨hvalid, hrest⟩ := takePoint_eq_some hv
                rw [← Option.some.inj h]
                exact (wellFormed_encodePoint hvalid).append
                  (ih fuel (by omega) (hrest hs) htail)
              · obtain ⟨tail, htail, h⟩ := Option.bind_eq_some_iff.mp h
                rw [← Option.some.inj h]
                by_cases hpair : 0xD800 ≤ c ∧ c < 0xE000
                · -- both halves of a pair are copied
                  obtain ⟨d, rest, rfl, htwo, hd, hrest⟩ := hs.pair hpair
                  cases fuel with
                  | zero => cases htail
                  | succ fuel =>
                      rw [decodeLoop, if_neg hd] at htail
                      obtain ⟨tail', htail', heq⟩ := Option.bind_eq_some_iff.mp htail
                      rw [← Option.some.inj heq]
                      exact htwo.append (ih fuel (by omega) hrest htail')
                · exact (wellFormed_unit hpair).append (ih fuel (by omega) (hs.tail hpair) htail)

/-- What a well-formed string decodes to is well-formed. -/
lemma wellFormed_decode {s t : JsString} (hs : WellFormed s)
    (h : decodeURIComponent s = some t) : WellFormed t :=
  wellFormed_decodeLoop hs h

/-- Nothing but the empty string decodes to the empty string. -/
lemma decode_ne_nil {s t : JsString} (hs : s ≠ []) (h : decodeURIComponent s = some t) :
    t ≠ [] := by
  have hpoint (v : ℕ) : encodePoint v ≠ [] := by
    rw [encodePoint]
    split_ifs <;> exact List.cons_ne_nil _ _
  rintro rfl
  cases s with
  | nil => exact hs rfl
  | cons c cs =>
      rw [decodeURIComponent, List.length_cons, decodeLoop] at h
      split_ifs at h
      · obtain ⟨⟨v, rest⟩, -, h⟩ := Option.bind_eq_some_iff.mp h
        obtain ⟨tail, -, h⟩ := Option.bind_eq_some_iff.mp h
        exact hpoint v (List.append_eq_nil_iff.mp (Option.some.inj h)).1
      · obtain ⟨tail, -, h⟩ := Option.bind_eq_some_iff.mp h
        cases h

/-! ### Splitting -/

/-- A string is split on both sides of a separator. -/
lemma splitOn_append {sep : CodeUnit → Bool} {d : CodeUnit} (hd : sep d = true)
    (s t : JsString) : splitOn sep (s ++ d :: t) = splitOn sep s ++ splitOn sep t := by
  induction s with
  | nil => simp [splitOn, hd]
  | cons c s ih =>
      rw [List.cons_append]
      by_cases hc : sep c = true
      · rw [splitOn, if_pos hc, ih, splitOn, if_pos hc, List.cons_append]
      · have hc' : sep c = false := by simpa using hc
        obtain ⟨p, ps, hsplit, heq⟩ := splitOn_cons_of_not c s hc'
        obtain ⟨q, qs, hsplit', heq'⟩ := splitOn_cons_of_not c (s ++ d :: t) hc'
        rw [ih, hsplit, List.cons_append, List.cons.injEq] at hsplit'
        rw [heq, heq', ← hsplit'.1, ← hsplit'.2, List.cons_append]

/-- A unit of a joined string is one of a piece or of the separator. -/
lemma mem_join {d : JsString} {c : CodeUnit} {ps : List JsString} (h : c ∈ join d ps) :
    c ∈ d ∨ ∃ p ∈ ps, c ∈ p := by
  induction ps with
  | nil => cases h
  | cons p ps ih =>
      cases ps with
      | nil =>
          rw [join, List.intercalate, List.intersperse, List.flatten_singleton] at h
          exact .inr ⟨p, List.mem_cons_self, h⟩
      | cons q ps =>
          have hjoin : join d (p :: q :: ps) = p ++ (d ++ join d (q :: ps)) := by
            simp [join, List.intercalate]
          rw [hjoin, List.mem_append, List.mem_append] at h
          rcases h with h | h | h
          · exact .inr ⟨p, List.mem_cons_self, h⟩
          · exact .inl h
          · rcases ih h with h | ⟨r, hr, h⟩
            · exact .inl h
            · exact .inr ⟨r, List.mem_cons_of_mem _ hr, h⟩

/-- A separator at the end adds no segment. -/
lemma segments_append_sep {sep : CodeUnit → Bool} {d : CodeUnit} (hd : sep d = true)
    (s : JsString) : segments sep (s ++ [d]) = segments sep s := by
  rw [segments, splitOn_append hd, List.filter_append]
  exact List.append_nil _

/-- A well-formed string splits into well-formed pieces. -/
lemma wellFormed_split {sep : CodeUnit → Bool}
    (hsep : ∀ c, 0xD800 ≤ c ∧ c < 0xE000 → sep c = false) {s : JsString} (hs : WellFormed s) :
    ∀ p ∈ splitOn sep s, WellFormed p := by
  obtain ⟨cs, rfl⟩ := hs
  induction cs with
  | nil =>
      intro p hp
      rw [List.mem_singleton.mp hp]
      exact ⟨[], rfl⟩
  | cons c cs ih =>
      have hvalid := toNat_char c
      rw [List.flatMap_cons, encodeChar]
      split_ifs with hlow
      · rw [List.singleton_append]
        by_cases hc : sep c.toNat.toUInt16 = true
        · rw [splitOn, if_pos hc]
          exact List.forall_mem_cons.mpr ⟨⟨[], rfl⟩, ih⟩
        · obtain ⟨q, qs, hq, hsplit⟩ := splitOn_cons_of_not c.toNat.toUInt16
            (cs.flatMap encodeChar) (by simpa using hc)
          have hchar := wellFormed_encodeChar c
          rw [encodeChar, if_pos hlow] at hchar
          rw [hq] at ih
          rw [hsplit]
          obtain ⟨hhead, hrest⟩ := List.forall_mem_cons.mp ih
          exact List.forall_mem_cons.mpr ⟨hchar.append hhead, hrest⟩
      · have hchar := wellFormed_encodeChar c
        rw [encodeChar, if_neg hlow] at hchar
        have hhigh : (0xD800 + (c.toNat - 0x10000) / 0x400).toUInt16.toNat =
            0xD800 + (c.toNat - 0x10000) / 0x400 := by
          rw [Nat.toUInt16, UInt16.toNat_ofNat', Nat.mod_eq_of_lt (by omega)]
        have hlast : (0xDC00 + (c.toNat - 0x10000) % 0x400).toUInt16.toNat =
            0xDC00 + (c.toNat - 0x10000) % 0x400 := by
          rw [Nat.toUInt16, UInt16.toNat_ofNat', Nat.mod_eq_of_lt (by omega)]
        have hfirst := hsep (0xD800 + (c.toNat - 0x10000) / 0x400).toUInt16 (by
          simp only [UInt16.le_iff_toNat_le, UInt16.lt_iff_toNat_lt, hhigh, UInt16.reduceToNat]
          omega)
        have hsecond := hsep (0xDC00 + (c.toNat - 0x10000) % 0x400).toUInt16 (by
          simp only [UInt16.le_iff_toNat_le, UInt16.lt_iff_toNat_lt, hlast, UInt16.reduceToNat]
          omega)
        obtain ⟨q, qs, hq, hsplit⟩ := splitOn_cons_of_not _ (cs.flatMap encodeChar) hsecond
        obtain ⟨r, rs, hr, hsplit'⟩ := splitOn_cons_of_not _ (_ :: cs.flatMap encodeChar) hfirst
        rw [hsplit, List.cons.injEq] at hr
        obtain ⟨rfl, rfl⟩ := hr
        rw [hq] at ih
        rw [List.cons_append, List.cons_append, List.nil_append, hsplit']
        obtain ⟨hhead, hrest⟩ := List.forall_mem_cons.mp ih
        exact List.forall_mem_cons.mpr ⟨hchar.append hhead, hrest⟩

example : encodeURIComponent (js "Q&A 100% é/😀.mp4") =
    some (js "Q%26A%20100%25%20%C3%A9%2F%F0%9F%98%80.mp4") := by decide

end JsString
