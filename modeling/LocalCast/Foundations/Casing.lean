import LocalCast.Foundations.JsString

/-!
Upper case, as `s.toUpperCase()` makes it: code point by code point, with the mapping of Unicode
as a parameter that says what becomes of ASCII and which other text becomes hexadecimal digits.

* `points`: the code points of a string, a surrogate without its pair being one of its own.
* `Uppercase`: the mapping; `Uppercase.toUpperCase` is the operation.
* `toUpperCase_of_hex`, `hex_of_toUpperCase`: the strings whose upper case is hexadecimal are
  digits and the ligature `U+FB00`, which is upper-cased to two.
* `Lowercase`: lower case as a parameter that says what becomes of ASCII.
-/

namespace JsString

/-- `s[Symbol.iterator]()`: the code points of a string. -/
def points : JsString → List ℕ
  | [] => []
  | [c] => [c.toNat]
  | c :: d :: cs =>
      if 0xD800 ≤ c ∧ c < 0xDC00 ∧ 0xDC00 ≤ d ∧ d < 0xE000 then
        (0x10000 + (c.toNat - 0xD800) * 0x400 + (d.toNat - 0xDC00)) :: points cs
      else c.toNat :: points (d :: cs)

/-- An upper-case hexadecimal digit. -/
def isUpperHex (c : CodeUnit) : Bool := (48 ≤ c && c ≤ 57) || (65 ≤ c && c ≤ 70)

/-- The unit of the ligature that is written as two letters F in upper case. -/
def ligature : CodeUnit := 0xFB00

/-- The upper-case mapping of Unicode. No code point beyond ASCII is mapped to hexadecimal digits
but the ligature. -/
structure Uppercase where
  map : ℕ → JsString
  map_ascii : ∀ v < 128, map v = [upperUnit v.toUInt16]
  map_ligature : map ligature.toNat = [70, 70]
  map_beyond : ∀ v, 128 ≤ v → v < 0x110000 → v ≠ ligature.toNat →
    (map v).all isUpperHex = false

/-- The mapping that leaves what is beyond ASCII as it is, but for the ligature. -/
def Uppercase.basic : Uppercase where
  map v :=
    if v < 128 then [upperUnit v.toUInt16]
    else if v = ligature.toNat then [70, 70]
    else if v < 0x10000 then [v.toUInt16]
    else [(0xD800 + (v - 0x10000) / 0x400).toUInt16, (0xDC00 + (v - 0x10000) % 0x400).toUInt16]
  map_ascii v h := if_pos h
  map_ligature := rfl
  map_beyond v h hlt hne := by
    have hunit {c : CodeUnit} (hc : 128 ≤ c.toNat) : isUpperHex c = false := by
      rw [Bool.eq_false_iff, isUpperHex]
      simp only [ne_eq, Bool.or_eq_true, Bool.and_eq_true, decide_eq_true_eq,
        UInt16.le_iff_toNat_le, UInt16.reduceToNat]
      omega
    have hnat {w : ℕ} (hw : w < 0x10000) : w.toUInt16.toNat = w := by
      rw [Nat.toUInt16, UInt16.toNat_ofNat', Nat.mod_eq_of_lt hw]
    rw [if_neg (by omega), if_neg hne]
    split_ifs with hplane
    · rw [List.all_cons, hunit (by rw [hnat hplane]; exact h), Bool.false_and]
    · rw [List.all_cons, hunit (by rw [hnat (by omega)]; omega), Bool.false_and]

/-- `s.toUpperCase()`. -/
def Uppercase.toUpperCase (u : Uppercase) (s : JsString) : JsString := (points s).flatMap u.map

/-- What a unit of hexadecimal text becomes. -/
def upperHexUnit (c : CodeUnit) : JsString := if c = ligature then [70, 70] else [upperUnit c]

/-- The units that become hexadecimal digits. -/
def becomesHex (c : CodeUnit) : Bool := isUpperHex (upperUnit c) || c = ligature

section Points

/-- One step through the points: a unit by itself, or a pair that is beyond the plane. -/
lemma points_cons (c : CodeUnit) (s : JsString) :
    points (c :: s) = c.toNat :: points s ∨
      ∃ d rest v, s = d :: rest ∧ points (c :: s) = v :: points rest ∧ 0x10000 ≤ v ∧
        v < 0x110000 ∧ 0xD800 ≤ c ∧ c < 0xDC00 := by
  cases s with
  | nil => exact .inl rfl
  | cons d rest =>
      rw [points]
      by_cases h : 0xD800 ≤ c ∧ c < 0xDC00 ∧ 0xDC00 ≤ d ∧ d < 0xE000
      · rw [if_pos h]
        refine .inr ⟨d, rest, _, rfl, rfl, by omega, ?_, h.1, h.2.1⟩
        obtain ⟨h1, h2, h3, h4⟩ := h
        simp only [UInt16.le_iff_toNat_le, UInt16.lt_iff_toNat_lt, UInt16.reduceToNat]
          at h1 h2 h3 h4
        omega
      · rw [if_neg h]
        exact .inl rfl

end Points

variable (u : Uppercase)

lemma map_unit {c : CodeUnit} (h : becomesHex c = true) : u.map c.toNat = upperHexUnit c := by
  rw [upperHexUnit]
  by_cases hc : c = ligature
  · rw [if_pos hc, hc]
    exact u.map_ligature
  · rw [becomesHex, decide_eq_false hc, Bool.or_false] at h
    have hlt : c.toNat < 128 := by
      by_contra hge
      have hself : upperUnit c = c := by
        rw [upperUnit, if_neg]
        simp only [UInt16.le_iff_toNat_le, UInt16.reduceToNat]
        omega
      rw [hself, isUpperHex] at h
      simp only [Bool.or_eq_true, Bool.and_eq_true, decide_eq_true_eq, UInt16.le_iff_toNat_le,
        UInt16.reduceToNat] at h
      omega
    rw [if_neg hc, u.map_ascii _ hlt, Nat.toUInt16, UInt16.ofNat_toNat]

lemma not_surrogate_of_becomesHex {c : CodeUnit} (h : becomesHex c = true) :
    ¬ (0xD800 ≤ c ∧ c < 0xDC00) := by
  intro hc
  simp only [UInt16.le_iff_toNat_le, UInt16.lt_iff_toNat_lt, UInt16.reduceToNat] at hc
  have hne : c ≠ ligature := by
    simp only [ligature, ne_eq, ← UInt16.toNat_inj, UInt16.reduceToNat]
    omega
  have hself : upperUnit c = c := by
    rw [upperUnit, if_neg]
    simp only [UInt16.le_iff_toNat_le, UInt16.reduceToNat]
    omega
  rw [becomesHex, decide_eq_false hne, Bool.or_false, hself, isUpperHex] at h
  simp only [Bool.or_eq_true, Bool.and_eq_true, decide_eq_true_eq, UInt16.le_iff_toNat_le,
    UInt16.reduceToNat] at h
  omega

/-- Hexadecimal text is upper-cased unit by unit. -/
theorem toUpperCase_of_hex {s : JsString} (h : s.all becomesHex = true) :
    u.toUpperCase s = s.flatMap upperHexUnit := by
  induction s with
  | nil => rfl
  | cons c s ih =>
      rw [List.all_cons, Bool.and_eq_true] at h
      have ih := ih h.2
      rw [Uppercase.toUpperCase] at ih ⊢
      rcases points_cons c s with hpoints | ⟨d, rest, v, -, -, -, -, hc⟩
      · rw [hpoints, List.flatMap_cons, List.flatMap_cons, map_unit u h.1, ih]
      · exact absurd hc (not_surrogate_of_becomesHex h.1)

lemma becomesHex_of_map {c : CodeUnit} (h : (u.map c.toNat).all isUpperHex = true) :
    becomesHex c = true := by
  rw [becomesHex]
  by_cases hc : c = ligature
  · rw [decide_eq_true hc, Bool.or_true]
  · by_cases hlt : c.toNat < 128
    · rw [u.map_ascii _ hlt, Nat.toUInt16, UInt16.ofNat_toNat, List.all_cons, List.all_nil,
        Bool.and_true] at h
      rw [h, Bool.true_or]
    · have hc16 := c.toNat_lt
      have hne : c.toNat ≠ ligature.toNat := fun heq => hc (UInt16.toNat_inj.mp heq)
      rw [u.map_beyond _ (by omega) (by omega) hne] at h
      exact absurd h Bool.false_ne_true

/-- Text whose upper case is hexadecimal is made of units that become digits. -/
theorem hex_of_toUpperCase {s : JsString} (h : (u.toUpperCase s).all isUpperHex = true) :
    s.all becomesHex = true := by
  induction s with
  | nil => rfl
  | cons c s ih =>
      rw [Uppercase.toUpperCase] at ih h
      rcases points_cons c s with hpoints | ⟨d, rest, v, -, hpoints, hlow, hhigh, -⟩
      · rw [hpoints, List.flatMap_cons, List.all_append, Bool.and_eq_true] at h
        rw [List.all_cons, becomesHex_of_map u h.1, ih h.2, Bool.and_self]
      · rw [hpoints, List.flatMap_cons, List.all_append, Bool.and_eq_true] at h
        have hne : v ≠ ligature.toNat := by
          simp only [ligature, UInt16.reduceToNat, ne_eq]
          omega
        rw [u.map_beyond v (by omega) hhigh hne] at h
        exact absurd h.1 Bool.false_ne_true

/-! ### Lower case -/

/-- `s.toLowerCase()`. -/
structure Lowercase where
  toLowerCase : JsString → JsString
  ascii : ∀ s, (∀ c ∈ s, c.toNat < 128) → toLowerCase s = lower s
  settled : ∀ s, ∀ c ∈ toLowerCase s, lowerUnit c = c

/-- Lower case that leaves what is beyond ASCII as it is. -/
def Lowercase.basic : Lowercase where
  toLowerCase := lower
  ascii _ _ := rfl
  settled s c hc := by
    obtain ⟨d, -, rfl⟩ := List.mem_map.mp hc
    have hlow : ¬ (65 ≤ lowerUnit d ∧ lowerUnit d ≤ 90) := by
      simp only [lowerUnit, UInt16.le_iff_toNat_le, UInt16.reduceToNat]
      split_ifs with hd
      · have hsum : (d + 32).toNat = d.toNat + 32 := by
          rw [UInt16.toNat_add, Nat.mod_eq_of_lt]
          · rfl
          · have hblank : (32 : UInt16).toNat = 32 := rfl
            omega
        omega
      · exact hd
    exact if_neg hlow

end JsString
