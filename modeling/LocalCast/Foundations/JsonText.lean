import LocalCast.Foundations.Json
import Mathlib.Data.List.TakeWhile

/-!
JSON as it is written, and that it is read back.

* `Escapes`: how strings are escaped; any way will do that is read back. `Escapes.js` is that of
  `JSON.stringify`, `Escapes.go` that of `encoding/json`.
* `render`: the text of a value, without blanks or indented.
* `Whole`: the values whose numbers are integers and whose strings are of a kind.
* `Closed.render`: what all parts of a text have, the text has; so one that is not indented
  stands on one line (`plain_render`), and texts are well-formed UTF-16 (`closed_wellFormed`).
* `value_render`, `parse_render`: a text is read back as the value it was written from.
-/

open JsString JsNumber

namespace Json

/-! ### Writing -/

/-- A way to write what stands between the quotes of a string. -/
structure Escapes where
  body : JsString → JsString
  stringBody_body : ∀ s rest, stringBody (body s ++ 34 :: rest) = some (s, rest)

/-- How `JSON.stringify` escapes. -/
def Escapes.js : Escapes := ⟨quoteBody, stringBody_quote⟩

/-- A unit as `encoding/json` writes it: what HTML gives a meaning is escaped as well. -/
def goUnit (c : CodeUnit) : JsString :=
  match shortEscape c with
  | some e => [92, e]
  | none => if c < 32 ∨ c = 60 ∨ c = 62 ∨ c = 38 ∨ c = 0x2028 ∨ c = 0x2029 then hexEscape c else [c]

lemma stringBody_goUnit (c : CodeUnit) (rest : JsString) :
    stringBody (goUnit c ++ rest) = (stringBody rest).map fun t => (c :: t.1, t.2) := by
  cases hshort : shortEscape c with
  | some e =>
      obtain ⟨hback, hne⟩ := shortEscape_spec hshort
      rw [goUnit, hshort, stringBody.eq_def]
      simp [hback, hne]
  | none =>
      simp only [goUnit, hshort]
      split_ifs with hhex
      · exact stringBody_hexEscape c rest
      · rw [List.singleton_append]
        refine stringBody_unit ?_ ?_ (fun hc => hhex (.inl hc)) rest
        · rintro rfl
          cases hshort
        · rintro rfl
          cases hshort

lemma stringBody_goUnits (s rest : JsString) :
    stringBody (s.flatMap goUnit ++ 34 :: rest) = some (s, rest) := by
  induction s with
  | nil =>
      rw [List.flatMap_nil, List.nil_append, stringBody.eq_def]
      simp
  | cons c s ih => rw [List.flatMap_cons, List.append_assoc, stringBody_goUnit, ih, Option.map_some]

/-- How `encoding/json` escapes. -/
def Escapes.go : Escapes := ⟨fun s => s.flatMap goUnit, stringBody_goUnits⟩

/-- What stands before a part at a depth: nothing, or a line break and the indent. -/
def newline (indent : Option ℕ) (depth : ℕ) : JsString :=
  match indent with
  | none => []
  | some n => 10 :: List.replicate (n * depth) 32

def colon (indent : Option ℕ) : JsString := if indent.isSome then [58, 32] else [58]

mutual

/-- The text of a value at a depth; of a number, its numerator. -/
def render (e : Escapes) (indent : Option ℕ) (depth : ℕ) : Json → JsString
  | .null => js "null"
  | .bool b => if b then js "true" else js "false"
  | .num n => integer n.num
  | .str s => 34 :: (e.body s ++ [34])
  | .arr [] => js "[]"
  | .arr (v :: vs) =>
      91 :: (newline indent (depth + 1) ++ render e indent (depth + 1) v ++
        renderItems e indent depth vs)
  | .obj [] => js "{}"
  | .obj ((name, v) :: ms) =>
      123 :: (newline indent (depth + 1) ++ 34 :: (e.body name ++ 34 :: colon indent) ++
        render e indent (depth + 1) v ++ renderMembers e indent depth ms)

/-- What follows an item of an array. -/
def renderItems (e : Escapes) (indent : Option ℕ) (depth : ℕ) : List Json → JsString
  | [] => newline indent depth ++ [93]
  | v :: vs =>
      44 :: (newline indent (depth + 1) ++ render e indent (depth + 1) v ++
        renderItems e indent depth vs)

/-- What follows a member of an object. -/
def renderMembers (e : Escapes) (indent : Option ℕ) (depth : ℕ) :
    List (JsString × Json) → JsString
  | [] => newline indent depth ++ [125]
  | (name, v) :: ms =>
      44 :: (newline indent (depth + 1) ++ 34 :: (e.body name ++ 34 :: colon indent) ++
        render e indent (depth + 1) v ++ renderMembers e indent depth ms)

end

/-- The values whose numbers are integers and whose strings are all of a kind. -/
inductive Whole (P : JsString → Prop) : Json → Prop
  | null : Whole P .null
  | bool (b : Bool) : Whole P (.bool b)
  | num (z : ℤ) : Whole P (.num z)
  | str {s : JsString} (h : P s) : Whole P (.str s)
  | arr {items : List Json} (h : ∀ v ∈ items, Whole P v) : Whole P (.arr items)
  | obj {members : List (JsString × Json)} (hnames : ∀ m ∈ members, P m.1)
      (h : ∀ m ∈ members, Whole P m.2) : Whole P (.obj members)

/-- Nothing is asked of the strings. -/
abbrev Integral : Json → Prop := Whole fun _ => True

lemma Whole.integral {P : JsString → Prop} {j : Json} (h : Whole P j) : Integral j := by
  induction h with
  | null => exact .null
  | bool b => exact .bool b
  | num z => exact .num z
  | str h => exact .str trivial
  | arr h ih => exact .arr ih
  | obj hnames h ih => exact .obj (fun _ _ => trivial) ih

/-! ### What a text is made of -/

/-- A property of texts that the parts of a text have, and that is kept when they are put
together. -/
structure Closed (e : Escapes) (indent : Option ℕ) (P Q : JsString → Prop) : Prop where
  nil : Q []
  append : ∀ s t, Q s → Q t → Q (s ++ t)
  ascii : ∀ c : CodeUnit, 32 ≤ c → c < 127 → Q [c]
  newline : ∀ depth, Q (newline indent depth)
  body : ∀ s, P s → Q (e.body s)

section Closed

variable {e : Escapes} {indent : Option ℕ} {P Q : JsString → Prop} (hQ : Closed e indent P Q)

include hQ

lemma Closed.cons {c : CodeUnit} (hc : 32 ≤ c ∧ c < 127) {s : JsString} (hs : Q s) :
    Q (c :: s) := hQ.append [c] s (hQ.ascii c hc.1 hc.2) hs

lemma Closed.of_ascii {s : JsString} (h : ∀ c ∈ s, 32 ≤ c ∧ c < 127) : Q s := by
  induction s with
  | nil => exact hQ.nil
  | cons c s ih =>
      exact hQ.cons (h c List.mem_cons_self) (ih fun d hd => h d (List.mem_cons_of_mem _ hd))

lemma Closed.integer (z : ℤ) : Q (integer z) := by
  have hdecimal : Q (decimal z.natAbs) := by
    refine hQ.of_ascii fun c hc => ?_
    have hdigit := isDigit_of_mem_decimal hc
    simp only [isDigit, Bool.and_eq_true, decide_eq_true_eq] at hdigit
    exact ⟨UInt16.le_trans (by decide) hdigit.1, UInt16.lt_of_le_of_lt hdigit.2 (by decide)⟩
  rw [JsNumber.integer]
  split_ifs
  · exact hQ.cons (by decide) hdecimal
  · exact hdecimal

lemma Closed.string {s : JsString} (h : P s) {rest : JsString} (hrest : Q rest) :
    Q (34 :: (e.body s ++ 34 :: rest)) :=
  hQ.cons (by decide) (hQ.append _ _ (hQ.body s h) (hQ.cons (by decide) hrest))

lemma Closed.colon : Q (colon indent) := by
  cases indent with
  | none => exact hQ.of_ascii (forall_of_all rfl)
  | some n => exact hQ.of_ascii (forall_of_all rfl)

lemma Closed.renderItems {vs : List Json} (h : ∀ v ∈ vs, ∀ depth, Q (render e indent depth v))
    (depth : ℕ) : Q (renderItems e indent depth vs) := by
  induction vs with
  | nil =>
      rw [Json.renderItems]
      exact hQ.append _ _ (hQ.newline depth) (hQ.ascii _ (by decide) (by decide))
  | cons v vs ih =>
      rw [Json.renderItems]
      exact hQ.cons (by decide) (hQ.append _ _ (hQ.append _ _ (hQ.newline _)
        (h v List.mem_cons_self _)) (ih fun w hw => h w (List.mem_cons_of_mem _ hw)))

lemma Closed.renderMembers {ms : List (JsString × Json)} (hnames : ∀ m ∈ ms, P m.1)
    (h : ∀ m ∈ ms, ∀ depth, Q (render e indent depth m.2)) (depth : ℕ) :
    Q (renderMembers e indent depth ms) := by
  induction ms with
  | nil =>
      rw [Json.renderMembers]
      exact hQ.append _ _ (hQ.newline depth) (hQ.ascii _ (by decide) (by decide))
  | cons m ms ih =>
      rw [Json.renderMembers]
      exact hQ.cons (by decide) (hQ.append _ _ (hQ.append _ _ (hQ.append _ _ (hQ.newline _)
        (hQ.string (hnames m List.mem_cons_self) hQ.colon)) (h m List.mem_cons_self _))
        (ih (fun w hw => hnames w (List.mem_cons_of_mem _ hw))
          fun w hw => h w (List.mem_cons_of_mem _ hw)))

/-- What the parts of a text have, the text has. -/
theorem Closed.render {j : Json} (h : Whole P j) : ∀ depth, Q (render e indent depth j) := by
  induction h with
  | null => exact fun _ => hQ.of_ascii (forall_of_all rfl)
  | bool b => cases b <;> exact fun _ => hQ.of_ascii (forall_of_all rfl)
  | num z =>
      intro depth
      rw [Json.render]
      exact hQ.integer _
  | str h =>
      intro depth
      rw [Json.render]
      exact hQ.string h hQ.nil
  | @arr items h ih =>
      intro depth
      cases items with
      | nil => exact hQ.of_ascii (forall_of_all rfl)
      | cons v vs =>
          rw [Json.render]
          exact hQ.cons (by decide) (hQ.append _ _ (hQ.append _ _ (hQ.newline _)
            (ih v List.mem_cons_self _))
            (hQ.renderItems (fun w hw => ih w (List.mem_cons_of_mem _ hw)) depth))
  | @obj members hnames h ih =>
      intro depth
      cases members with
      | nil => exact hQ.of_ascii (forall_of_all rfl)
      | cons m ms =>
          rw [Json.render]
          exact hQ.cons (by decide) (hQ.append _ _ (hQ.append _ _ (hQ.append _ _ (hQ.newline _)
            (hQ.string (hnames m List.mem_cons_self) hQ.colon)) (ih m List.mem_cons_self _))
            (hQ.renderMembers (fun w hw => hnames w (List.mem_cons_of_mem _ hw))
              (fun w hw => ih w (List.mem_cons_of_mem _ hw)) depth))

end Closed

/-! ### Lines and bytes -/

/-- No unit is a control character; a line break is one. -/
def Plain (s : JsString) : Prop := ∀ c ∈ s, 32 ≤ c

lemma Plain.notMem {s : JsString} (h : Plain s) : 10 ∉ s := fun hmem =>
  absurd (h 10 hmem) (by decide)

lemma le_hexDigit {v : ℕ} (h : v < 16) : 32 ≤ hexDigit v := by
  interval_cases v <;> decide

lemma plain_goUnit (c : CodeUnit) : Plain (goUnit c) := by
  cases hshort : shortEscape c with
  | some e =>
      have he : 32 ≤ e := by
        simp only [shortEscape] at hshort
        split_ifs at hshort <;> cases hshort <;> decide
      simpa [Plain, goUnit, hshort] using he
  | none =>
      simp only [goUnit, hshort]
      split_ifs with hhex
      · have hc : c.toNat < 65536 := c.toNat_lt
        simp only [Plain, hexEscape, List.forall_mem_cons]
        exact ⟨by decide, by decide, le_hexDigit (by omega), le_hexDigit (by omega),
          le_hexDigit (by omega), le_hexDigit (by omega), List.forall_mem_nil _⟩
      · simpa [Plain] using UInt16.not_lt.mp fun hlt => hhex (.inl hlt)

lemma closed_plain : Closed Escapes.go none (fun _ => True) Plain where
  nil := List.forall_mem_nil _
  append _ _ hs ht := List.forall_mem_append.mpr ⟨hs, ht⟩
  ascii c hc _ := by simpa [Plain] using hc
  newline _ := List.forall_mem_nil _
  body s _ := by
    intro c hc
    obtain ⟨x, -, hx⟩ := List.mem_flatMap.mp hc
    exact plain_goUnit x c hx

/-- A value that is not indented stands on one line. -/
lemma plain_render {j : Json} (h : Integral j) (depth : ℕ) :
    Plain (render Escapes.go none depth j) := closed_plain.render h depth

lemma wellFormed_newline (indent : Option ℕ) (depth : ℕ) : WellFormed (newline indent depth) := by
  refine wellFormed_of_units fun c hc => ?_
  cases indent with
  | none => cases hc
  | some n =>
      rcases List.mem_cons.mp hc with rfl | hc
      · decide
      · rw [List.eq_of_mem_replicate hc]
        decide

lemma wellFormed_ascii_unit {c : CodeUnit} (h : c < 127) : WellFormed [c] := by
  refine wellFormed_ascii fun d hd => ?_
  rw [List.mem_singleton.mp hd]
  exact lt_trans (UInt16.lt_iff_toNat_lt.mp h) (by decide)

lemma wellFormed_shortEscape {c e : CodeUnit} (h : shortEscape c = some e) :
    WellFormed [92, e] := by
  refine wellFormed_ascii ?_
  simpa using shortEscape_lt h

lemma wellFormed_hexEscape (c : CodeUnit) : WellFormed (hexEscape c) := by
  have hlt := c.toNat_lt
  refine wellFormed_ascii ?_
  simp only [hexEscape, List.forall_mem_cons]
  exact ⟨by decide, by decide, hexDigit_lt (by omega), hexDigit_lt (by omega),
    hexDigit_lt (by omega), hexDigit_lt (by omega), by simp⟩

/-- Half of a pair is written as it is. -/
lemma goUnit_surrogate {c : CodeUnit} (h : 0xD800 ≤ c.toNat) : goUnit c = [c] := by
  have hne {d : CodeUnit} (hd : d.toNat < 0xD800) : c ≠ d := by
    rintro rfl
    omega
  have hshort : shortEscape c = none := by
    simp only [shortEscape]
    rw [if_neg (hne (by decide)), if_neg (hne (by decide)), if_neg (hne (by decide)),
      if_neg (hne (by decide)), if_neg (hne (by decide)), if_neg (hne (by decide)),
      if_neg (hne (by decide))]
  have hlt : ¬ c < 32 := by
    simp only [UInt16.lt_iff_toNat_lt, UInt16.reduceToNat]
    omega
  have hplain : ¬ (c < 32 ∨ c = 60 ∨ c = 62 ∨ c = 38 ∨ c = 0x2028 ∨ c = 0x2029) := by
    simp only [not_or]
    exact ⟨hlt, hne (by decide), hne (by decide), hne (by decide), hne (by decide),
      hne (by decide)⟩
  simp only [goUnit, hshort, if_neg hplain]

lemma wellFormed_goUnit {c : CodeUnit} (h : ¬ (0xD800 ≤ c ∧ c < 0xE000)) :
    WellFormed (goUnit c) := by
  cases hshort : shortEscape c with
  | some e =>
      rw [goUnit, hshort]
      exact wellFormed_shortEscape hshort
  | none =>
      simp only [goUnit, hshort]
      split_ifs
      · exact wellFormed_hexEscape c
      · exact wellFormed_unit h

/-- A pair is written as a pair, and every other character without one. -/
lemma wellFormed_goUnits_encodeChar (c : Char) : WellFormed ((encodeChar c).flatMap goUnit) := by
  have hvalid := toNat_char c
  by_cases hlow : c.toNat < 0x10000
  · have hsmall : c.toNat.toUInt16.toNat = c.toNat := by
      rw [Nat.toUInt16, UInt16.toNat_ofNat', Nat.mod_eq_of_lt hlow]
    rw [encodeChar, if_pos hlow, List.flatMap_singleton]
    refine wellFormed_goUnit ?_
    simp only [UInt16.le_iff_toNat_le, UInt16.lt_iff_toNat_lt, hsmall, UInt16.reduceToNat]
    omega
  · have hhigh : (0xD800 + (c.toNat - 0x10000) / 0x400).toUInt16.toNat =
        0xD800 + (c.toNat - 0x10000) / 0x400 := by
      rw [Nat.toUInt16, UInt16.toNat_ofNat', Nat.mod_eq_of_lt (by omega)]
    have hlast : (0xDC00 + (c.toNat - 0x10000) % 0x400).toUInt16.toNat =
        0xDC00 + (c.toNat - 0x10000) % 0x400 := by
      rw [Nat.toUInt16, UInt16.toNat_ofNat', Nat.mod_eq_of_lt (by omega)]
    have hsame : (encodeChar c).flatMap goUnit = encodeChar c := by
      rw [encodeChar, if_neg hlow, List.flatMap_cons, List.flatMap_singleton,
        goUnit_surrogate (by omega), goUnit_surrogate (by omega), List.singleton_append]
    rw [hsame]
    exact wellFormed_encodeChar c

lemma wellFormed_go {s : JsString} (h : WellFormed s) : WellFormed (Escapes.go.body s) := by
  obtain ⟨cs, rfl⟩ := h
  have hbody : Escapes.go.body (cs.flatMap encodeChar) =
      cs.flatMap fun c => (encodeChar c).flatMap goUnit := List.flatMap_assoc
  rw [hbody]
  induction cs with
  | nil => exact ⟨[], rfl⟩
  | cons c cs ih =>
      rw [List.flatMap_cons]
      exact (wellFormed_goUnits_encodeChar c).append (ih List.flatMap_assoc)

lemma wellFormed_js_body (s : JsString) : WellFormed (Escapes.js.body s) := by
  have hbody : WellFormed (quoteBody s) := by
    induction s using quoteBody.induct with
    | case1 => exact ⟨[], rfl⟩
    | case2 c => exact wellFormed_quoteUnit c
    | case3 c d s hpair ih =>
        rw [quoteBody, if_pos hpair]
        simp only [isHigh, isLow, Bool.and_eq_true, decide_eq_true_eq] at hpair
        exact (wellFormed_pair hpair.1 hpair.2).append ih
    | case4 c d s hpair ih =>
        rw [quoteBody, if_neg hpair]
        exact (wellFormed_quoteUnit c).append ih
  exact hbody

lemma closed_wellFormed {e : Escapes} {P : JsString → Prop} (he : ∀ s, P s → WellFormed (e.body s))
    (indent : Option ℕ) : Closed e indent P WellFormed where
  nil := ⟨[], rfl⟩
  append _ _ := WellFormed.append
  ascii _ _ hc := wellFormed_ascii_unit hc
  newline := wellFormed_newline indent
  body := he

/-! ### Blanks -/

lemma isBlank_of_mem_newline {indent : Option ℕ} {depth : ℕ} {c : CodeUnit}
    (h : c ∈ newline indent depth) : isBlank c = true := by
  cases indent with
  | none => cases h
  | some n =>
      rcases List.mem_cons.mp h with rfl | h
      · rfl
      · rw [List.eq_of_mem_replicate h]
        rfl

lemma skipBlank_newline (indent : Option ℕ) (depth : ℕ) (s : JsString) :
    skipBlank (newline indent depth ++ s) = skipBlank s :=
  List.dropWhile_append_of_pos fun _ hc => isBlank_of_mem_newline hc

lemma value_newline (fuel : ℕ) (indent : Option ℕ) (depth : ℕ) (s : JsString) :
    value fuel (newline indent depth ++ s) = value fuel s := by
  cases fuel with
  | zero => rw [value, value]
  | succ fuel => rw [value, value, skipBlank_newline]

lemma value_space (fuel : ℕ) (s : JsString) : value fuel (32 :: s) = value fuel s := by
  cases fuel with
  | zero => rw [value, value]
  | succ fuel =>
      rw [value, value]
      rfl

lemma members_newline (fuel : ℕ) (indent : Option ℕ) (depth : ℕ) (s : JsString) :
    members fuel (newline indent depth ++ s) = members fuel s := by
  cases fuel with
  | zero => rw [members, members]
  | succ fuel => rw [members, members, skipBlank_newline]

lemma items_newline (fuel : ℕ) (indent : Option ℕ) (depth : ℕ) (s : JsString) :
    items fuel (newline indent depth ++ s) = items fuel s := by
  cases fuel with
  | zero => rw [items, items]
  | succ fuel => rw [items, items, value_newline]

/-! ### Numbers -/

/-- Nothing that a number could go on with. -/
def Ends (rest : JsString) : Prop :=
  ∀ c ∈ rest.head?, isDigit c = false ∧ c ≠ 46 ∧ c ≠ 101 ∧ c ≠ 69

lemma ends_nil : Ends [] := by simp [Ends]

lemma ends_cons {c : CodeUnit} (h : c = 10 ∨ c = 44 ∨ c = 93 ∨ c = 125) (rest : JsString) :
    Ends (c :: rest) := by
  intro d hd
  obtain rfl : c = d := by simpa using hd
  rcases h with rfl | rfl | rfl | rfl <;> decide

lemma ends_newline {c : CodeUnit} (h : c = 44 ∨ c = 93 ∨ c = 125) (indent : Option ℕ)
    (depth : ℕ) (rest : JsString) : Ends (newline indent depth ++ c :: rest) := by
  cases indent with
  | none => exact ends_cons (.inr h) rest
  | some n => exact ends_cons (.inl rfl) _

lemma head_decimal {n : ℕ} (h : (decimal n).head? = some 48) : decimal n = [48] := by
  induction n using Nat.strong_induction_on with
  | _ n ih =>
      rcases lt_or_ge n 10 with hlt | hge
      · rw [decimal_of_lt_ten hlt] at h ⊢
        obtain h : digit n = 48 := by simpa using h
        rw [h]
      · rw [decimal_of_ten_le hge] at h
        obtain ⟨c, ds, hds⟩ := List.exists_cons_of_ne_nil (decimal_ne_nil (n / 10))
        have hhead : (decimal (n / 10)).head? = some 48 := by
          rw [hds] at h ⊢
          simpa using h
        have hzero := digitsValue_decimal (n / 10)
        rw [ih (n / 10) (by omega) hhead] at hzero
        have : (0 : ℕ) = n / 10 := hzero
        omega

lemma takeWhile_ends {s rest : JsString} (hs : ∀ c ∈ s, isDigit c = true) (hrest : Ends rest) :
    (s ++ rest).takeWhile isDigit = s := by
  rw [List.takeWhile_append_of_pos hs]
  cases rest with
  | nil => rw [List.takeWhile_nil, List.append_nil]
  | cons c rest => rw [List.takeWhile_cons_of_neg (by simp [(hrest c rfl).1]), List.append_nil]

lemma dropWhile_ends {s rest : JsString} (hs : ∀ c ∈ s, isDigit c = true) (hrest : Ends rest) :
    (s ++ rest).dropWhile isDigit = rest := by
  rw [List.dropWhile_append_of_pos hs]
  cases rest with
  | nil => rfl
  | cons c rest => rw [List.dropWhile_cons_of_neg (by simp [(hrest c rfl).1])]

lemma number_unsigned (n : ℕ) {rest : JsString} (hrest : Ends rest) (negative : Bool) :
    Json.number ((if negative then [45] else []) ++ (decimal n ++ rest)) =
      some (if negative then -(n : ℚ) else n, rest) := by
  have hdigits : ∀ c ∈ decimal n, isDigit c = true := fun c => isDigit_of_mem_decimal
  obtain ⟨c, ds, hds⟩ := List.exists_cons_of_ne_nil (decimal_ne_nil n)
  have hc : c ≠ 45 := by
    rintro rfl
    have := hdigits 45 (hds ▸ List.mem_cons_self)
    revert this
    decide
  have hdot : rest.head? ≠ some 46 := fun h => (hrest 46 h).2.1 rfl
  have hexp : ¬ (rest.head? = some 101 ∨ rest.head? = some 69) := by
    rintro (h | h)
    · exact (hrest 101 h).2.2.1 rfl
    · exact (hrest 69 h).2.2.2 rfl
  have hzero : ¬ ((decimal n).head? = some 48 ∧ decimal n ≠ [48]) :=
    fun h => h.2 (head_decimal h.1)
  have hnil : digitsValue [] = 0 := rfl
  have hsign : (decimal n ++ rest).head? ≠ some 45 := by
    rw [hds]
    simpa using hc
  cases negative with
  | false =>
      simp only [Json.number, Bool.false_eq_true, if_false, List.nil_append, hsign,
        takeWhile_ends hdigits hrest, dropWhile_ends hdigits hrest, hdot, hexp, decimal_ne_nil,
        hzero, List.append_nil, digitsValue_decimal, hnil]
      simp
  | true =>
      simp only [Json.number, if_true, List.singleton_append, List.head?_cons, List.tail_cons,
        takeWhile_ends hdigits hrest, dropWhile_ends hdigits hrest, hdot, hexp, if_false,
        decimal_ne_nil, hzero, List.append_nil, digitsValue_decimal, hnil]
      simp

/-- An integer is read back. -/
lemma number_integer (z : ℤ) {rest : JsString} (hrest : Ends rest) :
    Json.number (integer z ++ rest) = some ((z : ℚ), rest) := by
  rcases lt_or_ge z 0 with hneg | hpos
  · have hz : (z : ℚ) = -(z.natAbs : ℚ) := by
      rw [Nat.cast_natAbs, abs_of_neg hneg]
      simp
    have := number_unsigned z.natAbs hrest true
    rw [integer, if_pos hneg, hz]
    simpa using this
  · have hz : (z : ℚ) = (z.natAbs : ℚ) := by rw [Nat.cast_natAbs, abs_of_nonneg hpos]
    have := number_unsigned z.natAbs hrest false
    rw [integer, if_neg (not_lt.mpr hpos), hz]
    simpa using this

lemma value_integer (fuel : ℕ) (z : ℤ) {rest : JsString} (hrest : Ends rest) :
    value (fuel + 1) (integer z ++ rest) = some (.num z, rest) := by
  have hnumber := number_integer z hrest
  rcases lt_or_ge z 0 with hneg | hpos
  · rw [integer, if_pos hneg] at hnumber ⊢
    rw [List.cons_append] at hnumber ⊢
    rw [value, skipBlank_cons rfl]
    simp only [true_or, if_true, hnumber, Option.map_some]
    rfl
  · rw [integer, if_neg (not_lt.mpr hpos)] at hnumber ⊢
    obtain ⟨c, ds, hds⟩ := List.exists_cons_of_ne_nil (decimal_ne_nil z.natAbs)
    have hc : isDigit c = true := isDigit_of_mem_decimal (hds ▸ List.mem_cons_self)
    rw [hds, List.cons_append] at hnumber ⊢
    exact value_number hc hnumber fuel

/-! ### Reading back -/

section Render

variable (e : Escapes) (indent : Option ℕ)

/-- No value begins with a blank, or as the end of an array or an object does. -/
lemma render_head {j : Json} (h : Integral j) (depth : ℕ) : ∃ c rest,
    render e indent depth j = c :: rest ∧ isBlank c = false ∧ c ≠ 93 ∧ c ≠ 125 := by
  have hnot {c : CodeUnit} {rest : JsString} (hc : isBlank c = false ∧ c ≠ 93 ∧ c ≠ 125) :
      ∃ c' rest', c :: rest = c' :: rest' ∧ isBlank c' = false ∧ c' ≠ 93 ∧ c' ≠ 125 :=
    ⟨c, rest, rfl, hc⟩
  cases h with
  | null => exact hnot (c := 110) (by decide)
  | bool b => cases b with
    | false => exact hnot (c := 102) (by decide)
    | true => exact hnot (c := 116) (by decide)
  | num z =>
      rw [render, Rat.num_intCast]
      by_cases hneg : z < 0
      · rw [integer, if_pos hneg]
        exact hnot (by decide)
      · rw [integer, if_neg hneg]
        obtain ⟨c, ds, hds⟩ := List.exists_cons_of_ne_nil (decimal_ne_nil z.natAbs)
        have hc : isDigit c = true := isDigit_of_mem_decimal (hds ▸ List.mem_cons_self)
        have hno := notMem_of_isDigit hc (l := [32, 9, 10, 13, 93, 125]) rfl
        simp only [List.mem_cons, List.not_mem_nil, not_or, or_false] at hno
        obtain ⟨h1, h2, h3, h4, h5, h6⟩ := hno
        rw [hds]
        exact hnot ⟨by simp [isBlank, h1, h2, h3, h4], h5, h6⟩
  | str _ => exact hnot (c := 34) (by decide)
  | @arr items h => cases items with
    | nil => exact hnot (c := 91) (by decide)
    | cons v vs => exact hnot (c := 91) (by decide)
  | @obj members _ h => cases members with
    | nil => exact hnot (c := 123) (by decide)
    | cons m ms => exact hnot (c := 123) (by decide)

/-- Wherever a value stands, it is read, and nothing behind it. -/
def ReadBack (j : Json) : Prop :=
  ∀ depth fuel rest, Ends rest → (render e indent depth j).length ≤ fuel →
    value fuel (render e indent depth j ++ rest) = some (j, rest)

lemma ends_renderItems (depth : ℕ) (vs : List Json) (rest : JsString) :
    Ends (renderItems e indent depth vs ++ rest) := by
  cases vs with
  | nil =>
      rw [renderItems, List.append_assoc]
      exact ends_newline (.inr (.inl rfl)) indent depth rest
  | cons v vs =>
      rw [renderItems]
      exact ends_cons (.inr (.inl rfl)) _

lemma ends_renderMembers (depth : ℕ) (ms : List (JsString × Json)) (rest : JsString) :
    Ends (renderMembers e indent depth ms ++ rest) := by
  cases ms with
  | nil =>
      rw [renderMembers, List.append_assoc]
      exact ends_newline (.inr (.inr rfl)) indent depth rest
  | cons m ms =>
      rw [renderMembers]
      exact ends_cons (.inr (.inl rfl)) _

lemma items_render {vs : List Json} : ∀ {v : Json}, (∀ w ∈ v :: vs, ReadBack e indent w) →
    ∀ depth fuel rest,
      (render e indent (depth + 1) v).length + (renderItems e indent depth vs).length ≤ fuel →
        items fuel (render e indent (depth + 1) v ++ (renderItems e indent depth vs ++ rest)) =
          some (v :: vs, rest) := by
  induction vs with
  | nil =>
      intro v hall depth fuel rest hfuel
      simp only [renderItems, List.length_append, List.length_singleton] at hfuel
      obtain ⟨k, rfl⟩ : ∃ k, fuel = k + 1 := ⟨fuel - 1, by omega⟩
      rw [items, hall v List.mem_cons_self _ _ _ (ends_renderItems e indent depth [] rest) (by omega)]
      simp only [Option.bind_some, renderItems, List.append_assoc, List.singleton_append,
        skipBlank_newline, skipBlank_cons (c := 93) rfl, if_true]
  | cons w vs ih =>
      intro v hall depth fuel rest hfuel
      have hrest := ih (fun x hx => hall x (List.mem_cons_of_mem _ hx)) depth (fuel - 1) rest
      simp only [renderItems, List.length_cons, List.length_append] at hfuel
      obtain ⟨k, rfl⟩ : ∃ k, fuel = k + 1 := ⟨fuel - 1, by omega⟩
      rw [items,
        hall v List.mem_cons_self _ _ _ (ends_renderItems e indent depth (w :: vs) rest) (by omega)]
      simp only [Option.bind_some, renderItems, List.cons_append, List.append_assoc,
        skipBlank_cons (c := 44) rfl, items_newline]
      rw [Nat.add_sub_cancel] at hrest
      rw [hrest (by omega)]
      rfl

lemma members_render {ms : List (JsString × Json)} : ∀ {name : JsString} {v : Json},
    (∀ m ∈ (name, v) :: ms, ReadBack e indent m.2) → ∀ depth fuel rest,
      (render e indent (depth + 1) v).length + (renderMembers e indent depth ms).length ≤ fuel →
        members fuel (34 :: (e.body name ++ 34 :: (colon indent ++
          (render e indent (depth + 1) v ++ (renderMembers e indent depth ms ++ rest))))) =
          some ((name, v) :: ms, rest) := by
  have hcolon (k : ℕ) (s : JsString) : ∃ t, skipBlank (colon indent ++ s) = 58 :: t ∧
      value k t = value k s := by
    cases hindent : indent with
    | none => exact ⟨s, rfl, rfl⟩
    | some n => exact ⟨32 :: s, rfl, value_space k s⟩
  induction ms with
  | nil =>
      intro name v hall depth fuel rest hfuel
      have hv : ReadBack e indent v := hall _ List.mem_cons_self
      simp only [renderMembers, List.length_append, List.length_singleton] at hfuel
      obtain ⟨k, rfl⟩ : ∃ k, fuel = k + 1 := ⟨fuel - 1, by omega⟩
      obtain ⟨t, ht, hvalue⟩ := hcolon k
        (render e indent (depth + 1) v ++ (renderMembers e indent depth [] ++ rest))
      rw [hv _ _ _ (ends_renderMembers e indent depth [] rest) (by omega)] at hvalue
      rw [members, skipBlank_cons rfl]
      simp only [if_true, e.stringBody_body, Option.bind_some, ht, hvalue]
      simp only [renderMembers, List.append_assoc, List.singleton_append, skipBlank_newline,
        skipBlank_cons (c := 125) rfl, if_true]
  | cons m ms ih =>
      intro name v hall depth fuel rest hfuel
      obtain ⟨name', v'⟩ := m
      have hv : ReadBack e indent v := hall _ List.mem_cons_self
      have hrest := ih (fun x hx => hall x (List.mem_cons_of_mem _ hx)) depth (fuel - 1) rest
      simp only [renderMembers, List.length_cons, List.length_append] at hfuel
      obtain ⟨k, rfl⟩ : ∃ k, fuel = k + 1 := ⟨fuel - 1, by omega⟩
      obtain ⟨t, ht, hvalue⟩ := hcolon k
        (render e indent (depth + 1) v ++ (renderMembers e indent depth ((name', v') :: ms) ++ rest))
      rw [hv _ _ _ (ends_renderMembers e indent depth ((name', v') :: ms) rest) (by omega)]
        at hvalue
      rw [Nat.add_sub_cancel] at hrest
      rw [members, skipBlank_cons rfl]
      simp only [if_true, e.stringBody_body, Option.bind_some, ht, hvalue]
      simp only [renderMembers, List.cons_append, List.append_assoc, skipBlank_cons (c := 44) rfl,
        members_newline]
      rw [hrest (by omega)]
      rfl

/-- **A value is read back**, wherever it stands. -/
theorem value_render {j : Json} (h : Integral j) : ReadBack e indent j := by
  induction h with
  | null =>
      intro depth fuel rest hrest hfuel
      obtain ⟨k, rfl⟩ : ∃ k, fuel = k + 1 := ⟨fuel - 1, by have : 4 ≤ fuel := hfuel; omega⟩
      rfl
  | bool b =>
      intro depth fuel rest hrest hfuel
      cases b with
      | false =>
          obtain ⟨k, rfl⟩ : ∃ k, fuel = k + 1 := ⟨fuel - 1, by have : 5 ≤ fuel := hfuel; omega⟩
          rfl
      | true =>
          obtain ⟨k, rfl⟩ : ∃ k, fuel = k + 1 := ⟨fuel - 1, by have : 4 ≤ fuel := hfuel; omega⟩
          rfl
  | num z =>
      intro depth fuel rest hrest hfuel
      have hpos : 0 < (render e indent depth (.num z)).length := by
        obtain ⟨c, t, hhead, -⟩ := render_head e indent (Whole.num z : Integral _) depth
        rw [hhead]
        exact Nat.succ_pos _
      obtain ⟨k, rfl⟩ : ∃ k, fuel = k + 1 := ⟨fuel - 1, by omega⟩
      rw [render, Rat.num_intCast]
      exact value_integer k z hrest
  | @str s _ =>
      intro depth fuel rest hrest hfuel
      simp only [render, List.length_cons] at hfuel
      obtain ⟨k, rfl⟩ : ∃ k, fuel = k + 1 := ⟨fuel - 1, by omega⟩
      rw [render, List.cons_append, List.append_assoc, value, skipBlank_cons rfl]
      simp only [if_true, List.singleton_append, e.stringBody_body, Option.map_some]
  | @arr items h ih =>
      intro depth fuel rest hrest hfuel
      cases items with
      | nil =>
          obtain ⟨k, rfl⟩ : ∃ k, fuel = k + 1 := ⟨fuel - 1, by have : 2 ≤ fuel := hfuel; omega⟩
          rfl
      | cons v vs =>
          simp only [render, List.length_cons, List.length_append] at hfuel
          obtain ⟨k, rfl⟩ : ∃ k, fuel = k + 1 := ⟨fuel - 1, by omega⟩
          obtain ⟨c, t, hhead, hblank, h93, h125⟩ :=
            render_head e indent (h v List.mem_cons_self) (depth + 1)
          have hitems := items_render e indent ih depth k rest (by omega)
          rw [render, List.cons_append, List.append_assoc, List.append_assoc, value,
            skipBlank_cons rfl]
          simp only [show (91 : CodeUnit) ≠ 34 by decide, show (91 : CodeUnit) ≠ 123 by decide,
            if_false, if_true, skipBlank_newline, items_newline, hitems, Option.map_some]
          rw [hhead, List.cons_append, skipBlank_cons hblank, List.head?_cons,
            if_neg (by simpa using h93)]
  | @obj members _ h ih =>
      intro depth fuel rest hrest hfuel
      cases members with
      | nil =>
          obtain ⟨k, rfl⟩ : ∃ k, fuel = k + 1 := ⟨fuel - 1, by have : 2 ≤ fuel := hfuel; omega⟩
          rfl
      | cons m ms =>
          obtain ⟨name, v⟩ := m
          simp only [render, List.length_cons, List.length_append] at hfuel
          obtain ⟨k, rfl⟩ : ∃ k, fuel = k + 1 := ⟨fuel - 1, by omega⟩
          have hmembers := members_render e indent ih depth k rest (by omega)
          rw [render, List.cons_append, value, skipBlank_cons rfl]
          simp only [show (123 : CodeUnit) ≠ 34 by decide, if_false, if_true, List.append_assoc,
            List.cons_append, skipBlank_newline, members_newline, skipBlank_cons (c := 34) rfl,
            hmembers, Option.map_some]
          rfl

/-- The text of an object stands between its braces. -/
lemma render_obj_ends (depth : ℕ) (members : List (JsString × Json)) :
    ∃ s, render e indent depth (.obj members) = 123 :: (s ++ [125]) := by
  have hmembers (ms : List (JsString × Json)) :
      ∃ s, renderMembers e indent depth ms = s ++ [125] := by
    induction ms with
    | nil => exact ⟨newline indent depth, rfl⟩
    | cons m ms ih =>
        obtain ⟨s, hs⟩ := ih
        rw [renderMembers, hs, ← List.append_assoc, ← List.cons_append]
        exact ⟨_, rfl⟩
  cases members with
  | nil => exact ⟨[], rfl⟩
  | cons m ms =>
      obtain ⟨s, hs⟩ := hmembers ms
      rw [render, hs, ← List.append_assoc]
      exact ⟨_, rfl⟩

/-- **`JSON.parse` gives back what was written**, with a line break behind it or without. -/
theorem parse_render {j : Json} (h : Integral j) (depth : ℕ) {tail : JsString}
    (htail : ∀ c ∈ tail, isBlank c = true) : parse (render e indent depth j ++ tail) = some j := by
  have hends : Ends tail := by
    intro c hc
    have hblank := htail c (List.mem_of_mem_head? hc)
    simp only [isBlank, Bool.or_eq_true, decide_eq_true_eq] at hblank
    rcases hblank with ((rfl | rfl) | rfl) | rfl <;> decide
  have hskip : skipBlank tail = [] := List.dropWhile_eq_nil_iff.mpr htail
  rw [parse, value_render e indent h depth _ tail hends (by rw [List.length_append]; omega),
    Option.bind_some, if_pos hskip]

end Render

/-! ### Members -/

/-- The property that is the only one of its name. -/
lemma get_of_mem {members : List (JsString × Json)} {name : JsString} {v : Json}
    (hmem : (name, v) ∈ members) (honly : ∀ m ∈ members, m.1 = name → m.2 = v) :
    get members name = some v := by
  cases hfind : members.reverse.find? fun m => m.1 = name with
  | none =>
      rw [List.find?_eq_none] at hfind
      exact absurd (hfind (name, v) (List.mem_reverse.mpr hmem)) (by simp)
  | some m =>
      have hm := List.mem_reverse.mp (List.mem_of_find?_eq_some hfind)
      have hname : m.1 = name := by simpa using List.find?_some hfind
      rw [get, hfind, Option.map_some, honly m hm hname]

/-! ### Files -/

/-- The bytes of a text. -/
def textBytes (s : JsString) : List UInt8 := (utf8 s).map Nat.toUInt8

/-- A file read as a text. -/
def bytesText (bytes : List UInt8) : JsString := ofUtf8 (bytes.map UInt8.toNat)

lemma bytesText_textBytes {s : JsString} (h : WellFormed s) : bytesText (textBytes s) = s := by
  have hback : ((utf8 s).map Nat.toUInt8).map UInt8.toNat = utf8 s := by
    rw [List.map_map]
    conv_rhs => rw [← List.map_id (utf8 s)]
    refine List.map_congr_left fun b hb => ?_
    have hlt := lt_of_mem_utf8 hb
    simp only [Function.comp_apply, Nat.toUInt8, UInt8.toNat_ofNat', id_eq]
    omega
  rw [bytesText, textBytes, hback, ofUtf8_utf8 h]

/-- A value as it is written to a file: two blanks of indent, and a line break behind. -/
def fileBytes (e : Escapes) (j : Json) : List UInt8 :=
  textBytes (render e (some 2) 0 j ++ [10])

/-- **A value is read back from the file it was written to.** -/
theorem parse_fileBytes {e : Escapes} {P : JsString → Prop} (he : ∀ s, P s → WellFormed (e.body s))
    {j : Json} (h : Whole P j) : parse (bytesText (fileBytes e j)) = some j := by
  have hlast : WellFormed [10] := wellFormed_ascii_unit (by decide)
  have htext : WellFormed (render e (some 2) 0 j ++ [10]) :=
    ((closed_wellFormed he (some 2)).render h 0).append hlast
  rw [fileBytes, bytesText_textBytes htext]
  refine parse_render e (some 2) h.integral 0 fun c hc => ?_
  rw [List.mem_singleton.mp hc]
  rfl

/-! ### Numbers that a program reads -/

/-- The double nearest to a number, where that is an integer. -/
def integerOf (q : ℚ) : Option ℤ :=
  let n := if q.den = 1 then toDouble q.num.natAbs else nearest q.num.natAbs q.den
  n.map fun n : ℕ => if q.num < 0 then -(n : ℤ) else n

lemma integerOf_intCast {z : ℤ} (h : z.natAbs < 2 ^ 53) : integerOf z = some z := by
  rw [integerOf, Rat.den_intCast, if_pos rfl, Rat.num_intCast, toDouble, if_pos h]
  simp only [Option.map_some, Option.some.injEq]
  split_ifs <;> omega

end Json
