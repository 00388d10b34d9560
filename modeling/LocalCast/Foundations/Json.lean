import LocalCast.Foundations.JsNumber
import LocalCast.Foundations.UriDecode
import LocalCast.Foundations.Utf8

/-!
JSON as `JSON.stringify` writes strings and `JSON.parse` reads texts.

* `Json`: values, with numbers kept exact and objects as their members in order.
* `quote`: a string in JSON, well-formed UTF-16 whatever the string holds (`wellFormed_quote`).
* `parse`: the value of a text; `stringBody_quote` reads a quoted string back.
* `objectText`: an object from its members as they are written; `parse_objectText` reads it back.
* `present`: the members of an object of which some may be undefined.
-/

open JsString JsNumber

inductive Json where
  | null
  | bool (b : Bool)
  | num (n : ℚ)
  | str (s : JsString)
  | arr (items : List Json)
  | obj (members : List (JsString × Json))

namespace Json

/-- A property of an object, the last of its name. -/
def get (members : List (JsString × Json)) (name : JsString) : Option Json :=
  (members.reverse.find? fun m => m.1 = name).map Prod.snd

/-! ### Strings -/

def hexDigit (v : ℕ) : CodeUnit := if v < 10 then (48 + v).toUInt16 else (87 + v).toUInt16

def hexEscape (c : CodeUnit) : JsString :=
  [92, 117, hexDigit (c.toNat / 4096), hexDigit (c.toNat / 256 % 16), hexDigit (c.toNat / 16 % 16),
    hexDigit (c.toNat % 16)]

def isHigh (c : CodeUnit) : Bool := 0xD800 ≤ c && c < 0xDC00

def isLow (c : CodeUnit) : Bool := 0xDC00 ≤ c && c < 0xE000

/-- The letter of a short escape. -/
def shortEscape (c : CodeUnit) : Option CodeUnit :=
  if c = 34 then some 34
  else if c = 92 then some 92
  else if c = 8 then some 98
  else if c = 12 then some 102
  else if c = 10 then some 110
  else if c = 13 then some 114
  else if c = 9 then some 116
  else none

/-- A unit of a string that is half of no pair. -/
def quoteUnit (c : CodeUnit) : JsString :=
  match shortEscape c with
  | some e => [92, e]
  | none => if c < 32 ∨ isHigh c ∨ isLow c then hexEscape c else [c]

/-- What stands between the quotes. -/
def quoteBody : JsString → JsString
  | [] => []
  | [c] => quoteUnit c
  | c :: d :: rest =>
      if isHigh c && isLow d then c :: d :: quoteBody rest else quoteUnit c ++ quoteBody (d :: rest)

/-- `JSON.stringify` of a string. -/
def quote (s : JsString) : JsString := 34 :: (quoteBody s ++ [34])

/-- The unit of a short escape. -/
def unescape (e : CodeUnit) : Option CodeUnit :=
  if e = 34 ∨ e = 92 ∨ e = 47 then some e
  else if e = 98 then some 8
  else if e = 102 then some 12
  else if e = 110 then some 10
  else if e = 114 then some 13
  else if e = 116 then some 9
  else none

def hexUnit (a b c d : CodeUnit) : Option CodeUnit := do
  let w ← hexVal a
  let x ← hexVal b
  let y ← hexVal c
  let z ← hexVal d
  some (w * 4096 + x * 256 + y * 16 + z).toUInt16

/-- A string whose opening quote was read, and what follows its closing one. -/
def stringBody : JsString → Option (JsString × JsString)
  | [] => none
  | c :: rest =>
      if c = 34 then some ([], rest)
      else if c = 92 then
        match rest with
        | [] => none
        | e :: rest₁ =>
            if e = 117 then
              match rest₁ with
              | h :: i :: j :: k :: rest₂ =>
                  (hexUnit h i j k).bind fun v =>
                    (stringBody rest₂).map fun t => (v :: t.1, t.2)
              | _ => none
            else (unescape e).bind fun v => (stringBody rest₁).map fun t => (v :: t.1, t.2)
      else if c < 32 then none
      else (stringBody rest).map fun t => (c :: t.1, t.2)

lemma hexVal_hexDigit {v : ℕ} (h : v < 16) : hexVal (hexDigit v) = some v := by
  have hall : ∀ v < 16, hexVal (hexDigit v) = some v := by decide
  exact hall v h

lemma hexUnit_digits (c : CodeUnit) : hexUnit (hexDigit (c.toNat / 4096))
    (hexDigit (c.toNat / 256 % 16)) (hexDigit (c.toNat / 16 % 16)) (hexDigit (c.toNat % 16)) =
      some c := by
  have hlt := c.toNat_lt
  have hsum : c.toNat / 4096 * 4096 + c.toNat / 256 % 16 * 256 + c.toNat / 16 % 16 * 16 +
      c.toNat % 16 = c.toNat := by omega
  rw [hexUnit, hexVal_hexDigit (by omega), hexVal_hexDigit (by omega), hexVal_hexDigit (by omega),
    hexVal_hexDigit (by omega)]
  simp only [Option.bind_eq_bind, Option.bind_some, hsum, Nat.toUInt16]
  rw [UInt16.ofNat_toNat]

lemma shortEscape_spec {c e : CodeUnit} (h : shortEscape c = some e) :
    unescape e = some c ∧ e ≠ 117 := by
  unfold shortEscape at h
  split_ifs at h with h1 h2 h3 h4 h5 h6 h7 <;> cases h <;> subst_vars <;> decide

lemma stringBody_hexEscape (c : CodeUnit) (rest : JsString) :
    stringBody (hexEscape c ++ rest) = (stringBody rest).map fun t => (c :: t.1, t.2) := by
  rw [hexEscape, List.cons_append, stringBody.eq_def]
  simp [hexUnit_digits]

lemma stringBody_unit {c : CodeUnit} (h1 : c ≠ 34) (h2 : c ≠ 92) (h3 : ¬ c < 32)
    (rest : JsString) : stringBody (c :: rest) = (stringBody rest).map fun t => (c :: t.1, t.2) := by
  rw [stringBody.eq_def]
  simp [h1, h2, h3]

/-- A unit as it is written is read as itself. -/
lemma stringBody_quoteUnit (c : CodeUnit) (rest : JsString) :
    stringBody (quoteUnit c ++ rest) = (stringBody rest).map fun t => (c :: t.1, t.2) := by
  cases hshort : shortEscape c with
  | some e =>
      obtain ⟨hback, hne⟩ := shortEscape_spec hshort
      rw [quoteUnit, hshort, stringBody.eq_def]
      simp [hback, hne]
  | none =>
      simp only [quoteUnit, hshort]
      split_ifs with hhex
      · exact stringBody_hexEscape c rest
      · rw [List.singleton_append]
        refine stringBody_unit ?_ ?_ (fun hc => hhex (.inl hc)) rest
        · rintro rfl
          cases hshort
        · rintro rfl
          cases hshort

/-- **A quoted string is read back**, whatever it holds. -/
theorem stringBody_quote (s rest : JsString) :
    stringBody (quoteBody s ++ 34 :: rest) = some (s, rest) := by
  have hend : stringBody (34 :: rest) = some ([], rest) := by
    rw [stringBody.eq_def]
    simp
  induction s using quoteBody.induct with
  | case1 => exact hend
  | case2 c => rw [quoteBody, stringBody_quoteUnit, hend, Option.map_some]
  | case3 c d s hpair ih =>
      rw [quoteBody, if_pos hpair, List.cons_append, List.cons_append]
      simp only [isHigh, isLow, Bool.and_eq_true, decide_eq_true_eq, UInt16.le_iff_toNat_le,
        UInt16.lt_iff_toNat_lt, UInt16.reduceToNat] at hpair
      have hplain (x : CodeUnit) (hx : 55296 ≤ x.toNat) : x ≠ 34 ∧ x ≠ 92 ∧ ¬ x < 32 := by
        refine ⟨?_, ?_, ?_⟩
        · rintro rfl
          simp at hx
        · rintro rfl
          simp at hx
        · simp only [UInt16.lt_iff_toNat_lt, UInt16.reduceToNat]
          omega
      obtain ⟨hc1, hc2, hc3⟩ := hplain c hpair.1.1
      obtain ⟨hd1, hd2, hd3⟩ := hplain d (by omega)
      rw [stringBody_unit hc1 hc2 hc3, stringBody_unit hd1 hd2 hd3, ih, Option.map_some,
        Option.map_some]
  | case4 c d s hpair ih =>
      rw [quoteBody, if_neg hpair, List.append_assoc, stringBody_quoteUnit, ih, Option.map_some]

/-! ### Well-formed texts -/

lemma hexDigit_lt {v : ℕ} (h : v < 16) : (hexDigit v).toNat < 128 := by
  have hall : ∀ v < 16, (hexDigit v).toNat < 128 := by decide
  exact hall v h

lemma shortEscape_lt {c e : CodeUnit} (h : shortEscape c = some e) : e.toNat < 128 := by
  unfold shortEscape at h
  split_ifs at h <;> cases h <;> decide

lemma wellFormed_quoteUnit (c : CodeUnit) : WellFormed (quoteUnit c) := by
  cases hshort : shortEscape c with
  | some e =>
      rw [quoteUnit, hshort]
      refine wellFormed_ascii ?_
      simpa using shortEscape_lt hshort
  | none =>
      simp only [quoteUnit, hshort]
      split_ifs with hhex
      · have hlt := c.toNat_lt
        refine wellFormed_ascii ?_
        simp only [hexEscape, List.forall_mem_cons]
        exact ⟨by decide, by decide, hexDigit_lt (by omega), hexDigit_lt (by omega),
          hexDigit_lt (by omega), hexDigit_lt (by omega), by simp⟩
      · refine wellFormed_unit fun hc => hhex (.inr ?_)
        simp only [isHigh, isLow, Bool.and_eq_true, decide_eq_true_eq]
        by_cases hlt : c < 0xDC00
        · exact .inl ⟨hc.1, hlt⟩
        · exact .inr ⟨UInt16.not_lt.mp hlt, hc.2⟩

/-- Whatever a string holds, it is written as well-formed UTF-16. -/
theorem wellFormed_quote (s : JsString) : WellFormed (quote s) := by
  have hbody : WellFormed (quoteBody s) := by
    induction s using quoteBody.induct with
    | case1 => exact ⟨[], rfl⟩
    | case2 c => exact wellFormed_quoteUnit c
    | case3 c d s hpair ih =>
        rw [quoteBody, if_pos hpair]
        simp only [isHigh, isLow, Bool.and_eq_true, decide_eq_true_eq] at hpair
        exact (wellFormed_pair hpair.1 hpair.2).append ih
    | case4 c d s hpair ih =>
        rw [quoteBody, if_neg hpair]
        exact (wellFormed_quoteUnit c).append ih
  have hmark : WellFormed [34] := wellFormed_js "\""
  exact hmark.append (hbody.append hmark)

/-! ### Values -/

def isBlank (c : CodeUnit) : Bool := c = 32 || c = 9 || c = 10 || c = 13

def skipBlank (s : JsString) : JsString := s.dropWhile isBlank

/-- A number, and what follows it. -/
def number (s : JsString) : Option (ℚ × JsString) :=
  let negative := s.head? = some 45
  let s := if negative then s.tail else s
  let whole := s.takeWhile isDigit
  let s := s.dropWhile isDigit
  let hasFraction := s.head? = some 46
  let fraction := if hasFraction then s.tail.takeWhile isDigit else []
  let s := if hasFraction then s.tail.dropWhile isDigit else s
  let hasExponent := s.head? = some 101 ∨ s.head? = some 69
  let signed := s.tail.head? = some 43 ∨ s.tail.head? = some 45
  let digits := if signed then s.tail.tail else s.tail
  let exponent := if hasExponent then digits.takeWhile isDigit else []
  let rest := if hasExponent then digits.dropWhile isDigit else s
  if whole = [] ∨ (whole.head? = some 48 ∧ whole ≠ [48]) ∨ (hasFraction ∧ fraction = []) ∨
      (hasExponent ∧ exponent = []) then none
  else
    let power : ℤ := if s.tail.head? = some 45 then -digitsValue exponent else digitsValue exponent
    let value : ℚ := digitsValue (whole ++ fraction) * 10 ^ (power - fraction.length)
    some (if negative then -value else value, rest)

/-- A word of JSON at the head of a text. -/
def word (s : JsString) : Option (Json × JsString) :=
  if js "true" <+: s then some (.bool true, s.drop 4)
  else if js "false" <+: s then some (.bool false, s.drop 5)
  else if js "null" <+: s then some (.null, s.drop 4)
  else none

mutual

/-- A value, and what follows it. Every turn reads a unit, so the length of the text is fuel
enough. -/
def value : ℕ → JsString → Option (Json × JsString)
  | 0, _ => none
  | fuel + 1, s =>
      match skipBlank s with
      | [] => none
      | c :: rest =>
          if c = 34 then (stringBody rest).map fun t => (.str t.1, t.2)
          else if c = 123 then
            if (skipBlank rest).head? = some 125 then some (.obj [], (skipBlank rest).tail)
            else (members fuel rest).map fun t => (.obj t.1, t.2)
          else if c = 91 then
            if (skipBlank rest).head? = some 93 then some (.arr [], (skipBlank rest).tail)
            else (items fuel rest).map fun t => (.arr t.1, t.2)
          else if c = 45 ∨ isDigit c then (number (c :: rest)).map fun t => (.num t.1, t.2)
          else word (c :: rest)

/-- The members of an object, up to its closing brace. -/
def members : ℕ → JsString → Option (List (JsString × Json) × JsString)
  | 0, _ => none
  | fuel + 1, s =>
      match skipBlank s with
      | [] => none
      | c :: rest =>
          if c = 34 then
            (stringBody rest).bind fun name =>
              match skipBlank name.2 with
              | [] => none
              | d :: rest =>
                  if d = 58 then
                    (value fuel rest).bind fun v =>
                      match skipBlank v.2 with
                      | [] => none
                      | e :: rest =>
                          if e = 125 then some ([(name.1, v.1)], rest)
                          else if e = 44 then
                            (members fuel rest).map fun ms => ((name.1, v.1) :: ms.1, ms.2)
                          else none
                  else none
          else none

/-- The items of an array, up to its closing bracket. -/
def items : ℕ → JsString → Option (List Json × JsString)
  | 0, _ => none
  | fuel + 1, s =>
      (value fuel s).bind fun v =>
        match skipBlank v.2 with
        | [] => none
        | e :: rest =>
            if e = 93 then some ([v.1], rest)
            else if e = 44 then (items fuel rest).map fun vs => (v.1 :: vs.1, vs.2)
            else none

end

/-- `JSON.parse`. -/
def parse (s : JsString) : Option Json :=
  (value (s.length + 1) s).bind fun v => if skipBlank v.2 = [] then some v.1 else none

/-! ### Texts as they are written -/

lemma skipBlank_cons {c : CodeUnit} (h : isBlank c = false) (rest : JsString) :
    skipBlank (c :: rest) = c :: rest := by
  rw [skipBlank, List.dropWhile_cons_of_neg (by simp [h])]

lemma quote_append (s rest : JsString) :
    quote s ++ rest = 34 :: (quoteBody s ++ 34 :: rest) := by
  simp [quote]

lemma value_quote (fuel : ℕ) (s rest : JsString) :
    value (fuel + 1) (quote s ++ rest) = some (.str s, rest) := by
  rw [quote_append, value, skipBlank_cons rfl]
  simp only [if_true, stringBody_quote, Option.map_some]

lemma value_number {c : CodeUnit} {s rest : JsString} {n : ℚ} (hc : isDigit c = true)
    (h : number (c :: s) = some (n, rest)) (fuel : ℕ) :
    value (fuel + 1) (c :: s) = some (.num n, rest) := by
  have hno := notMem_of_isDigit hc (l := [34, 123, 91, 32, 9, 10, 13]) rfl
  simp only [List.mem_cons, List.not_mem_nil, not_or, or_false] at hno
  obtain ⟨h1, h2, h3, h4, h5, h6, h7⟩ := hno
  rw [value, skipBlank_cons (by simp [isBlank, h4, h5, h6, h7])]
  simp only [h1, h2, h3, hc, or_true, if_true, if_false, h, Option.map_some]

lemma value_members (fuel : ℕ) (name rest : JsString) :
    value (fuel + 1) (123 :: (quote name ++ rest)) =
      (members fuel (quote name ++ rest)).map fun t => (.obj t.1, t.2) := by
  rw [value, skipBlank_cons rfl, quote_append]
  simp only [skipBlank_cons (c := 34) rfl]
  rfl

/-- A member before others. -/
lemma members_cons {fuel : ℕ} {s rest : JsString} {v : Json}
    (hv : value fuel s = some (v, 44 :: rest)) (name : JsString) :
    members (fuel + 1) (quote name ++ 58 :: s) =
      (members fuel rest).map fun ms => ((name, v) :: ms.1, ms.2) := by
  rw [members, quote_append, skipBlank_cons rfl]
  simp only [if_true, stringBody_quote, Option.bind_some, skipBlank_cons (c := 58) rfl, hv,
    skipBlank_cons (c := 44) rfl]
  rfl

/-- The last member. -/
lemma members_last {fuel : ℕ} {s rest : JsString} {v : Json}
    (hv : value fuel s = some (v, 125 :: rest)) (name : JsString) :
    members (fuel + 1) (quote name ++ 58 :: s) = some ([(name, v)], rest) := by
  rw [members, quote_append, skipBlank_cons rfl]
  simp only [if_true, stringBody_quote, Option.bind_some, skipBlank_cons (c := 58) rfl, hv,
    skipBlank_cons (c := 125) rfl]

/-! ### Objects -/

/-- `JSON.stringify` of an object, from its members as they are written. -/
def objectText (members : List (JsString × JsString)) : JsString :=
  123 :: (join [44] (members.map fun m => quote m.1 ++ 58 :: m.2) ++ [125])

/-- The text of a member is read as its value. -/
def Reads (text : JsString) (v : Json) : Prop :=
  ∀ fuel c rest, (c = 44 ∨ c = 125) → value (fuel + 1) (text ++ c :: rest) = some (v, c :: rest)

lemma reads_quote (s : JsString) : Reads (quote s) (.str s) :=
  fun fuel c rest _ => value_quote fuel s (c :: rest)

lemma members_objectText {ms : List (JsString × JsString × Json)} (hne : ms ≠ [])
    (h : ∀ m ∈ ms, Reads m.2.1 m.2.2) (fuel : ℕ) :
    members (ms.length + fuel + 1)
      (join [44] (ms.map fun m => quote m.1 ++ 58 :: m.2.1) ++ [125]) =
      some (ms.map fun m => (m.1, m.2.2), []) := by
  induction ms with
  | nil => exact absurd rfl hne
  | cons m ms ih =>
      have hm := h m List.mem_cons_self
      cases hms : ms with
      | nil =>
          have hvalue := hm fuel 125 [] (.inr rfl)
          have hlast := members_last hvalue m.1
          simpa [join, List.intercalate, Nat.add_comm] using hlast
      | cons m' ms' =>
          have hrest := ih (by simp [hms]) fun x hx => h x (List.mem_cons_of_mem _ hx)
          have htext : join [44] ((m :: ms).map fun m => quote m.1 ++ 58 :: m.2.1) ++ [125] =
              quote m.1 ++ 58 :: (m.2.1 ++ 44 ::
                (join [44] (ms.map fun m => quote m.1 ++ 58 :: m.2.1) ++ [125])) := by
            simp [hms, join, List.intercalate]
          have hvalue := hm (ms.length + fuel) 44
            (join [44] (ms.map fun m => quote m.1 ++ 58 :: m.2.1) ++ [125]) (.inl rfl)
          have hlength : (m :: ms).length + fuel + 1 = ms.length + fuel + 1 + 1 := by
            rw [List.length_cons]
            omega
          rw [← hms, htext, hlength, members_cons hvalue, hrest]
          rfl

lemma length_le_join {ts : List JsString} (h : ∀ t ∈ ts, t ≠ []) :
    ts.length ≤ (join [44] ts).length := by
  induction ts with
  | nil => exact Nat.zero_le _
  | cons t ts ih =>
      have ht := List.length_pos_iff.mpr (h t List.mem_cons_self)
      have hrest := ih fun x hx => h x (List.mem_cons_of_mem _ hx)
      cases hs : ts with
      | nil =>
          simp only [join, List.intercalate, List.intersperse, List.flatten_cons,
            List.flatten_nil, List.append_nil, List.length_singleton]
          omega
      | cons t' ts' =>
          have hstep : (join [44] (t :: ts)).length = t.length + 1 + (join [44] ts).length := by
            simp [hs, join, List.intercalate]
            omega
          rw [← hs, hstep, List.length_cons]
          omega

/-- **An object is read back**, its members in order. -/
theorem parse_objectText {ms : List (JsString × JsString × Json)} (hne : ms ≠ [])
    (h : ∀ m ∈ ms, Reads m.2.1 m.2.2) : parse (objectText (ms.map fun m => (m.1, m.2.1))) =
      some (.obj (ms.map fun m => (m.1, m.2.2))) := by
  set body := join [44] (ms.map fun m => quote m.1 ++ 58 :: m.2.1) ++ [125] with hbody
  have htext : objectText (ms.map fun m => (m.1, m.2.1)) = 123 :: body := by
    rw [objectText, List.map_map]
    rfl
  have hlength : ms.length ≤ body.length := by
    have hne' : ∀ t ∈ ms.map fun m => quote m.1 ++ 58 :: m.2.1, t ≠ [] := by
      intro t ht
      obtain ⟨m, -, rfl⟩ := List.mem_map.mp ht
      simp
    have hall := length_le_join hne'
    rw [List.length_map] at hall
    rw [hbody, List.length_append]
    omega
  have hhead : ∃ name rest, body = quote name ++ rest := by
    obtain ⟨m, rest, hms⟩ := List.exists_cons_of_ne_nil hne
    cases rest with
    | nil => exact ⟨m.1, 58 :: (m.2.1 ++ [125]), by simp [hbody, hms, join, List.intercalate]⟩
    | cons m' rest =>
        refine ⟨m.1, 58 :: (m.2.1 ++ 44 ::
          (join [44] ((m' :: rest).map fun m => quote m.1 ++ 58 :: m.2.1) ++ [125])), ?_⟩
        simp [hbody, hms, join, List.intercalate]
  have hmembers := members_objectText hne h (body.length - ms.length)
  have hfuel : ms.length + (body.length - ms.length) + 1 = body.length + 1 := by omega
  rw [← hbody, hfuel] at hmembers
  obtain ⟨name, rest, hrest⟩ := hhead
  have hvalue : value (body.length + 1 + 1) (123 :: body) =
      some (.obj (ms.map fun m => (m.1, m.2.2)), []) := by
    rw [hrest] at hmembers ⊢
    rw [value_members, hmembers, Option.map_some]
  rw [parse, htext, List.length_cons, hvalue]
  rfl

/-- Members that are undefined are left out. -/
def present {α : Type} (fields : List (JsString × Option α)) : List (JsString × α) :=
  fields.filterMap fun f => f.2.map fun v => (f.1, v)

lemma present_map {α β : Type} (g : α → β) (fields : List (JsString × Option α)) :
    (present fields).map (fun m => (m.1, g m.2)) =
      present (fields.map fun f => (f.1, f.2.map g)) := by
  rw [present, present, List.map_filterMap, List.filterMap_map]
  congr 1
  funext ⟨name, v⟩
  cases v <;> rfl

/-- A member of which there is one is found, and none that is undefined. -/
lemma get_present {fields : List (JsString × Option Json)} (hnodup : (fields.map Prod.fst).Nodup)
    {name : JsString} {v : Option Json} (h : (name, v) ∈ fields) : get (present fields) name = v := by
  have hunique {v' : Option Json} (h' : (name, v') ∈ fields) : v' = v :=
    congrArg Prod.snd (List.inj_on_of_nodup_map hnodup h' h rfl)
  cases hfind : (present fields).reverse.find? fun m => m.1 = name with
  | none =>
      cases v with
      | none => rw [get, hfind, Option.map_none]
      | some value =>
          rw [List.find?_eq_none] at hfind
          have hmem : (name, value) ∈ (present fields).reverse :=
            List.mem_reverse.mpr (List.mem_filterMap.mpr ⟨_, h, rfl⟩)
          simpa using hfind _ hmem
  | some m =>
      have hname : m.1 = name := by simpa using List.find?_some hfind
      have hmem := List.mem_reverse.mp (List.mem_of_find?_eq_some hfind)
      obtain ⟨⟨name', v'⟩, hfield, hm⟩ := List.mem_filterMap.mp hmem
      obtain ⟨value, rfl, rfl⟩ := Option.map_eq_some_iff.mp hm
      dsimp only at hname
      subst hname
      rw [get, hfind, Option.map_some, ← hunique hfield]

end Json
