import LocalCast.Foundations.JsString

/-!
Numbers and dates of the ECMAScript library, as far as HTTP headers carry them.

* `decimal`, `integer`, `digitsValue`: a number as its decimal digits, and back
  (`digitsValue_decimal`, `decimal_digitsValue`).
* `toDouble`, `nearest`: the double nearest to a natural number, and to a fraction.
* `number`, `natural`: `Number(text)` of a text of digits, and of any text; `number_decimal`,
  `natural_decimal` are the round trip below `2 ^ 53`.
* `parseInt`: the whole number a text begins with.
* `toUTCString`: the date format of HTTP.
-/

namespace JsNumber

open JsString

/-! ### Digits -/

def isDigit (c : CodeUnit) : Bool := 48 ≤ c && c ≤ 57

def digit (n : ℕ) : CodeUnit := UInt16.ofNat (48 + n % 10)

def decimalAux : ℕ → ℕ → JsString → JsString
  | 0, _, acc => acc
  | fuel + 1, n, acc =>
      if n / 10 = 0 then digit n :: acc else decimalAux fuel (n / 10) (digit n :: acc)

/-- `String(n)`. -/
def decimal (n : ℕ) : JsString := decimalAux (n + 1) n []

/-- `String(z)` of an integer. -/
def integer (z : ℤ) : JsString := if z < 0 then 45 :: decimal z.natAbs else decimal z.natAbs

/-- The value of a text of digits. -/
def digitsValue (text : JsString) : ℕ := text.foldl (fun v c => 10 * v + (c.toNat - 48)) 0

lemma digit_toNat (n : ℕ) : (digit n).toNat = 48 + n % 10 := by
  have hlt : 48 + n % 10 < 2 ^ 16 := by omega
  rw [digit, UInt16.toNat_ofNat', Nat.mod_eq_of_lt hlt]

lemma isDigit_digit (n : ℕ) : isDigit (digit n) = true := by
  have h := digit_toNat n
  simp only [isDigit, Bool.and_eq_true, decide_eq_true_eq, UInt16.le_iff_toNat_le, h,
    UInt16.reduceToNat]
  omega

/-- The digits written before `acc`: the number they stand for is the one printed. -/
lemma decimalAux_eq {fuel n : ℕ} (h : n < fuel) (acc : JsString) :
    ∃ ds : JsString, ds ≠ [] ∧ ds.all isDigit ∧ digitsValue ds = n ∧
      decimalAux fuel n acc = ds ++ acc := by
  induction fuel generalizing n acc with
  | zero => omega
  | succ fuel ih =>
      rw [decimalAux]
      split_ifs with h10
      · refine ⟨[digit n], by simp, by simp [isDigit_digit], ?_, rfl⟩
        have hn : n % 10 = n := Nat.mod_eq_of_lt (by omega)
        simp [digitsValue, digit_toNat, hn]
      · obtain ⟨ds, hne, hall, hvalue, heq⟩ := ih (n := n / 10) (by omega) (digit n :: acc)
        refine ⟨ds ++ [digit n], by simp, by simp [hall, isDigit_digit], ?_, by simp [heq]⟩
        have hvalue' : ds.foldl (fun v c => 10 * v + (c.toNat - 48)) 0 = n / 10 := hvalue
        rw [digitsValue, List.foldl_append, hvalue']
        simp only [List.foldl_cons, List.foldl_nil, digit_toNat]
        omega

lemma decimal_spec (n : ℕ) :
    decimal n ≠ [] ∧ (decimal n).all isDigit ∧ digitsValue (decimal n) = n := by
  obtain ⟨ds, hne, hall, hvalue, heq⟩ := decimalAux_eq (Nat.lt_succ_self n) []
  rw [decimal, heq, List.append_nil]
  exact ⟨hne, hall, hvalue⟩

lemma decimal_ne_nil (n : ℕ) : decimal n ≠ [] := (decimal_spec n).1

lemma isDigit_of_mem_decimal {n : ℕ} {c : CodeUnit} (h : c ∈ decimal n) : isDigit c = true :=
  List.all_eq_true.mp (decimal_spec n).2.1 c h

/-- A digit is none of the units of a list without digits. -/
lemma notMem_of_isDigit {c : CodeUnit} (h : isDigit c = true) {l : List CodeUnit}
    (hl : l.all (fun d => !isDigit d) = true) : c ∉ l := by
  intro hc
  simpa [h] using List.all_eq_true.mp hl c hc

lemma isSpace_of_isDigit {c : CodeUnit} (h : isDigit c = true) : isSpace c = false := by
  have hrange : ¬ (0x2000 ≤ c ∧ c ≤ 0x200A) := by
    simp only [isDigit, Bool.and_eq_true, decide_eq_true_eq, UInt16.le_iff_toNat_le,
      UInt16.reduceToNat] at h ⊢
    omega
  rw [isSpace, Bool.or_eq_false_iff, List.contains_eq_mem, decide_eq_false_iff_not]
  exact ⟨notMem_of_isDigit h rfl, by simpa using hrange⟩

lemma digitsValue_decimal (n : ℕ) : digitsValue (decimal n) = n := (decimal_spec n).2.2

lemma takeWhile_decimal (n : ℕ) {c : CodeUnit} (hc : isDigit c = false) (rest : JsString) :
    (decimal n ++ c :: rest).takeWhile isDigit = decimal n := by
  rw [List.takeWhile_append_of_pos fun _ => isDigit_of_mem_decimal]
  simp [hc]

lemma dropWhile_decimal (n : ℕ) {c : CodeUnit} (hc : isDigit c = false) (rest : JsString) :
    (decimal n ++ c :: rest).dropWhile isDigit = c :: rest := by
  rw [List.dropWhile_append_of_pos fun _ => isDigit_of_mem_decimal]
  simp [hc]

lemma dropWhile_isSpace_decimal (n : ℕ) (rest : JsString) :
    (decimal n ++ rest).dropWhile isSpace = decimal n ++ rest := by
  cases h : decimal n with
  | nil => exact absurd h (decimal_ne_nil n)
  | cons c cs =>
      have hc : isDigit c = true := isDigit_of_mem_decimal (n := n) (by simp [h])
      simp [isSpace_of_isDigit hc]

lemma decimalAux_append {n : ℕ} : ∀ {fuel : ℕ}, n < fuel → ∀ acc : JsString,
    decimalAux fuel n acc = decimal n ++ acc := by
  induction n using Nat.strong_induction_on with
  | _ n ih =>
      intro fuel h acc
      cases fuel with
      | zero => omega
      | succ fuel =>
          rw [decimal, decimalAux, decimalAux]
          split_ifs with hdigit
          · rfl
          · have hless : n / 10 < n := by omega
            rw [ih (n / 10) hless (by omega), ih (n / 10) hless hless, List.append_assoc]
            rfl

/-- The last digit of a number with more than one. -/
lemma decimal_of_ten_le {n : ℕ} (h : 10 ≤ n) : decimal n = decimal (n / 10) ++ [digit n] := by
  rw [decimal, decimalAux, if_neg (by omega), decimalAux_append (by omega)]

lemma decimal_of_lt_ten {n : ℕ} (h : n < 10) : decimal n = [digit n] := by
  rw [decimal, decimalAux, if_pos (by omega)]

lemma digit_sub {c : CodeUnit} (h : isDigit c = true) (n : ℕ) :
    digit (10 * n + (c.toNat - 48)) = c := by
  simp only [isDigit, Bool.and_eq_true, decide_eq_true_eq, UInt16.le_iff_toNat_le,
    UInt16.reduceToNat] at h
  rw [← UInt16.toNat_inj, digit_toNat]
  omega

/-- Digits without a leading zero are those of their value. -/
lemma decimal_digitsValue {p : JsString} (hne : p ≠ []) (hdigits : ∀ c ∈ p, isDigit c = true)
    (hzero : p.length = 1 ∨ p.head? ≠ some 48) : decimal (digitsValue p) = p := by
  induction p using List.reverseRecOn with
  | nil => exact absurd rfl hne
  | append_singleton q c ih =>
      have hc := hdigits c (List.mem_append_right q List.mem_cons_self)
      have hvalue : digitsValue (q ++ [c]) = 10 * digitsValue q + (c.toNat - 48) := by
        rw [digitsValue, List.foldl_append]
        rfl
      have hlt : c.toNat - 48 < 10 := by
        simp only [isDigit, Bool.and_eq_true, decide_eq_true_eq, UInt16.le_iff_toNat_le,
          UInt16.reduceToNat] at hc
        omega
      cases q with
      | nil =>
          rw [hvalue, show digitsValue [] = 0 from rfl, decimal_of_lt_ten (by omega), digit_sub hc]
          rfl
      | cons d ds =>
          have hhead : (d :: ds).head? ≠ some 48 := by
            rcases hzero with hone | hhead
            · simp at hone
            · exact hhead
          have hq := ih (List.cons_ne_nil d ds)
            (fun x hx => hdigits x (List.mem_append_left _ hx)) (.inr hhead)
          -- the digits before the last are not those of zero
          have hpos : digitsValue (d :: ds) ≠ 0 := by
            intro h
            rw [h] at hq
            exact hhead (hq ▸ rfl)
          rw [hvalue, decimal_of_ten_le (by omega), digit_sub hc, Nat.mul_add_div (by decide),
            Nat.div_eq_of_lt hlt, Nat.add_zero, hq]

/-! ### Doubles -/

/-- The double nearest to a natural number, ties to even; none where it is infinite. -/
def toDouble (n : ℕ) : Option ℕ :=
  if n < 2 ^ 53 then some n
  else
    let e := n.log2 - 52
    let q := n / 2 ^ e
    let r := n % 2 ^ e
    let q := if 2 ^ (e - 1) < r ∨ (r = 2 ^ (e - 1) ∧ q % 2 = 1) then q + 1 else q
    if q * 2 ^ e < 2 ^ 1024 then some (q * 2 ^ e) else none

/-- `Number(text)` of a text of digits; none where it is infinite. -/
def number (text : JsString) : Option ℕ := toDouble (digitsValue text)

/-- `Number.isSafeInteger`, with the number. -/
def safe (n : Option ℕ) : Option ℕ := n.filter fun n => n < 2 ^ 53

lemma number_decimal {n : ℕ} (h : n < 2 ^ 53) : number (decimal n) = some n := by
  rw [number, digitsValue_decimal, toDouble, if_pos h]

/-- The double nearest to a fraction, ties to even, where that is a natural number: the fraction
in units of the last place of the doubles around it is rounded to a whole number of them. -/
def nearest (num den : ℕ) : Option ℕ :=
  let l : ℤ := (num.log2 : ℤ) - den.log2
  let l := if num * 2 ^ (-l).toNat < den * 2 ^ l.toNat then l - 1 else l
  let e := max (l - 52) (-1074)
  let num := num * 2 ^ (-e).toNat
  let den := den * 2 ^ e.toNat
  let q := num / den
  let r := num % den
  let q := if den < 2 * r ∨ (2 * r = den ∧ q % 2 = 1) then q + 1 else q
  if q % 2 ^ (-e).toNat = 0 ∧ q * 2 ^ e.toNat < 2 ^ 1024 then some (q * 2 ^ e.toNat / 2 ^ (-e).toNat)
  else none

/-- The value of a unit as a digit up to `f`. -/
def digitValue (c : CodeUnit) : ℕ :=
  if isDigit c then c.toNat - 48
  else if 97 ≤ c && c ≤ 102 then c.toNat - 87
  else if 65 ≤ c && c ≤ 70 then c.toNat - 55
  else 16

/-- `0x…`, `0o…`, `0b…`. -/
def radixLiteral : JsString → Option ℕ
  | 48 :: x :: digits =>
      let radix := if x = 120 ∨ x = 88 then 16 else if x = 111 ∨ x = 79 then 8
        else if x = 98 ∨ x = 66 then 2 else 0
      if digits ≠ [] ∧ digits.all fun c => digitValue c < radix then
        some (digits.foldl (fun v c => radix * v + digitValue c) 0)
      else none
  | _ => none

/-- A sign and what follows it. -/
def signed : JsString → Bool × JsString
  | 45 :: rest => (true, rest)
  | 43 :: rest => (false, rest)
  | text => (false, text)

/-- The exponent that ends a literal. -/
def exponent : JsString → Option ℤ
  | [] => some 0
  | c :: rest =>
      let (negative, digits) := signed rest
      if (c = 101 ∨ c = 69) ∧ digits ≠ [] ∧ digits.all isDigit then
        some (if negative then -(digitsValue digits : ℤ) else digitsValue digits)
      else none

/-- A decimal literal without a sign: its digits as one number, and the power of ten behind. -/
def decimalLiteral (text : JsString) : Option (ℕ × ℤ) :=
  let whole := text.takeWhile isDigit
  let rest := text.dropWhile isDigit
  let point := rest.head? = some 46
  let fraction := if point then rest.tail.takeWhile isDigit else []
  let rest := if point then rest.tail.dropWhile isDigit else rest
  if whole = [] ∧ fraction = [] then none
  else (exponent rest).map fun e => (digitsValue (whole ++ fraction), e - fraction.length)

/-- `Number(text)` where that is a natural number: white space around it is dropped, and where
there is nothing else it is zero. Below zero there is only the number that is rounded to `-0`. -/
def natural (text : JsString) : Option ℕ :=
  let text := trim text
  if text.all isDigit then number text
  else match radixLiteral text with
    | some n => toDouble n
    | none =>
        let (negative, text) := signed text
        match decimalLiteral text with
        | some (m, e) => (nearest (m * 10 ^ e.toNat) (10 ^ (-e).toNat)).filter fun n =>
            !negative || n == 0
        | none => none

lemma natural_decimal {n : ℕ} (h : n < 2 ^ 53) : natural (decimal n) = some n := by
  have htrim : trim (decimal n) = decimal n :=
    trim_of_no_space fun c hc => isSpace_of_isDigit (isDigit_of_mem_decimal hc)
  rw [natural, htrim, if_pos (decimal_spec n).2.1, number_decimal h]

/-- `Number.parseInt(text, 10)`: the whole number a text begins with; none where it begins with
none, or where that is infinite. -/
def parseInt (text : JsString) : Option ℤ :=
  let (negative, digits) := signed (text.dropWhile isSpace)
  let digits := digits.takeWhile isDigit
  if digits = [] then none
  else (number digits).map fun n => if negative then -(n : ℤ) else n

lemma parseInt_of_digits {p : JsString} (hne : p ≠ []) (hdigits : ∀ c ∈ p, isDigit c = true)
    (hsmall : digitsValue p < 2 ^ 53) : parseInt p = some (digitsValue p : ℤ) := by
  cases p with
  | nil => exact absurd rfl hne
  | cons c cs =>
      have hc := hdigits c List.mem_cons_self
      have hspace : (c :: cs).dropWhile isSpace = c :: cs := by
        rw [List.dropWhile_cons, isSpace_of_isDigit hc]
        rfl
      have hsigned : signed (c :: cs) = (false, c :: cs) := by
        rw [signed]
        · rintro rest h
          cases h
          cases hc
        · rintro rest h
          cases h
          cases hc
      have hall : (c :: cs).takeWhile isDigit = c :: cs :=
        calc (c :: cs).takeWhile isDigit
            = ((c :: cs) ++ []).takeWhile isDigit := by rw [List.append_nil]
          _ = (c :: cs) ++ [].takeWhile isDigit := List.takeWhile_append_of_pos hdigits
          _ = c :: cs := List.append_nil _
      rw [parseInt, hspace, hsigned]
      simp only
      rw [hall, if_neg hne, number, toDouble, if_pos hsmall]
      rfl

/-! ### Dates -/

/-- The day of the civil calendar, `0` being 1 January 1970: year, month from `1`, day. -/
def civil (day : ℤ) : ℤ × ℕ × ℕ :=
  let z := day + 719468
  let era := z / 146097
  let doe := (z % 146097).toNat
  let yoe := (doe - doe / 1460 + doe / 36524 - doe / 146096) / 365
  let doy := doe - (365 * yoe + yoe / 4 - yoe / 100)
  let mp := (5 * doy + 2) / 153
  let month := if mp < 10 then mp + 3 else mp - 9
  (yoe + era * 400 + (if month ≤ 2 then 1 else 0), month, doy - (153 * mp + 2) / 5 + 1)

/-- A number with at least `width` digits. -/
def padded (width n : ℕ) : JsString :=
  List.replicate (width - (decimal n).length) 48 ++ decimal n

/-- `new Date(ms).toUTCString()` of a whole number of milliseconds. -/
def toUTCString (ms : ℤ) : JsString :=
  if 8640000000000000 < ms.natAbs then js "Invalid Date"
  else
    let day := ms / 86400000
    let second := (ms % 86400000 / 1000).toNat
    let (year, month, date) := civil day
    let weekday := ["Thu", "Fri", "Sat", "Sun", "Mon", "Tue", "Wed"].getD (day % 7).toNat ""
    let name := ["Jan", "Feb", "Mar", "Apr", "May", "Jun", "Jul", "Aug", "Sep", "Oct", "Nov",
      "Dec"].getD (month - 1) ""
    js weekday ++ js ", " ++ padded 2 date ++ js " " ++ js name ++ js " " ++
      (if year < 0 then js "-" else []) ++ padded 4 year.natAbs ++ js " " ++
      padded 2 (second / 3600) ++ js ":" ++ padded 2 (second / 60 % 60) ++ js ":" ++
      padded 2 (second % 60) ++ js " GMT"

example : toUTCString 951782399000 = js "Mon, 28 Feb 2000 23:59:59 GMT" := by decide +kernel

end JsNumber
