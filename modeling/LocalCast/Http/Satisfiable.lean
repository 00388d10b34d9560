import LocalCast.Http.Range

/-!
Ranges as RFC 9110 means them, and as `range.ts` answers them: one range, of digits of any
length.

* `Digits`, `ByteRange`: the three forms of a range, and the header that asks for one.
* `ByteRange.interval`: the bytes a range means of a file.
* `RangeLaw`: the parser gives that interval, or none where there is none; and what is streamed
  is what the length of the answer says.
* `safe_number`: which numbers a double holds exactly.
* `served_interval`: what `serveFile` streams, for every header.
* `rangeLaw_iff`: the law, exactly.
-/

namespace LocalCast.Http

open JsString JsNumber Contract

/-! ### Ranges -/

/-- A string of digits, of any length. -/
structure Digits where
  text : JsString
  nonempty : text ≠ []
  digits : text.all isDigit = true

def Digits.value (d : Digits) : ℕ := digitsValue d.text

/-- `bytes=a-b`, `bytes=a-` and `bytes=-n`. -/
inductive ByteRange where
  | closed (first last : Digits)
  | openEnded (first : Digits)
  | suffix (length : Digits)

namespace ByteRange

def first : ByteRange → JsString
  | .closed a _ | .openEnded a => a.text
  | .suffix _ => []

def last : ByteRange → JsString
  | .closed _ b => b.text
  | .openEnded _ => []
  | .suffix n => n.text

def header (r : ByteRange) : JsString := js "bytes=" ++ (r.first ++ 45 :: r.last)

/-- The first and the last byte that a range means of a file. -/
def interval (size : ℕ) : ByteRange → Option (ℕ × ℕ)
  | .closed a b =>
      if a.value ≤ b.value ∧ a.value < size then some (a.value, min b.value (size - 1)) else none
  | .openEnded a => if a.value < size then some (a.value, size - 1) else none
  | .suffix n => if 0 < n.value ∧ 0 < size then some (size - min n.value size, size - 1) else none

/-- How a range is to be answered. -/
def answer (r : ByteRange) (size : ℕ) : RangeParse :=
  match r.interval size with
  | some (start, last) => .single start last
  | none => .unsatisfiable

/-- Where the range means something, its last number is one that a double holds exactly. -/
def exact (size : ℕ) : ByteRange → Prop
  | .closed a b => a.value ≤ b.value → a.value < size → b.value < 2 ^ 53
  | .openEnded a => a.value < size → a.value < 2 ^ 53
  | .suffix n => 0 < size → n.value < 2 ^ 53

end ByteRange

/-- The parser gives the interval that the range means, which is one of the file, or says that
there is none; and an answer has the length of what is streamed. -/
structure RangeLaw (r : ByteRange) (size : ℕ) : Prop where
  parsed : parseRangeHeader (some r.header) size = r.answer size
  within : ∀ start last, parseRangeHeader (some r.header) size = .single start last →
    start ≤ last ∧ last ≤ size - 1
  streamed : ∀ req file opts response, req.range = some r.header → file.size = size →
    serveFile req file opts = .ok response → ∀ start last, response.body = some (start, last) →
      start ≤ last ∧ last < size ∧ response.contentLength = last - start + 1

/-! ### Doubles -/

/-- A number of digits is held exactly below `2 ^ 53`, and is no safe integer from there on. -/
lemma safe_number (text : JsString) : safe (number text) =
    if digitsValue text < 2 ^ 53 then some (digitsValue text) else none := by
  rw [number, toDouble]
  split_ifs with hsmall
  · simpa [safe] using hsmall
  · simp only [safe]
    have hround (q e : ℕ) (hq : 2 ^ 53 ≤ q * 2 ^ e) :
        (if q * 2 ^ e < 2 ^ 1024 then some (q * 2 ^ e) else none).filter
          (fun n => decide (n < 2 ^ 53)) = none := by
      split_ifs
      · rw [Option.filter_some, if_neg]
        simpa using hq
      · rfl
    set n := digitsValue text with hn
    have hlog : 53 ≤ n.log2 := (Nat.le_log2 (by omega)).mpr (not_lt.mp hsmall)
    have hquotient : 2 ^ 52 ≤ n / 2 ^ (n.log2 - 52) := by
      rw [Nat.le_div_iff_mul_le (by positivity), ← pow_add]
      have hsum : 52 + (n.log2 - 52) = n.log2 := by omega
      rw [hsum]
      exact Nat.log2_self_le (by omega)
    have hpow : 2 ≤ 2 ^ (n.log2 - 52) := Nat.le_self_pow (by omega) 2
    refine hround _ _ ?_
    have hq : 2 ^ 52 ≤ if 2 ^ (n.log2 - 52 - 1) < n % 2 ^ (n.log2 - 52) ∨
        (n % 2 ^ (n.log2 - 52) = 2 ^ (n.log2 - 52 - 1) ∧ n / 2 ^ (n.log2 - 52) % 2 = 1)
        then n / 2 ^ (n.log2 - 52) + 1 else n / 2 ^ (n.log2 - 52) := by
      split_ifs <;> omega
    calc 2 ^ 53 = 2 ^ 52 * 2 := by norm_num
      _ ≤ _ := Nat.mul_le_mul hq hpow

/-! ### The parser -/

/-- A header of one range is taken apart into its two texts. -/
lemma parseRangeHeader_header (r : ByteRange) (size : ℕ) :
    parseRangeHeader (some r.header) size = parseBounds r.first r.last size := by
  have hfirst : r.first.all isDigit = true := by
    cases r with
    | closed a b => exact a.digits
    | openEnded a => exact a.digits
    | suffix n => rfl
  have hlast : r.last.all isDigit = true := by
    cases r with
    | closed a b => exact b.digits
    | openEnded a => rfl
    | suffix n => exact n.digits
  refine parseRangeHeader_spec (fun c hc => ?_) ?_ ?_ size
  · rcases List.mem_append.mp hc with hc | hc
    · exact .inl (List.all_eq_true.mp hfirst c hc)
    · rcases List.mem_cons.mp hc with rfl | hc
      · exact .inr rfl
      · exact .inl (List.all_eq_true.mp hlast c hc)
  · have h45 : isDigit 45 = false := rfl
    rw [rangeSpec, List.takeWhile_append_of_pos (List.all_eq_true.mp hfirst),
      List.dropWhile_append_of_pos (List.all_eq_true.mp hfirst)]
    simp [h45, hlast]
  · rintro ⟨h1, h2⟩
    cases r with
    | closed a b => exact a.nonempty h1
    | openEnded a => exact a.nonempty h1
    | suffix n => exact n.nonempty h2

lemma parseBounds_closed {a b : JsString} (ha : a ≠ []) (hb : b ≠ []) (size : ℕ) :
    parseBounds a b size =
      if digitsValue a < 2 ^ 53 ∧ digitsValue a < size ∧ digitsValue b < 2 ^ 53 ∧
        digitsValue a ≤ digitsValue b
      then .single (digitsValue a) (min (digitsValue b) (size - 1)) else .unsatisfiable := by
  rw [parseBounds, if_neg ha, safe_number, safe_number]
  rcases Nat.eq_zero_or_pos size with rfl | hsize
  · rw [if_pos rfl, if_neg (by omega)]
  · rw [if_neg (by omega)]
    by_cases h1 : digitsValue a < 2 ^ 53
    · rw [if_pos h1]
      dsimp only
      by_cases h2 : digitsValue a < size
      · rw [if_neg (by omega), if_neg hb]
        by_cases h3 : digitsValue b < 2 ^ 53
        · rw [if_pos h3]
          dsimp only
          split_ifs <;> first | rfl | omega
        · rw [if_neg h3, if_neg fun h => h3 h.2.2.1]
      · rw [if_pos (by omega), if_neg fun h => h2 h.2.1]
    · rw [if_neg h1, if_neg fun h : _ ∧ _ => h1 h.1]

lemma parseBounds_open {a : JsString} (ha : a ≠ []) (size : ℕ) : parseBounds a [] size =
    if digitsValue a < 2 ^ 53 ∧ digitsValue a < size
    then .single (digitsValue a) (size - 1) else .unsatisfiable := by
  rw [parseBounds, if_neg ha, safe_number]
  rcases Nat.eq_zero_or_pos size with rfl | hsize
  · rw [if_pos rfl, if_neg (by omega)]
  · rw [if_neg (by omega)]
    by_cases h1 : digitsValue a < 2 ^ 53
    · rw [if_pos h1]
      dsimp only
      rw [if_pos rfl]
      split_ifs <;> first | rfl | omega
    · rw [if_neg h1, if_neg fun h : _ ∧ _ => h1 h.1]

lemma parseBounds_suffix (b : JsString) (size : ℕ) : parseBounds [] b size =
    if 0 < digitsValue b ∧ digitsValue b < 2 ^ 53 ∧ 0 < size
    then .single (size - digitsValue b) (size - 1) else .unsatisfiable := by
  rw [parseBounds, safe_number]
  rcases Nat.eq_zero_or_pos size with rfl | hsize
  · rw [if_pos rfl, if_neg (by omega)]
  · rw [if_neg (by omega), if_pos rfl]
    by_cases h1 : digitsValue b < 2 ^ 53
    · rw [if_pos h1]
      cases hb : digitsValue b with
      | zero => simp
      | succ n =>
          rw [hb] at h1
          rw [if_pos ⟨Nat.succ_pos n, h1, hsize⟩]
          rfl
    · rw [if_neg h1, if_neg fun h => h1 h.2.1]

/-- An interval of the parser is one of the file. -/
lemma parseBounds_within {firstRaw lastRaw : JsString} {size start last : ℕ}
    (h : parseBounds firstRaw lastRaw size = .single start last) : start ≤ last ∧ last < size := by
  by_cases hfirst : firstRaw = []
  · rw [hfirst, parseBounds_suffix] at h
    split_ifs at h
    cases h
    omega
  · by_cases hlast : lastRaw = []
    · rw [hlast, parseBounds_open hfirst] at h
      split_ifs at h
      cases h
      omega
    · rw [parseBounds_closed hfirst hlast] at h
      split_ifs at h
      cases h
      omega

/-- An interval of a header, whatever the header is. -/
lemma parseRangeHeader_within {header : Option JsString} {size start last : ℕ}
    (h : parseRangeHeader header size = .single start last) : start ≤ last ∧ last < size := by
  rw [parseRangeHeader.eq_def] at h
  split at h
  · cases h
  · cases h
  · split at h
    · cases h
    · split at h
      · split_ifs at h
        split at h
        · cases h
        · cases h
        · exact parseBounds_within h
      · split_ifs at h

/-- The parser answers as the range asks, exactly where the numbers that count are held exactly. -/
lemma parseBounds_eq_answer_iff (r : ByteRange) (size : ℕ) :
    parseBounds r.first r.last size = r.answer size ↔ r.exact size := by
  cases r with
  | closed a b =>
      have hparse := parseBounds_closed a.nonempty b.nonempty size
      have hvalues : digitsValue a.text = a.value ∧ digitsValue b.text = b.value := ⟨rfl, rfl⟩
      rw [hvalues.1, hvalues.2] at hparse
      rw [ByteRange.first, ByteRange.last, hparse, ByteRange.answer, ByteRange.interval,
        ByteRange.exact]
      by_cases hmeans : a.value ≤ b.value ∧ a.value < size
      · rw [if_pos hmeans]
        by_cases hb : b.value < 2 ^ 53
        · rw [if_pos ⟨by omega, hmeans.2, hb, hmeans.1⟩]
          exact iff_of_true rfl fun _ _ => hb
        · rw [if_neg fun h => hb h.2.2.1]
          exact iff_of_false (by simp) fun h => hb (h hmeans.1 hmeans.2)
      · rw [if_neg hmeans, if_neg fun h => hmeans ⟨h.2.2.2, h.2.1⟩]
        exact iff_of_true rfl fun h1 h2 => absurd ⟨h1, h2⟩ hmeans
  | openEnded a =>
      have hparse := parseBounds_open a.nonempty size
      have hvalue : digitsValue a.text = a.value := rfl
      rw [hvalue] at hparse
      rw [ByteRange.first, ByteRange.last, hparse, ByteRange.answer, ByteRange.interval,
        ByteRange.exact]
      by_cases hmeans : a.value < size
      · rw [if_pos hmeans]
        by_cases ha : a.value < 2 ^ 53
        · rw [if_pos ⟨ha, hmeans⟩]
          exact iff_of_true rfl fun _ => ha
        · rw [if_neg fun h => ha h.1]
          exact iff_of_false (by simp) fun h => ha (h hmeans)
      · rw [if_neg hmeans, if_neg fun h => hmeans h.2]
        exact iff_of_true rfl fun h => absurd h hmeans
  | suffix n =>
      have hparse := parseBounds_suffix n.text size
      have hvalue : digitsValue n.text = n.value := rfl
      rw [hvalue] at hparse
      rw [ByteRange.first, ByteRange.last, hparse, ByteRange.answer, ByteRange.interval,
        ByteRange.exact]
      by_cases hmeans : 0 < n.value ∧ 0 < size
      · rw [if_pos hmeans]
        by_cases hn : n.value < 2 ^ 53
        · have hclamp : size - min n.value size = size - n.value := by omega
          rw [if_pos ⟨hmeans.1, hn, hmeans.2⟩, hclamp]
          exact iff_of_true rfl fun _ => hn
        · rw [if_neg fun h => hn h.2.1]
          exact iff_of_false (by simp) fun h => hn (h hmeans.2)
      · rw [if_neg hmeans, if_neg fun h => hmeans ⟨h.1, h.2.2⟩]
        refine iff_of_true rfl fun hsize => ?_
        have hzero : n.value = 0 := by omega
        rw [hzero]
        decide

/-! ### Serving -/

/-- What is streamed is an interval of the file, and the answer has its length, for every header. -/
theorem served_interval {req : ContentRequest} {file : ServedFile} {opts : ServeFileOptions}
    {response : Response} (h : serveFile req file opts = .ok response) {start last : ℕ}
    (hbody : response.body = some (start, last)) :
    start ≤ last ∧ last < file.size ∧ response.contentLength = last - start + 1 := by
  have hchecked {parsed : RangeParse} {a b : ℕ}
      (hparsed : ∀ start last, parsed = .single start last → start ≤ last ∧ last < file.size)
      (hcheck : checkIfRange req.ifRange (weakETag file.size file.mtimeMs)
        (toUTCString ⌊file.mtimeMs⌋) parsed = .single a b) : a ≤ b ∧ b < file.size := by
    rw [checkIfRange.eq_def] at hcheck
    split at hcheck
    · exact hparsed a b hcheck
    · exact hparsed a b hcheck
    · split_ifs at hcheck
      exact hparsed a b hcheck
    · exact hparsed a b hcheck
  rw [serveFile] at h
  split at h
  · cases h
  split at h
  · cases h
  dsimp only at h
  split at h
  · cases h
  split at h
  case h_1 => cases h
  case h_2 a b hcheck =>
    obtain ⟨hle, hlt⟩ := hchecked (fun _ _ => parseRangeHeader_within) hcheck
    cases h
    dsimp only at hbody
    split_ifs at hbody
    cases hbody
    exact ⟨hle, hlt, rfl⟩
  case h_3 =>
    cases h
    dsimp only at hbody
    split_ifs at hbody with hempty
    cases hbody
    rw [not_or] at hempty
    dsimp only
    omega

/-- **The ranges of RFC 9110, exactly**: a header of one range means what it says where its last
number is held exactly or the range means nothing. -/
theorem rangeLaw_iff (r : ByteRange) (size : ℕ) : RangeLaw r size ↔ r.exact size := by
  rw [← parseBounds_eq_answer_iff, ← parseRangeHeader_header]
  refine ⟨RangeLaw.parsed, fun h => ⟨h, fun start last hsingle => ?_, ?_⟩⟩
  · have hwithin := parseRangeHeader_within hsingle
    omega
  · rintro req file opts response - rfl hserve start last hbody
    exact served_interval hserve hbody

/-- **A large last position is refused**: the whole of a file of a thousand bytes is asked for by
a last position of `2 ^ 53`. -/
theorem large_last_refused :
    parseRangeHeader (some (js "bytes=0-9007199254740992")) 1000 = .unsatisfiable ∧
    parseRangeHeader (some (js "bytes=0-9007199254740991")) 1000 = .single 0 999 ∧
    ¬ RangeLaw (.closed ⟨js "0", by decide, by decide⟩ ⟨js "9007199254740992", by decide, by decide⟩)
      1000 := by
  refine ⟨by decide +kernel, by decide +kernel, fun h => ?_⟩
  have hexact := (rangeLaw_iff _ _).mp h
  exact absurd (hexact (by decide +kernel) (by decide +kernel)) (by decide +kernel)

end LocalCast.Http
