import Mathlib.Tactic

/-!
Strings as sequences of UTF-16 code units, with the string operations of the
ECMAScript library that programs lean on: splitting at separators, joining, trimming,
and ASCII case.

* `js`: a literal, encoded.
* `splitOn`, `segments`: `s.split(/[..]+/)` and the same with empty pieces dropped;
  `mem_segments`, `segments_intercalate` are their specification.
* `lower`, `upper`: ASCII case, the part of case folding that headers and URL paths use.
-/

/-- A UTF-16 code unit. -/
abbrev CodeUnit := UInt16

/-- A string: a sequence of code units, not necessarily well-formed UTF-16. -/
abbrev JsString := List CodeUnit

/-- Membership tests over lists of strings are decided through this instance. -/
instance : LawfulBEq JsString := inferInstance

namespace JsString

/-- The code units of one Unicode scalar value. -/
def encodeChar (c : Char) : List CodeUnit :=
  if c.toNat < 0x10000 then [c.toNat.toUInt16]
  else [(0xD800 + (c.toNat - 0x10000) / 0x400).toUInt16,
    (0xDC00 + (c.toNat - 0x10000) % 0x400).toUInt16]

/-- A string literal in UTF-16. -/
def js (s : String) : JsString := s.toList.flatMap encodeChar

/-- The scalar values of a string; a surrogate without its pair is `U+FFFD`. -/
def chars : JsString → List Char
  | [] => []
  | [c] => [single c]
  | c :: d :: cs =>
      if 0xD800 ≤ c ∧ c < 0xDC00 ∧ 0xDC00 ≤ d ∧ d < 0xE000 then
        Char.ofNat (0x10000 + (c.toNat - 0xD800) * 0x400 + (d.toNat - 0xDC00)) :: chars cs
      else single c :: chars (d :: cs)
where
  single (c : CodeUnit) : Char :=
    if 0xD800 ≤ c ∧ c < 0xE000 then Char.ofNat 0xFFFD else Char.ofNat c.toNat

/-- The text a string shows as. -/
def toText (s : JsString) : String := String.ofList (chars s)

/-- What the units of a string have in common is decided by going through them. -/
lemma forall_of_all {p : CodeUnit → Prop} [DecidablePred p] {s : JsString}
    (h : s.all (fun c => decide (p c)) = true) : ∀ c ∈ s, p c := by
  simpa using h

/-! ### Case -/

/-- ASCII lower case of a code unit. -/
def lowerUnit (c : CodeUnit) : CodeUnit := if 65 ≤ c ∧ c ≤ 90 then c + 32 else c

/-- ASCII upper case of a code unit. -/
def upperUnit (c : CodeUnit) : CodeUnit := if 97 ≤ c ∧ c ≤ 122 then c - 32 else c

def lower (s : JsString) : JsString := s.map lowerUnit

def upper (s : JsString) : JsString := s.map upperUnit

lemma lowerUnit_lowerUnit (c : CodeUnit) : lowerUnit (lowerUnit c) = lowerUnit c := by
  unfold lowerUnit
  split_ifs with h h' <;> first | rfl | skip
  obtain ⟨h1, h2⟩ := h
  obtain ⟨h3, h4⟩ := h'
  simp only [UInt16.le_iff_toNat_le, UInt16.toNat_add, UInt16.reduceToNat] at h1 h2 h3 h4
  omega

@[simp] lemma lower_lower (s : JsString) : lower (lower s) = lower s := by
  simp [lower, lowerUnit_lowerUnit]

lemma upperUnit_lowerUnit (c : CodeUnit) : upperUnit (lowerUnit c) = upperUnit c := by
  unfold upperUnit lowerUnit
  by_cases h : 65 ≤ c ∧ c ≤ 90
  · obtain ⟨h1, h2⟩ := h
    have hc : ¬ (97 ≤ c ∧ c ≤ 122) := by
      simp only [UInt16.le_iff_toNat_le, UInt16.reduceToNat] at h1 h2 ⊢
      omega
    have hc' : 97 ≤ c + 32 ∧ c + 32 ≤ 122 := by
      simp only [UInt16.le_iff_toNat_le, UInt16.toNat_add, UInt16.reduceToNat] at h1 h2 ⊢
      omega
    rw [show (if 65 ≤ c ∧ c ≤ 90 then c + 32 else c) = c + 32 from if_pos ⟨h1, h2⟩,
      if_pos hc', if_neg hc, UInt16.add_sub_cancel]
  · rw [if_neg h]

lemma lowerUnit_upperUnit (c : CodeUnit) : lowerUnit (upperUnit c) = lowerUnit c := by
  unfold upperUnit lowerUnit
  by_cases h : 97 ≤ c ∧ c ≤ 122
  · obtain ⟨h1, h2⟩ := h
    have hc : ¬ (65 ≤ c ∧ c ≤ 90) := by
      simp only [UInt16.le_iff_toNat_le, UInt16.reduceToNat] at h1 h2 ⊢
      omega
    have hle : (32 : CodeUnit) ≤ c := by
      simp only [UInt16.le_iff_toNat_le, UInt16.reduceToNat] at h1 ⊢
      omega
    have hc' : 65 ≤ c - 32 ∧ c - 32 ≤ 90 := by
      simp only [UInt16.le_iff_toNat_le, UInt16.toNat_sub_of_le _ _ hle, UInt16.reduceToNat]
        at h1 h2 ⊢
      omega
    rw [show (if 97 ≤ c ∧ c ≤ 122 then c - 32 else c) = c - 32 from if_pos ⟨h1, h2⟩,
      if_pos hc', if_neg hc, UInt16.sub_add_cancel]
  · rw [if_neg h]

/-! ### Splitting and joining -/

/-- `s.split(sep)` for a one-unit separator class: the pieces between separators, empty
ones included. -/
def splitOn (sep : CodeUnit → Bool) : JsString → List JsString
  | [] => [[]]
  | c :: cs =>
      if sep c then [] :: splitOn sep cs
      else match splitOn sep cs with
        | [] => [[c]]
        | p :: ps => (c :: p) :: ps

/-- The non-empty pieces between separators. -/
def segments (sep : CodeUnit → Bool) (s : JsString) : List JsString :=
  (splitOn sep s).filter fun p => !p.isEmpty

/-- `pieces.join(sep)`. -/
def join (sep : JsString) (ps : List JsString) : JsString := sep.intercalate ps

/-- Drop the units satisfying `blank` at both ends. -/
def trimBy (blank : CodeUnit → Bool) (s : JsString) : JsString :=
  ((s.dropWhile blank).reverse.dropWhile blank).reverse

/-- White space and line terminators of ECMAScript, what `s.trim()` strips. -/
def isSpace (c : CodeUnit) : Bool :=
  [9, 10, 11, 12, 13, 32, 0xA0, 0x1680, 0x2028, 0x2029, 0x202F, 0x205F, 0x3000, 0xFEFF].contains c
    || (0x2000 ≤ c && c ≤ 0x200A)

/-- `s.trim()`. -/
def trim (s : JsString) : JsString := trimBy isSpace s

lemma trimBy_of_no_blank {blank : CodeUnit → Bool} {s : JsString}
    (h : ∀ c ∈ s, blank c = false) : trimBy blank s = s := by
  have hdrop (l : JsString) (hl : ∀ c ∈ l, blank c = false) : l.dropWhile blank = l := by
    cases l with
    | nil => rfl
    | cons c cs => simp [hl c (by simp)]
  rw [trimBy, hdrop s h, hdrop s.reverse (by simpa using h), List.reverse_reverse]

/-- Nothing is dropped between two units that stay. -/
lemma trimBy_of_ends {blank : CodeUnit → Bool} {c d : CodeUnit} (s : JsString)
    (hc : blank c = false) (hd : blank d = false) :
    trimBy blank (c :: (s ++ [d])) = c :: (s ++ [d]) := by
  rw [trimBy, List.dropWhile_cons_of_neg (by simp [hc])]
  have hback : (c :: (s ++ [d])).reverse = d :: (s.reverse ++ [c]) := by simp
  rw [hback, List.dropWhile_cons_of_neg (by simp [hd])]
  simp

lemma trim_of_no_space {s : JsString} (h : ∀ c ∈ s, isSpace c = false) : trim s = s :=
  trimBy_of_no_blank h

variable {sep : CodeUnit → Bool}

lemma splitOn_ne_nil (s : JsString) : splitOn sep s ≠ [] := by
  cases s with
  | nil => simp [splitOn]
  | cons c cs =>
      rw [splitOn]
      split_ifs
      · simp
      · split <;> simp

lemma splitOn_cons_of_not (c : CodeUnit) (cs : JsString) (h : sep c = false) :
    ∃ p ps, splitOn sep cs = p :: ps ∧ splitOn sep (c :: cs) = (c :: p) :: ps := by
  cases hs : splitOn sep cs with
  | nil => exact absurd hs (splitOn_ne_nil cs)
  | cons p ps => exact ⟨p, ps, rfl, by simp [splitOn, h, hs]⟩

/-- No piece contains a separator, and every unit of a piece is a unit of the string. -/
lemma of_mem_splitOn {s p : JsString} (hp : p ∈ splitOn sep s) :
    ∀ c ∈ p, sep c = false ∧ c ∈ s := by
  induction s generalizing p with
  | nil =>
      rw [splitOn, List.mem_singleton] at hp
      simp [hp]
  | cons d ds ih =>
      by_cases hd : sep d = true
      · rw [splitOn, if_pos hd, List.mem_cons] at hp
        rcases hp with rfl | hp
        · simp
        · exact fun c hc => ⟨(ih hp c hc).1, List.mem_cons_of_mem _ (ih hp c hc).2⟩
      · have hd' : sep d = false := by simpa using hd
        obtain ⟨q, qs, hq, hs⟩ := splitOn_cons_of_not d ds hd'
        rw [hs, List.mem_cons] at hp
        intro c hc
        rcases hp with rfl | hp
        · rcases List.mem_cons.mp hc with rfl | hc
          · exact ⟨hd', List.mem_cons_self⟩
          · have h := ih (p := q) (by rw [hq]; exact List.mem_cons_self) c hc
            exact ⟨h.1, List.mem_cons_of_mem _ h.2⟩
        · have h := ih (p := p) (by rw [hq]; exact List.mem_cons_of_mem _ hp) c hc
          exact ⟨h.1, List.mem_cons_of_mem _ h.2⟩

/-- A unit that is no separator is in one of the pieces. -/
lemma exists_mem_splitOn {s : JsString} {c : CodeUnit} (hc : c ∈ s) (hsep : sep c = false) :
    ∃ p ∈ splitOn sep s, c ∈ p := by
  induction s with
  | nil => cases hc
  | cons d ds ih =>
      by_cases hd : sep d = true
      · rw [splitOn, if_pos hd]
        rcases List.mem_cons.mp hc with rfl | hc
        · rw [hsep] at hd
          contradiction
        · obtain ⟨p, hp, hcp⟩ := ih hc
          exact ⟨p, List.mem_cons_of_mem _ hp, hcp⟩
      · obtain ⟨q, qs, hq, hs⟩ := splitOn_cons_of_not d ds (by simpa using hd)
        rw [hs]
        rcases List.mem_cons.mp hc with rfl | hc
        · exact ⟨c :: q, List.mem_cons_self, List.mem_cons_self⟩
        · obtain ⟨p, hp, hcp⟩ := ih hc
          rw [hq] at hp
          rcases List.mem_cons.mp hp with rfl | hp
          · exact ⟨d :: p, List.mem_cons_self, List.mem_cons_of_mem _ hcp⟩
          · exact ⟨p, List.mem_cons_of_mem _ hp, hcp⟩

lemma exists_mem_splitOn_unit {s : JsString} {c u : CodeUnit} (hc : c ∈ s) (hne : c ≠ u) :
    ∃ p ∈ splitOn (fun d => decide (d = u)) s, c ∈ p :=
  exists_mem_splitOn hc (decide_eq_false hne)

/-- A segment is non-empty and free of separators. -/
lemma of_mem_segments {s p : JsString} (hp : p ∈ segments sep s) :
    p ≠ [] ∧ ∀ c ∈ p, sep c = false ∧ c ∈ s := by
  obtain ⟨h1, h2⟩ := List.mem_filter.mp hp
  exact ⟨by simpa using h2, of_mem_splitOn h1⟩

@[simp] lemma segments_nil : segments sep [] = [] := by simp [segments, splitOn]

lemma segments_cons_sep (c : CodeUnit) (s : JsString) (h : sep c = true) :
    segments sep (c :: s) = segments sep s := by
  simp [segments, splitOn, h]

lemma splitOn_append_sep (p : JsString) (hp : ∀ c ∈ p, sep c = false) (d : CodeUnit)
    (hd : sep d = true) (s : JsString) : splitOn sep (p ++ d :: s) = p :: splitOn sep s := by
  induction p with
  | nil => simp [splitOn, hd]
  | cons c cs ih =>
      have h := ih fun x hx => hp x (List.mem_cons_of_mem _ hx)
      simp [splitOn, hp c List.mem_cons_self, h]

lemma splitOn_of_no_sep (p : JsString) (hp : ∀ c ∈ p, sep c = false) :
    splitOn sep p = [p] := by
  induction p with
  | nil => rfl
  | cons c cs ih =>
      have h := ih fun x hx => hp x (List.mem_cons_of_mem _ hx)
      simp [splitOn, hp c List.mem_cons_self, h]

/-- Joining pieces by a separator and splitting again gives the pieces back. -/
lemma splitOn_join (d : CodeUnit) (hd : sep d = true) :
    ∀ ps : List JsString, ps ≠ [] → (∀ p ∈ ps, ∀ c ∈ p, sep c = false) →
      splitOn sep (join [d] ps) = ps
  | [], hne, _ => absurd rfl hne
  | [p], _, h => by
      have hp := h p List.mem_cons_self
      simp [join, List.intercalate, splitOn_of_no_sep p hp]
  | p :: q :: ps, _, h => by
      have hp := h p List.mem_cons_self
      have ih := splitOn_join d hd (q :: ps) (List.cons_ne_nil _ _) fun x hx =>
        h x (List.mem_cons_of_mem _ hx)
      have hj : join [d] (p :: q :: ps) = p ++ d :: join [d] (q :: ps) := by
        simp [join, List.intercalate]
      rw [hj, splitOn_append_sep p hp d hd, ih]

/-- Splitting at a unit and joining by it again changes nothing. -/
lemma join_splitOn (d : CodeUnit) (s : JsString) : join [d] (splitOn (fun c => c = d) s) = s := by
  induction s with
  | nil => rfl
  | cons c cs ih =>
      have hne : splitOn (fun c => c = d) cs ≠ [] := splitOn_ne_nil cs
      obtain ⟨p, ps, hsplit⟩ := List.exists_cons_of_ne_nil hne
      rw [splitOn]
      rw [hsplit] at ih ⊢
      split_ifs with hc
      · have hjoin : join [d] ([] :: p :: ps) = d :: join [d] (p :: ps) := by
          simp [join, List.intercalate]
        rw [hjoin, ih, of_decide_eq_true hc]
      · cases ps with
        | nil =>
            have hp : p = cs := by simpa [join, List.intercalate] using ih
            simp [join, List.intercalate, hp]
        | cons q ps =>
            simp only [join, List.intercalate, List.intersperse_cons_cons, List.flatten_cons]
              at ih ⊢
            rw [← ih]
            rfl

/-- Joining clean segments by a separator and splitting again gives the segments back. -/
lemma segments_join (d : CodeUnit) (hd : sep d = true) (ps : List JsString)
    (h : ∀ p ∈ ps, p ≠ [] ∧ ∀ c ∈ p, sep c = false) : segments sep (join [d] ps) = ps := by
  cases ps with
  | nil => simp [join, segments, splitOn, List.intercalate]
  | cons p ps =>
      rw [segments, splitOn_join d hd _ (List.cons_ne_nil _ _) fun x hx => (h x hx).2,
        List.filter_eq_self]
      intro x hx
      simpa using (h x hx).1

/-! ### Cutting -/

section Cut

variable {α : Type} {c : α} {a a' r r' : List α}

/-- A list is cut at the first `c` in one way. -/
lemma cut_first (ha : c ∉ a) (ha' : c ∉ a') (h : a ++ c :: r = a' ++ c :: r') :
    a = a' ∧ r = r' := by
  induction a generalizing a' with
  | nil =>
      cases a' with
      | nil => exact ⟨rfl, (List.cons.inj h).2⟩
      | cons d a' => exact absurd (List.cons.inj h).1 fun hd => ha' (hd ▸ List.mem_cons_self)
  | cons d a ih =>
      cases a' with
      | nil => exact absurd (List.cons.inj h).1 fun hd => ha (hd ▸ List.mem_cons_self)
      | cons d' a' =>
          obtain ⟨rfl, htail⟩ := List.cons.inj h
          obtain ⟨rfl, hr⟩ := ih (fun hc => ha (List.mem_cons_of_mem _ hc))
            (fun hc => ha' (List.mem_cons_of_mem _ hc)) htail
          exact ⟨rfl, hr⟩

/-- A list is cut at the last `c` in one way. -/
lemma cut_last (hr : c ∉ r) (hr' : c ∉ r') (h : a ++ c :: r = a' ++ c :: r') :
    a = a' ∧ r = r' := by
  have hrev : r.reverse ++ c :: a.reverse = r'.reverse ++ c :: a'.reverse := by
    simpa using congrArg List.reverse h
  obtain ⟨h1, h2⟩ := cut_first (by simpa using hr) (by simpa using hr') hrev
  exact ⟨List.reverse_injective h2, List.reverse_injective h1⟩

end Cut

end JsString
