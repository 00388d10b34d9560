import Mathlib.Tactic

/-!
A numbered log and a reader of it that resumes from the last number it was told. The reader
wants some of the entries; a message moves its resume point, and may hand it an entry.

* `above`, `upTo`: the wanted entries above a number, and those of them up to another.
* `Covers`: messages that lead a reader from its resume point to the end of the log, each with
  exactly the wanted entries between the point it finds and the one it leaves.
* `CoversFrom`: the same for a reader that may not have a resume point yet.
* `Covers.append_wanted`, `Covers.append_unwanted`, `Covers.append_mark`, `covers_above`: what
  keeps messages covering, and what covers from the start.
* `retained`, `retained_append`, `above_retained`: a buffer of the last entries, and when
  nothing wanted has left it.
-/

namespace ResumableLog

variable {α : Type*} {key : α → ℕ} {wanted : α → Bool} {log : List α} {e : α}

/-- A message to the reader: its new resume point, and an entry or none. -/
structure Message (α : Type*) where
  key : ℕ
  entry : Option α

/-- The message that hands over an entry. -/
def handing (key : α → ℕ) (e : α) : Message α := ⟨key e, some e⟩

/-! ### Stretches of the log -/

/-- The wanted entries above `j`. -/
def above (key : α → ℕ) (wanted : α → Bool) (log : List α) (j : ℕ) : List α :=
  log.filter fun e => j < key e && wanted e

/-- The wanted entries above `j`, up to `i`. -/
def upTo (key : α → ℕ) (wanted : α → Bool) (log : List α) (j i : ℕ) : List α :=
  log.filter fun e => j < key e && key e ≤ i && wanted e

/-- Numbers increase along the log. -/
def Numbered (key : α → ℕ) (log : List α) : Prop := log.Pairwise fun a b => key a < key b

lemma Numbered.append (h : Numbered key log) (he : ∀ a ∈ log, key a < key e) :
    Numbered key (log ++ [e]) := by
  refine List.pairwise_append.mpr ⟨h, List.pairwise_singleton _ _, ?_⟩
  intro a ha b hb
  rw [List.mem_singleton.mp hb]
  exact he a ha

lemma above_append (j : ℕ) :
    above key wanted (log ++ [e]) j =
      above key wanted log j ++ if j < key e ∧ wanted e = true then [e] else [] := by
  by_cases h : j < key e ∧ wanted e = true
  · rw [if_pos h, above, List.filter_append, List.filter_cons_of_pos (by simp [h]), List.filter_nil,
      above]
  · rw [if_neg h, above, List.filter_append, List.filter_cons_of_neg (by simpa using h),
      List.filter_nil, above]

lemma above_append_of_unwanted (he : wanted e = false) (j : ℕ) :
    above key wanted (log ++ [e]) j = above key wanted log j := by
  simp [above_append, he]

lemma upTo_append_of_unwanted (he : wanted e = false) (j i : ℕ) :
    upTo key wanted (log ++ [e]) j i = upTo key wanted log j i := by
  simp [upTo, he]

lemma upTo_append_of_lt {i : ℕ} (hi : i < key e) (j : ℕ) :
    upTo key wanted (log ++ [e]) j i = upTo key wanted log j i := by
  have hle : ¬ key e ≤ i := by omega
  simp [upTo, hle]

/-- Nothing is above the last number given out. -/
lemma above_eq_nil {j : ℕ} (h : ∀ a ∈ log, key a ≤ j) : above key wanted log j = [] := by
  refine List.filter_eq_nil_iff.mpr fun a ha => ?_
  have hle := h a ha
  simp only [Bool.and_eq_true, decide_eq_true_eq, not_and]
  omega

/-- Where nothing wanted is above `j`, nothing wanted lies between `j` and another number. -/
lemma upTo_eq_nil {j : ℕ} (h : above key wanted log j = []) (i : ℕ) :
    upTo key wanted log j i = [] := by
  refine List.filter_eq_nil_iff.mpr fun a ha => ?_
  have hno := List.filter_eq_nil_iff.mp h a ha
  simp only [Bool.and_eq_true, decide_eq_true_eq] at hno ⊢
  exact fun hw => hno ⟨hw.1.1, hw.2⟩

lemma above_eq_nil_mono {j i : ℕ} (hji : j ≤ i) (h : above key wanted log j = []) :
    above key wanted log i = [] := by
  refine List.filter_eq_nil_iff.mpr fun a ha => ?_
  have hno := List.filter_eq_nil_iff.mp h a ha
  simp only [Bool.and_eq_true, decide_eq_true_eq] at hno ⊢
  exact fun hw => hno ⟨by omega, hw.2⟩

/-- A stretch of a numbered log is cut in two at any number inside it. -/
lemma upTo_split (h : Numbered key log) {f j i : ℕ} (hfj : f ≤ j) (hji : j ≤ i) :
    upTo key wanted log f i = upTo key wanted log f j ++ upTo key wanted log j i := by
  induction log with
  | nil => rfl
  | cons a log ih =>
      obtain ⟨ha, htail⟩ := List.pairwise_cons.mp h
      have ih := ih htail
      by_cases hj : key a ≤ j
      · -- the entry belongs to the first half, if to any
        have hjf : ¬ j < key a := by omega
        by_cases hin : (f < key a) ∧ wanted a = true
        · have hi : key a ≤ i := by omega
          simp only [upTo, List.filter_cons] at ih ⊢
          simp [hin, hj, hi, hjf, ih]
        · have hout (k : ℕ) : (decide (f < key a) && decide (key a ≤ k) && wanted a) = false := by
            simpa [and_right_comm, and_assoc] using fun h1 _ h2 => hin ⟨h1, h2⟩
          simp only [upTo, List.filter_cons] at ih ⊢
          simp [hout, hjf, ih]
      · -- the entry is above `j`, and so is the rest
        have hfirst : upTo key wanted (a :: log) f j = [] := by
          refine List.filter_eq_nil_iff.mpr fun b hb => ?_
          have hab : j < key b := by
            rcases List.mem_cons.mp hb with rfl | hb
            · omega
            · have := ha b hb
              omega
          simp only [Bool.and_eq_true, decide_eq_true_eq, not_and]
          omega
        rw [hfirst, List.nil_append]
        refine List.filter_congr fun b hb => ?_
        have hab : j < key b := by
          rcases List.mem_cons.mp hb with rfl | hb
          · omega
          · have := ha b hb
            omega
        have hfb : f < key b := by omega
        simp [hab, hfb]

/-- What is above `f` begins with the stretch up to any later number. -/
lemma above_split (h : Numbered key log) {f j : ℕ} (hfj : f ≤ j) :
    above key wanted log f = upTo key wanted log f j ++ above key wanted log j := by
  obtain ⟨n, hjn, hn⟩ : ∃ n, j ≤ n ∧ ∀ a ∈ log, key a ≤ n := by
    refine ⟨j + (log.map key).sum, by omega, fun a ha => ?_⟩
    have := List.single_le_sum (fun _ _ => Nat.zero_le _) _ (List.mem_map_of_mem (f := key) ha)
    omega
  have hto (k : ℕ) : above key wanted log k = upTo key wanted log k n := by
    refine List.filter_congr fun a ha => ?_
    simp [hn a ha]
  rw [hto f, hto j, upTo_split h hfj hjn]

/-! ### Messages -/

/-- The messages lead from the resume point `j` to the end of the log, each with the wanted
entries between the point before it and its own. -/
def Covers (key : α → ℕ) (wanted : α → Bool) (log : List α) : ℕ → List (Message α) → Prop
  | j, [] => above key wanted log j = []
  | j, m :: ms => j ≤ m.key ∧ upTo key wanted log j m.key = m.entry.toList ∧
      Covers key wanted log m.key ms

/-- An entry the reader wants, and the message that hands it over. -/
lemma Covers.append_wanted {j : ℕ} {ms : List (Message α)} (he : wanted e = true)
    (h : Covers key wanted log j ms) (hj : j < key e) (hms : ∀ m ∈ ms, m.key < key e) :
    Covers key wanted (log ++ [e]) j (ms ++ [handing key e]) := by
  induction ms generalizing j with
  | nil =>
      have hnil : above key wanted log j = [] := h
      refine ⟨Nat.le_of_lt hj, ?_, ?_⟩
      · have hlast : upTo key wanted [e] j (key e) = [e] := by simp [upTo, hj, he]
        rw [upTo, List.filter_append]
        exact congrArg₂ (· ++ ·) (upTo_eq_nil hnil (key e)) hlast
      · show above key wanted (log ++ [e]) (key e) = []
        rw [above_append, above_eq_nil_mono (Nat.le_of_lt hj) hnil, if_neg (by simp),
          List.nil_append]
  | cons m ms ih =>
      obtain ⟨hle, hbetween, hrest⟩ := h
      have hm := hms m List.mem_cons_self
      refine ⟨hle, ?_, ih hrest hm fun x hx => hms x (List.mem_cons_of_mem _ hx)⟩
      rw [upTo_append_of_lt hm, hbetween]

/-- An entry the reader does not want needs no message. -/
lemma Covers.append_unwanted {j : ℕ} {ms : List (Message α)} (he : wanted e = false)
    (h : Covers key wanted log j ms) : Covers key wanted (log ++ [e]) j ms := by
  induction ms generalizing j with
  | nil => exact (above_append_of_unwanted he j).trans h
  | cons m ms ih =>
      obtain ⟨hle, hbetween, hrest⟩ := h
      exact ⟨hle, (upTo_append_of_unwanted he j m.key).trans hbetween, ih hrest⟩

/-- A message that only moves the resume point, past nothing wanted. -/
lemma Covers.append_mark {j n : ℕ} {ms : List (Message α)} (h : Covers key wanted log j ms)
    (hj : j ≤ n) (hms : ∀ m ∈ ms, m.key ≤ n) :
    Covers key wanted log j (ms ++ [⟨n, none⟩]) := by
  induction ms generalizing j with
  | nil =>
      have hnil : above key wanted log j = [] := h
      exact ⟨hj, upTo_eq_nil hnil n, above_eq_nil_mono hj hnil⟩
  | cons m ms ih =>
      obtain ⟨hle, hbetween, hrest⟩ := h
      exact ⟨hle, hbetween, ih hrest (hms m List.mem_cons_self)
        fun x hx => hms x (List.mem_cons_of_mem _ hx)⟩

/-- An entry at or below the resume point, or one not wanted, may stand before the log. -/
lemma Covers.cons {a : α} {j : ℕ} {ms : List (Message α)} (h : Covers key wanted log j ms)
    (ha : ¬ (j < key a ∧ wanted a = true)) : Covers key wanted (a :: log) j ms := by
  induction ms generalizing j with
  | nil =>
      have hnil : above key wanted log j = [] := h
      refine (List.filter_cons_of_neg ?_).trans hnil
      simpa using ha
  | cons m ms ih =>
      obtain ⟨hle, hbetween, hrest⟩ := h
      refine ⟨hle, (List.filter_cons_of_neg ?_).trans hbetween,
        ih hrest fun hm => ha ⟨by omega, hm.2⟩⟩
      simpa using fun h1 _ h2 => ha ⟨h1, h2⟩

/-- The wanted entries above the resume point, handed over in order, cover the log. -/
lemma covers_above (h : Numbered key log) (j : ℕ) :
    Covers key wanted log j ((above key wanted log j).map (handing key)) := by
  induction log generalizing j with
  | nil => rfl
  | cons a log ih =>
      obtain ⟨ha, htail⟩ := List.pairwise_cons.mp h
      by_cases hin : j < key a ∧ wanted a = true
      · have habove : above key wanted (a :: log) j = a :: above key wanted log (key a) := by
          rw [above, List.filter_cons_of_pos (by simpa using hin)]
          refine congrArg _ (List.filter_congr fun b hb => ?_)
          have hab := ha b hb
          have hjb : j < key b := by omega
          simp [hab, hjb]
        have honly : upTo key wanted (a :: log) j (key a) = [a] := by
          rw [upTo, List.filter_cons_of_pos (by simpa using hin)]
          refine congrArg _ (List.filter_eq_nil_iff.mpr fun b hb => ?_)
          have hab := ha b hb
          simp only [Bool.and_eq_true, decide_eq_true_eq, not_and]
          omega
        rw [habove]
        exact ⟨Nat.le_of_lt hin.1, honly, (ih htail (key a)).cons fun hself => by omega⟩
      · have habove : above key wanted (a :: log) j = above key wanted log j :=
          List.filter_cons_of_neg (by simpa using hin)
        rw [habove]
        exact (ih htail j).cons hin

/-- The same for a reader that may have no resume point yet: its first message sets one. -/
def CoversFrom (key : α → ℕ) (wanted : α → Bool) (log : List α) :
    Option ℕ → List (Message α) → Prop
  | some j, ms => Covers key wanted log j ms
  | none, [] => True
  | none, m :: ms => Covers key wanted log m.key ms

lemma CoversFrom.append_wanted {o : Option ℕ} {ms : List (Message α)} (he : wanted e = true)
    (h : CoversFrom key wanted log o ms) (ho : ∀ j ∈ o, j < key e)
    (hms : ∀ m ∈ ms, m.key < key e) (hlog : ∀ a ∈ log, key a < key e) :
    CoversFrom key wanted (log ++ [e]) o (ms ++ [handing key e]) := by
  cases o with
  | some j => exact Covers.append_wanted he h (ho j rfl) hms
  | none =>
      cases ms with
      | nil =>
          have hnil : above key wanted log (key e) = [] :=
            above_eq_nil fun a ha => Nat.le_of_lt (hlog a ha)
          show above key wanted (log ++ [e]) (key e) = []
          rw [above_append, hnil, if_neg (by simp), List.nil_append]
      | cons m ms =>
          exact Covers.append_wanted he h (hms m List.mem_cons_self)
            fun x hx => hms x (List.mem_cons_of_mem _ hx)

lemma CoversFrom.append_unwanted {o : Option ℕ} {ms : List (Message α)} (he : wanted e = false)
    (h : CoversFrom key wanted log o ms) : CoversFrom key wanted (log ++ [e]) o ms := by
  cases o with
  | some j => exact Covers.append_unwanted he h
  | none =>
      cases ms with
      | nil => trivial
      | cons m ms => exact Covers.append_unwanted he h

lemma CoversFrom.append_mark {o : Option ℕ} {n : ℕ} {ms : List (Message α)}
    (h : CoversFrom key wanted log o ms) (ho : ∀ j ∈ o, j ≤ n) (hms : ∀ m ∈ ms, m.key ≤ n)
    (hn : above key wanted log n = []) : CoversFrom key wanted log o (ms ++ [⟨n, none⟩]) := by
  cases o with
  | some j => exact Covers.append_mark h (ho j rfl) hms
  | none =>
      cases ms with
      | nil => exact hn
      | cons m ms =>
          exact Covers.append_mark h (hms m List.mem_cons_self)
            fun x hx => hms x (List.mem_cons_of_mem _ hx)

/-! ### A bounded buffer -/

/-- The last `n` entries. -/
def retained (n : ℕ) (log : List α) : List α := log.drop (log.length - n)

/-- Push, and shift where the buffer has grown past its size. -/
def push (n : ℕ) (buffer : List α) (e : α) : List α :=
  if n < (buffer ++ [e]).length then (buffer ++ [e]).tail else buffer ++ [e]

lemma length_retained (n : ℕ) (log : List α) : (retained n log).length = min log.length n := by
  rw [retained, List.length_drop]
  omega

/-- Pushing and shifting keeps the last entries. -/
lemma retained_append (n : ℕ) (log : List α) (e : α) :
    retained n (log ++ [e]) = push n (retained n log) e := by
  have hlen := length_retained n log
  rw [push]
  by_cases hfull : n ≤ log.length
  · have hdrop : log.length + 1 - n = (log.length - n) + 1 := by omega
    rw [if_pos (by rw [List.length_append, hlen, List.length_singleton]; omega), retained,
      List.length_append, List.length_singleton, hdrop, ← List.drop_drop, List.drop_one, retained,
      List.drop_append_of_le_length (by omega)]
  · rw [if_neg (by rw [List.length_append, hlen, List.length_singleton]; omega), retained, retained,
      List.length_append, List.length_singleton]
    have hzero : log.length + 1 - n = 0 := by omega
    have hzero' : log.length - n = 0 := by omega
    rw [hzero, hzero', List.drop_zero, List.drop_zero]

/-- What is kept has been logged. -/
lemma mem_of_mem_retained {n : ℕ} (h : e ∈ retained n log) : e ∈ log := List.mem_of_mem_drop h

/-- Where the buffer reaches back to the first wanted entry above `j`, it has them all. -/
lemma above_retained {n j : ℕ}
    (h : (log.dropWhile fun e => !(decide (j < key e) && wanted e)).length ≤ n) :
    above key wanted (retained n log) j = above key wanted log j := by
  set skip : α → Bool := fun e => !(decide (j < key e) && wanted e)
  have hlog : log.takeWhile skip ++ log.dropWhile skip = log := List.takeWhile_append_dropWhile
  have hskipped (l : List α) (hl : ∀ a ∈ l, a ∈ log.takeWhile skip) :
      above key wanted l j = [] := by
    refine List.filter_eq_nil_iff.mpr fun a ha => ?_
    have := List.all_eq_true.mp List.all_takeWhile a (hl a ha)
    simpa [skip, or_iff_not_imp_left] using this
  have hlen : log.length = (log.takeWhile skip).length + (log.dropWhile skip).length := by
    rw [← List.length_append, hlog]
  have hretained : retained n log =
      (log.takeWhile skip).drop (log.length - n) ++ log.dropWhile skip := by
    rw [retained, ← List.drop_append_of_le_length (by omega), hlog]
  calc above key wanted (retained n log) j
      = above key wanted ((log.takeWhile skip).drop (log.length - n)) j ++
          above key wanted (log.dropWhile skip) j := by
        rw [hretained, above, List.filter_append, above, above]
    _ = above key wanted (log.takeWhile skip) j ++ above key wanted (log.dropWhile skip) j := by
        rw [hskipped _ fun a ha => List.mem_of_mem_drop ha, hskipped _ fun a ha => ha]
    _ = above key wanted log j := by
        rw [above, above, above, ← List.filter_append, hlog]

end ResumableLog
