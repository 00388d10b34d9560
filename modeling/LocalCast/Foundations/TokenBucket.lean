import LocalCast.Foundations.Runs

/-!
Token buckets that are refilled when they are looked at: a number of tokens as of a time, to which
what has come in since is added before one is taken.

* `Bucket`, `Rate`, `refill`, `take`.
* `level`: the tokens at a time, also of a bucket that is not kept and starts out full.
  `level_le_add` bounds what comes in, `level_take` is what a token costs, `level_forget` says that
  a bucket left alone for a window may as well be forgotten, `level_retry` that a caller who waits
  as long as it was told finds a token.
* `Meter`, `Meter.admitted_le`: in a run whose steps charge a bucket for what they admit, the
  tokens taken in any interval are at most the capacity and what comes in meanwhile.
-/

namespace TokenBucket

open Runs

structure Bucket where
  tokens : ℚ
  updatedAt : ℚ
deriving DecidableEq

/-- How many tokens a bucket holds, and in which time that many come in. -/
structure Rate where
  capacity : ℚ
  window : ℚ
  capacity_pos : 0 < capacity
  window_pos : 0 < window

/-- What comes in within a time. -/
def Rate.gain (r : Rate) (d : ℚ) : ℚ := d / r.window * r.capacity

def refill (r : Rate) (b : Bucket) (t : ℚ) : ℚ :=
  min r.capacity (b.tokens + r.gain (t - b.updatedAt))

/-- Takes a token if there is a whole one, and answers how long it is until there is. -/
def take (r : Rate) (b : Bucket) (t : ℚ) : Bucket × ℤ :=
  let tokens := refill r b t
  if tokens < 1 then (⟨tokens, t⟩, ⌈(1 - tokens) / r.capacity * r.window⌉)
  else (⟨tokens - 1, t⟩, 0)

/-- The tokens of a bucket at a time; one that is not kept is full. -/
def level (r : Rate) : Option Bucket → ℚ → ℚ
  | none, _ => r.capacity
  | some b, t => refill r b t

/-- What a bucket that is kept is like at a time. -/
def Fits (o : Option Bucket) (t : ℚ) : Prop := ∀ b ∈ o, 0 ≤ b.tokens ∧ b.updatedAt ≤ t

section Level

variable {r : Rate} {o : Option Bucket} {b : Bucket} {t t' u d : ℚ}

lemma Rate.gain_nonneg (r : Rate) (h : 0 ≤ d) : 0 ≤ r.gain d :=
  mul_nonneg (div_nonneg h r.window_pos.le) r.capacity_pos.le

lemma Rate.gain_mono (r : Rate) {d d' : ℚ} (h : d ≤ d') : r.gain d ≤ r.gain d' :=
  mul_le_mul_of_nonneg_right (div_le_div_of_nonneg_right h r.window_pos.le) r.capacity_pos.le

lemma Rate.gain_add (r : Rate) (d d' : ℚ) : r.gain (d + d') = r.gain d + r.gain d' := by
  rw [gain, gain, gain]
  ring

lemma Rate.gain_window (r : Rate) : r.gain r.window = r.capacity := by
  rw [gain, div_self r.window_pos.ne', one_mul]

lemma Fits.mono (h : Fits o t) (htt : t ≤ t') : Fits o t' := by
  intro b hb
  exact ⟨(h b hb).1, (h b hb).2.trans htt⟩

/-! ### The level -/

lemma level_le_capacity : level r o t ≤ r.capacity := by
  cases o with
  | none => exact le_rfl
  | some b => exact min_le_left _ _

lemma level_nonneg (h : Fits o t) : 0 ≤ level r o t := by
  cases o with
  | none => exact r.capacity_pos.le
  | some b =>
      obtain ⟨htokens, hupdated⟩ := h b rfl
      exact le_min r.capacity_pos.le (add_nonneg htokens (r.gain_nonneg (sub_nonneg.mpr hupdated)))

/-- A bucket gains at most what comes in. -/
lemma level_le_add (h : t ≤ t') : level r o t' ≤ level r o t + r.gain (t' - t) := by
  have hgain := r.gain_nonneg (sub_nonneg.mpr h)
  cases o with
  | none => exact le_add_of_nonneg_right hgain
  | some b =>
      have hsplit : r.gain (t' - b.updatedAt) = r.gain (t - b.updatedAt) + r.gain (t' - t) := by
        rw [← r.gain_add]
        congr 1
        ring
      have hfull : refill r b t' ≤ r.capacity := min_le_left _ _
      have hopen : refill r b t' ≤ b.tokens + r.gain (t' - b.updatedAt) := min_le_right _ _
      rw [level, level]
      rcases min_choice r.capacity (b.tokens + r.gain (t - b.updatedAt)) with hmin | hmin
      · rw [refill.eq_def r b t, hmin]
        linarith
      · rw [refill.eq_def r b t, hmin]
        linarith

lemma level_mono (h : t ≤ t') : level r o t ≤ level r o t' := by
  cases o with
  | none => exact le_rfl
  | some b => exact min_le_min_left _ (add_le_add_right (r.gain_mono (sub_le_sub_right h _)) _)

/-- **Forgetting** a bucket that nobody has looked at for a window changes nothing: it is full. -/
lemma level_forget (h : Fits o u) (hidle : ∀ b ∈ o, b.updatedAt + r.window ≤ t) :
    level r none t = level r o t := by
  cases o with
  | none => rfl
  | some b =>
      have hwindow : b.updatedAt + r.window ≤ t := hidle b rfl
      have hgain := r.gain_mono (show r.window ≤ t - b.updatedAt by linarith)
      rw [r.gain_window] at hgain
      exact (min_eq_left (le_add_of_nonneg_of_le (h b rfl).1 hgain)).symm

/-- A bucket starts out full, whenever that is. -/
lemma refill_getD (h : u ≤ t) : refill r (o.getD ⟨r.capacity, u⟩) t = level r o t := by
  cases o with
  | none => exact min_eq_left (le_add_of_nonneg_right (r.gain_nonneg (sub_nonneg.mpr h)))
  | some b => rfl

lemma refill_now (htokens : b.tokens ≤ r.capacity) : refill r b b.updatedAt = b.tokens := by
  rw [refill, sub_self, Rate.gain, zero_div, zero_mul, add_zero, min_eq_right htokens]

/-- Moving a bucket on in time without crediting it loses what came in. -/
lemma level_moved (h : b.updatedAt ≤ t) : level r (some ⟨b.tokens, t⟩) t ≤ level r (some b) t := by
  refine min_le_min_left _ ?_
  rw [sub_self]
  exact add_le_add_right (r.gain_mono (sub_nonneg.mpr h)) _

/-! ### Taking a token -/

lemma take_of_lt (h : refill r b t < 1) :
    take r b t = (⟨refill r b t, t⟩, ⌈(1 - refill r b t) / r.capacity * r.window⌉) := if_pos h

lemma take_of_le (h : 1 ≤ refill r b t) : take r b t = (⟨refill r b t - 1, t⟩, 0) :=
  if_neg (not_lt.mpr h)

/-- Who finds no token is told to wait, and nobody else. -/
lemma wait_pos_iff : 0 < (take r b t).2 ↔ refill r b t < 1 := by
  constructor
  · intro h
    by_contra hle
    rw [take_of_le (not_lt.mp hle)] at h
    exact lt_irrefl _ h
  · intro h
    rw [take_of_lt h, Int.ceil_pos]
    exact mul_pos (div_pos (sub_pos.mpr h) r.capacity_pos) r.window_pos

/-- A token that is taken is missing. -/
lemma level_take : level r (some (take r b t).1) t + (if 0 < (take r b t).2 then 0 else 1) =
    refill r b t := by
  have hle : refill r b t ≤ r.capacity := min_le_left _ _
  by_cases h : refill r b t < 1
  · rw [if_pos (wait_pos_iff.mpr h), add_zero, take_of_lt h]
    exact refill_now hle
  · have hless : refill r b t - 1 ≤ r.capacity := (sub_le_self _ zero_le_one).trans hle
    rw [if_neg (mt wait_pos_iff.mp h), take_of_le (not_lt.mp h), level, refill_now hless,
      sub_add_cancel]

lemma updatedAt_take : (take r b t).1.updatedAt = t := by
  by_cases h : refill r b t < 1
  · rw [take_of_lt h]
  · rw [take_of_le (not_lt.mp h)]

lemma tokens_take (htokens : 0 ≤ b.tokens) (hupdated : b.updatedAt ≤ t) :
    0 ≤ (take r b t).1.tokens := by
  by_cases h : refill r b t < 1
  · rw [take_of_lt h]
    exact le_min r.capacity_pos.le
      (add_nonneg htokens (r.gain_nonneg (sub_nonneg.mpr hupdated)))
  · rw [take_of_le (not_lt.mp h)]
    exact sub_nonneg.mpr (not_lt.mp h)

/-- **Who waits as long as it was told** finds a token, where the bucket can hold one. -/
lemma level_retry (hone : 1 ≤ r.capacity) (hwait : 0 < (take r b t).2)
    (h : t + (take r b t).2 ≤ t') : 1 ≤ level r (some (take r b t).1) t' := by
  have hlt := wait_pos_iff.mp hwait
  rw [take_of_lt hlt] at h ⊢
  have hceil := Int.le_ceil ((1 - refill r b t) / r.capacity * r.window)
  have hlong : (1 - refill r b t) / r.capacity * r.window ≤ t' - t := by
    simp only at h
    linarith
  have hgain : 1 - refill r b t ≤ r.gain (t' - t) :=
    calc 1 - refill r b t
        = r.gain ((1 - refill r b t) / r.capacity * r.window) := by
          rw [Rate.gain, mul_div_assoc, div_self r.window_pos.ne', mul_one,
            div_mul_cancel₀ _ r.capacity_pos.ne']
      _ ≤ r.gain (t' - t) := r.gain_mono hlong
  exact le_min hone (by simp only; linarith)

end Level

/-! ### Runs -/

section Meter

variable {σ α : Type*}

/-- How many tokens were taken within an interval. -/
def admitted (admits : α → Bool) (time : α → ℚ) (lo hi : ℚ) (es : List α) : ℕ :=
  es.countP fun e => admits e && (decide (lo ≤ time e) && decide (time e ≤ hi))

/-- How many tokens were taken since a time. -/
def admittedSince (admits : α → Bool) (time : α → ℚ) (lo : ℚ) (es : List α) : ℕ :=
  es.countP fun e => admits e && decide (lo ≤ time e)

/-- Steps that tell their time and charge a bucket for what they admit. -/
structure Meter (r : Rate) (R : σ → α → σ → Prop) (I : σ → Prop) (bucket : σ → Option Bucket)
    (clock : σ → ℚ) (time : α → ℚ) (admits : α → Bool) : Prop where
  kept : ∀ s e t, I s → R s e t → I t
  timed : ∀ s e t, I s → R s e t → clock s ≤ time e ∧ clock t = time e
  fits : ∀ s, I s → Fits (bucket s) (clock s)
  charged : ∀ s e t, I s → R s e t → level r (bucket t) (time e) + (if admits e then 1 else 0) ≤
    level r (bucket s) (time e)

/-- What the tokens taken so far amount to, and those that are left. -/
structure Counted (r : Rate) (time : α → ℚ) (admits : α → Bool) (es : List α)
    (clock tokens : ℚ) : Prop where
  past : ∀ e ∈ es, time e ≤ clock
  since : ∀ lo ≤ clock, admittedSince admits time lo es + tokens ≤
    r.capacity + r.gain (clock - lo)
  within : ∀ lo hi, lo ≤ hi → admitted admits time lo hi es ≤ r.capacity + r.gain (hi - lo)

variable {r : Rate} {R : σ → α → σ → Prop} {I : σ → Prop} {bucket : σ → Option Bucket}
  {clock : σ → ℚ} {time : α → ℚ} {admits : α → Bool} {s t : σ} {e : α} {es : List α}

lemma counted_nil (r : Rate) (time : α → ℚ) (admits : α → Bool) {clock tokens : ℚ}
    (h : tokens ≤ r.capacity) : Counted r time admits [] clock tokens where
  past e he := absurd he List.not_mem_nil
  since lo hlo := by
    have hgain := r.gain_nonneg (sub_nonneg.mpr hlo)
    rw [admittedSince, List.countP_nil, Nat.cast_zero]
    linarith
  within lo hi hle := by
    have hgain := r.gain_nonneg (sub_nonneg.mpr hle)
    rw [admitted, List.countP_nil, Nat.cast_zero]
    exact add_nonneg r.capacity_pos.le hgain

lemma admitted_le_since (lo hi : ℚ) (es : List α) :
    admitted admits time lo hi es ≤ admittedSince admits time lo es := by
  refine List.countP_mono_left fun e _ he => ?_
  simp only [Bool.and_eq_true] at he ⊢
  exact ⟨he.1, he.2.1⟩

lemma admittedSince_concat (lo : ℚ) (h : lo ≤ time e) :
    admittedSince admits time lo (es ++ [e]) =
      admittedSince admits time lo es + if admits e then 1 else 0 := by
  rw [admittedSince, List.countP_append, List.countP_singleton, decide_eq_true h, Bool.and_true]
  rfl

/-- **One step** charges for what it admits. -/
lemma Counted.step (m : Meter r R I bucket clock time admits) (hs : I s) (hstep : R s e t)
    (h : Counted r time admits es (clock s) (level r (bucket s) (clock s))) :
    Counted r time admits (es ++ [e]) (clock t) (level r (bucket t) (clock t)) := by
  obtain ⟨hle, hclock⟩ := m.timed s e t hs hstep
  have hcharged := m.charged s e t hs hstep
  rw [hclock]
  have hsince : ∀ lo ≤ time e, admittedSince admits time lo (es ++ [e]) +
      level r (bucket t) (time e) ≤ r.capacity + r.gain (time e - lo) := by
    intro lo hlo
    rw [admittedSince_concat lo hlo]
    push_cast
    by_cases hold : lo ≤ clock s
    · -- what came in since the interval began came in before the last step or after it
      have hbefore := h.since lo hold
      have hnow : level r (bucket s) (time e) ≤ _ := level_le_add hle
      have hgain := r.gain_add (clock s - lo) (time e - clock s)
      rw [show clock s - lo + (time e - clock s) = time e - lo by ring] at hgain
      linarith
    · -- the interval began after the last step, so that it has seen nothing yet
      have hnone : admittedSince admits time lo es = 0 := by
        rw [admittedSince, List.countP_eq_zero]
        intro e' he'
        have hpast := h.past e' he'
        simp only [Bool.and_eq_true, decide_eq_true_eq, not_and, not_le]
        intro _
        linarith
      have hgain := r.gain_nonneg (sub_nonneg.mpr hlo)
      have hnow : level r (bucket s) (time e) ≤ _ := level_le_capacity
      rw [hnone, Nat.cast_zero]
      linarith
  refine ⟨?_, hsince, ?_⟩
  · intro e' he'
    rcases List.mem_append.mp he' with he' | he'
    · exact (h.past e' he').trans hle
    · rw [List.mem_singleton.mp he']
  · intro lo hi hlohi
    by_cases hin : lo ≤ time e ∧ time e ≤ hi
    · have hcount : (admitted admits time lo hi (es ++ [e]) : ℚ) ≤
          admittedSince admits time lo (es ++ [e]) := by
        exact_mod_cast admitted_le_since lo hi (es ++ [e])
      have hnow := hsince lo hin.1
      have hnonneg : 0 ≤ level r (bucket t) (time e) :=
        hclock ▸ level_nonneg (m.fits t (m.kept s e t hs hstep))
      have hgain := r.gain_mono (show time e - lo ≤ hi - lo by linarith [hin.2])
      linarith
    · have hsame : admitted admits time lo hi (es ++ [e]) = admitted admits time lo hi es := by
        have hout : (decide (lo ≤ time e) && decide (time e ≤ hi)) = false := by
          rw [← Bool.decide_and]
          exact decide_eq_false hin
        rw [admitted, List.countP_append, List.countP_singleton, hout, Bool.and_false]
        rfl
      rw [hsame]
      exact h.within lo hi hlohi

/-- **A run** takes no more tokens in an interval than a bucket holds and gains meanwhile. -/
theorem Meter.admitted_le (m : Meter r R I bucket clock time admits) (hs : I s)
    (h : Run R s es t) {lo d : ℚ} (hd : 0 ≤ d) :
    (admitted admits time lo (lo + d) es : ℚ) ≤ r.capacity * (1 + d / r.window) := by
  have hcounted := h.history
    (I := fun es s => I s ∧ Counted r time admits es (clock s) (level r (bucket s) (clock s)))
    (fun es s e t hI hstep => ⟨m.kept s e t hI.1 hstep, hI.2.step m hI.1 hstep⟩)
    ⟨hs, counted_nil r time admits level_le_capacity⟩
  have hwithin := hcounted.2.within lo (lo + d) (le_add_of_nonneg_right hd)
  rw [add_sub_cancel_left, Rate.gain] at hwithin
  refine hwithin.trans (le_of_eq ?_)
  ring

end Meter

end TokenBucket
