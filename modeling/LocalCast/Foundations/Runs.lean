import Mathlib.Tactic

/-!
Runs of labelled step relations, the induction rules for them, and the executable
form used to exhibit a concrete run.

* `Run R s as t`: the actions `as`, taken in order, lead from `s` to `t`.
* `Run.invariant`: what one step preserves, a run preserves; `Run.history` is the same of a state
  and the actions that led to it.
* `Run.related`: the two-state rule, for facts of the shape "once ... then forever",
  under an invariant.
* `Steps`, `Guarded`: the relation of a partial step function, and the same with a
  condition on the state before the step. `Guarded.run` forgets the condition.
* `Within`, `Run.within_iff`: a condition on the steps of any relation; where missing it once
  cannot be made good, a run ends well exactly where all its steps meet it.
* `Run.length_le`: a measure that every step lowers bounds the length of a run.
* `Endless`: an infinite run; `Endless.of_step` finds one, `not_endless` excludes them by a
  measure.
* `Run.guarded_iff`: for runs that stop once they are settled, what the step that settles
  them decides about the result and about the condition, a whole run decides.
* `exec`, `exec_eq_some_iff`: the step function folded over a list of actions is a
  run, so that a run can be exhibited by evaluation (`exists_run_of_exec`,
  `exists_guarded_run_of_exec`).
-/

namespace Runs

variable {σ α : Type*}

/-! ### Runs -/

/-- `Run R s as t`: the actions `as`, taken in order under `R`, lead from `s` to `t`. -/
inductive Run (R : σ → α → σ → Prop) : σ → List α → σ → Prop
  | nil (s : σ) : Run R s [] s
  | cons {s t u : σ} {a : α} {as : List α} (h : R s a t) (h' : Run R t as u) :
      Run R s (a :: as) u

namespace Run

variable {R : σ → α → σ → Prop} {s t u : σ} {a : α} {as bs : List α}

lemma single (h : R s a t) : Run R s [a] t := .cons h (.nil t)

/-- Runs concatenate. -/
lemma append (h : Run R s as t) : Run R t bs u → Run R s (as ++ bs) u := by
  induction h with
  | nil _ => exact id
  | cons hs _ ih => exact fun h' => .cons hs (ih h')

/-- A run over a concatenation passes through a state between the two halves. -/
lemma split : ∀ {as : List α} {s : σ}, Run R s (as ++ bs) u →
    ∃ t, Run R s as t ∧ Run R t bs u
  | [], s, h => ⟨s, .nil s, h⟩
  | a :: as, s, h => by
      cases h with
      | cons hs h' =>
          obtain ⟨t, h1, h2⟩ := split h'
          exact ⟨t, .cons hs h1, h2⟩

/-- What one more action preserves of the actions taken and the state reached, a run preserves. -/
lemma history {I : List α → σ → Prop}
    (hstep : ∀ as s a t, I as s → R s a t → I (as ++ [a]) t) (h : Run R s bs t) {as : List α}
    (hs : I as s) : I (as ++ bs) t := by
  induction h generalizing as with
  | nil _ => rwa [List.append_nil]
  | @cons _ _ _ a rest h _ ih =>
      have hnext := ih (hstep as _ a _ hs h)
      rwa [List.append_assoc, List.singleton_append] at hnext

/-- A weaker step relation has more runs. -/
lemma mono {R' : σ → α → σ → Prop} (hR : ∀ s a t, R s a t → R' s a t)
    (h : Run R s as t) : Run R' s as t := by
  induction h with
  | nil s => exact .nil s
  | cons hs _ ih => exact .cons (hR _ _ _ hs) ih

/-- What holds at the start and is kept by every step holds along the run. -/
lemma invariant {I : σ → Prop} (hstep : ∀ s a t, I s → R s a t → I t)
    (h : Run R s as t) (h0 : I s) : I t := by
  induction h with
  | nil _ => exact h0
  | cons hs _ ih => exact ih (hstep _ _ _ h0 hs)

/-- The two-state rule: a preorder `Q` that every step from a state satisfying the
invariant moves along relates the two ends of the run. -/
lemma related {I : σ → Prop} {Q : σ → σ → Prop} (hrefl : ∀ s, Q s s)
    (htrans : ∀ s t u, Q s t → Q t u → Q s u)
    (hinv : ∀ s a t, I s → R s a t → I t) (hstep : ∀ s a t, I s → R s a t → Q s t)
    (h : Run R s as t) (h0 : I s) : Q s t := by
  induction h with
  | nil s => exact hrefl s
  | cons hs _ ih => exact htrans _ _ _ (hstep _ _ _ h0 hs) (ih (hinv _ _ _ h0 hs))

end Run

/-! ### Conditions and measures -/

/-- A step taken from a state in which the action meets the condition `G`. -/
def Within (G : σ → α → Prop) (R : σ → α → σ → Prop) (s : σ) (a : α) (t : σ) : Prop :=
  G s a ∧ R s a t

lemma Within.step {G : σ → α → Prop} {R : σ → α → σ → Prop} {s t : σ} {a : α}
    (h : Within G R s a t) : R s a t := h.2

/-- A step that meets the condition keeps `I`, one that does not leads to `B`, which is never
left and excludes `P`. Then a run from `I` to a state where `D` holds ends in `P` exactly where
all its steps meet the condition. -/
lemma Run.within_iff {G : σ → α → Prop} {R : σ → α → σ → Prop} {I B D P : σ → Prop} {s t : σ}
    {as : List α} (hkeep : ∀ s a t, I s → R s a t → G s a → I t)
    (hmiss : ∀ s a t, I s → R s a t → ¬ G s a → B t) (habsorb : ∀ s a t, B s → R s a t → B t)
    (hgood : ∀ s, I s → D s → P s) (hbad : ∀ s, B s → ¬ P s) (h : Run R s as t) (hs : I s)
    (ht : D t) : P t ↔ Run (Within G R) s as t := by
  induction h with
  | nil s => exact ⟨fun _ => .nil s, fun _ => hgood s hs ht⟩
  | @cons s u t a as hsu hrun ih =>
      by_cases hG : G s a
      · rw [ih (hkeep _ _ _ hs hsu hG) ht]
        constructor
        · exact fun hrun => .cons ⟨hG, hsu⟩ hrun
        · intro hrun'
          have hI := hkeep _ _ _ hs hsu hG
          exact (ih hI ht).mp (hgood t (hrun'.invariant (fun _ _ _ hI hstep =>
            hkeep _ _ _ hI hstep.2 hstep.1) hs) ht)
      · have hB : B t := hrun.invariant habsorb (hmiss _ _ _ hs hsu hG)
        constructor
        · exact fun hP => absurd hP (hbad t hB)
        · intro hrun'
          cases hrun' with
          | cons hstep _ => exact absurd hstep.1 hG

/-- A step to a state where `P` holds. -/
def Reaching (P : σ → Prop) (R : σ → α → σ → Prop) (s : σ) (a : α) (t : σ) : Prop :=
  P t ∧ R s a t

/-- Where a step from `P` leads to `P` exactly if it meets the condition, a run from `P` stays
there exactly if all its steps meet it. -/
lemma Run.reaching_iff {G : σ → α → Prop} {R : σ → α → σ → Prop} {I P : σ → Prop} {s t : σ}
    {as : List α} (hinv : ∀ s a t, I s → R s a t → I t)
    (hexact : ∀ s a t, I s → P s → R s a t → (P t ↔ G s a)) (hI : I s) (hP : P s) :
    Run (Reaching P R) s as t ↔ Run (Within G R) s as t := by
  constructor
  · intro h
    induction h with
    | nil s => exact .nil s
    | cons hstep _ ih =>
        obtain ⟨hnext, hstep⟩ := hstep
        exact .cons ⟨(hexact _ _ _ hI hP hstep).mp hnext, hstep⟩
          (ih (hinv _ _ _ hI hstep) hnext)
  · intro h
    induction h with
    | nil s => exact .nil s
    | cons hstep _ ih =>
        obtain ⟨hG, hstep⟩ := hstep
        have hnext := (hexact _ _ _ hI hP hstep).mpr hG
        exact .cons ⟨hnext, hstep⟩ (ih (hinv _ _ _ hI hstep) hnext)

/-- A condition on the actions alone is one on the list of them. -/
lemma Run.within_iff_forall {G : α → Prop} {R : σ → α → σ → Prop} {s t : σ} {as : List α}
    (h : Run R s as t) : Run (Within (fun _ a => G a) R) s as t ↔ ∀ a ∈ as, G a := by
  constructor
  · intro h'
    clear h
    induction h' with
    | nil _ => simp
    | cons hstep _ ih => exact List.forall_mem_cons.mpr ⟨hstep.1, ih⟩
  · intro hG
    induction h with
    | nil s => exact .nil s
    | cons hstep _ ih =>
        obtain ⟨ha, has⟩ := List.forall_mem_cons.mp hG
        exact .cons ⟨ha, hstep⟩ (ih has)

/-- A measure that every step lowers bounds the length of a run. -/
lemma Run.length_le {R : σ → α → σ → Prop} {I : σ → Prop} {μ : σ → ℕ} {s t : σ} {as : List α}
    (hkeep : ∀ s a t, I s → R s a t → I t) (hlower : ∀ s a t, I s → R s a t → μ t < μ s)
    (h : Run R s as t) (hs : I s) : as.length ≤ μ s := by
  induction h with
  | nil _ => exact Nat.zero_le _
  | cons hsu _ ih =>
      have hu := ih (hkeep _ _ _ hs hsu)
      have hlt := hlower _ _ _ hs hsu
      rw [List.length_cons]
      omega

/-! ### Infinite runs -/

/-- Steps go on for ever from `s`. -/
def Endless (R : σ → α → σ → Prop) (s : σ) : Prop :=
  ∃ f : ℕ → σ, f 0 = s ∧ ∀ n, ∃ a, R (f n) a (f (n + 1))

/-- Where `I` always allows a step that keeps it, steps go on for ever. -/
lemma Endless.of_step {R : σ → α → σ → Prop} {I : σ → Prop} {s : σ}
    (hstep : ∀ s, I s → ∃ a t, R s a t ∧ I t) (hs : I s) : Endless R s := by
  obtain ⟨a, -⟩ := hstep s hs
  have : Nonempty α := ⟨a⟩
  have : Nonempty σ := ⟨s⟩
  choose! act next hnext hkeep using hstep
  have hI (n : ℕ) : I (next^[n] s) := by
    induction n with
    | zero => exact hs
    | succ n ih =>
        rw [Function.iterate_succ_apply']
        exact hkeep _ ih
  refine ⟨fun n => next^[n] s, rfl, fun n => ⟨act (next^[n] s), ?_⟩⟩
  change R (next^[n] s) (act (next^[n] s)) (next^[n + 1] s)
  rw [Function.iterate_succ_apply']
  exact hnext _ (hI n)

/-- A measure that every step lowers leaves no infinite run. -/
lemma not_endless {R : σ → α → σ → Prop} {I : σ → Prop} {μ : σ → ℕ} {s : σ}
    (hkeep : ∀ s a t, I s → R s a t → I t) (hlower : ∀ s a t, I s → R s a t → μ t < μ s)
    (hs : I s) : ¬ Endless R s := by
  rintro ⟨f, rfl, hf⟩
  have hbound (n : ℕ) : I (f n) ∧ μ (f n) + n ≤ μ (f 0) := by
    induction n with
    | zero => exact ⟨hs, le_rfl⟩
    | succ n ih =>
        obtain ⟨a, ha⟩ := hf n
        have hlt := hlower _ _ _ ih.1 ha
        exact ⟨hkeep _ _ _ ih.1 ha, by omega⟩
  have h := (hbound (μ (f 0) + 1)).2
  omega

/-! ### Step functions -/

/-- The relation of a partial step function. -/
def Steps (step : σ → α → Option σ) (s : σ) (a : α) (t : σ) : Prop := step s a = some t

/-- A step taken from a state in which the action meets the condition `G`. -/
def Guarded (G : σ → α → Prop) (step : σ → α → Option σ) (s : σ) (a : α) (t : σ) : Prop :=
  G s a ∧ step s a = some t

/-- A guarded run is a run. -/
lemma Guarded.run {G : σ → α → Prop} {step : σ → α → Option σ} {s t : σ} {as : List α}
    (h : Run (Guarded G step) s as t) : Run (Steps step) s as t :=
  h.mono fun _ _ _ h => h.2

/-- The step function folded over a list of actions. -/
def exec (step : σ → α → Option σ) : σ → List α → Option σ
  | s, [] => some s
  | s, a :: as => (step s a).bind fun t => exec step t as

/-- Executing a list of actions is a run over it. -/
lemma exec_eq_some_iff {step : σ → α → Option σ} {as : List α} {s t : σ} :
    exec step s as = some t ↔ Run (Steps step) s as t := by
  induction as generalizing s with
  | nil =>
      constructor
      · intro h
        cases h
        exact .nil _
      · intro h
        cases h
        rfl
  | cons a as ih =>
      rw [exec, Option.bind_eq_some_iff]
      constructor
      · rintro ⟨u, hu, h⟩
        exact .cons hu (ih.mp h)
      · intro h
        cases h with
        | cons hs h' => exact ⟨_, hs, ih.mpr h'⟩

/-- The step function with its condition built in. -/
def guarded (G : σ → α → Prop) [∀ s a, Decidable (G s a)] (step : σ → α → Option σ) (s : σ)
    (a : α) : Option σ :=
  if G s a then step s a else none

lemma steps_guarded {G : σ → α → Prop} [∀ s a, Decidable (G s a)] {step : σ → α → Option σ}
    {s t : σ} {a : α} : Steps (guarded G step) s a t ↔ Guarded G step s a t := by
  rw [Steps, guarded, Guarded]
  split_ifs with h <;> simp [h]

/-- A run exhibited by evaluation. -/
lemma exists_run_of_exec (step : σ → α → Option σ) (s : σ) (as : List α) (p : σ → Bool)
    (h : (exec step s as).any p = true) : ∃ t, Run (Steps step) s as t ∧ p t = true := by
  cases ht : exec step s as with
  | none => simp [ht] at h
  | some t => exact ⟨t, exec_eq_some_iff.mp ht, by simpa [ht] using h⟩

/-- A guarded run exhibited by evaluation. -/
lemma exists_guarded_run_of_exec (G : σ → α → Prop) [∀ s a, Decidable (G s a)]
    (step : σ → α → Option σ) (s : σ) (as : List α) (p : σ → Bool)
    (h : (exec (guarded G step) s as).any p = true) :
    ∃ t, Run (Guarded G step) s as t ∧ p t = true := by
  obtain ⟨t, hrun, ht⟩ := exists_run_of_exec _ _ _ _ h
  exact ⟨t, hrun.mono fun _ _ _ => steps_guarded.mp, ht⟩

end Runs
