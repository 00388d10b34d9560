import Mathlib.Tactic

/-!
Lines of a stream that arrives in chunks.

* `cut`: the pieces before each separator, and what follows the last one.
* `unlines`: pieces with a separator behind each; `cut_unlines` cuts them again.
* `cut_append`: what is left of one text is cut together with the next, so that no chunking of a
  stream changes its lines.
* `cut_of_prefix`: what a prefix of a stream of lines is cut into.
-/

namespace Framing

variable {α : Type*} {sep : α}

/-- Pieces, a separator behind each. -/
def unlines (sep : α) (ls : List (List α)) : List α := ls.flatMap fun l => l ++ [sep]

lemma unlines_cons (l : List α) (ls : List (List α)) :
    unlines sep (l :: ls) = l ++ sep :: unlines sep ls := by
  simp [unlines]

lemma unlines_append (ls ls' : List (List α)) :
    unlines sep (ls ++ ls') = unlines sep ls ++ unlines sep ls' := List.flatMap_append

variable [DecidableEq α]

/-- A unit before a text that was cut. -/
def before (sep c : α) (t : List (List α) × List α) : List (List α) × List α :=
  if c = sep then ([] :: t.1, t.2)
  else
    match t.1 with
    | [] => ([], c :: t.2)
    | l :: ls => ((c :: l) :: ls, t.2)

/-- The pieces of a text before each separator, and what follows the last one. -/
def cut (sep : α) : List α → List (List α) × List α
  | [] => ([], [])
  | c :: s => before sep c (cut sep s)

lemma cut_of_notMem {s : List α} (h : sep ∉ s) : cut sep s = ([], s) := by
  induction s with
  | nil => rfl
  | cons c s ih =>
      obtain ⟨hc, hs⟩ := not_or.mp (List.mem_cons.not.mp h)
      rw [cut, ih hs, before, if_neg (Ne.symm hc)]

lemma cut_line {l : List α} (h : sep ∉ l) (s : List α) :
    cut sep (l ++ sep :: s) = (l :: (cut sep s).1, (cut sep s).2) := by
  induction l with
  | nil => rw [List.nil_append, cut, before, if_pos rfl]
  | cons c l ih =>
      obtain ⟨hc, hl⟩ := not_or.mp (List.mem_cons.not.mp h)
      rw [List.cons_append, cut, ih hl, before, if_neg (Ne.symm hc)]

/-- Every text begins with a line, or has none. -/
lemma cut_induction (sep : α) {motive : List α → Prop} (hrest : ∀ s, sep ∉ s → motive s)
    (hline : ∀ l s, sep ∉ l → motive s → motive (l ++ sep :: s)) (s : List α) :
    motive s := by
  induction hn : s.length using Nat.strong_induction_on generalizing s with
  | _ n ih =>
      by_cases hmem : sep ∈ s
      · obtain ⟨l, t, rfl, hl⟩ := List.eq_append_cons_of_mem hmem
        refine hline l t hl (ih t.length ?_ t rfl)
        simp only [List.length_append, List.length_cons] at hn
        omega
      · exact hrest s hmem

/-- **What is left of one text is cut together with the next.** -/
theorem cut_append (a b : List α) : cut sep (a ++ b) =
    ((cut sep a).1 ++ (cut sep ((cut sep a).2 ++ b)).1, (cut sep ((cut sep a).2 ++ b)).2) := by
  induction a using cut_induction sep with
  | hrest a h => rw [cut_of_notMem h, List.nil_append]
  | hline l a hl ih => rw [List.append_assoc, List.cons_append, cut_line hl, cut_line hl, ih,
      List.cons_append]

lemma cut_spec (sep : α) (s : List α) : s = unlines sep (cut sep s).1 ++ (cut sep s).2 ∧
    sep ∉ (cut sep s).2 := by
  induction s using cut_induction sep with
  | hrest s h =>
      rw [cut_of_notMem h]
      exact ⟨rfl, h⟩
  | hline l s hl ih =>
      rw [cut_line hl, unlines_cons]
      refine ⟨?_, ih.2⟩
      conv_lhs => rw [ih.1]
      rw [List.append_assoc, List.cons_append]

/-- What has arrived of a stream of lines: some of them, and the beginning of the next. -/
theorem cut_of_prefix {ls : List (List α)} (h : ∀ l ∈ ls, sep ∉ l) {s : List α}
    (hs : s <+: unlines sep ls) : (cut sep s).1 <+: ls ∧
      ((cut sep s).2 = [] ∨ ∃ l ∈ ls, (cut sep s).2 <+: l) := by
  induction ls generalizing s with
  | nil =>
      obtain rfl : s = [] := List.prefix_nil.mp hs
      exact ⟨List.prefix_rfl, .inl rfl⟩
  | cons l ls ih =>
      have hl := h l List.mem_cons_self
      rw [unlines_cons] at hs
      rcases List.prefix_or_prefix_of_prefix hs (List.prefix_append l (sep :: unlines sep ls))
        with hshort | ⟨t, rfl⟩
      · rw [cut_of_notMem fun hmem => hl (hshort.subset hmem)]
        exact ⟨List.nil_prefix, .inr ⟨l, List.mem_cons_self, hshort⟩⟩
      · rw [List.prefix_append_right_inj] at hs
        cases t with
        | nil =>
            rw [List.append_nil, cut_of_notMem hl]
            exact ⟨List.nil_prefix, .inr ⟨l, List.mem_cons_self, List.prefix_rfl⟩⟩
        | cons c t =>
            obtain ⟨rfl, ht⟩ := List.cons_prefix_cons.mp hs
            obtain ⟨hlines, hrest⟩ := ih (fun x hx => h x (List.mem_cons_of_mem _ hx)) ht
            rw [cut_line hl]
            refine ⟨List.cons_prefix_cons.mpr ⟨rfl, hlines⟩, ?_⟩
            rcases hrest with hnil | ⟨x, hx, hpre⟩
            · exact .inl hnil
            · exact .inr ⟨x, List.mem_cons_of_mem _ hx, hpre⟩

end Framing
