import Mathlib.Tactic

/-!
Keyset pagination: pages of rows in the order of a key, each after the last key of the page
before.

* `listed`: the rows after a position, in order.
* `page`, `next`: a page of at most `n` of them, and the position it leads to, none where
  nothing is left.
* `mem_page_of_le`, `mem_page_of_last`: a page leaves out nothing up to the position it leads to.
* `count_after_next`: each page that leads on leaves fewer rows to list.
-/

namespace Keyset

variable {α K : Type*} [LinearOrder K] {key : α → K} {rows : List α} {pos : Option K} {n : ℕ} {k : K}

/-- The key comes after the position. -/
def after : Option K → K → Bool
  | none, _ => true
  | some c, k => decide (c < k)

/-- The rows after a position, in order. -/
def listed (key : α → K) (rows : List α) (pos : Option K) : List α :=
  (rows.filter fun r => after pos (key r)).mergeSort fun a b => decide (key a ≤ key b)

def page (key : α → K) (rows : List α) (pos : Option K) (n : ℕ) : List α :=
  (listed key rows pos).take n

/-- The position a page leads to. -/
def next (key : α → K) (rows : List α) (pos : Option K) (n : ℕ) : Option K :=
  if n < (listed key rows pos).length then (page key rows pos n).getLast?.map key else none

lemma mem_listed {r : α} : r ∈ listed key rows pos ↔ r ∈ rows ∧ after pos (key r) = true := by
  rw [listed, List.mem_mergeSort, List.mem_filter]

lemma mem_page {r : α} (h : r ∈ page key rows pos n) : r ∈ rows ∧ after pos (key r) = true :=
  mem_listed.mp (List.mem_of_mem_take h)

/-- Rows with different keys are listed in strictly increasing order. -/
lemma pairwise_listed (h : (rows.map key).Nodup) :
    (listed key rows pos).Pairwise fun a b => key a < key b := by
  have hle : (listed key rows pos).Pairwise fun a b => key a ≤ key b := by
    have hsorted : (listed key rows pos).Pairwise fun a b => decide (key a ≤ key b) = true :=
      List.pairwise_mergeSort
      (fun a b c hab hbc => by simp only [decide_eq_true_eq] at *; exact hab.trans hbc)
      (fun a b => by simpa using le_total (key a) (key b))
      (rows.filter fun r => after pos (key r))
    exact hsorted.imp fun hab => by simpa using hab
  have hne : (listed key rows pos).Pairwise fun a b => key a ≠ key b := by
    have hnodup : ((listed key rows pos).map key).Nodup :=
      ((List.mergeSort_perm _ _).map key).nodup_iff.mpr
        (h.sublist (List.filter_sublist.map key))
    exact List.pairwise_map.mp hnodup
  exact (hle.and hne).imp fun hab => lt_of_le_of_ne hab.1 hab.2

lemma pairwise_page (h : (rows.map key).Nodup) :
    (page key rows pos n).Pairwise fun a b => key a < key b :=
  (pairwise_listed h).sublist (List.take_sublist _ _)

/-- The position a page leads to is the key of its last row. -/
lemma next_spec (h : next key rows pos n = some k) :
    n < (listed key rows pos).length ∧ ∃ r, (page key rows pos n).getLast? = some r ∧ key r = k := by
  rw [next] at h
  split_ifs at h with hlt
  exact ⟨hlt, Option.map_eq_some_iff.mp h⟩

/-- No row of a page is beyond the position the page leads to. -/
lemma le_of_mem_page (hnodup : (rows.map key).Nodup) (h : next key rows pos n = some k) {r : α}
    (hr : r ∈ page key rows pos n) : key r ≤ k := by
  obtain ⟨-, last, hlast, rfl⟩ := next_spec h
  obtain ⟨init, hinit⟩ := List.getLast?_eq_some_iff.mp hlast
  have hpage : (page key rows pos n).Pairwise fun a b => key a < key b := pairwise_page hnodup
  rw [hinit] at hr hpage
  rcases List.mem_append.mp hr with hr | hr
  · exact ((List.pairwise_append.mp hpage).2.2 r hr last (List.mem_singleton_self _)).le
  · rw [List.mem_singleton.mp hr]

/-- A page leaves out no row up to the position it leads to. -/
lemma mem_page_of_le (hnodup : (rows.map key).Nodup) (h : next key rows pos n = some k) {r : α}
    (hr : r ∈ rows) (hafter : after pos (key r) = true) (hle : key r ≤ k) :
    r ∈ page key rows pos n := by
  obtain ⟨-, last, hlast, rfl⟩ := next_spec h
  have hsorted : (listed key rows pos).Pairwise fun a b => key a < key b :=
    pairwise_listed hnodup
  have hmem : r ∈ listed key rows pos := mem_listed.mpr ⟨hr, hafter⟩
  rw [← List.take_append_drop n (listed key rows pos)] at hsorted hmem
  rcases List.mem_append.mp hmem with hmem | hmem
  · exact hmem
  · -- what is beyond the page is beyond its last row
    have hlt := (List.pairwise_append.mp hsorted).2.2 last (List.mem_of_getLast? hlast) r hmem
    exact absurd hle (not_le.mpr hlt)

/-- A page that leads nowhere leaves out nothing. -/
lemma mem_page_of_last (hn : 0 < n) (h : next key rows pos n = none) {r : α} (hr : r ∈ rows)
    (hafter : after pos (key r) = true) : r ∈ page key rows pos n := by
  have hmem : r ∈ listed key rows pos := mem_listed.mpr ⟨hr, hafter⟩
  rw [next] at h
  split_ifs at h with hlt
  · -- a page of a longer listing is not empty
    have hempty : page key rows pos n = [] := by simpa using h
    have hlen : (page key rows pos n).length = n := by
      rw [page, List.length_take]
      omega
    rw [hempty] at hlen
    exact absurd hlen.symm hn.ne'
  · rw [page, List.take_of_length_le (not_lt.mp hlt)]
    exact hmem

/-- The position a page leads to is after the one it was asked for. -/
lemma after_next (h : next key rows pos n = some k) : after pos k = true := by
  obtain ⟨-, last, hlast, rfl⟩ := next_spec h
  exact (mem_page (List.mem_of_getLast? hlast)).2

lemma after_of_after {c : K} (h : after pos c = true) {k : K} (hk : c < k) : after pos k = true := by
  cases pos with
  | none => rfl
  | some d => exact decide_eq_true ((of_decide_eq_true h).trans hk)

/-- Each page that leads on leaves fewer rows to list. -/
lemma count_after_next (h : next key rows pos n = some k) :
    rows.countP (fun r => after (some k) (key r)) < rows.countP fun r => after pos (key r) := by
  have hafter := after_next h
  obtain ⟨-, last, hlast, rfl⟩ := next_spec h
  have hmem := (mem_page (List.mem_of_getLast? hlast)).1
  obtain ⟨l, l', rfl⟩ := List.append_of_mem hmem
  have hmono (l : List α) : l.countP (fun r => after (some (key last)) (key r)) ≤
      l.countP fun r => after pos (key r) :=
    List.countP_mono_left fun r _ hr => after_of_after hafter (of_decide_eq_true hr)
  have hself : after (some (key last)) (key last) = false := by simp [after]
  have h1 := hmono l
  have h2 := hmono l'
  simp only [List.countP_append, List.countP_cons, hself, hafter, if_true, Bool.false_eq_true,
    if_false]
  omega

end Keyset
