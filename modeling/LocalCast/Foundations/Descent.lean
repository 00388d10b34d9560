import Mathlib.Tactic

/-!
Trees given by their nodes, and what a search of one has found before it is over.

* `Descent`: nodes, the children of a node by name, and the order of lying strictly below.
* `Descent.Frontier`: the invariant of a search that reads one queued node at a time and puts
  aside the nodes it cannot read: nothing found lies below a node that is queued or aside.
* `Frontier.init`, `Frontier.read`, `Frontier.fail`: the search starts with it, and reading a
  node or putting it aside keeps it.
* `separated`: the descent of paths whose components are joined by a separator.
-/

/-- Nodes `α` whose children carry names `ν`, with the order of lying strictly below. -/
structure Descent (α ν : Type*) where
  root : α
  child : α → ν → α
  below : α → α → Prop
  below_child : ∀ x d n, below x (child d n) ↔ x = d ∨ below x d
  irrefl : ∀ x, ¬ below x x
  trans : ∀ x y z, below x y → below y z → below x z
  child_injective : ∀ d, (child d).Injective

namespace Descent

variable {α ν : Type*} (T : Descent α ν)

/-- Neither node lies at or below the other. -/
def Apart (x y : α) : Prop := x ≠ y ∧ ¬ T.below x y ∧ ¬ T.below y x

variable {T}

lemma Apart.symm {x y : α} (h : T.Apart x y) : T.Apart y x := ⟨h.1.symm, h.2.2, h.2.1⟩

lemma below_child_self (d : α) (n : ν) : T.below d (T.child d n) :=
  (T.below_child d d n).mpr (.inl rfl)

/-- Children of one node lie apart. -/
lemma apart_children {d : α} {n m : ν} (h : n ≠ m) : T.Apart (T.child d n) (T.child d m) := by
  have hnot : ∀ n m, ¬ T.below (T.child d n) (T.child d m) := by
    intro n m hb
    rcases (T.below_child _ _ _).mp hb with he | hb
    · exact T.irrefl d (by simpa [he] using below_child_self (T := T) d n)
    · exact T.irrefl d (T.trans _ _ _ (below_child_self d n) hb)
  exact ⟨fun he => h (T.child_injective d he), hnot n m, hnot m n⟩

/-- What lies apart from a node lies apart from its children. -/
lemma Apart.child {x d : α} (h : T.Apart x d) (n : ν) : T.Apart x (T.child d n) := by
  obtain ⟨hne, hxd, hdx⟩ := h
  refine ⟨?_, ?_, ?_⟩
  · rintro rfl
    exact hdx (below_child_self d n)
  · rw [T.below_child]
    exact not_or.mpr ⟨hne, hxd⟩
  · exact fun hb => hdx (T.trans _ _ _ (below_child_self d n) hb)

/-! ### The frontier of a search -/

/-- A search with the nodes `queue` still to read, `found` reported so far, and `aside` the
nodes that could not be read. -/
structure Frontier (T : Descent α ν) (queue found aside : List α) : Prop where
  apart : (queue ++ aside).Pairwise T.Apart
  unseen : ∀ x ∈ queue ++ aside, ∀ e ∈ found, ¬ T.below x e
  known : ∀ x ∈ queue ++ aside, x = T.root ∨ x ∈ found
  deep : ∀ e ∈ found, T.below T.root e

namespace Frontier

variable {queue found aside : List α} {d : α}

lemma init : T.Frontier [T.root] [] [] where
  apart := List.pairwise_singleton _ _
  unseen := by simp
  known := by simp
  deep := by simp

/-- The invariant does not depend on the order of the nodes still to read. -/
lemma perm {queue' : List α} (h : T.Frontier queue found aside) (hp : queue'.Perm queue) :
    T.Frontier queue' found aside where
  apart := (hp.append_right aside).pairwise_iff (fun h => h.symm) |>.mpr h.apart
  unseen := fun x hx => h.unseen x ((hp.append_right aside).subset hx)
  known := fun x hx => h.known x ((hp.append_right aside).subset hx)
  deep := h.deep

/-- A queued node is the root or lies below it. -/
lemma root_or_below (h : T.Frontier (d :: queue) found aside) :
    d = T.root ∨ T.below T.root d :=
  (h.known d (by simp)).imp_right (h.deep d)

/-- Putting a node aside keeps the invariant. -/
lemma fail (h : T.Frontier (d :: queue) found aside) :
    T.Frontier queue found (d :: aside) := by
  have hp : (queue ++ d :: aside).Perm (d :: queue ++ aside) := List.perm_middle
  exact
    { apart := hp.pairwise_iff (fun h => h.symm) |>.mpr h.apart
      unseen := fun x hx => h.unseen x (hp.subset hx)
      known := fun x hx => h.known x (hp.subset hx)
      deep := h.deep }

/-- Reading a node keeps the invariant: its children `names` are found, and some of them,
`deeper`, are queued. -/
lemma read (h : T.Frontier (d :: queue) found aside) {names deeper : List ν}
    (hsub : deeper ⊆ names) (hnd : deeper.Nodup) :
    T.Frontier (deeper.map (T.child d) ++ queue) (found ++ names.map (T.child d)) aside := by
  have hap := List.pairwise_cons.mp h.apart
  have hd : ∀ x ∈ queue ++ aside, T.Apart x d := fun x hx => (hap.1 x hx).symm
  -- a node of the new queue is a child of `d` or was apart from it
  have hcases : ∀ x ∈ deeper.map (T.child d) ++ queue ++ aside,
      (∃ n ∈ deeper, x = T.child d n) ∨ x ∈ queue ++ aside := by
    intro x hx
    rw [List.append_assoc, List.mem_append, List.mem_map] at hx
    exact hx.imp_left fun ⟨n, hn, he⟩ => ⟨n, hn, he.symm⟩
  refine ⟨?_, ?_, ?_, ?_⟩
  · rw [List.append_assoc, List.pairwise_append]
    refine ⟨?_, hap.2, ?_⟩
    · rw [List.pairwise_map]
      exact hnd.imp fun hnm => apart_children hnm
    · intro x hx y hy
      obtain ⟨n, -, rfl⟩ := List.mem_map.mp hx
      exact ((hd y hy).child n).symm
  · intro x hx e he hb
    rcases List.mem_append.mp he with he | he
    · rcases hcases x hx with ⟨n, -, rfl⟩ | hx
      · exact h.unseen d (by simp) e he (T.trans _ _ _ (below_child_self d n) hb)
      · exact h.unseen x (List.mem_cons_of_mem _ hx) e he hb
    · obtain ⟨m, -, rfl⟩ := List.mem_map.mp he
      rcases hcases x hx with ⟨n, -, rfl⟩ | hx
      · by_cases hnm : n = m
        · exact T.irrefl _ (hnm ▸ hb)
        · exact (apart_children hnm).2.1 hb
      · exact ((hd x hx).child m).2.1 hb
  · intro x hx
    rcases hcases x hx with ⟨n, hn, rfl⟩ | hx
    · exact .inr (List.mem_append_right _ (List.mem_map_of_mem (hsub hn)))
    · exact (h.known x (List.mem_cons_of_mem _ hx)).imp_right (List.mem_append_left _)
  · intro e he
    rcases List.mem_append.mp he with he | he
    · exact h.deep e he
    · obtain ⟨m, -, rfl⟩ := List.mem_map.mp he
      exact (T.below_child _ _ _).mpr (h.root_or_below.imp_left Eq.symm)

/-- Once the root is aside, nothing is found. -/
lemma found_of_root (h : T.Frontier queue found aside) (hroot : T.root ∈ aside) :
    found = [] :=
  List.eq_nil_iff_forall_not_mem.mpr fun e he =>
    h.unseen _ (List.mem_append_right _ hroot) e he (h.deep e he)

end Frontier

end Descent

/-! ### Paths with a separator -/

section Separated

variable {α : Type*} [DecidableEq α] (sep : α)

/-- A component of a path: not empty, and without the separator. -/
abbrev Component := { n : List α // n ≠ [] ∧ sep ∉ n }

/-- The path of a component in a directory; the root is the empty path. -/
def joinPath (d : List α) (n : Component sep) : List α :=
  if d = [] then n.val else d ++ sep :: n.val

/-- Whether a path lies strictly below a directory. -/
def pathBelow (d r : List α) : Bool :=
  if d = [] then r ≠ [] else (d ++ [sep]).isPrefixOf r

variable {sep}

omit [DecidableEq α] in
lemma joinPath_ne_nil (d : List α) (n : Component sep) : joinPath sep d n ≠ [] := by
  rw [joinPath]
  split_ifs
  · exact n.prop.1
  · simp

lemma pathBelow_root {r : List α} : pathBelow sep [] r = true ↔ r ≠ [] := by
  simp [pathBelow]

lemma pathBelow_iff {d r : List α} (h : d ≠ []) :
    pathBelow sep d r = true ↔ d ++ [sep] <+: r := by
  rw [pathBelow, if_neg h, List.isPrefixOf_iff_prefix]

lemma ne_nil_of_pathBelow {d r : List α} (h : pathBelow sep d r = true) : r ≠ [] := by
  by_cases hd : d = []
  · exact pathBelow_root.mp (hd ▸ h)
  · rintro rfl
    simpa using (pathBelow_iff hd).mp h

omit [DecidableEq α] in
/-- A path ending in the separator is a prefix of `d/n` only where it is one of `d/`. -/
lemma prefix_join {x d : List α} {n : Component sep} (h : x ++ [sep] <+: d ++ sep :: n.val) :
    x ++ [sep] <+: d ++ [sep] := by
  have h' : x ++ [sep] <+: (d ++ [sep]) ++ n.val := by simpa using h
  rcases le_or_gt (x ++ [sep]).length (d ++ [sep]).length with hle | hlt
  · exact List.prefix_of_prefix_length_le h' (List.prefix_append _ _) hle
  · -- the separator at its end would lie in the component
    obtain ⟨t, ht⟩ := List.prefix_of_prefix_length_le (List.prefix_append _ n.val) h' hlt.le
    have htn : t <+: n.val := by rwa [← ht, List.prefix_append_right_inj] at h'
    rcases List.eq_nil_or_concat' t with rfl | ⟨t', b, rfl⟩
    · rw [← ht, List.append_nil] at hlt
      exact absurd hlt (lt_irrefl _)
    · rw [← List.append_assoc] at ht
      have hb : b = sep := by simpa using (List.append_inj' ht rfl).2
      exact absurd (htn.subset (by simp [hb])) n.prop.2

lemma pathBelow_joinPath (x d : List α) (n : Component sep) :
    pathBelow sep x (joinPath sep d n) = true ↔ x = d ∨ pathBelow sep x d = true := by
  by_cases hx : x = []
  · subst hx
    rw [pathBelow_root, pathBelow_root]
    simp only [joinPath_ne_nil, ne_eq, not_false_eq_true, true_iff]
    exact (eq_or_ne d []).imp_left Eq.symm
  by_cases hd : d = []
  · subst hd
    rw [pathBelow_iff hx, pathBelow_iff hx, joinPath, if_pos rfl]
    constructor
    · intro h
      exact absurd (h.subset (by simp)) n.prop.2
    · rintro (h | h)
      · exact absurd h hx
      · simp at h
  · rw [pathBelow_iff hx, pathBelow_iff hx, joinPath, if_neg hd]
    constructor
    · intro h
      rcases List.prefix_concat_iff.mp (prefix_join h) with h | h
      · exact .inl (List.append_cancel_right h)
      · exact .inr h
    · rintro (rfl | h)
      · exact ⟨n.val, by simp⟩
      · exact h.trans (List.prefix_append _ _)

lemma not_pathBelow_self (x : List α) : ¬ pathBelow sep x x = true := by
  intro h
  by_cases hx : x = []
  · exact pathBelow_root.mp (hx ▸ h) rfl
  · have := ((pathBelow_iff hx).mp h).length_le
    simp at this

lemma pathBelow_trans {x y z : List α} (hxy : pathBelow sep x y = true)
    (hyz : pathBelow sep y z = true) : pathBelow sep x z = true := by
  have hy := ne_nil_of_pathBelow hxy
  by_cases hx : x = []
  · subst hx
    exact pathBelow_root.mpr (ne_nil_of_pathBelow hyz)
  · rw [pathBelow_iff hx] at hxy ⊢
    rw [pathBelow_iff hy] at hyz
    exact hxy.trans ((List.prefix_append _ _).trans hyz)

/-- The descent of paths whose components are joined by a separator. -/
def separated (sep : α) : Descent (List α) (Component sep) where
  root := []
  child := joinPath sep
  below x y := pathBelow sep x y = true
  below_child := pathBelow_joinPath
  irrefl := not_pathBelow_self
  trans _ _ _ := pathBelow_trans
  child_injective d n m h := by
    rw [joinPath, joinPath] at h
    split_ifs at h with hd
    · exact Subtype.ext h
    · exact Subtype.ext (List.cons.inj (List.append_cancel_left h)).2

end Separated
