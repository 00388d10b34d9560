import LocalCast.Foundations.Runs

/-!
Promise chains: work of which every piece is put behind the last piece of its chain with
`last.then(...)`, however the piece before it ends.

* `Link`, `Chains`, `Step`: a link waits behind another one, runs, or has settled; links are
  appended, start when what they wait for has settled, and settle.
* `Lane`: what a chain looks like: links that have settled, one that runs, and links that wait, each
  for the one before it. `Ordered` is the invariant, `Run.ordered` the induction over a run.
* `Ordered.exclusive`, `Ordered.begun_in_order`, `Ordered.unblocked`, `Ordered.settled_of_last`: one
  link of a chain runs at a time, the links start in the order in which they were appended, what
  is before a link is all that keeps it from starting, and a chain has settled with its last link.
-/

namespace PromiseChain

open Runs

variable {κ ι : Type*}

/-- A link of a chain. -/
inductive Link (ι : Type*) where
  | waiting (previous : Option ι)
  | running
  | settled
deriving DecidableEq

/-- The links, and the last link of every chain. -/
@[ext]
structure Chains (κ ι : Type*) where
  link : ι → Option (Link ι)
  last : κ → Option ι

inductive Event (κ ι : Type*) where
  | append (k : κ) (i : ι)
  | start (i : ι)
  | settle (i : ι)

section Step

variable [DecidableEq κ] [DecidableEq ι]

/-- Nothing has been appended. -/
def Chains.init : Chains κ ι where
  link _ := none
  last _ := none

/-- Whether what a link waits for has settled. -/
def Chains.Ready (s : Chains κ ι) : Option ι → Prop
  | none => True
  | some previous => s.link previous = some .settled

def Chains.setLink (s : Chains κ ι) (i : ι) (l : Link ι) : Chains κ ι :=
  { s with link := Function.update s.link i (some l) }

omit [DecidableEq κ] in
@[simp] lemma Chains.setLink_setLink (s : Chains κ ι) (i : ι) (l l' : Link ι) :
    (s.setLink i l).setLink i l' = s.setLink i l' := by
  rw [setLink, setLink, setLink, Function.update_idem]

omit [DecidableEq κ] in
lemma Chains.setLink_eq_self {s : Chains κ ι} {i : ι} {l : Link ι} (h : s.link i = some l) :
    s.setLink i l = s := by
  rw [setLink, Function.update_eq_self_iff.mpr h.symm]

inductive Step : Chains κ ι → Event κ ι → Chains κ ι → Prop
  | append {s : Chains κ ι} {k : κ} {i : ι} (hfresh : s.link i = none) :
      Step s (.append k i)
        { link := Function.update s.link i (some (.waiting (s.last k)))
          last := Function.update s.last k (some i) }
  | start {s : Chains κ ι} {i : ι} {previous : Option ι}
      (hlink : s.link i = some (.waiting previous)) (hready : s.Ready previous) :
      Step s (.start i) (s.setLink i .running)
  | settle {s : Chains κ ι} {i : ι} (hlink : s.link i = some .running) :
      Step s (.settle i) (s.setLink i .settled)

/-- The links appended to a chain, in order. -/
def appended (k : κ) (es : List (Event κ ι)) : List ι :=
  es.filterMap fun e => match e with
    | .append k' i => if k' = k then some i else none
    | .start _ | .settle _ => none

/-- The links that started, in order. -/
def started (es : List (Event κ ι)) : List ι :=
  es.filterMap fun e => match e with
    | .start i => some i
    | .append _ _ | .settle _ => none

/-- The links of a chain that started, in order. -/
def begun (k : κ) (es : List (Event κ ι)) : List ι :=
  (started es).filter fun i => i ∈ appended k es

end Step

/-! ### One chain -/

section Lane

variable {link link' : ι → Option (Link ι)} {previous : Option ι} {js begun : List ι} {i : ι}

/-- Links one behind the other, none of which has started. -/
def Queued (link : ι → Option (Link ι)) : Option ι → List ι → Prop
  | _, [] => True
  | previous, i :: rest => link i = some (.waiting previous) ∧ Queued link (some i) rest

lemma Queued.congr (hlink : ∀ i ∈ js, link' i = link i) (h : Queued link previous js) :
    Queued link' previous js := by
  induction js generalizing previous with
  | nil => trivial
  | cons i rest ih =>
      exact ⟨(hlink i List.mem_cons_self).trans h.1,
        ih (fun j hj => hlink j (List.mem_cons_of_mem _ hj)) h.2⟩

/-- A link is put behind the last one. -/
lemma Queued.append (h : Queued link previous js)
    (hi : link i = some (.waiting (js.getLast?.or previous))) :
    Queued link previous (js ++ [i]) := by
  induction js generalizing previous with
  | nil => exact ⟨hi, trivial⟩
  | cons j rest ih =>
      refine ⟨h.1, ih h.2 ?_⟩
      rw [hi, List.getLast?_cons]
      cases rest.getLast? <;> rfl

lemma Queued.waiting (h : Queued link previous js) (hi : i ∈ js) :
    ∃ p, link i = some (.waiting p) := by
  induction js generalizing previous with
  | nil => cases hi
  | cons j rest ih =>
      rcases List.mem_cons.mp hi with rfl | hi
      · exact ⟨previous, h.1⟩
      · exact ih h.2 hi

/-- A link behind the first one waits for one that has not started. -/
lemma Queued.behind {j : ι} (h : Queued link previous (j :: js)) (hi : i ∈ js) :
    ∃ p ∈ j :: js, link i = some (.waiting (some p)) := by
  induction js generalizing previous j with
  | nil => cases hi
  | cons j' rest ih =>
      rcases List.mem_cons.mp hi with rfl | hi
      · exact ⟨j, List.mem_cons_self, h.2.1⟩
      · obtain ⟨p, hp, hlink⟩ := ih h.2 hi
        exact ⟨p, List.mem_cons_of_mem _ hp, hlink⟩

/-- A chain: the links that have settled, the one that runs, and those that wait. -/
inductive Lane (link : ι → Option (Link ι)) (js begun : List ι) : Prop
  | intro (done current queued : List ι) (hjs : js = done ++ current ++ queued)
      (hbegun : begun = done ++ current) (hdone : ∀ i ∈ done, link i = some .settled)
      (hone : current.length ≤ 1) (hcurrent : ∀ i ∈ current, link i = some .running)
      (hqueued : Queued link (done ++ current).getLast? queued)

lemma Lane.nil : Lane link [] [] :=
  .intro [] [] [] rfl rfl (by simp) (by simp) (by simp) trivial

/-- Other chains move on. -/
lemma Lane.congr (hlink : ∀ i ∈ js, link' i = link i) (h : Lane link js begun) :
    Lane link' js begun := by
  obtain ⟨done, current, queued, rfl, hbegun, hdone, hone, hcurrent, hqueued⟩ := h
  refine ⟨done, current, queued, rfl, hbegun, fun i hi => ?_, hone, fun i hi => ?_,
    hqueued.congr fun i hi => hlink i (by simp [hi])⟩
  · rw [hlink i (by simp [hi]), hdone i hi]
  · rw [hlink i (by simp [hi]), hcurrent i hi]

lemma Lane.append (hlink : ∀ i ∈ js, link' i = link i)
    (hi : link' i = some (.waiting js.getLast?)) (h : Lane link js begun) :
    Lane link' (js ++ [i]) begun := by
  obtain ⟨done, current, queued, rfl, hbegun, hdone, hone, hcurrent, hqueued⟩ := h.congr hlink
  refine ⟨done, current, queued ++ [i], by simp, hbegun, hdone, hone, hcurrent,
    hqueued.append ?_⟩
  rw [hi, List.getLast?_append]

/-- The link that starts is the first of those that wait, and none runs. -/
lemma Lane.start (hnodup : js.Nodup) (hmem : i ∈ js)
    (hlink : link i = some (.waiting previous))
    (hready : ∀ p, previous = some p → link p = some .settled)
    (hother : ∀ j ∈ js, j ≠ i → link' j = link j) (hi : link' i = some .running)
    (h : Lane link js begun) : Lane link' js (begun ++ [i]) := by
  obtain ⟨done, current, queued, rfl, rfl, hdone, hone, hcurrent, hqueued⟩ := h
  have hsettled : i ∉ done := fun hd => by cases (hdone i hd).symm.trans hlink
  have hrunning : i ∉ current := fun hc => by cases (hcurrent i hc).symm.trans hlink
  have hq : i ∈ queued := by
    rcases List.mem_append.mp hmem with hmem | hmem
    · exact absurd hmem (by simp [hsettled, hrunning])
    · exact hmem
  cases queued with
  | nil => cases hq
  | cons j rest =>
      have hfirst : i = j := by
        by_contra hne
        obtain ⟨p, hp, hbehind⟩ := hqueued.behind ((List.mem_cons.mp hq).resolve_left hne)
        obtain rfl : previous = some p := by simpa using hlink.symm.trans hbehind
        obtain ⟨q, hwaiting⟩ := hqueued.waiting hp
        cases (hready p rfl).symm.trans hwaiting
      subst hfirst
      obtain rfl : previous = (done ++ current).getLast? := by
        simpa using hlink.symm.trans hqueued.1
      have hidle : current = [] := by
        cases hlast : current.getLast? with
        | none => exact List.getLast?_eq_none_iff.mp hlast
        | some r =>
            have hr := hready r (by rw [List.getLast?_append, hlast]; rfl)
            cases hr.symm.trans (hcurrent r (List.mem_of_getLast? hlast))
      subst hidle
      have hrest : ∀ j ∈ rest, j ≠ i := by
        rintro j hj rfl
        have hdup := (List.nodup_append.mp hnodup).2.1
        exact (List.nodup_cons.mp hdup).1 hj
      refine ⟨done, [i], rest, by simp, by simp, fun j hj => ?_, le_rfl, by simpa using hi, ?_⟩
      · have hne : j ≠ i := fun heq => hsettled (heq ▸ hj)
        rw [hother j (by simp [hj]) hne, hdone j hj]
      · rw [List.getLast?_append, List.getLast?_singleton, Option.some_or]
        exact hqueued.2.congr fun j hj => hother j (by simp [hj]) (hrest j hj)

/-- The link that settles is the one that runs. -/
lemma Lane.settle (hmem : i ∈ js) (hlink : link i = some .running)
    (hother : ∀ j ∈ js, j ≠ i → link' j = link j) (hi : link' i = some .settled)
    (h : Lane link js begun) : Lane link' js begun := by
  obtain ⟨done, current, queued, rfl, rfl, hdone, hone, hcurrent, hqueued⟩ := h
  have hsettled : i ∉ done := fun hd => by cases (hdone i hd).symm.trans hlink
  have hq : i ∉ queued := by
    intro hq
    obtain ⟨p, hwaiting⟩ := hqueued.waiting hq
    cases hwaiting.symm.trans hlink
  have hc : i ∈ current := by simpa [hsettled, hq] using hmem
  obtain rfl : current = [i] := by
    obtain ⟨r, rfl⟩ := List.length_eq_one_iff.mp
      (le_antisymm hone (List.length_pos_of_mem hc))
    rw [List.mem_singleton.mp hc]
  refine ⟨done ++ [i], [], queued, by simp, by simp, fun j hj => ?_, by simp, by simp, ?_⟩
  · by_cases hne : j = i
    · rw [hne, hi]
    · have hd : j ∈ done := by simpa [hne] using hj
      rw [hother j (by simp [hd]) hne, hdone j hd]
  · rw [List.append_nil]
    refine hqueued.congr fun j hj => hother j (by simp [hj]) ?_
    rintro rfl
    exact hq hj

/-! ### What a chain guarantees -/

lemma Lane.begun_in_order (h : Lane link js begun) : begun <+: js := by
  obtain ⟨done, current, queued, rfl, rfl, -⟩ := h
  exact List.prefix_append _ _

/-- One link runs at a time. -/
lemma Lane.exclusive {j : ι} (h : Lane link js begun) (hi : i ∈ js) (hj : j ∈ js)
    (hri : link i = some .running) (hrj : link j = some .running) : i = j := by
  obtain ⟨done, current, queued, rfl, rfl, hdone, hone, hcurrent, hqueued⟩ := h
  have hmem {k : ι} (hk : k ∈ done ++ current ++ queued) (hr : link k = some .running) :
      k ∈ current := by
    have hd : k ∉ done := fun hd => by cases (hdone k hd).symm.trans hr
    have hq : k ∉ queued := by
      intro hq
      obtain ⟨p, hwaiting⟩ := hqueued.waiting hq
      cases hwaiting.symm.trans hr
    simpa [hd, hq] using hk
  have hi := hmem hi hri
  have hj := hmem hj hrj
  obtain ⟨r, rfl⟩ := List.length_eq_one_iff.mp (le_antisymm hone (List.length_pos_of_mem hi))
  rw [List.mem_singleton.mp hi, List.mem_singleton.mp hj]

/-- A link that has not started waits for nothing but the links before it. -/
lemma Lane.unblocked {before after : List ι} (h : Lane link js begun)
    (hjs : js = before ++ i :: after) (hbefore : ∀ j ∈ before, link j = some .settled)
    (hi : i ∉ begun) :
    ∃ p, link i = some (.waiting p) ∧ ∀ j, p = some j → link j = some .settled := by
  obtain ⟨done, current, queued, rfl, rfl, hdone, hone, hcurrent, hqueued⟩ := h
  have hidle : ∀ r ∈ current, r ∉ before := by
    intro r hr hmem
    cases (hbefore r hmem).symm.trans (hcurrent r hr)
  obtain ⟨rest, rfl, rfl⟩ :
      ∃ rest, before = done ++ current ++ rest ∧ queued = rest ++ i :: after := by
    rcases List.append_eq_append_iff.mp hjs with ⟨rest, hsplit, hqueue⟩ | ⟨rest, hsplit, hqueue⟩
    · exact ⟨rest, hsplit, hqueue⟩
    · cases rest with
      | nil => exact ⟨[], by simpa using hsplit.symm, hqueue.symm⟩
      | cons j rest =>
          obtain rfl := (List.cons.inj hqueue).1
          exact absurd (hsplit ▸ by simp) hi
  obtain rfl : current = [] := by
    cases current with
    | nil => rfl
    | cons r current => exact absurd (by simp) (hidle r List.mem_cons_self)
  obtain rfl : rest = [] := by
    cases rest with
    | nil => rfl
    | cons j rest =>
        obtain ⟨p, hwaiting⟩ := hqueued.waiting (by simp : j ∈ j :: rest ++ i :: after)
        cases (hbefore j (by simp)).symm.trans hwaiting
  refine ⟨_, hqueued.1, fun j hj => hdone j ?_⟩
  rw [List.append_nil] at hj
  exact List.mem_of_getLast? hj

/-- A chain whose last link has settled has settled. -/
lemma Lane.settled_of_last (h : Lane link js begun) (hlast : js.getLast? = some i)
    (hi : link i = some .settled) : begun = js ∧ ∀ j ∈ js, link j = some .settled := by
  obtain ⟨done, current, queued, rfl, rfl, hdone, hone, hcurrent, hqueued⟩ := h
  have hq : queued = [] := by
    cases hqueue : queued.getLast? with
    | none => exact List.getLast?_eq_none_iff.mp hqueue
    | some j =>
        rw [List.getLast?_append, hqueue, Option.some_or] at hlast
        obtain rfl := Option.some.inj hlast
        obtain ⟨p, hwaiting⟩ := hqueued.waiting (List.mem_of_getLast? hqueue)
        cases hwaiting.symm.trans hi
  subst hq
  have hc : current = [] := by
    cases hcur : current.getLast? with
    | none => exact List.getLast?_eq_none_iff.mp hcur
    | some j =>
        rw [List.append_nil, List.getLast?_append, hcur, Option.some_or] at hlast
        obtain rfl := Option.some.inj hlast
        cases (hcurrent _ (List.mem_of_getLast? hcur)).symm.trans hi
  subst hc
  exact ⟨by simp, fun j hj => hdone j (by simpa using hj)⟩

end Lane

/-! ### Histories -/

section History

variable [DecidableEq κ] (es : List (Event κ ι)) (k k' : κ) (i : ι)

@[simp] lemma appended_append :
    appended k (es ++ [.append k' i]) = appended k es ++ if k' = k then [i] else [] := by
  rw [appended, List.filterMap_append, ← appended]
  by_cases hk : k' = k <;> simp [hk]

@[simp] lemma appended_start : appended k (es ++ [.start i]) = appended k es := by
  rw [appended, List.filterMap_append, ← appended]
  simp

@[simp] lemma appended_settle : appended k (es ++ [.settle i]) = appended k es := by
  rw [appended, List.filterMap_append, ← appended]
  simp

omit [DecidableEq κ]

@[simp] lemma started_append : started (es ++ [.append k i]) = started es := by
  rw [started, List.filterMap_append, ← started]
  simp

@[simp] lemma started_start :
    started (es ++ [(.start i : Event κ ι)]) = started es ++ [i] := by
  rw [started, List.filterMap_append, ← started]
  simp

@[simp] lemma started_settle : started (es ++ [(.settle i : Event κ ι)]) = started es := by
  rw [started, List.filterMap_append, ← started]
  simp

end History

/-! ### All chains -/

section Ordered

variable [DecidableEq κ] [DecidableEq ι] {es : List (Event κ ι)} {s t : Chains κ ι} {k : κ} {i : ι}

/-- The invariant: a link is in one chain at most and once, and every chain is in order. -/
structure Ordered (es : List (Event κ ι)) (s : Chains κ ι) : Prop where
  fresh : ∀ i, s.link i = none ↔ ∀ k, i ∉ appended k es
  known : ∀ i ∈ started es, s.link i ≠ none
  nodup : ∀ k, (appended k es).Nodup
  apart : ∀ k k' i, i ∈ appended k es → i ∈ appended k' es → k = k'
  last : ∀ k, s.last k = (appended k es).getLast?
  lane : ∀ k, Lane s.link (appended k es) (begun k es)

lemma Ordered.mem_of_link (h : Ordered es s) {l : Link ι} (hl : s.link i = some l) :
    ∃ k, i ∈ appended k es := by
  by_contra hnot
  have hnone := (h.fresh i).mpr fun k hk => hnot ⟨k, hk⟩
  cases hnone.symm.trans hl

lemma ordered_init : Ordered ([] : List (Event κ ι)) .init where
  fresh i := by simp [Chains.init, appended]
  known _ h := absurd h List.not_mem_nil
  nodup _ := List.nodup_nil
  apart _ _ _ h := absurd h List.not_mem_nil
  last _ := rfl
  lane _ := .nil

lemma Ordered.append (h : Ordered es s) (k : κ) (hfresh : s.link i = none) :
    Ordered (es ++ [.append k i])
      { link := Function.update s.link i (some (.waiting (s.last k)))
        last := Function.update s.last k (some i) } := by
  have hnew := (h.fresh i).mp hfresh
  have hother {k' : κ} : ∀ j ∈ appended k' es,
      Function.update s.link i (some (.waiting (s.last k))) j = s.link j := by
    intro j hj
    refine Function.update_of_ne ?_ _ _
    rintro rfl
    exact hnew k' hj
  have hbegun (k' : κ) : begun k' (es ++ [.append k i]) = begun k' es := by
    rw [begun, begun, started_append]
    refine List.filter_congr fun j hj => ?_
    have hne : j ≠ i := fun heq => h.known j hj (heq ▸ hfresh)
    rw [appended_append]
    by_cases hk : k = k' <;> simp [hk, hne]
  constructor
  · intro j
    by_cases hj : j = i
    · subst hj
      refine iff_of_false (by simp) fun hall => hall k (by simp)
    · simp only [Function.update_of_ne hj, appended_append, List.mem_append, not_or]
      rw [h.fresh j]
      refine forall_congr' fun k' => (and_iff_left ?_).symm
      by_cases hk : k = k' <;> simp [hk, hj]
  · intro j hj
    rw [started_append] at hj
    have hne : j ≠ i := fun heq => h.known j hj (heq ▸ hfresh)
    simp only [Function.update_of_ne hne]
    exact h.known j hj
  · intro k'
    rw [appended_append]
    by_cases hk : k = k'
    · rw [if_pos hk, List.nodup_append]
      refine ⟨h.nodup k', by simp, ?_⟩
      rintro j hj _ hi rfl
      exact hnew k' (List.mem_singleton.mp hi ▸ hj)
    · rw [if_neg hk, List.append_nil]
      exact h.nodup k'
  · intro k1 k2 j h1 h2
    have hmem {k' : κ} (hj : j ∈ appended k' (es ++ [.append k i])) :
        j ∈ appended k' es ∨ k = k' ∧ j = i := by
      rw [appended_append, List.mem_append] at hj
      refine hj.imp_right fun hj => ?_
      split_ifs at hj with hk
      · exact ⟨hk, List.mem_singleton.mp hj⟩
      · cases hj
    rcases hmem h1 with hold1 | ⟨rfl, rfl⟩
    · rcases hmem h2 with hold2 | ⟨rfl, rfl⟩
      · exact h.apart k1 k2 j hold1 hold2
      · exact absurd hold1 (hnew k1)
    · rcases hmem h2 with hold2 | ⟨rfl, -⟩
      · exact absurd hold2 (hnew k2)
      · rfl
  · intro k'
    rw [appended_append]
    by_cases hk : k = k'
    · subst hk
      simp
    · simp [hk, Function.update_of_ne (Ne.symm hk), h.last k']
  · intro k'
    rw [appended_append, hbegun]
    by_cases hk : k = k'
    · subst hk
      rw [if_pos rfl]
      refine (h.lane k).append hother ?_
      simp [h.last k]
    · rw [if_neg hk, List.append_nil]
      exact (h.lane k').congr hother

/-- A link that moves on stays where it is. -/
lemma Ordered.move (h : Ordered es s) {l : Link ι} {e : Event κ ι} (hlink : s.link i ≠ none)
    (happended : ∀ k, appended k (es ++ [e]) = appended k es)
    (hstarted : ∀ j ∈ started (es ++ [e]), j = i ∨ j ∈ started es)
    (hlane : ∀ k, Lane (s.setLink i l).link (appended k es) (begun k (es ++ [e]))) :
    Ordered (es ++ [e]) (s.setLink i l) := by
  have hnone (j : ι) : (s.setLink i l).link j = none ↔ s.link j = none := by
    by_cases hj : j = i
    · subst hj
      simp [Chains.setLink, hlink]
    · simp [Chains.setLink, Function.update_of_ne hj]
  constructor
  · intro j
    rw [hnone, h.fresh j]
    simp only [happended]
  · intro j hj
    rw [ne_eq, hnone]
    rcases hstarted j hj with rfl | hj
    · exact hlink
    · exact h.known j hj
  · simpa only [happended] using h.nodup
  · simpa only [happended] using h.apart
  · intro k
    rw [happended]
    exact h.last k
  · simpa only [happended] using hlane

omit [DecidableEq κ] in
lemma link_of_ne {l : Link ι} {j : ι} (hj : j ≠ i) : (s.setLink i l).link j = s.link j :=
  Function.update_of_ne hj _ _

omit [DecidableEq κ] in
lemma link_self {l : Link ι} : (s.setLink i l).link i = some l := Function.update_self ..

lemma Ordered.start (h : Ordered es s) {previous : Option ι}
    (hlink : s.link i = some (.waiting previous)) (hready : s.Ready previous) :
    Ordered (es ++ [.start i]) (s.setLink i .running) := by
  refine h.move (by rw [hlink]; simp) (fun k => appended_start es k i) (by simp [or_comm]) ?_
  intro k
  rw [begun, started_start, List.filter_append, appended_start, ← begun]
  by_cases hi : i ∈ appended k es
  · rw [List.filter_cons, if_pos (decide_eq_true hi), List.filter_nil]
    refine (h.lane k).start (h.nodup k) hi hlink ?_ (fun j _ hj => link_of_ne hj) link_self
    rintro p rfl
    exact hready
  · rw [List.filter_cons, if_neg (by simpa using hi), List.filter_nil, List.append_nil]
    refine (h.lane k).congr fun j hj => link_of_ne ?_
    rintro rfl
    exact hi hj

lemma Ordered.settle (h : Ordered es s) (hlink : s.link i = some .running) :
    Ordered (es ++ [.settle i]) (s.setLink i .settled) := by
  refine h.move (by rw [hlink]; simp) (fun k => appended_settle es k i)
    (fun j hj => .inr (by rwa [started_settle] at hj)) ?_
  intro k
  rw [begun, started_settle, appended_settle, ← begun]
  by_cases hi : i ∈ appended k es
  · exact (h.lane k).settle hi hlink (fun j _ hj => link_of_ne hj) link_self
  · refine (h.lane k).congr fun j hj => link_of_ne ?_
    rintro rfl
    exact hi hj

/-- **One event** keeps the chains in order. -/
lemma Ordered.step {e : Event κ ι} (h : Ordered es s) (hstep : Step s e t) :
    Ordered (es ++ [e]) t := by
  cases hstep with
  | append hfresh => exact h.append _ hfresh
  | start hlink hready => exact h.start hlink hready
  | settle hlink => exact h.settle hlink

/-- **A run** keeps the chains in order. -/
theorem ordered_of_run (h : Run Step (.init : Chains κ ι) es s) : Ordered es s :=
  h.history (fun _ _ _ _ => Ordered.step) ordered_init

end Ordered

end PromiseChain
