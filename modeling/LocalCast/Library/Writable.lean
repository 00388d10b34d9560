import LocalCast.Library.Resolver

/-!
Where a file is created at a path that `resolveWritable` returned.

* `WritesInside`: the missing directories above the path and the file itself are all inside the
  real root.
* `LeavesByLink`, `StartsAbove`: the two ways out. The last component is a link without a
  target, and the write follows it out; or nothing is there from above the root on, where the
  comparison of segments takes two names for one that the tree tells apart.
* `write_confined_iff`: there is no other.
* `dangling_link_writes_outside`: the first of them happens.
-/

namespace LocalCast.Library

open JsString Contract Db Auth

/-- Creating the missing directories above `p`, then the file, touches nothing outside. -/
def WritesInside (T : WindowsTree) (cm : CaseMap) (rootReal p : JsString) : Prop :=
  ∀ v ns, splitPath p = some (v, ns) → ∀ loc ∈ T.touched v ns, Inside cm rootReal (render loc.1 loc.2)

/-- The last component of the joined path is a link in a directory that is there; it leads to
nothing, and a file written through it is created outside the real root. -/
def LeavesByLink (T : WindowsTree) (cm : CaseMap) (rootReal joined : JsString) : Prop :=
  ∃ v ns s last name t landed, splitPath joined = some (v, ns) ∧
    Deepest T v ns ⟨s, none⟩ last [] ∧ T.lookup s.dir last = .ok (name, .link t) ∧
    T.openWrite T.maxLinks s [.down last] = .ok landed ∧
    ¬ Inside cm rootReal (render landed.1.volume (landed.1.names ++ [landed.2]))

/-- Two components or more of the joined path are missing, and the first of them is really
above the real root. -/
def StartsAbove (T : WindowsTree) (rootReal joined : JsString) : Prop :=
  ∃ v ns s first below, splitPath joined = some (v, ns) ∧ Deepest T v ns ⟨s, none⟩ first below ∧
    below ≠ [] ∧ T.lookup s.dir first = .error .ENOENT ∧
    (s.volume.segs ++ s.names).length + 1 < (splitSegments rootReal).length

section Paths

variable {T : WindowsTree} {cm : CaseMap} {v : Volume} {ns : List JsString}
  {place place' : Place Volume ℕ Stat JsString} {first first' : JsString}
  {below below' : List JsString} {joined rootReal p : JsString}

/-- A path that is there has no missing component. -/
lemma not_deepest_of_realpath {real : JsString} (h : T.realpath joined = .ok real)
    (hsplit : splitPath joined = some (v, ns)) : ¬ Deepest T v ns place first below := by
  rintro ⟨above, rfl, -, hmiss⟩
  obtain ⟨q, hq, -⟩ := realpath_eq_ok h
  rw [WindowsTree.find, hsplit] at hq
  simp only at hq
  have hgone := FileTree.locate_append_error hmiss (below.map toStep)
  rw [← List.map_append, List.append_assoc, List.singleton_append, hq] at hgone
  cases hgone

lemma deepest_above {above above' : List JsString}
    (hmiss : T.locate v ((above ++ [first]).map toStep) = .error .ENOENT)
    (hloc : T.locate v (above'.map toStep) = .ok place) {rest : List JsString}
    (h : above' = above ++ first :: rest) : False := by
  have hgone := FileTree.locate_append_error hmiss (rest.map toStep)
  rw [← List.map_append, List.append_assoc, List.singleton_append, ← h, hloc] at hgone
  cases hgone

/-- There is one deepest ancestor. -/
lemma Deepest.unique (h : Deepest T v ns place first below)
    (h' : Deepest T v ns place' first' below') :
    place' = place ∧ first' = first ∧ below' = below := by
  obtain ⟨above, hns, hloc, hmiss⟩ := h.above
  obtain ⟨above', hns', hloc', hmiss'⟩ := h'.above
  rcases List.append_eq_append_iff.mp (hns.symm.trans hns') with ⟨rest, hl, hr⟩ | ⟨rest, hl, hr⟩
  · cases rest with
    | nil =>
        rw [List.append_nil] at hl
        obtain ⟨rfl, rfl⟩ := List.cons.inj hr
        rw [hl, hloc] at hloc'
        exact ⟨(Except.ok.inj hloc').symm, rfl, rfl⟩
    | cons x rest =>
        obtain ⟨rfl, -⟩ := List.cons.inj hr
        exact (deepest_above hmiss hloc' hl).elim
  · cases rest with
    | nil =>
        rw [List.append_nil] at hl
        obtain ⟨rfl, rfl⟩ := List.cons.inj hr
        rw [← hl, hloc] at hloc'
        exact ⟨(Except.ok.inj hloc').symm, rfl, rfl⟩
    | cons x rest =>
        obtain ⟨rfl, -⟩ := List.cons.inj hr
        exact (deepest_above hmiss' hloc hl).elim

/-- Above a path inside the root, what is deep enough is inside. -/
lemma inside_of_deep {q : JsString} (hp : Inside cm rootReal p)
    (hq : splitSegments q <+: splitSegments p) :
    Inside cm rootReal q ↔ (splitSegments rootReal).length ≤ (splitSegments q).length := by
  obtain ⟨hne, front, hfront, hsame⟩ := hp
  constructor
  · rintro ⟨-, front', hfront', hsame'⟩
    exact hsame'.length_eq.trans_le hfront'.length_le
  · intro hlen
    refine ⟨hne, front, List.prefix_of_prefix_length_le hfront hq ?_, hsame⟩
    exact hsame.length_eq.symm.trans_le hlen

/-- Writing at a path that is there writes the file there, or nothing. -/
lemma writesInside_existing {real : JsString} (h : T.realpath joined = .ok real)
    (hin : Inside cm rootReal real) : WritesInside T cm rootReal real := by
  obtain ⟨place, hfind, rfl⟩ := realpath_eq_ok h
  have hreal := real_of_find hfind
  intro v ns hsplit loc hloc
  rw [splitPath_real hreal] at hsplit
  obtain ⟨rfl, rfl⟩ := Prod.mk.inj (Option.some.inj hsplit)
  rw [FileTree.touched_existing hreal loc hloc]
  exact hin

/-- Writing below the deepest ancestor. -/
lemma writesInside_missing (hdeep : Deepest T v ns place first below)
    (hnamed : ∀ n ∈ first :: below, Named n ∧ Piece n) :
    WritesInside T cm rootReal (render place.volume (place.names ++ first :: below)) ↔
      ∀ loc ∈ T.touched place.volume (place.names ++ first :: below),
        Inside cm rootReal (render loc.1 loc.2) := by
  have hsplit := (below_real hdeep.real hnamed).1
  constructor
  · exact fun h => h _ _ hsplit
  · intro h v' ns' hsplit'
    rw [hsplit] at hsplit'
    obtain ⟨rfl, rfl⟩ := Prod.mk.inj (Option.some.inj hsplit')
    exact h

/-- In a directory that is there, a link without a target is the only way out. -/
lemma inside_iff_of_one {s : Spot Volume ℕ JsString} (hs : T.RealSpot s)
    (hmiss : T.walk T.maxLinks s [.down first] = .error .ENOENT)
    (hin : Inside cm rootReal (render s.volume (s.names ++ [first]))) :
    (∀ loc ∈ T.touched s.volume (s.names ++ [first]), Inside cm rootReal (render loc.1 loc.2)) ↔
      ¬ ∃ name t landed, T.lookup s.dir first = .ok (name, .link t) ∧
        T.openWrite T.maxLinks s [.down first] = .ok landed ∧
        ¬ Inside cm rootReal (render landed.1.volume (landed.1.names ++ [landed.2])) := by
  rw [FileTree.touched_in_dir hs]
  rcases hopen : T.openWrite T.maxLinks s [.down first] with e | landed
  · simp
  · rw [FileTree.walk_down] at hmiss
    rw [FileTree.openWrite_down] at hopen
    rcases hl : T.lookup s.dir first with e | ⟨name, d | k | t⟩
    · rw [hl] at hmiss hopen
      obtain rfl := Except.error.inj hmiss
      obtain rfl : (s, first) = landed := Except.ok.inj hopen
      simpa using hin
    · rw [hl] at hmiss
      simp at hmiss
    · rw [hl] at hmiss
      simp at hmiss
    · simp

/-- Where two components or more are missing, the depth of the first decides. -/
lemma inside_iff_of_many {s : Spot Volume ℕ JsString} (hs : T.RealSpot s) (hbelow : below ≠ [])
    (hnamed : ∀ n ∈ first :: below, Named n ∧ Piece n)
    (hmiss : T.walk T.maxLinks s [.down first] = .error .ENOENT)
    (hin : Inside cm rootReal (render s.volume (s.names ++ first :: below))) :
    (∀ loc ∈ T.touched s.volume (s.names ++ first :: below),
        Inside cm rootReal (render loc.1 loc.2)) ↔
      ¬ (T.lookup s.dir first = .error .ENOENT ∧
        (s.volume.segs ++ s.names).length + 1 < (splitSegments rootReal).length) := by
  by_cases hl : T.lookup s.dir first = .error .ENOENT
  · have hsegs (m : List JsString) (hm : m <+: below) :
        splitSegments (render s.volume (s.names ++ first :: m))
          = s.volume.segs ++ (s.names ++ first :: m) := by
      have hsub : ∀ n ∈ first :: m, Named n ∧ Piece n := fun n hn =>
        hnamed n ((List.cons_prefix_cons.mpr ⟨rfl, hm⟩).subset hn)
      have hplace : T.RealPlace ⟨s, none⟩ := ⟨hs, fun _ _ hc => nomatch hc⟩
      have hsplit := (below_real hplace hsub).1
      rw [Place.names_dir] at hsplit
      exact (splitPath_eq_some hsplit).2.2
    have hdepth (m : List JsString) (hm : m <+: below) :
        Inside cm rootReal (render s.volume (s.names ++ first :: m)) ↔
          (splitSegments rootReal).length ≤ (s.volume.segs ++ s.names).length + 1 + m.length := by
      rw [inside_of_deep hin, hsegs m hm]
      · simp only [List.length_append, List.length_cons]
        omega
      · rw [hsegs m hm, hsegs below (List.prefix_refl _), List.prefix_append_right_inj,
          List.prefix_append_right_inj, List.cons_prefix_cons]
        exact ⟨rfl, hm⟩
    rw [FileTree.touched_below_missing hs hbelow hmiss hl, List.inits_cons, List.tail_cons]
    simp only [List.mem_map, List.mem_inits, forall_exists_index, and_imp]
    constructor
    · intro h hstarts
      have hfirst := (hdepth [] List.nil_prefix).mp (h _ _ _ List.nil_prefix rfl rfl)
      have hlt := hstarts.2
      rw [List.length_nil] at hfirst
      omega
    · rintro h loc made m hm rfl rfl
      refine (hdepth m hm).mpr ?_
      have hge := not_lt.mp fun hlt => h ⟨hl, hlt⟩
      omega
  · rw [FileTree.touched_below_taken hs hbelow hmiss hl]
    simp [hl]

lemma leavesByLink_iff {s : Spot Volume ℕ JsString} (hsplit : splitPath joined = some (v, ns))
    (hdeep : Deepest T v ns ⟨s, none⟩ first below) : LeavesByLink T cm rootReal joined ↔
      below = [] ∧ ∃ name t landed, T.lookup s.dir first = .ok (name, .link t) ∧
        T.openWrite T.maxLinks s [.down first] = .ok landed ∧
        ¬ Inside cm rootReal (render landed.1.volume (landed.1.names ++ [landed.2])) := by
  constructor
  · rintro ⟨v', ns', s', last, name, t, landed, hsplit', hdeep', hlink⟩
    obtain ⟨rfl, rfl⟩ := Prod.mk.inj (Option.some.inj (hsplit.symm.trans hsplit'))
    obtain ⟨hplace, rfl, rfl⟩ := hdeep.unique hdeep'
    obtain ⟨rfl, -⟩ := Place.mk.inj hplace
    exact ⟨rfl, name, t, landed, hlink⟩
  · rintro ⟨rfl, name, t, landed, hlink⟩
    exact ⟨v, ns, s, first, name, t, landed, hsplit, hdeep, hlink⟩

lemma startsAbove_iff {s : Spot Volume ℕ JsString} (hsplit : splitPath joined = some (v, ns))
    (hdeep : Deepest T v ns ⟨s, none⟩ first below) : StartsAbove T rootReal joined ↔
      below ≠ [] ∧ T.lookup s.dir first = .error .ENOENT ∧
        (s.volume.segs ++ s.names).length + 1 < (splitSegments rootReal).length := by
  constructor
  · rintro ⟨v', ns', s', first', below', hsplit', hdeep', habove⟩
    obtain ⟨rfl, rfl⟩ := Prod.mk.inj (Option.some.inj (hsplit.symm.trans hsplit'))
    obtain ⟨hplace, rfl, rfl⟩ := hdeep.unique hdeep'
    obtain ⟨rfl, -⟩ := Place.mk.inj hplace
    exact habove
  · intro habove
    exact ⟨v, ns, s, first, below, hsplit, hdeep, habove⟩

/-- Writing at a path that is not there. -/
lemma writesInside_iff_of_missing (hsplit : splitPath joined = some (v, ns))
    (hdeep : Deepest T v ns place first below) (hnamed : ∀ n ∈ first :: below, Named n ∧ Piece n)
    (hin : Inside cm rootReal (render place.volume (place.names ++ first :: below))) :
    WritesInside T cm rootReal (render place.volume (place.names ++ first :: below)) ↔
      ¬ LeavesByLink T cm rootReal joined ∧ ¬ StartsAbove T rootReal joined := by
  rw [writesInside_missing hdeep hnamed]
  obtain ⟨s, leaf⟩ := place
  cases leaf with
  | some q =>
      rw [FileTree.touched_below_leaf hdeep.real (by simp)]
      refine iff_of_true (by simp) ⟨?_, ?_⟩
      · rintro ⟨v', ns', s', last, name, t, landed, hsplit', hdeep', -⟩
        obtain ⟨rfl, rfl⟩ := Prod.mk.inj (Option.some.inj (hsplit.symm.trans hsplit'))
        cases (hdeep.unique hdeep').1
      · rintro ⟨v', ns', s', first', below', hsplit', hdeep', -⟩
        obtain ⟨rfl, rfl⟩ := Prod.mk.inj (Option.some.inj (hsplit.symm.trans hsplit'))
        cases (hdeep.unique hdeep').1
  | none =>
      obtain ⟨above, -, hloc, hgone⟩ := hdeep.above
      have hfirst : toStep first = .down first := by
        have hname := (hnamed first List.mem_cons_self).1
        rw [toStep, if_neg hname.1, if_neg hname.2]
      rw [List.map_append, List.map_singleton, hfirst] at hgone
      have hmiss := FileTree.walk_missing hloc hgone (by simp)
      rw [leavesByLink_iff hsplit hdeep, startsAbove_iff hsplit hdeep]
      rw [Place.volume, Place.names_dir] at hin ⊢
      by_cases hbelow : below = []
      · subst hbelow
        rw [inside_iff_of_one hdeep.real.spot hmiss hin]
        simp
      · rw [inside_iff_of_many hdeep.real.spot hbelow hnamed hmiss hin]
        simp [hbelow]

end Paths

lemma resolveWritable_eq_ok {T : WindowsTree} {cm : CaseMap} {st : AuthStore}
    {folderId relPath p : JsString} (h : resolveWritable T cm st folderId relPath = .ok p) :
    ∃ folder r, writableFolder st folderId = .ok folder ∧
      resolvePath T cm folder relPath = .ok r ∧ p = r.absPath := by
  rw [resolveWritable] at h
  split at h
  · cases h
  case h_2 folder hfolder =>
    split at h
    · cases h
    · split_ifs at h
      cases hr : resolvePath T cm folder relPath with
      | error f => simp [hr, Except.map] at h
      | ok r =>
          rw [hr] at h
          exact ⟨folder, r, hfolder, hr, (Except.ok.inj h).symm⟩

/-- **Write confinement, and exactly when it holds**: creating the missing directories above a
path that `resolveWritable` returned, and then a file there, touches nothing outside the real
root, unless the joined path ends in a link that leads out to nothing, or its missing
components start above the root. -/
theorem write_confined_iff {T : WindowsTree} {cm : CaseMap} {st : AuthStore}
    {folderId relPath p : JsString} (h : resolveWritable T cm st folderId relPath = .ok p) :
    ∃ folder segs rootReal, writableFolder st folderId = .ok folder ∧
      sanitiseRelPath cm relPath = .ok segs ∧
      T.realpath (stripLongPathPrefix folder.path) = .ok rootReal ∧
      (WritesInside T cm rootReal p ↔
        ¬ LeavesByLink T cm rootReal (joinedPath (stripLongPathPrefix folder.path) segs) ∧
        ¬ StartsAbove T rootReal (joinedPath (stripLongPathPrefix folder.path) segs)) := by
  obtain ⟨folder, r, hfolder, hr, rfl⟩ := resolveWritable_eq_ok h
  obtain ⟨rootReal, hsegs, hroot, horigin, hin, habs⟩ := resolvePath_eq_ok hr
  refine ⟨folder, r.segments, rootReal, hfolder, hsegs, hroot, ?_⟩
  have hlong : WritesInside T cm rootReal r.absPath ↔ WritesInside T cm rootReal r.realPath := by
    rw [WritesInside, WritesInside, habs, splitPath_withLong]
  rw [hlong]
  cases horigin with
  | existing hthere =>
      refine iff_of_true (writesInside_existing hthere hin) ⟨?_, ?_⟩
      · rintro ⟨v, ns, s, last, name, t, landed, hsplit, hdeep, -⟩
        exact not_deepest_of_realpath hthere hsplit hdeep
      · rintro ⟨v, ns, s, first, below, hsplit, hdeep, -⟩
        exact not_deepest_of_realpath hthere hsplit hdeep
  | missing hsplit hdeep hnamed hreal =>
      rw [hreal] at hin ⊢
      exact writesInside_iff_of_missing hsplit hdeep hnamed hin

/-! ### Concrete trees -/

/-- `C:\m` with a link `x` to a name that is free in `C:\w`. -/
def linkedTree : WindowsTree := .ofEntries
  [(0, js "m", .dir 1), (0, js "w", .dir 3), (1, js "d", .dir 2),
    (1, js "x", .link ⟨some (.drive 67), [.down (js "w"), .down (js "new.txt")]⟩)]
  (by decide)

theorem write_confined_iff_fresh : ∃ p, resolveWritable linkedTree asciiCase plainStore (js "f")
      (js "d/e/b.txt") = .ok p ∧ p = js "\\\\?\\C:\\m\\d\\e\\b.txt" ∧
    ∃ joined rootReal, WritesInside linkedTree asciiCase rootReal p ↔
      ¬ LeavesByLink linkedTree asciiCase rootReal joined ∧
      ¬ StartsAbove linkedTree rootReal joined := by
  have hp : resolveWritable linkedTree asciiCase plainStore (js "f") (js "d/e/b.txt")
      = .ok (js "\\\\?\\C:\\m\\d\\e\\b.txt") := by decide +kernel
  obtain ⟨folder, segs, rootReal, -, -, -, hiff⟩ := write_confined_iff hp
  exact ⟨_, hp, rfl, _, rootReal, hiff⟩

/-- **A dangling link is written through**: `resolveWritable` returns the path of the link, and
creating a file there creates `C:\w\new.txt`. -/
theorem dangling_link_writes_outside : ∃ p,
    resolveWritable linkedTree asciiCase plainStore (js "f") (js "x") = .ok p ∧
    linkedTree.realpath (js "C:\\m") = .ok (js "C:\\m") ∧
    (splitPath p).map (fun q => linkedTree.touched q.1 q.2)
      = some [(.drive 67, [js "w", js "new.txt"])] ∧
    ¬ WritesInside linkedTree asciiCase (js "C:\\m") p := by
  refine ⟨js "\\\\?\\C:\\m\\x", by decide +kernel, by decide +kernel,
    by decide +kernel, fun hin => ?_⟩
  have hloc := hin (.drive 67) [js "m", js "x"] (by decide +kernel)
    (.drive 67, [js "w", js "new.txt"]) (by decide +kernel)
  rw [← isInsideRoot_iff] at hloc
  exact absurd hloc (by decide +kernel)

end LocalCast.Library
