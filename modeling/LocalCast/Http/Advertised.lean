import LocalCast.Http.Device
import LocalCast.Library.Unreachable

/-!
Whether the index advertises only what the resolver serves: the walk of `library/indexer.ts`
against `sanitiseRelPath` and `resolveById`.

* `PlainName`, `PlainTree`: names that Windows allows, and trees of regular files and directories
  under such names.
* `Visible`: the entries of a tree that the rules of the indexer let through.
* `Openable`: a path none of whose names is a device, and which percent-decodes, where it does,
  to another path of plain names.
* `sanitise_iff`: the resolver accepts exactly the openable paths, as themselves.
* `resolve_there`: what is there under an accepted path is resolved.
* `walked_step`, `index_served_iff`: the walk finds exactly the visible entries, and the resolver
  serves all of them exactly where their paths are openable.
* `escaped_name_refused`: a file whose name holds an escaped question mark.
-/

namespace LocalCast.Http

open JsString Contract Db Auth Library Runs

/-! ### Names and paths -/

/-- A name Windows allows: no control character, none of the illegal letters, and neither a dot
nor a space at its end. -/
def PlainName (n : JsString) : Prop :=
  n ≠ [] ∧ (∀ c ∈ n, 32 ≤ c ∧ c ∉ ILLEGAL) ∧ n.getLast? ≠ some 46 ∧ n.getLast? ≠ some 32

instance (n : JsString) : Decidable (PlainName n) :=
  decidable_of_iff (n ≠ [] ∧ (n.all fun c => 32 ≤ c && !ILLEGAL.contains c) = true ∧
    n.getLast? ≠ some 46 ∧ n.getLast? ≠ some 32) (by simp [PlainName])

/-- A reserved device name, with or without an extension. -/
def isDevice (cm : CaseMap) (n : JsString) : Bool :=
  RESERVED.contains (cm.toUpperCase (n.takeWhile (· ≠ 46)))

/-- A relative path of plain names that are no devices. -/
structure PlainPath (cm : CaseMap) (p : JsString) : Prop where
  relative : p.head?.any isSlash = false
  names : ∀ n ∈ segments isSlash p, PlainName n ∧ isDevice cm n = false

/-- No name of the path is a device, and what it percent-decodes to is a path of plain names as
well. -/
structure Openable (cm : CaseMap) (p : JsString) : Prop where
  devices : ∀ n ∈ segments isSlash p, isDevice cm n = false
  decoded : ∀ q, decodeURIComponent p = some q → PlainPath cm q

/-! ### Trees -/

/-- The directory that names, spelled as the tree spells them, lead down to. -/
def dirAt (T : WindowsTree) : ℕ → List JsString → Option ℕ
  | d, [] => some d
  | d, n :: ns => match T.lookup d n with
      | .ok (c, .dir d') => if c = n then dirAt T d' ns else none
      | _ => none

/-- The entry of a name in the directory that names lead down to. -/
def At (T : WindowsTree) (d : ℕ) (ns : List JsString) (n : JsString)
    (e : Entry Volume ℕ Stat JsString) : Prop :=
  ∃ d', dirAt T d ns = some d' ∧ T.lookup d' n = .ok (n, e)

/-- A directory, or a regular file. -/
def Regular (T : WindowsTree) : Entry Volume ℕ Stat JsString → Prop
  | .dir d => (T.dirStat d).isDirectory = true
  | .leaf st => st.isFile = true ∧ st.isDirectory = false
  | .link _ => False

/-- A tree of regular files and directories under plain names. -/
def PlainTree (T : WindowsTree) (d : ℕ) : Prop :=
  (T.dirStat d).isDirectory = true ∧ ∀ ns n e, At T d ns n e → PlainName n ∧ Regular T e

/-- The path of names. -/
def pathOf (ns : List JsString) : JsString := join [47] ns

def Entry.isDir : Entry Volume ℕ Stat JsString → Bool
  | .dir _ => true
  | _ => false

/-! ### Listings -/

def direntType : Entry Volume ℕ Stat JsString → DirentType
  | .dir _ => .directory
  | .leaf _ => .file
  | .link _ => .symbolicLink

/-- `fs.stat` of an entry that is no link. -/
def entryStat (T : WindowsTree) : Entry Volume ℕ Stat JsString → Except Errno Stat
  | .dir d => .ok (T.dirStat d)
  | .leaf st => .ok st
  | .link _ => .error .ENOENT

/-- A listing holds what is in the directory. -/
structure Lists (T : WindowsTree) (d : ℕ) (listing : Listing) : Prop where
  sound : ∀ x ∈ listing.entries, ∃ e, T.lookup d x.1.name.val = .ok (x.1.name.val, e) ∧
    x.1.type = direntType e ∧ x.2 = entryStat T e
  complete : ∀ n e, T.lookup d n = .ok (n, e) → ∃ x ∈ listing.entries, x.1.name.val = n

/-- The disk answers a pass with what the tree below the root of the folder holds. -/
def answersAs (T : WindowsTree) (d : ℕ) (s : IndexState) : IndexAction → Prop
  | .stat answer => answer = .ok (T.dirStat d)
  | .readdir answer => ∀ current queue out, s.phase = .walking (current :: queue) out →
      ∃ ns d' listing, current.rel = pathOf ns ∧ dirAt T d ns = some d' ∧
        answer = .ok listing ∧ Lists T d' listing
  | _ => True

/-! ### The law -/

/-- An entry that the rules of the indexer let through: no name on the way to it is ignored, and
its directory is not too deep. -/
structure Visible (deps : IndexerDeps) (T : WindowsTree) (d : ℕ) (ns : List JsString)
    (n : JsString) (e : Entry Volume ℕ Stat JsString) : Prop where
  there : At T d ns n e
  kept : ∀ m ∈ ns ++ [n], shouldSkipEntry deps.cm m = false
  shallow : ns = [] ∨ ns.length < deps.maxDepth.getD 32

/-- The folder is shared and available, its path is in normal form, as it was when the folder was
added, and there is something at the path. -/
def StillThere (lib : LibraryState) (folder : FolderRow) (path : JsString) : Prop :=
  ∃ f v ms spot ns n e, lib.store.shared_folders.get folder.id = some f ∧
    f.path = folder.path ∧ f.enabled = true ∧ f.available = true ∧
    splitPath (stripLongPathPrefix folder.path) = some (v, ms) ∧ (∀ m ∈ ms, Named m) ∧
    lib.disk.find (stripLongPathPrefix folder.path) = .ok ⟨spot, none⟩ ∧
    At lib.disk spot.dir ns n e ∧ Regular lib.disk e ∧ path = pathOf (ns ++ [n])

/-- The index advertises only what the resolver serves, and leaves out nothing that its rules
let through. -/
structure ServesIndex (deps : IndexerDeps) (T : WindowsTree) (d : ℕ) (folder : FolderRow)
    (out : List WalkedEntry) : Prop where
  accepted : ∀ w ∈ out, ∃ segs, sanitiseRelPath deps.cm w.relPath = .ok segs ∧
    pathOf segs = w.relPath
  resolved : ∀ w ∈ out, ∀ (lib : LibraryState) row, StillThere lib folder w.relPath →
    lib.files.get (deps.fileIdFor folder.id w.relPath) = some row → row.folder_id = folder.id →
    row.rel_path = w.relPath → ∃ r, resolveById deps.cm lib row.id = .ok r ∧
      r.folderId = folder.id ∧ r.relPath = w.relPath ∧
      deps.fileIdFor r.folderId r.relPath = row.id
  listed : ∀ w ∈ out, w.isDir = true → ∀ (sv : Services) (lib : LibraryState) deviceId f limit,
    assertCan lib.store deviceId folder.id .list = .ok () →
    getFolder lib.store folder.id = .ok f → lib.files.rows.length ≤ limit →
    ∃ entries next, answer sv lib deviceId (.entries folder.id w.relPath none limit) =
        .entries (folderView lib.store deviceId f) w.relPath entries next ∧
      ∀ row ∈ lib.files.rows, row.folder_id = folder.id → row.parent_path = w.relPath →
        rowToEntry row ∈ entries
  complete : ∀ ns n e, Visible deps T d ns n e →
    ∃ w ∈ out, w.relPath = pathOf (ns ++ [n]) ∧ w.parentPath = pathOf ns ∧ w.isDir = Entry.isDir e

/-! ### What the resolver accepts -/

section Names

variable {cm : CaseMap} {n p : JsString} {ns : List JsString}

lemma PlainName.piece (h : PlainName n) : Piece n := by
  refine ⟨h.1, fun c hc => ?_⟩
  by_contra hs
  rw [Bool.not_eq_false, isSlash, Bool.or_eq_true, decide_eq_true_eq, decide_eq_true_eq] at hs
  rcases hs with rfl | rfl <;> exact (h.2.1 _ hc).2 (by decide)

lemma PlainName.named (h : PlainName n) : Named n := by
  constructor <;> rintro rfl <;> exact h.2.2.1 rfl

/-- The checks on a segment are those for plain names that are no devices. -/
lemma checkSegment_iff (hp : Piece n) :
    checkSegment cm n = .ok () ↔ PlainName n ∧ isDevice cm n = false := by
  have hillegal : (n.any (js ":*?<>|\"").contains) = false ↔ ∀ c ∈ n, c ∉ ILLEGAL := by
    have hiff (c : CodeUnit) (hc : c ∈ n) :
        (js ":*?<>|\"").contains c = false ↔ c ∉ ILLEGAL := by
      have hslash := hp.2 c hc
      simp only [isSlash, Bool.or_eq_false_iff, decide_eq_false_iff_not] at hslash
      simp [ILLEGAL, js, encodeChar, hslash.1, hslash.2]
      tauto
    rw [List.any_eq_false]
    simp only [Bool.not_eq_true]
    exact forall₂_congr hiff
  have hcontrol : (n.any fun c => decide (c < 32)) = false ↔ ∀ c ∈ n, 32 ≤ c := by
    simp
  have hlast : (n.getLast?.any fun c => decide (c = 46 ∨ c = 32)) = false ↔
      n.getLast? ≠ some 46 ∧ n.getLast? ≠ some 32 := by
    cases n.getLast? <;> simp
  constructor
  · intro h
    rw [checkSegment] at h
    split_ifs at h with hdots hill hcon hend hres
    simp only [Bool.not_eq_true] at hill hcon hend hres
    have hill := hillegal.mp hill
    have hcon := hcontrol.mp hcon
    exact ⟨⟨hp.1, fun c hc => ⟨hcon c hc, hill c hc⟩, hlast.mp hend⟩, hres⟩
  · rintro ⟨hname, hdevice⟩
    rw [checkSegment, if_neg (not_or.mpr hname.named),
      if_neg (by simp [hillegal.mpr fun c hc => (hname.2.1 c hc).2]),
      if_neg (by simp [hcontrol.mpr fun c hc => (hname.2.1 c hc).1]),
      if_neg (by rw [Bool.not_eq_true]; exact hlast.mpr hname.2.2), if_neg]
    simpa [isDevice] using hdevice

lemma forM_ok_iff {α ε : Type} {f : α → Except ε Unit} {xs : List α} :
    xs.forM f = .ok () ↔ ∀ x ∈ xs, f x = .ok () := by
  refine ⟨forM_eq_ok, fun h => ?_⟩
  induction xs with
  | nil => rfl
  | cons x xs ih =>
      rw [List.forM_eq_forM, List.forM_cons, h x List.mem_cons_self]
      exact ih fun y hy => h y (List.mem_cons_of_mem _ hy)

/-- A unit of a path is a slash or lies in one of its segments. -/
lemma exists_segment {c : CodeUnit} (hc : c ∈ p) (hs : isSlash c = false) :
    ∃ seg ∈ segments isSlash p, c ∈ seg := by
  have hsplit : ∀ q : JsString, c ∈ q → ∃ seg ∈ splitOn isSlash q, c ∈ seg := by
    intro q hq
    induction q with
    | nil => cases hq
    | cons x q ih =>
        cases hx : isSlash x with
        | true =>
            have hne : c ≠ x := by
              rintro rfl
              rw [hs] at hx
              cases hx
            obtain ⟨seg, hseg, hmem⟩ := ih ((List.mem_cons.mp hq).resolve_left hne)
            exact ⟨seg, by rw [splitOn, if_pos hx]; exact List.mem_cons_of_mem _ hseg, hmem⟩
        | false =>
            obtain ⟨a, as, ha, hcons⟩ := splitOn_cons_of_not x q hx
            rw [hcons]
            rcases List.mem_cons.mp hq with rfl | hq
            · exact ⟨_, List.mem_cons_self, List.mem_cons_self⟩
            · obtain ⟨seg, hseg, hmem⟩ := ih hq
              rw [ha] at hseg
              rcases List.mem_cons.mp hseg with rfl | hseg
              · exact ⟨_, List.mem_cons_self, List.mem_cons_of_mem _ hmem⟩
              · exact ⟨seg, List.mem_cons_of_mem _ hseg, hmem⟩
  obtain ⟨seg, hseg, hmem⟩ := hsplit p hc
  exact ⟨seg, List.mem_filter.mpr ⟨hseg, by simpa using List.ne_nil_of_mem hmem⟩, hmem⟩

/-- The checks on a form are those for paths of plain names. -/
lemma checkForm_iff : checkForm cm p = .ok () ↔ PlainPath cm p := by
  constructor
  · intro h
    obtain ⟨-, hslash, -, hsegs⟩ := checkForm_eq_ok h
    exact ⟨hslash, fun n hn => (checkSegment_iff (piece_of_segments hn)).mp (hsegs n hn)⟩
  · intro h
    have hunits (c : CodeUnit) (hc : c ∈ p) (hs : isSlash c = false) :
        32 ≤ c ∧ c ∉ ILLEGAL := by
      obtain ⟨seg, hseg, hmem⟩ := exists_segment hc hs
      exact (h.names seg hseg).1.2.1 c hmem
    have hnul : p.contains 0 = false := by
      rw [Bool.eq_false_iff, ne_eq, List.contains_iff_mem]
      exact fun h0 => absurd (hunits 0 h0 rfl).1 (by decide)
    have hdrive : startsWithDrive p = false := by
      unfold startsWithDrive
      split
      · exact absurd (by decide) (hunits 58 (by simp) rfl).2
      · rfl
    rw [checkForm, hnul, if_neg (by simp), h.relative, if_neg (by simp), hdrive,
      if_neg (by simp), forM_ok_iff]
    exact fun n hn => (checkSegment_iff (piece_of_segments hn)).mpr (h.names n hn)

lemma segments_pathOf (h : ∀ n ∈ ns, PlainName n) : segments isSlash (pathOf ns) = ns :=
  segments_join 47 rfl ns fun n hn => (h n hn).piece

lemma plainPath_pathOf (h : ∀ n ∈ ns, PlainName n) :
    PlainPath cm (pathOf ns) ↔ ∀ n ∈ segments isSlash (pathOf ns), isDevice cm n = false := by
  refine ⟨fun hp n hn => (hp.names n hn).2, fun hdevices => ⟨?_, fun n hn => ⟨?_, hdevices n hn⟩⟩⟩
  · cases ns with
    | nil => rfl
    | cons n rest =>
        obtain ⟨c, cs, hc⟩ := List.exists_cons_of_ne_nil (h n List.mem_cons_self).1
        have hslash := (h n List.mem_cons_self).piece.2 c (by rw [hc]; exact List.mem_cons_self)
        cases rest with
        | nil => simpa [pathOf, join, List.intercalate, hc] using hslash
        | cons m rest => simpa [pathOf, join, List.intercalate, hc] using hslash
  · rw [segments_pathOf h] at hn
    exact h n hn

lemma of_mem_forms {form : JsString} (h : form ∈ forms p) :
    form = p ∨ decodeURIComponent p = some form := by
  rw [forms] at h
  split_ifs at h
  · cases hd : decodeURIComponent p with
    | none =>
        rw [hd] at h
        exact .inl (List.mem_singleton.mp h)
    | some q =>
        simp only [hd] at h
        split_ifs at h
        · rcases List.mem_pair.mp h with rfl | rfl
          · exact .inl rfl
          · exact .inr rfl
        · exact .inl (List.mem_singleton.mp h)
  · exact .inl (List.mem_singleton.mp h)

/-- **What the resolver accepts**: of the paths of plain names the openable ones, as
themselves. -/
theorem sanitise_iff (h : ∀ n ∈ ns, PlainName n) :
    (∃ segs, sanitiseRelPath cm (pathOf ns) = .ok segs ∧ pathOf segs = pathOf ns) ↔
      Openable cm (pathOf ns) := by
  constructor
  · rintro ⟨segs, hsegs, -⟩
    obtain ⟨-, hforms⟩ := sanitise_eq_ok hsegs
    exact ⟨(plainPath_pathOf h).mp (checkForm_iff.mp (hforms _ mem_forms_self)),
      fun q hq => checkForm_iff.mp (hforms q (mem_forms_decoded hq))⟩
  · intro ho
    have hself : checkForm cm (pathOf ns) = .ok () :=
      checkForm_iff.mpr ((plainPath_pathOf h).mpr ho.devices)
    have hforms : (forms (pathOf ns)).forM (checkForm cm) = .ok () := by
      refine forM_ok_iff.mpr fun form hform => ?_
      rcases of_mem_forms hform with rfl | hq
      · exact hself
      · exact checkForm_iff.mpr (ho.decoded _ hq)
    have hnul := (checkForm_eq_ok hself).1
    refine ⟨ns, ?_, rfl⟩
    rw [sanitiseRelPath, if_neg (by simpa using hnul), hforms, segments_pathOf h]

end Names

/-! ### What is there is resolved -/

section Resolve

variable {T : WindowsTree} {cm : CaseMap} {v : Volume} {ms ns : List JsString} {n : JsString}
  {d : ℕ} {e : Entry Volume ℕ Stat JsString}

/-- Names that lead down to a directory lead a walk there, past no link. -/
lemma walk_dirAt {s : Spot Volume ℕ JsString} (h : dirAt T s.dir ns = some d) :
    ∃ s', s'.dir = d ∧ s'.volume = s.volume ∧ s'.names = s.names ++ ns ∧
      ∀ k ys, T.walk k s (ns.map .down ++ ys) = T.walk k s' ys := by
  induction ns generalizing s with
  | nil => exact ⟨s, Option.some.inj h, rfl, by simp, fun k ys => rfl⟩
  | cons n ns ih =>
      rw [dirAt] at h
      split at h
      case h_2 => cases h
      case h_1 c d' hl =>
        split_ifs at h with hc
        subst hc
        obtain ⟨s', hdir, hvol, hnames, hwalk⟩ := ih (s := s.push c d') h
        refine ⟨s', hdir, hvol, by simpa using hnames, fun k ys => ?_⟩
        rw [List.map_cons, List.cons_append, FileTree.walk_down, hl]
        exact hwalk k ys

/-- A walk over what lies below a path that is there. -/
lemma locate_below {xs ys : List (PathStep JsString)} {s : Spot Volume ℕ JsString}
    {p : Place Volume ℕ Stat JsString} (h : T.locate v xs = .ok ⟨s, none⟩)
    (hwalk : ∀ k, T.walk k s ys = .ok (k, p)) : T.locate v (xs ++ ys) = .ok p := by
  obtain ⟨v', d, m, hv, hw, -, -⟩ := FileTree.locate_eq_ok h
  rw [FileTree.locate, hv]
  simp only [Except.bind]
  rw [FileTree.walk_append, hw]
  simp only [Except.bind, FileTree.onward, hwalk, Except.map]

/-- The place of an entry below a directory. -/
lemma walk_at {s : Spot Volume ℕ JsString} (h : At T s.dir ns n e) (hreg : Regular T e) :
    ∃ p : Place Volume ℕ Stat JsString, p.volume = s.volume ∧ p.names = s.names ++ (ns ++ [n]) ∧
      (∀ k, T.walk k s ((ns ++ [n]).map .down) = .ok (k, p)) ∧
      ∃ stat : Stat,
        (match p.leaf with | none => T.dirStat p.spot.dir | some (_, st) => st) = stat ∧
          (!stat.isDirectory && !stat.isFile) = false := by
  obtain ⟨d', hd, hl⟩ := h
  obtain ⟨s', rfl, hvol, hnames, hwalk⟩ := walk_dirAt hd
  have hlast (k : ℕ) : T.walk k s ((ns ++ [n]).map .down) = T.walk k s' [.down n] := by
    rw [List.map_append]
    exact hwalk k _
  cases e with
  | dir d =>
      refine ⟨⟨s'.push n d, none⟩, hvol, by simp [hnames], fun k => ?_, _, rfl, ?_⟩
      · rw [hlast, FileTree.walk_down, hl]
        exact FileTree.walk_nil
      · have hdir : (T.dirStat d).isDirectory = true := hreg
        simp [hdir]
  | leaf st =>
      refine ⟨⟨s', some (n, st)⟩, hvol, by simp [hnames], fun k => ?_, _, rfl, ?_⟩
      · rw [hlast, FileTree.walk_down, hl]
        rfl
      · simp [hreg.1]
  | link t => exact hreg.elim

/-- A path whose segments go on from those of the root lies inside. -/
lemma inside_of_leading {root p : JsString} (hne : splitSegments root ≠ [])
    (h : splitSegments root <+: splitSegments p) : Inside cm root p :=
  ⟨hne, _, h, List.forall₂_same.mpr fun _ _ => rfl⟩

lemma segs_ne_nil (v : Volume) : v.segs ≠ [] := by cases v <;> simp [Volume.segs]

/-- **What is there under an accepted path is resolved**, as that path. -/
theorem resolve_there {st : AuthStore} {f : FolderRow} {s : Spot Volume ℕ JsString}
    {folderId path : JsString} (hf : getFolder st folderId = .ok f)
    (havailable : f.available = true)
    (hsplit : splitPath (stripLongPathPrefix f.path) = some (v, ms)) (hms : ∀ m ∈ ms, Named m)
    (hroot : T.find (stripLongPathPrefix f.path) = .ok ⟨s, none⟩) (hat : At T s.dir ns n e)
    (hreg : Regular T e) (hsan : sanitiseRelPath cm path = .ok (ns ++ [n])) :
    ∃ r, resolve T cm st folderId path = .ok r ∧ r.folderId = f.id ∧
      r.relPath = pathOf (ns ++ [n]) := by
  have hclean := sanitise_clean hsan
  have hnamed : ∀ m ∈ ms ++ (ns ++ [n]), Named m := fun m hm =>
    (List.mem_append.mp hm).elim (hms m) fun hm => (hclean m hm).named
  obtain ⟨p, hvol, hnames, hwalk, stat, hstat, hkind⟩ := walk_at hat hreg
  obtain ⟨hjoined, hjoinedStrip⟩ := joined_normal hsplit (by simp) hclean
  rw [normalize_of_named hnamed] at hjoined hjoinedStrip
  have hroot' : T.locate v (ms.map toStep) = .ok ⟨s, none⟩ := by
    rw [WindowsTree.find, hsplit] at hroot
    exact hroot
  have hfind : T.find (joinedPath (stripLongPathPrefix f.path) (ns ++ [n])) = .ok p := by
    rw [WindowsTree.find, hjoined]
    simp only
    rw [List.map_append, map_toStep fun m hm => (hclean m hm).named]
    exact locate_below hroot' hwalk
  have hreal := real_of_find hfind
  have hrealRoot := real_of_find hroot
  -- both checks of containment compare paths of which one goes on from the other
  have hlex : isInsideRoot cm (stripLongPathPrefix f.path)
      (joinedPath (stripLongPathPrefix f.path) (ns ++ [n])) = true := by
    refine isInsideRoot_iff.mpr (inside_of_leading ?_ ?_)
    · rw [(splitPath_eq_some hsplit).2.2]
      simp [segs_ne_nil]
    · rw [(splitPath_eq_some hsplit).2.2, (splitPath_eq_some hjoined).2.2, ← List.append_assoc]
      exact List.prefix_append _ _
  have hin : isInsideRoot cm (render s.volume s.names) (render p.volume p.names) = true := by
    have hsegsRoot := (splitPath_eq_some (splitPath_real hrealRoot)).2.2
    have hsegs := (splitPath_eq_some (splitPath_real hreal)).2.2
    rw [Place.names_dir] at hsegsRoot
    refine isInsideRoot_iff.mpr (inside_of_leading ?_ ?_)
    · refine ne_of_eq_of_ne hsegsRoot ?_
      simp [segs_ne_nil]
    · rw [hsegs, hnames, hvol, ← List.append_assoc]
      exact hsegsRoot ▸ List.prefix_append _ _
  have hpath : resolvePath T cm f path = .ok
      { absPath := withLongPathPrefix (render p.volume p.names)
        realPath := render p.volume p.names, segments := ns ++ [n] } := by
    have hrealpath : T.realpath (stripLongPathPrefix f.path) = .ok (render s.volume s.names) := by
      rw [realpath_of_find hroot]
      simp [Place.volume]
    have hstripRoot : stripLongPathPrefix (render s.volume s.names) = render s.volume s.names := by
      simpa [Place.volume] using strip_real hrealRoot
    rw [resolvePath, hsan]
    simp only [hlex, realpath_withLong, hrealpath, realpathOrDeepest, realpath_of_find hfind,
      strip_real hreal, hstripRoot, hin, Bool.not_true, Bool.false_eq_true, if_false]
  have hresolved : T.stat (withLongPathPrefix (render p.volume p.names)) = .ok stat := by
    rw [WindowsTree.stat, find_withLong, find_real hfind, ← hstat]
    rfl
  refine ⟨_, by
    rw [resolve, hf]
    simp only [havailable, hpath, hresolved, hkind, Bool.not_true, Bool.false_eq_true, if_false]
    rfl, rfl, rfl⟩

end Resolve

/-! ### The walk -/

section Walk

variable {T : WindowsTree} {deps : IndexerDeps} {d d' : ℕ} {ns : List JsString} {n : JsString}
  {e : Entry Volume ℕ Stat JsString} {queue : List QueuedDir} {out : List WalkedEntry}

lemma dirAt_append (xs ys : List JsString) :
    dirAt T d (xs ++ ys) = (dirAt T d xs).bind fun d' => dirAt T d' ys := by
  induction xs generalizing d with
  | nil => rfl
  | cons x xs ih =>
      rw [List.cons_append, dirAt, dirAt]
      split
      · split_ifs
        · exact ih
        · rfl
      · rfl

lemma at_of_dirAt (h : dirAt T d (ns ++ [n]) = some d') : At T d ns n (.dir d') := by
  rw [dirAt_append] at h
  obtain ⟨d₁, hd₁, h⟩ := Option.bind_eq_some_iff.mp h
  rw [dirAt] at h
  split at h
  case h_2 => cases h
  case h_1 c d₂ hl =>
    split_ifs at h with hc
    cases h
    exact ⟨d₁, hd₁, hc ▸ hl⟩

lemma dirAt_of_at (h : At T d ns n (.dir d')) : dirAt T d (ns ++ [n]) = some d' := by
  obtain ⟨d₁, hd₁, hl⟩ := h
  rw [dirAt_append, hd₁]
  simp [dirAt, hl]

/-- What holds of the names of entries holds of the names that lead down to a directory. -/
lemma forall_of_dirAt {P : JsString → Prop} (hP : ∀ ns n e, At T d ns n e → P n)
    (h : dirAt T d ns = some d') : ∀ m ∈ ns, P m := by
  induction ns using List.reverseRecOn generalizing d' with
  | nil => simp
  | append_singleton ns n ih =>
      have hat := at_of_dirAt h
      obtain ⟨d₁, hd₁, -⟩ := hat
      intro m hm
      rcases List.mem_append.mp hm with hm | hm
      · exact ih hd₁ m hm
      · exact List.mem_singleton.mp hm ▸ hP _ _ _ (at_of_dirAt h)

lemma forall_of_at {P : JsString → Prop} (hP : ∀ ns n e, At T d ns n e → P n)
    (h : At T d ns n e) : ∀ m ∈ ns ++ [n], P m := by
  obtain ⟨d₁, hd₁, -⟩ := id h
  intro m hm
  rcases List.mem_append.mp hm with hm | hm
  · exact forall_of_dirAt hP hd₁ m hm
  · exact List.mem_singleton.mp hm ▸ hP _ _ _ h

lemma pathOf_concat (h : ∀ m ∈ ns, m ≠ []) (m : EntryName) :
    relPaths.child (pathOf ns) m = pathOf (ns ++ [m.val]) := by
  have hchild : relPaths.child (pathOf ns) m =
      if pathOf ns = [] then m.val else pathOf ns ++ 47 :: m.val := rfl
  rw [hchild]
  clear hchild
  induction ns with
  | nil => simp [pathOf, join, List.intercalate]
  | cons k ns ih =>
      have hk := h k List.mem_cons_self
      have hne : pathOf (k :: ns) ≠ [] := by
        cases ns <;> simp [pathOf, join, List.intercalate, hk]
      rw [if_neg hne]
      cases ns with
      | nil => simp [pathOf, join, List.intercalate]
      | cons l ns =>
          have hl : pathOf (l :: ns) ≠ [] := by
            have := h l (by simp)
            cases ns <;> simp [pathOf, join, List.intercalate, this]
          have ih := ih fun m hm => h m (List.mem_cons_of_mem _ hm)
          rw [if_neg hl] at ih
          have hstep (xs : List JsString) (x : JsString) :
              pathOf (k :: x :: xs) = k ++ 47 :: pathOf (x :: xs) := by
            simp [pathOf, join, List.intercalate]
          rw [hstep, List.cons_append, List.cons_append, hstep, ← List.cons_append, ← ih]
          simp

/-- A walked entry is the one of a name in a directory. -/
structure FoundAt (ns : List JsString) (n : JsString) (e : Entry Volume ℕ Stat JsString)
    (w : WalkedEntry) : Prop where
  relPath : w.relPath = pathOf (ns ++ [n])
  parentPath : w.parentPath = pathOf ns
  isDir : w.isDir = Entry.isDir e

/-- A queued directory is one that names lead down to, none of them ignored. -/
structure QueuedAt (deps : IndexerDeps) (T : WindowsTree) (d : ℕ) (ns : List JsString)
    (q : QueuedDir) : Prop where
  rel : q.rel = pathOf ns
  depth : q.depth = ns.length
  there : ∃ d', dirAt T d ns = some d'
  kept : ∀ m ∈ ns, shouldSkipEntry deps.cm m = false
  shallow : ns = [] ∨ ns.length < deps.maxDepth.getD 32

/-- The walk has found visible entries only, and those it has yet to find lie below directories
of the queue. -/
structure Walking (deps : IndexerDeps) (T : WindowsTree) (d : ℕ) (queue : List QueuedDir)
    (out : List WalkedEntry) : Prop where
  queued : ∀ q ∈ queue, ∃ ns, QueuedAt deps T d ns q
  found : ∀ w ∈ out, ∃ ns n e, Visible deps T d ns n e ∧ FoundAt ns n e w
  complete : ∀ ns n e, Visible deps T d ns n e →
    (∃ w ∈ out, FoundAt ns n e w) ∨ ∃ q ∈ queue, ∃ ms, ms <+: ns ∧ q.rel = pathOf ms

lemma walking_init : Walking deps T d [⟨relPaths.root, 0⟩] [] where
  queued q hq := by
    rw [List.mem_singleton.mp hq]
    exact ⟨[], rfl, rfl, ⟨d, rfl⟩, by simp, .inl rfl⟩
  found := by simp
  complete ns _ _ _ := .inr ⟨_, List.mem_singleton_self _, [], List.nil_prefix, rfl⟩

/-- What the walk makes of an entry of a directory. -/
lemma walkEntry_at {current : QueuedDir} {x : Dirent × Except Errno Stat}
    (hrel : current.rel = pathOf ns) (hns : ∀ m ∈ ns, m ≠ []) (htype : x.1.type = direntType e)
    (hstat : x.2 = entryStat T e) (hreg : Regular T e)
    (hskip : shouldSkipEntry deps.cm x.1.name.val = false) :
    ∃ w, walkEntry deps.cm current x = some w ∧ FoundAt ns x.1.name.val e w := by
  obtain ⟨⟨name, type⟩, stat⟩ := x
  dsimp only at htype hstat hskip
  subst htype hstat
  have hpath : relPaths.child current.rel name = pathOf (ns ++ [name.val]) := by
    rw [hrel]
    exact pathOf_concat hns name
  cases e with
  | dir d =>
      simp only [walkEntry, hskip, direntType, Bool.false_eq_true, if_false]
      exact ⟨_, rfl, hpath, hrel, rfl⟩
  | leaf st =>
      simp only [walkEntry, hskip, direntType, entryStat, Bool.false_eq_true, if_false]
      exact ⟨_, rfl, hpath, hrel, rfl⟩
  | link t => exact hreg.elim

lemma skip_of_walkEntry {current : QueuedDir} {x : Dirent × Except Errno Stat} {w : WalkedEntry}
    (h : walkEntry deps.cm current x = some w) :
    shouldSkipEntry deps.cm x.1.name.val = false := by
  cases hskip : shouldSkipEntry deps.cm x.1.name.val with
  | false => rfl
  | true => simp [walkEntry, hskip] at h

/-- Reading a directory keeps the walk between what it has found and what is queued. -/
lemma walking_read (hplain : PlainTree T d) {current : QueuedDir} {listing : Listing}
    (h : Walking deps T d (current :: queue) out)
    (hrel : current.rel = pathOf ns) (hdir : dirAt T d ns = some d')
    (hlists : Lists T d' listing) :
    Walking deps T d (deeper deps current (walkDir deps.cm current listing) ++ queue)
      (out ++ walkDir deps.cm current listing) := by
  have hname : ∀ ns n e, At T d ns n e → PlainName n := fun ns n e h => (hplain.2 ns n e h).1
  have hplainNs : ∀ m ∈ ns, PlainName m := forall_of_dirAt hname hdir
  have hne : ∀ m ∈ ns, m ≠ [] := fun m hm => (hplainNs m hm).1
  obtain ⟨ns', hq⟩ := h.queued current List.mem_cons_self
  obtain rfl : ns' = ns := by
    obtain ⟨d₁, hd₁⟩ := hq.there
    rw [← segments_pathOf (forall_of_dirAt hname hd₁), ← hq.rel, hrel, segments_pathOf hplainNs]
  have hwalked (w : WalkedEntry) (hw : w ∈ walkDir deps.cm current listing) :
      ∃ n e, Visible deps T d ns' n e ∧ FoundAt ns' n e w := by
    obtain ⟨x, hx, hxw⟩ := List.mem_filterMap.mp hw
    obtain ⟨e, hl, htype, hstat⟩ := hlists.sound x hx
    have hskip := skip_of_walkEntry hxw
    have hat : At T d ns' x.1.name.val e := ⟨d', hdir, hl⟩
    obtain ⟨w', hw', hfound⟩ :=
      walkEntry_at hrel hne htype hstat (hplain.2 _ _ _ hat).2 hskip
    rw [hxw] at hw'
    cases hw'
    refine ⟨x.1.name.val, e, ⟨hat, fun m hm => ?_, hq.shallow⟩, hfound⟩
    rcases List.mem_append.mp hm with hm | hm
    · exact hq.kept m hm
    · rw [List.mem_singleton.mp hm]
      exact hskip
  have hfound (n : JsString) (e : Entry Volume ℕ Stat JsString) (hat : At T d ns' n e)
      (hskip : shouldSkipEntry deps.cm n = false) :
      ∃ w ∈ walkDir deps.cm current listing, FoundAt ns' n e w := by
    obtain ⟨d₁, hd₁, hl⟩ := id hat
    cases hdir.symm.trans hd₁
    obtain ⟨x, hx, rfl⟩ := hlists.complete n e hl
    obtain ⟨e', hl', htype, hstat⟩ := hlists.sound x hx
    obtain rfl : e' = e := by
      rw [hl] at hl'
      exact (Prod.mk.inj (Except.ok.inj hl')).2.symm
    obtain ⟨w, hw, hat'⟩ := walkEntry_at hrel hne htype hstat (hplain.2 _ _ _ hat).2 hskip
    exact ⟨w, List.mem_filterMap.mpr ⟨x, hx, hw⟩, hat'⟩
  refine ⟨fun q hq' => ?_, fun w hw => ?_, fun ks k e hv => ?_⟩
  · rcases List.mem_append.mp hq' with hq' | hq'
    · rw [deeper] at hq'
      split_ifs at hq' with hdepth
      · rw [List.mem_reverse, List.mem_map] at hq'
        obtain ⟨w, hw, rfl⟩ := hq'
        obtain ⟨hw, hisDir⟩ := List.mem_filter.mp hw
        obtain ⟨n, e, hv, hf⟩ := hwalked w hw
        cases e with
        | dir d₂ =>
            refine ⟨ns' ++ [n], hf.relPath, by simp [hq.depth], ⟨d₂, dirAt_of_at hv.there⟩,
              hv.kept, .inr ?_⟩
            rw [List.length_append, List.length_singleton, ← hq.depth]
            exact hdepth
        | leaf st =>
            rw [hf.isDir] at hisDir
            cases hisDir
        | link t =>
            rw [hf.isDir] at hisDir
            cases hisDir
      · cases hq'
    · exact h.queued q (List.mem_cons_of_mem _ hq')
  · rcases List.mem_append.mp hw with hw | hw
    · exact h.found w hw
    · exact ⟨ns', hwalked w hw⟩
  · rcases h.complete ks k e hv with ⟨w, hw, hf⟩ | ⟨q, hq', ms, hms, hrel'⟩
    · exact .inl ⟨w, List.mem_append_left _ hw, hf⟩
    rcases List.mem_cons.mp hq' with rfl | hq'
    · -- the entry lies in the directory that was read, or below one of its own directories
      obtain ⟨d₁, hd₁, -⟩ := id hv.there
      have hks : ∀ m ∈ ks, PlainName m := forall_of_dirAt hname hd₁
      obtain rfl : ms = ns' := by
        rw [← segments_pathOf fun m hm => hks m (hms.subset hm), ← hrel', hrel,
          segments_pathOf hplainNs]
      obtain ⟨rest, rfl⟩ := hms
      cases rest with
      | nil =>
          rw [List.append_nil] at hv ⊢
          obtain ⟨w, hw, hf⟩ := hfound k e hv.there (hv.kept k (by simp))
          exact .inl ⟨w, List.mem_append_right _ hw, hf⟩
      | cons m rest =>
          have hsplit : ms ++ m :: rest = (ms ++ [m]) ++ rest := by simp
          rw [hsplit, dirAt_append] at hd₁
          obtain ⟨d₂, hd₂, -⟩ := Option.bind_eq_some_iff.mp hd₁
          obtain ⟨w, hw, hf⟩ := hfound m _ (at_of_dirAt hd₂) (hv.kept m (by simp))
          have hdepth : q.depth + 1 < deps.maxDepth.getD 32 := by
            have hlen := hv.shallow.resolve_left (by simp)
            simp only [List.length_append, List.length_cons] at hlen
            rw [hq.depth]
            omega
          refine .inr ⟨⟨w.relPath, q.depth + 1⟩, List.mem_append_left _ ?_, ms ++ [m], ?_,
            hf.relPath⟩
          · rw [deeper, if_pos hdepth, List.mem_reverse, List.mem_map]
            exact ⟨w, List.mem_filter.mpr ⟨hw, hf.isDir⟩, rfl⟩
          · exact ⟨rest, hsplit.symm⟩
    · exact .inr ⟨q, List.mem_append_right _ hq', ms, hms, hrel'⟩

/-- A pass that has not found the folder unavailable, and whose walk is complete so far. -/
structure Advancing (deps : IndexerDeps) (T : WindowsTree) (d : ℕ) (folder : FolderRow)
    (s : IndexState) : Prop where
  folder : s.folder = folder
  walking : ∀ queue out, s.phase = .walking queue out → Walking deps T d queue out

lemma advancing_of_phase {folder : FolderRow} {s : IndexState} (hfolder : s.folder = folder)
    (hphase : ∀ queue out, s.phase ≠ .walking queue out) : Advancing deps T d folder s :=
  ⟨hfolder, fun queue out h => absurd h (hphase queue out)⟩

/-- Every turn of a pass keeps its walk complete so far. -/
lemma walked_step (hplain : PlainTree T d) {folder : FolderRow} {s t : IndexState}
    {a : IndexAction} (h : Advancing deps T d folder s) (hanswer : answersAs T d s a)
    (hstep : indexStep deps s a = some t) : Advancing deps T d folder t := by
  have hcaught (u : IndexState) (code : Errno) (hu : u.folder = folder) :
      Advancing deps T d folder (caught u code) := by
    rw [caught]
    split_ifs
    · exact advancing_of_phase hu (by simp)
    · exact advancing_of_phase hu (by simp)
  cases indexStep_cases hstep with
  | removed => exact ⟨h.folder, h.walking⟩
  | opened hp =>
      refine ⟨h.folder, fun queue out hq => ?_⟩
      cases hq
      exact walking_init
  | notDirectory hp => exact hcaught _ _ h.folder
  | statFailed hp => cases hanswer
  | swallowed hp hcode =>
      obtain ⟨_, _, _, _, _, hok, _⟩ := hanswer _ _ _ hp
      cases hok
  | thrown hp hcode =>
      obtain ⟨_, _, _, _, _, hok, _⟩ := hanswer _ _ _ hp
      cases hok
  | read hp =>
      obtain ⟨ns, d', listing, hrel, hdir, hok, hlists⟩ := hanswer _ _ _ hp
      cases hok
      refine ⟨h.folder, fun queue out hq => ?_⟩
      cases hq
      exact walking_read hplain (h.walking _ _ hp) hrel hdir hlists
  | reconcile hp => exact advancing_of_phase h.folder (by simp)
  | batch hp happly => exact advancing_of_phase h.folder (by simp)
  | violated hp => exact advancing_of_phase h.folder (by simp)
  | finish hp => exact advancing_of_phase h.folder (by simp [finish])

/-- At the end of the walk the found entries are the visible ones. -/
lemma found_iff {folder : FolderRow} {s : IndexState} (h : Advancing deps T d folder s)
    (hphase : s.phase = .walking [] out) :
    (∀ w ∈ out, ∃ ns n e, Visible deps T d ns n e ∧ FoundAt ns n e w) ∧
      ∀ ns n e, Visible deps T d ns n e → ∃ w ∈ out, FoundAt ns n e w := by
  have hwalking := h.walking [] out hphase
  refine ⟨hwalking.found, fun ns n e hv => ?_⟩
  rcases hwalking.complete ns n e hv with hfound | ⟨q, hq, -⟩
  · exact hfound
  · cases hq

end Walk

/-! ### Index and resolver -/

section Index

variable {T : WindowsTree} {deps : IndexerDeps} {d : ℕ} {ns : List JsString} {n : JsString}
  {e : Entry Volume ℕ Stat JsString}

lemma plain_of_at (hplain : PlainTree T d) (h : At T d ns n e) : ∀ m ∈ ns ++ [n], PlainName m :=
  forall_of_at (fun ns n e h => (hplain.2 ns n e h).1) h

/-- The names of a tree are segments of the path they make. -/
lemma segments_of_at (h : At T d ns n e) : segments isSlash (pathOf (ns ++ [n])) = ns ++ [n] := by
  have hname : ∀ ns n e, At T d ns n e → FileName n := by
    rintro ns n e ⟨d', -, hl⟩
    exact T.lookup_ok _ _ _ _ hl
  exact segments_join 47 rfl _ fun m hm => (forall_of_at hname h m hm).piece

lemma resolveById_there {cm : CaseMap} {lib : LibraryState} {folder : FolderRow} {row : FileRow}
    {path : JsString} (hthere : StillThere lib folder path) (hrow : lib.files.get row.id = some row)
    (hfolder : row.folder_id = folder.id) (hpath : row.rel_path = path)
    (hsan : ∃ segs, sanitiseRelPath cm path = .ok segs ∧ pathOf segs = path) :
    ∃ r, resolveById cm lib row.id = .ok r ∧ r.folderId = folder.id ∧ r.relPath = path := by
  obtain ⟨f, v, ms, spot, ns, n, e, hf, hfpath, henabled, havailable, hsplit, hms, hroot, hat, hreg,
    rfl⟩ := hthere
  obtain ⟨segs, hsegs, -⟩ := hsan
  obtain ⟨rfl, -⟩ := sanitise_eq_ok hsegs
  rw [segments_of_at hat] at hsegs
  rw [← hfpath] at hsplit hroot
  have hget : getFolder lib.store folder.id = .ok f := by
    rw [getFolder, hf]
    simp [henabled]
  obtain ⟨r, hr, hrf, hrel⟩ := resolve_there hget havailable hsplit hms hroot hat hreg hsegs
  refine ⟨r, ?_, hrf.trans (Table.key_of_get hf), hrel⟩
  rw [resolveById, hrow]
  simp only
  rw [hfolder, hpath]
  exact hr

lemma normaliseListingPath_pathOf (h : ∀ m ∈ ns, PlainName m) :
    normaliseListingPath (pathOf ns) = pathOf ns := by
  rw [normaliseListingPath, segments_pathOf h, List.filter_eq_self.mpr]
  · rfl
  · intro m hm
    simpa using (h m hm).named.1

/-- The listing of a path of plain names shows the rows whose parent it is. -/
lemma listed_pathOf {sv : Services} {lib : LibraryState} {deviceId folderId : JsString}
    {f : FolderRow} {limit : ℕ} (h : ∀ m ∈ ns, PlainName m)
    (hcan : assertCan lib.store deviceId folderId .list = .ok ())
    (hf : getFolder lib.store folderId = .ok f) (hlimit : lib.files.rows.length ≤ limit) :
    ∃ entries next, answer sv lib deviceId (.entries folderId (pathOf ns) none limit) =
        .entries (folderView lib.store deviceId f) (pathOf ns) entries next ∧
      ∀ row ∈ lib.files.rows, row.folder_id = folderId → row.parent_path = pathOf ns →
        rowToEntry row ∈ entries := by
  refine ⟨_, _, by
    simp only [answer, hcan, hf, normaliseListingPath_pathOf h]
    rfl, fun row hrow hfolder hparent => ?_⟩
  refine List.mem_map_of_mem ?_
  have hmem : row ∈ ((lib.files.rows.filter fun row =>
      row.folder_id = folderId && row.parent_path = pathOf ns).filter
        (afterCursor none)).mergeSort listsBefore := by
    rw [List.mem_mergeSort, List.mem_filter, List.mem_filter]
    exact ⟨⟨hrow, by simp [hfolder, hparent]⟩, rfl⟩
  have hlength := ((List.mergeSort_perm _ listsBefore).length_eq.trans_le
    (List.length_filter_le (afterCursor none) _)).trans (List.length_filter_le
      (fun row : FileRow => row.folder_id = folderId && row.parent_path = pathOf ns) lib.files.rows)
  have hall := List.take_of_length_le (hlength.trans (hlimit.trans limit.le_succ))
  rw [listing, hall, List.take_of_length_le (hlength.trans hlimit)]
  exact hmem

/-- **The index advertises what the resolver serves**: for every walk of a tree of regular files
and directories under names that Windows allows, everything found is accepted as itself, resolved
by its id while it is there, and listed if it is a directory, and nothing is left out beyond the
rules of the indexer, exactly where no visible entry has a path with a device in it, or one that
percent-decodes to something that is no path of plain names. -/
theorem index_served_iff {files : Table FileRow} {shared_folders : Table FolderRow}
    {folderId : JsString} {started : Time} {s₀ s : IndexState} {as : List IndexAction}
    {out : List WalkedEntry} (hplain : PlainTree T d)
    (hstart : runIndex files shared_folders folderId started = some s₀)
    (hrun : Run (Guarded (answersAs T d) (indexStep deps)) s₀ as s)
    (hphase : s.phase = .walking [] out) :
    ServesIndex deps T d s₀.folder out ↔
      ∀ ns n e, Visible deps T d ns n e → Openable deps.cm (pathOf (ns ++ [n])) := by
  have hinit : Advancing deps T d s₀.folder s₀ := by
    obtain ⟨folder, -, rfl⟩ := Option.map_eq_some_iff.mp hstart
    exact advancing_of_phase rfl (by simp)
  have hadvancing := hrun.invariant (I := Advancing deps T d s₀.folder)
    (fun _ _ _ h hstep => walked_step hplain h hstep.1 hstep.2) hinit
  obtain ⟨hfound, hcomplete⟩ := found_iff hadvancing hphase
  constructor
  · intro hserves ns n e hv
    obtain ⟨w, hw, hf⟩ := hcomplete ns n e hv
    have haccepted := hserves.accepted w hw
    rw [hf.relPath] at haccepted
    exact (sanitise_iff (plain_of_at hplain hv.there)).mp haccepted
  · intro hopen
    have haccepted (w : WalkedEntry) (hw : w ∈ out) :
        ∃ segs, sanitiseRelPath deps.cm w.relPath = .ok segs ∧ pathOf segs = w.relPath := by
      obtain ⟨ns, n, e, hv, hf⟩ := hfound w hw
      rw [hf.relPath]
      exact (sanitise_iff (plain_of_at hplain hv.there)).mpr (hopen ns n e hv)
    refine ⟨haccepted, fun w hw lib row hthere hrow hfolder hpath => ?_,
      fun w hw _ sv lib deviceId f limit hcan hf hlimit => ?_, fun ns n e hv => ?_⟩
    · have hid : row.id = deps.fileIdFor s₀.folder.id w.relPath := Table.key_of_get hrow
      obtain ⟨r, hr, hrf, hrel⟩ :=
        resolveById_there hthere (hid ▸ hrow) hfolder hpath (haccepted w hw)
      exact ⟨r, hr, hrf, hrel, by rw [hrf, hrel, hid]⟩
    · obtain ⟨ns, n, e, hv, hfw⟩ := hfound w hw
      rw [hfw.relPath]
      exact listed_pathOf (plain_of_at hplain hv.there) hcan hf hlimit
    · obtain ⟨w, hw, hf⟩ := hcomplete ns n e hv
      exact ⟨w, hw, hf.relPath, hf.parentPath, hf.isDir⟩

end Index

/-! ### A folder with one file -/

/-- The folder `C:\m` with one file in it. -/
def oneFile (name : JsString) (h : FileName name) : WindowsTree :=
  .ofEntries [(0, js "m", .dir 1), (1, name, plainFile)] (by
    intro r hr
    rcases List.mem_pair.mp hr with rfl | rfl
    · decide
    · exact h)

/-- What `readdir` lists of it. -/
def oneListing (name : EntryName) : Listing where
  entries := [(⟨name, .file⟩, .ok ⟨false, true, 3, 0⟩)]
  distinct := List.nodup_singleton _

/-- Ids that are the folder and the path. -/
def plainDeps : IndexerDeps :=
  ⟨asciiCase, fun folderId relPath => folderId ++ 0 :: relPath, none, none⟩

section OneFile

variable {name : EntryName} (h : FileName name.val)

lemma lookup_oneFile {d : ℕ} {n c : JsString} {e : Entry Volume ℕ Stat JsString}
    (hl : (oneFile name.val h).lookup d n = .ok (c, e)) :
    (d = 0 ∧ c = js "m" ∧ e = .dir 1) ∨ (d = 1 ∧ c = name.val ∧ e = plainFile) := by
  simp only [oneFile, WindowsTree.ofEntries] at hl
  split at hl
  case h_2 => cases hl
  case h_1 r hr =>
    have hmem := List.mem_of_find?_eq_some hr
    have hd := List.find?_some hr
    simp only [Bool.and_eq_true, decide_eq_true_eq] at hd
    have hce : r.2 = (c, e) := Except.ok.inj hl
    rcases List.mem_pair.mp hmem with rfl | rfl
    · cases hce
      exact .inl ⟨hd.1.symm, rfl, rfl⟩
    · cases hce
      exact .inr ⟨hd.1.symm, rfl, rfl⟩

lemma lookup_oneFile_self : (oneFile name.val h).lookup 1 name.val = .ok (name.val, plainFile) := by
  simp [oneFile, WindowsTree.ofEntries]

lemma at_oneFile {ns : List JsString} {n : JsString} {e : Entry Volume ℕ Stat JsString}
    (hat : At (oneFile name.val h) 1 ns n e) : ns = [] ∧ n = name.val ∧ e = plainFile := by
  obtain ⟨d, hd, hl⟩ := hat
  cases ns with
  | nil =>
      cases hd
      rcases lookup_oneFile h hl with ⟨hd, -⟩ | ⟨-, hn, he⟩
      · cases hd
      · exact ⟨rfl, hn, he⟩
  | cons m ns =>
      rw [dirAt] at hd
      split at hd
      case h_2 => cases hd
      case h_1 c d' hl' =>
        rcases lookup_oneFile h hl' with ⟨hd, -⟩ | ⟨-, -, he⟩
        · cases hd
        · cases he

lemma plainTree_oneFile (hname : PlainName name.val) : PlainTree (oneFile name.val h) 1 := by
  refine ⟨rfl, fun ns n e hat => ?_⟩
  obtain ⟨rfl, rfl, rfl⟩ := at_oneFile h hat
  exact ⟨hname, rfl, rfl⟩

lemma lists_oneFile : Lists (oneFile name.val h) 1 (oneListing name) where
  sound x hx := by
    cases List.mem_singleton.mp hx
    exact ⟨plainFile, lookup_oneFile_self h, rfl, rfl⟩
  complete n e hl := by
    rcases lookup_oneFile h hl with ⟨hd, -⟩ | ⟨-, rfl, -⟩
    · cases hd
    · exact ⟨_, List.mem_singleton_self _, rfl⟩

/-- The pass over the folder before its first turn. -/
def oneStart : IndexState where
  files := .empty
  shared_folders := plainStore.shared_folders
  folder := ⟨js "f", js "C:\\m", js "M", true, true, true, true, none, none, none, 0⟩
  started := 0
  phase := .opening
  published := []
  unread := []

lemma runIndex_one :
    runIndex .empty plainStore.shared_folders (js "f") 0 = some oneStart := by rfl

end OneFile

/-- The walk of the folder finds the file. -/
lemma run_oneFile (name : EntryName) (h : FileName name.val)
    (hskip : shouldSkipEntry asciiCase name.val = false) :
    ∃ s, Run (Guarded (answersAs (oneFile name.val h) 1) (indexStep plainDeps)) oneStart
        [.stat (.ok ⟨true, false, 0, 0⟩), .readdir (.ok (oneListing name))] s ∧
      s.phase = .walking [] [⟨name.val, [], name.val, false, some 3, some 0⟩] := by
  have hwalk : walkDir asciiCase ⟨relPaths.root, 0⟩ (oneListing name) =
      [⟨name.val, [], name.val, false, some 3, some 0⟩] := by
    simp [walkDir, walkEntry, oneListing, hskip, relPaths, separated, joinPath]
  refine ⟨_, .cons ⟨rfl, rfl⟩ (.single ⟨fun current queue out hp => ?_, rfl⟩), ?_⟩
  · cases hp
    exact ⟨[], 1, _, rfl, rfl, rfl, lists_oneFile h⟩
  · change Phase.walking (deeper plainDeps ⟨relPaths.root, 0⟩
        (walkDir asciiCase ⟨relPaths.root, 0⟩ (oneListing name)) ++ [])
      ([] ++ walkDir asciiCase ⟨relPaths.root, 0⟩ (oneListing name)) = _
    rw [hwalk]
    rfl

/-- A name that percent-decodes to a plain name. -/
def discountName : EntryName := ⟨js "50%25 off.txt", by decide⟩

theorem index_served_discount : ∃ s out,
    Run (Guarded (answersAs (oneFile discountName.val (by decide)) 1) (indexStep plainDeps))
      oneStart [.stat (.ok ⟨true, false, 0, 0⟩), .readdir (.ok (oneListing discountName))] s ∧
    s.phase = .walking [] out ∧ out ≠ [] ∧
    ServesIndex plainDeps (oneFile discountName.val (by decide)) 1 oneStart.folder out := by
  obtain ⟨s, hrun, hphase⟩ := run_oneFile discountName (by decide) (by decide)
  refine ⟨s, _, hrun, hphase, by simp, (index_served_iff (plainTree_oneFile _ (by decide))
    runIndex_one hrun hphase).mpr fun ns n e hv => ?_⟩
  obtain ⟨rfl, rfl, rfl⟩ := at_oneFile _ hv.there
  refine ⟨by decide, fun q hq => ?_⟩
  have hdecoded : decodeURIComponent (pathOf ([] ++ [discountName.val])) =
      some (js "50% off.txt") := by decide
  cases hdecoded.symm.trans hq
  exact ⟨by decide, by decide⟩

/-- A name with an escaped question mark, as a browser saves it. -/
def escapedName : EntryName := ⟨js "What%3F.mp4", by decide⟩

/-- **A file that is listed and never opened**: its name is one that Windows allows, the walk
finds it, and the resolver refuses its path. -/
theorem escaped_name_refused :
    PlainName escapedName.val ∧ isDevice asciiCase escapedName.val = false ∧
    PlainTree (oneFile escapedName.val (by decide)) 1 ∧ ∃ s out,
      Run (Guarded (answersAs (oneFile escapedName.val (by decide)) 1) (indexStep plainDeps))
        oneStart [.stat (.ok ⟨true, false, 0, 0⟩), .readdir (.ok (oneListing escapedName))] s ∧
      s.phase = .walking [] out ∧ (∃ w ∈ out, w.relPath = escapedName.val) ∧
      resolve (oneFile escapedName.val (by decide)) asciiCase plainStore (js "f") escapedName.val =
        .error (.api (escapes "Path contains an illegal character")) ∧
      ¬ ServesIndex plainDeps (oneFile escapedName.val (by decide)) 1 oneStart.folder out := by
  obtain ⟨s, hrun, hphase⟩ := run_oneFile escapedName (by decide) (by decide)
  refine ⟨by decide, by decide, plainTree_oneFile _ (by decide), s, _, hrun, hphase,
    ⟨_, List.mem_singleton_self _, rfl⟩, by decide, fun hserves => ?_⟩
  obtain ⟨segs, hsegs, -⟩ := hserves.accepted _ (List.mem_singleton_self _)
  have hrefused : sanitiseRelPath plainDeps.cm escapedName.val =
      .error (escapes "Path contains an illegal character") := by decide
  cases hrefused.symm.trans hsegs

end LocalCast.Http
