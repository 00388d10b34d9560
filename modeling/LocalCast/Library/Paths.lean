import LocalCast.Foundations.FileTree
import LocalCast.Foundations.JsString

/-!
Windows paths as the resolver sees them (`library/resolver.ts`) and as the operating system
does: the server runs on Windows.

* `splitPath`, `render`: a path as a volume and the names below it, and back.
* `WindowsTree`, `realpath`, `stat`: a file tree with the names Windows allows, and the calls
  the resolver makes on it.
* `splitPath_render`, `splitSegments_render`: reading back what was written.
* `realpath_idem`: a real path is its own real path, with or without the long-path prefix.
-/

namespace LocalCast.Library

open JsString

/-! ### Strings -/

def IS_WINDOWS : Bool := true

def LONG_PATH_PREFIX : JsString := js "\\\\?\\"

/-- Either slash separates. -/
def isSlash (c : CodeUnit) : Bool := c = 47 || c = 92

def isLetter (c : CodeUnit) : Bool := (65 ≤ c && c ≤ 90) || (97 ≤ c && c ≤ 122)

/-- `/^[a-zA-Z]:/`. -/
def startsWithDrive : JsString → Bool
  | c :: 58 :: _ => isLetter c
  | _ => false

/-- `stripLongPathPrefix`. -/
def stripLongPathPrefix (p : JsString) : JsString :=
  if (js "\\\\?\\UNC\\").isPrefixOf p then js "\\\\" ++ p.drop 8
  else if LONG_PATH_PREFIX.isPrefixOf p then p.drop 4
  else p

/-- `/^[a-zA-Z]:\\/`. -/
def startsAbsolute : JsString → Bool
  | c :: 58 :: 92 :: _ => isLetter c
  | _ => false

/-- `withLongPathPrefix`. -/
def withLongPathPrefix (p : JsString) : JsString :=
  if !IS_WINDOWS then p
  else if LONG_PATH_PREFIX.isPrefixOf p then p
  else if (js "\\\\").isPrefixOf p then LONG_PATH_PREFIX ++ js "UNC\\" ++ p.drop 2
  else if startsAbsolute p then LONG_PATH_PREFIX ++ p
  else p

/-- `splitSegments`. -/
def splitSegments (p : JsString) : List JsString := segments isSlash (stripLongPathPrefix p)

/-! ### Volumes and names -/

/-- Letters that no Windows name holds. -/
def ILLEGAL : JsString := js "\\/:*?\"<>|"

/-- A name Windows allows for a file. -/
def FileName (n : JsString) : Prop :=
  n ≠ [] ∧ n ≠ js "." ∧ n ≠ js ".." ∧ ∀ c ∈ n, c ∉ ILLEGAL

instance (n : JsString) : Decidable (FileName n) :=
  decidable_of_iff (n ≠ [] ∧ n ≠ js "." ∧ n ≠ js ".." ∧ (n.all fun c => !ILLEGAL.contains c) = true)
    (by simp [FileName])

/-- A drive, or a share on a server. -/
inductive Volume where
  | drive (letter : CodeUnit)
  | unc (server share : JsString)
deriving DecidableEq

def VolumeName : Volume → Prop
  | .drive letter => isLetter letter = true
  | .unc server share => FileName server ∧ FileName share

instance : (v : Volume) → Decidable (VolumeName v)
  | .drive letter => inferInstanceAs (Decidable (isLetter letter = true))
  | .unc server share => inferInstanceAs (Decidable (FileName server ∧ FileName share))

/-- The leading segments of a path on the volume. -/
def Volume.segs : Volume → List JsString
  | .drive letter => [[letter, 58]]
  | .unc server share => [server, share]

/-- The path of names below a volume. -/
def render : Volume → List JsString → JsString
  | .drive letter, ns => letter :: 58 :: 92 :: join [92] ns
  | .unc server share, ns => 92 :: 92 :: (server ++ 92 :: (share ++ 92 :: join [92] ns))

/-- The volume of an absolute path and the names below it. -/
def splitPath (p : JsString) : Option (Volume × List JsString) :=
  match stripLongPathPrefix p with
  | 92 :: 92 :: q => match segments isSlash q with
      | server :: share :: ns =>
          if VolumeName (.unc server share) then some (.unc server share, ns) else none
      | _ => none
  | letter :: 58 :: sep :: q =>
      if isSlash sep ∧ VolumeName (.drive letter) then some (.drive letter, segments isSlash q)
      else none
  | _ => none

/-- `.` and `..` out of a path, lexically. -/
def normalize (ps : List JsString) : List JsString :=
  ps.foldl (fun acc c => if c = js "." then acc else if c = js ".." then acc.dropLast
    else acc ++ [c]) []

/-- An absolute path with segments appended, normalised. -/
def appendSegments (p : JsString) (segs : List JsString) : JsString :=
  match splitPath p with
  | some (v, ns) => render v (normalize (ns ++ segs))
  | none => p

/-- `path.resolve` on an absolute path and segments below it. -/
def pathResolve (root : JsString) (segs : List JsString) : JsString := appendSegments root segs

/-- `path.join` on an absolute path and segments below it. -/
def pathJoin (p : JsString) (segs : List JsString) : JsString := appendSegments p segs

/-! ### The file system -/

/-- What `stat` answers. -/
structure Stat where
  isDirectory : Bool
  isFile : Bool
  size : ℕ
  mtimeMs : ℕ
deriving DecidableEq

/-- A file tree whose names are names Windows allows. Directories are numbered. -/
structure WindowsTree extends FileTree Volume ℕ Stat JsString where
  dirStat : ℕ → Stat
  volume_ok : ∀ v v' d, volume v = .ok (v', d) → VolumeName v'
  lookup_ok : ∀ d n c e, lookup d n = .ok (c, e) → FileName c

def toStep (n : JsString) : PathStep JsString :=
  if n = js "." then .here else if n = js ".." then .up else .down n

namespace WindowsTree

variable (T : WindowsTree)

/-- What an absolute path leads to. -/
def find (p : JsString) : Except Errno (Place Volume ℕ Stat JsString) :=
  match splitPath p with
  | none => .error .ENOENT
  | some (v, ns) => T.locate v (ns.map toStep)

/-- `realpath.native`. -/
def realpath (p : JsString) : Except Errno JsString :=
  (T.find p).map fun place => render place.volume place.names

/-- `fs.stat`. -/
def stat (p : JsString) : Except Errno Stat :=
  (T.find p).map fun place => match place.leaf with
    | none => T.dirStat place.spot.dir
    | some (_, st) => st

end WindowsTree

/-- A tree on the drive `C:` from the list of its entries, directory by directory; names are
looked up in any ASCII case. -/
def WindowsTree.ofEntries (entries : List (ℕ × JsString × Entry Volume ℕ Stat JsString))
    (h : ∀ r ∈ entries, FileName r.2.1) : WindowsTree where
  volume v := if v = .drive 67 then .ok (.drive 67, 0) else .error .ENOENT
  lookup d n := match entries.find? fun r => r.1 = d && lower r.2.1 = lower n with
    | some r => .ok r.2
    | none => .error .ENOENT
  notDir := .ENOENT
  maxLinks := 63
  dirStat _ := ⟨true, false, 0, 0⟩
  volume_self v v' d hv := by
    split_ifs at hv
    obtain ⟨rfl, rfl⟩ := Prod.mk.inj (Except.ok.inj hv)
    rfl
  lookup_self d n c e hl := by
    split at hl
    case h_2 => cases hl
    case h_1 r hr =>
      obtain ⟨d', n', e'⟩ := r
      obtain ⟨rfl, rfl⟩ := Prod.mk.inj (Except.ok.inj hl)
      have hcase := List.find?_some hr
      simp only [Bool.and_eq_true, decide_eq_true_eq] at hcase
      simp only [hcase.2, hr]
  volume_ok v v' d hv := by
    split_ifs at hv
    obtain ⟨rfl, rfl⟩ := Prod.mk.inj (Except.ok.inj hv)
    exact rfl
  lookup_ok d n c e hl := by
    split at hl
    case h_2 => cases hl
    case h_1 r hr =>
      obtain ⟨d', n', e'⟩ := r
      obtain ⟨rfl, rfl⟩ := Prod.mk.inj (Except.ok.inj hl)
      exact h _ (List.mem_of_find?_eq_some hr)

/-! ### Reading back -/

/-- A piece between slashes. -/
def Piece (n : JsString) : Prop := n ≠ [] ∧ ∀ c ∈ n, isSlash c = false

lemma piece_of_segments {q n : JsString} (h : n ∈ segments isSlash q) : Piece n :=
  ⟨(of_mem_segments h).1, fun c hc => ((of_mem_segments h).2 c hc).1⟩

lemma FileName.piece {n : JsString} (h : FileName n) : Piece n := by
  refine ⟨h.1, fun c hc => ?_⟩
  have hill := h.2.2.2 c hc
  by_contra hs
  rw [Bool.not_eq_false, isSlash, Bool.or_eq_true, decide_eq_true_eq, decide_eq_true_eq] at hs
  rcases hs with rfl | rfl <;> exact hill (by decide)

lemma FileName.toStep {n : JsString} (h : FileName n) : toStep n = .down n := by
  rw [Library.toStep, if_neg h.2.1, if_neg h.2.2.1]

lemma segments_append_slash {n : JsString} (hn : Piece n) (s : JsString) :
    segments isSlash (n ++ 92 :: s) = n :: segments isSlash s := by
  rw [segments, splitOn_append_sep n hn.2 92 rfl, List.filter_cons_of_pos (by simp [hn.1])]
  rfl

/-- A letter that starts a drive is no slash and no question mark. -/
lemma of_isLetter {c : CodeUnit} (h : isLetter c = true) : c ≠ 92 ∧ c ≠ 47 := by
  constructor <;> rintro rfl <;> cases h

lemma strip_drive (letter : CodeUnit) (h : isLetter letter = true) (q : JsString) :
    stripLongPathPrefix (letter :: 58 :: q) = letter :: 58 :: q := by
  have hl := (of_isLetter h).1
  rw [stripLongPathPrefix, if_neg, if_neg]
  · intro hp
    rw [List.isPrefixOf_iff_prefix] at hp
    exact hl (List.cons_prefix_cons.mp hp).1.symm
  · intro hp
    rw [List.isPrefixOf_iff_prefix] at hp
    exact hl (List.cons_prefix_cons.mp hp).1.symm

lemma strip_unc {server : JsString} (h : FileName server) (q : JsString) :
    stripLongPathPrefix (92 :: 92 :: (server ++ q)) = 92 :: 92 :: (server ++ q) := by
  obtain ⟨c, cs, rfl⟩ := List.exists_cons_of_ne_nil h.1
  have hc : c ≠ 63 := by
    rintro rfl
    exact h.2.2.2 63 List.mem_cons_self (by decide)
  rw [stripLongPathPrefix, if_neg, if_neg]
  · intro hp
    rw [List.isPrefixOf_iff_prefix] at hp
    have h3 := (List.cons_prefix_cons.mp hp).2
    have h2 := (List.cons_prefix_cons.mp h3).2
    exact hc (List.cons_prefix_cons.mp h2).1.symm
  · intro hp
    rw [List.isPrefixOf_iff_prefix] at hp
    have h3 := (List.cons_prefix_cons.mp hp).2
    have h2 := (List.cons_prefix_cons.mp h3).2
    exact hc (List.cons_prefix_cons.mp h2).1.symm

lemma strip_render {v : Volume} (hv : VolumeName v) (ns : List JsString) :
    stripLongPathPrefix (render v ns) = render v ns := by
  cases v with
  | drive letter => exact strip_drive letter hv _
  | unc server share => exact strip_unc hv.1 _

lemma startsAbsolute_eq {p : JsString} (h : startsAbsolute p = true) :
    ∃ c q, p = c :: 58 :: 92 :: q ∧ isLetter c = true := by
  unfold startsAbsolute at h
  split at h
  · exact ⟨_, _, rfl, h⟩
  · cases h

/-- The long-path prefix is what `stripLongPathPrefix` strips. -/
lemma strip_withLong (p : JsString) :
    stripLongPathPrefix (withLongPathPrefix p) = stripLongPathPrefix p := by
  rw [withLongPathPrefix, if_neg (by decide)]
  split_ifs with hlong hunc habs
  · rfl
  · rw [List.isPrefixOf_iff_prefix] at hunc
    obtain ⟨q, rfl⟩ := hunc
    have hplain : stripLongPathPrefix (js "\\\\" ++ q) = js "\\\\" ++ q := by
      rw [stripLongPathPrefix, if_neg, if_neg hlong]
      intro hp
      rw [List.isPrefixOf_iff_prefix] at hp hlong
      exact hlong (List.IsPrefix.trans ⟨js "UNC\\", rfl⟩ hp)
    rw [hplain]
    rfl
  · obtain ⟨c, q, rfl, hc⟩ := startsAbsolute_eq habs
    rw [strip_drive c hc, stripLongPathPrefix, if_neg, if_pos]
    · rfl
    · rw [List.isPrefixOf_iff_prefix]
      exact ⟨_, rfl⟩
    · intro hp
      rw [List.isPrefixOf_iff_prefix] at hp
      have hrest : js "UNC\\" <+: c :: 58 :: 92 :: q :=
        (List.prefix_append_right_inj LONG_PATH_PREFIX).mp hp
      have hcolon := (List.cons_prefix_cons.mp (List.cons_prefix_cons.mp hrest).2).1
      exact absurd hcolon (by decide)
  · rfl

lemma splitPath_withLong (p : JsString) : splitPath (withLongPathPrefix p) = splitPath p := by
  rw [splitPath, strip_withLong, splitPath]

lemma splitSegments_withLong (p : JsString) :
    splitSegments (withLongPathPrefix p) = splitSegments p := by
  rw [splitSegments, strip_withLong, splitSegments]

/-- What a path splits into: a volume and pieces, which are also its segments. -/
lemma splitPath_eq_some {p : JsString} {v : Volume} {ns : List JsString}
    (h : splitPath p = some (v, ns)) :
    VolumeName v ∧ (∀ n ∈ ns, Piece n) ∧ splitSegments p = v.segs ++ ns := by
  rw [splitPath] at h
  rw [splitSegments]
  split at h
  case h_1 q hq =>
    split at h
    case h_2 => cases h
    case h_1 server share ns' hsegs =>
      split_ifs at h with hv
      obtain ⟨rfl, rfl⟩ := Prod.mk.inj (Option.some.inj h)
      refine ⟨hv, fun n hn => ?_, ?_⟩
      · refine piece_of_segments (q := q) ?_
        rw [hsegs]
        exact List.mem_cons_of_mem _ (List.mem_cons_of_mem _ hn)
      · rw [hq, segments_cons_sep _ _ rfl, segments_cons_sep _ _ rfl, hsegs]
        rfl
  case h_2 letter sep q hq =>
    split_ifs at h with hv
    obtain ⟨rfl, rfl⟩ := Prod.mk.inj (Option.some.inj h)
    refine ⟨hv.2, fun n hn => piece_of_segments hn, ?_⟩
    have hletter := of_isLetter hv.2
    have hpiece : Piece [letter, 58] := by
      refine ⟨by simp, fun c hc => ?_⟩
      rcases List.mem_pair.mp hc with rfl | rfl
      · simp [isSlash, hletter.1, hletter.2]
      · rfl
    have hsep : splitOn isSlash ([letter, 58] ++ sep :: q)
        = [letter, 58] :: splitOn isSlash q :=
      splitOn_append_sep [letter, 58] hpiece.2 sep hv.1 q
    rw [hq, segments]
    exact (congrArg _ hsep).trans rfl
  case h_3 => cases h

lemma splitPath_drive {letter : CodeUnit} (h : isLetter letter = true) (q : JsString) :
    splitPath (letter :: 58 :: 92 :: q) = some (.drive letter, segments isSlash q) := by
  rw [splitPath, strip_drive letter h]
  split
  case h_1 heq => exact absurd (List.cons.inj heq).1 (of_isLetter h).1
  case h_2 heq =>
    obtain ⟨rfl, htail⟩ := List.cons.inj heq
    obtain ⟨rfl, rfl⟩ := List.cons.inj (List.cons.inj htail).2
    rw [if_pos ⟨rfl, h⟩]
  case h_3 hne => exact absurd rfl (hne letter 92 q)

lemma splitPath_unc {server share : JsString} (h : VolumeName (.unc server share))
    {ns : List JsString} {q : JsString} (hq : segments isSlash (server ++ q) = server :: share :: ns) :
    splitPath (92 :: 92 :: (server ++ q)) = some (.unc server share, ns) := by
  rw [splitPath, strip_unc h.1]
  simp only [hq]
  rw [if_pos h]

/-- A path that was written is read back. -/
lemma splitPath_render {v : Volume} (hv : VolumeName v) {ns : List JsString}
    (hns : ∀ n ∈ ns, Piece n) : splitPath (render v ns) = some (v, ns) := by
  have hjoin : segments isSlash (join [92] ns) = ns := segments_join 92 rfl ns hns
  cases v with
  | drive letter =>
      rw [render, splitPath_drive hv, hjoin]
  | unc server share =>
      refine splitPath_unc hv ?_
      rw [segments_append_slash hv.1.piece, segments_append_slash hv.2.piece, hjoin]

lemma splitSegments_render {v : Volume} (hv : VolumeName v) {ns : List JsString}
    (hns : ∀ n ∈ ns, Piece n) : splitSegments (render v ns) = v.segs ++ ns :=
  (splitPath_eq_some (splitPath_render hv hns)).2.2

/-! ### Normalising -/

/-- Neither `.` nor `..`. -/
def Named (n : JsString) : Prop := n ≠ js "." ∧ n ≠ js ".."

lemma normalize_of_named {ps : List JsString} (h : ∀ n ∈ ps, Named n) : normalize ps = ps := by
  have hfold (qs acc : List JsString) (hqs : ∀ n ∈ qs, Named n) :
      qs.foldl (fun acc c => if c = js "." then acc else if c = js ".." then acc.dropLast
        else acc ++ [c]) acc = acc ++ qs := by
    induction qs generalizing acc with
    | nil => simp
    | cons q qs ih =>
        have hq := hqs q List.mem_cons_self
        rw [List.foldl_cons, if_neg hq.1, if_neg hq.2,
          ih _ fun n hn => hqs n (List.mem_cons_of_mem _ hn), List.append_assoc]
        rfl
  exact hfold ps [] h

lemma of_mem_normalize {ps : List JsString} {n : JsString} (hn : n ∈ normalize ps) :
    n ∈ ps ∧ Named n := by
  have hfold (qs acc : List JsString) (hacc : ∀ m ∈ acc, m ∈ ps ∧ Named m)
      (hqs : ∀ m ∈ qs, m ∈ ps) (hmem : n ∈ qs.foldl (fun acc c => if c = js "." then acc
        else if c = js ".." then acc.dropLast else acc ++ [c]) acc) : n ∈ ps ∧ Named n := by
    induction qs generalizing acc with
    | nil => exact hacc n hmem
    | cons q qs ih =>
        rw [List.foldl_cons] at hmem
        refine ih _ ?_ (fun m hm => hqs m (List.mem_cons_of_mem _ hm)) hmem
        split_ifs with hdot hup
        · exact hacc
        · exact fun m hm => hacc m (List.dropLast_subset _ hm)
        · intro m hm
          rcases List.mem_append.mp hm with hm | hm
          · exact hacc m hm
          · obtain rfl := List.mem_singleton.mp hm
            exact ⟨hqs m List.mem_cons_self, hdot, hup⟩
  exact hfold ps [] (by simp) (fun _ hm => hm) hn

lemma appendSegments_of_splitPath {p : JsString} {v : Volume} {ns segs : List JsString}
    (h : splitPath p = some (v, ns)) :
    appendSegments p segs = render v (normalize (ns ++ segs)) := by
  rw [appendSegments, h]

/-! ### Real paths -/

lemma map_toStep {ns : List JsString} (h : ∀ n ∈ ns, Named n) :
    ns.map toStep = ns.map .down :=
  List.map_congr_left fun n hn => by rw [toStep, if_neg (h n hn).1, if_neg (h n hn).2]

section Real

variable {T : WindowsTree} {place : Place Volume ℕ Stat JsString}

lemma chain_names {root : ℕ} {down : List (JsString × ℕ)} (h : T.Chain root down) :
    ∀ n ∈ down.map Prod.fst, FileName n := by
  induction down with
  | nil => simp
  | cons q down ih =>
      intro n hn
      rcases List.mem_cons.mp hn with rfl | hn
      · exact T.lookup_ok _ _ _ _ h.1
      · exact ih h.2 n hn

lemma volume_of_real (h : T.RealPlace place) : VolumeName place.volume :=
  T.volume_ok _ _ _ h.spot.volume

lemma names_of_real (h : T.RealPlace place) : ∀ n ∈ place.names, FileName n := by
  intro n hn
  rcases List.mem_append.mp hn with hn | hn
  · exact chain_names h.spot.chain n (List.mem_reverse.mp hn)
  · cases hleaf : place.leaf with
    | none => simp [hleaf] at hn
    | some r =>
        obtain ⟨c, k⟩ := r
        simp only [hleaf, Option.map_some, Option.toList_some, List.mem_singleton] at hn
        exact hn ▸ T.lookup_ok _ _ _ _ (h.leaf c k hleaf)

lemma splitPath_real (h : T.RealPlace place) :
    splitPath (render place.volume place.names) = some (place.volume, place.names) :=
  splitPath_render (volume_of_real h) fun n hn => (names_of_real h n hn).piece

lemma strip_real (h : T.RealPlace place) :
    stripLongPathPrefix (render place.volume place.names) = render place.volume place.names :=
  strip_render (volume_of_real h) _

lemma find_withLong (p : JsString) : T.find (withLongPathPrefix p) = T.find p := by
  rw [WindowsTree.find, splitPath_withLong, WindowsTree.find]

lemma real_of_find {p : JsString} (h : T.find p = .ok place) : T.RealPlace place := by
  rw [WindowsTree.find] at h
  split at h
  · cases h
  · obtain ⟨-, -, -, -, -, -, hreal⟩ := FileTree.locate_eq_ok h
    exact hreal

/-- The real path of a place leads to it. -/
lemma find_real {p : JsString} (h : T.find p = .ok place) :
    T.find (render place.volume place.names) = .ok place := by
  have hreal := real_of_find h
  have hnamed : ∀ n ∈ place.names, Named n := fun n hn =>
    ⟨(names_of_real hreal n hn).2.1, (names_of_real hreal n hn).2.2.1⟩
  rw [WindowsTree.find, splitPath_real hreal]
  simp only
  rw [map_toStep hnamed]
  rw [WindowsTree.find] at h
  split at h
  · cases h
  · exact FileTree.locate_names h

lemma realpath_eq_ok {p real : JsString} (h : T.realpath p = .ok real) :
    ∃ place, T.find p = .ok place ∧ real = render place.volume place.names := by
  rw [WindowsTree.realpath] at h
  cases hp : T.find p with
  | error e => simp [hp, Except.map] at h
  | ok place =>
      rw [hp] at h
      exact ⟨place, rfl, (Except.ok.inj h).symm⟩

lemma realpath_of_find {p : JsString} (h : T.find p = .ok place) :
    T.realpath p = .ok (render place.volume place.names) := by
  rw [WindowsTree.realpath, h]
  rfl

/-- A real path is its own real path. -/
lemma realpath_idem {p real : JsString} (h : T.realpath p = .ok real) :
    T.realpath real = .ok real := by
  obtain ⟨place, hp, rfl⟩ := realpath_eq_ok h
  exact realpath_of_find (find_real hp)

end Real

end LocalCast.Library
