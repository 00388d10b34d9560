import LocalCast.Foundations.UriDecode
import LocalCast.Library.Access
import LocalCast.Library.Paths

/-!
`library/resolver.ts`: from a folder and a path a client sends to a path on disk.

* `sanitiseRelPath`, `isInsideRoot`, `realpathOrDeepest`, `resolvePath`, `resolve`,
  `resolveWritable`: the functions of the source, over any file tree.
* `sanitise_clean`, `sanitise_rejects`: what the string checks let through and what they stop.
* `realpathOrDeepest_spec`: the path is there, or its deepest ancestor that is there is known
  and the next component is missing.
* `resolve_confined`: what `resolve` returns lies really inside the real root.
* `control_character_resolves`: a segment may hold `DEL`.
-/

namespace LocalCast.Library

open JsString Contract Db Auth

/-! ### The source -/

/-- `toLowerCase` and `toUpperCase` of the language. Nothing below depends on what they do. -/
structure CaseMap where
  toLowerCase : JsString → JsString
  toUpperCase : JsString → JsString

/-- An exception of the resolver, or one of the file system that it passes on. -/
inductive Failure where
  | api (e : ApiException)
  | fs (e : Errno)
deriving DecidableEq

/-- `RESERVED`. -/
def RESERVED : List JsString :=
  ["CON", "PRN", "AUX", "NUL", "CONIN$", "CONOUT$", "CLOCK$",
    "COM1", "COM2", "COM3", "COM4", "COM5", "COM6", "COM7", "COM8", "COM9",
    "LPT1", "LPT2", "LPT3", "LPT4", "LPT5", "LPT6", "LPT7", "LPT8", "LPT9"].map js

def escapes (message : String) : ApiException := ⟨.pathEscapesRoot, message⟩

def notFound : ApiException := ⟨.notFound, "Not found"⟩

def unavailable : ApiException := ⟨.folderUnavailable, "This folder is not available"⟩

/-- `sameSegment`. -/
def sameSegment (cm : CaseMap) (a b : JsString) : Bool :=
  if IS_WINDOWS then cm.toLowerCase a = cm.toLowerCase b else a = b

/-- `isInsideRoot`. -/
def isInsideRoot (cm : CaseMap) (root candidate : JsString) : Bool :=
  let r := splitSegments root
  let c := splitSegments candidate
  r ≠ [] && r.length ≤ c.length && (r.zip c).all fun q => sameSegment cm q.1 q.2

/-- The checks of `sanitiseRelPath` on one segment. -/
def checkSegment (cm : CaseMap) (raw : JsString) : Except ApiException Unit :=
  if raw = js "." ∨ raw = js ".." then .error (escapes "Path may not traverse upwards")
  else if raw.any (js ":*?<>|\"").contains then .error (escapes "Path contains an illegal character")
  else if raw.any (· < 32) then .error (escapes "Path contains a control character")
  else if raw.getLast?.any fun c => c = 46 ∨ c = 32 then
    .error (escapes "Path segment may not end in a dot or space")
  else if RESERVED.contains (cm.toUpperCase (raw.takeWhile (· ≠ 46))) then
    .error (escapes "Path refers to a reserved device name")
  else .ok ()

/-- The checks of `sanitiseRelPath` on one form of the path. -/
def checkForm (cm : CaseMap) (form : JsString) : Except ApiException Unit :=
  if form.contains 0 then .error (escapes "Path contains a null byte")
  else if form.head?.any isSlash then .error (escapes "Path must be relative")
  else if startsWithDrive form then .error (escapes "Path must be relative")
  else (segments isSlash form).forM (checkSegment cm)

/-- The forms of a path that are checked: itself, and what it decodes to. -/
def forms (input : JsString) : List JsString :=
  if input.contains 37 then
    match decodeURIComponent input with
    | some decoded => if decoded ≠ input then [input, decoded] else [input]
    | none => [input]
  else [input]

/-- `sanitiseRelPath`. -/
def sanitiseRelPath (cm : CaseMap) (input : JsString) : Except ApiException (List JsString) :=
  if input.contains 0 then .error (escapes "Path contains a null byte")
  else match (forms input).forM (checkForm cm) with
    | .error e => .error e
    | .ok () => .ok (segments isSlash input)

/-- The path of the leading segments of a target. -/
def probe (isUnc : Bool) (head : List JsString) : JsString :=
  if isUnc then js "\\\\" ++ join [92] head
  else if IS_WINDOWS then join [92] head
  else 47 :: join [47] head

/-- The loop of `realpathOrDeepest`, on the leading segments in reverse; it stops above the
first of them. -/
def deepest (T : WindowsTree) (isUnc : Bool) :
    List JsString → List JsString → Except Failure (JsString × Bool)
  | last :: above :: head, tail =>
      match T.realpath (withLongPathPrefix (probe isUnc (last :: above :: head).reverse)) with
      | .ok real => .ok (if tail = [] then real else pathJoin real tail, false)
      | .error .ENOENT => deepest T isUnc (above :: head) (last :: tail)
      | .error e => .error (.fs e)
  | _, _ => .error (.api notFound)

/-- `realpathOrDeepest`: the real path, and whether it was there. -/
def realpathOrDeepest (T : WindowsTree) (target : JsString) : Except Failure (JsString × Bool) :=
  match T.realpath target with
  | .ok real => .ok (real, true)
  | .error .ENOENT =>
      deepest T ((js "\\\\").isPrefixOf (stripLongPathPrefix target))
        (splitSegments target).reverse []
  | .error e => .error (.fs e)

structure ResolvedPath where
  absPath : JsString
  realPath : JsString
  segments : List JsString
deriving DecidableEq

/-- The root joined with what is left of the path. -/
def joinedPath (root : JsString) (segs : List JsString) : JsString :=
  if segs = [] then root else pathResolve root segs

/-- `resolvePath`. -/
def resolvePath (T : WindowsTree) (cm : CaseMap) (folder : FolderRow) (relPath : JsString) :
    Except Failure ResolvedPath :=
  match sanitiseRelPath cm relPath with
  | .error e => .error (.api e)
  | .ok segs =>
      let root := stripLongPathPrefix folder.path
      let joined := joinedPath root segs
      if !isInsideRoot cm root joined then .error (.api (escapes "Path is not valid"))
      else match T.realpath (withLongPathPrefix root) with
        | .error .ENOENT => .error (.api unavailable)
        | .error e => .error (.fs e)
        | .ok rootReal => match realpathOrDeepest T (withLongPathPrefix joined) with
            | .error f => .error f
            | .ok (real, _) =>
                if !isInsideRoot cm (stripLongPathPrefix rootReal) (stripLongPathPrefix real) then
                  .error (.api (escapes "Path resolves outside its shared folder"))
                else .ok
                  { absPath := withLongPathPrefix (stripLongPathPrefix real)
                    realPath := stripLongPathPrefix real
                    segments := segs }

/-- `ResolvedFile`; of its `entry` the name is kept. -/
structure ResolvedFile where
  folderId : JsString
  absPath : JsString
  relPath : JsString
  size : ℕ
  mtimeMs : ℕ
  isDir : Bool
  name : JsString
deriving DecidableEq

/-- The exception `resolve` makes of a failing `stat`. -/
def statFailure : Errno → Failure
  | .ENOENT | .ENOTDIR | .EPERM | .EACCES => .api notFound
  | e => .fs e

/-- `resolve`. -/
def resolve (T : WindowsTree) (cm : CaseMap) (st : AuthStore) (folderId relPath : JsString) :
    Except Failure ResolvedFile :=
  match getFolder st folderId with
  | .error e => .error (.api e)
  | .ok folder =>
      if !folder.available then .error (.api unavailable)
      else match resolvePath T cm folder relPath with
        | .error f => .error f
        | .ok r => match T.stat r.absPath with
            | .error e => .error (statFailure e)
            | .ok stat =>
                if !stat.isDirectory && !stat.isFile then .error (.api notFound)
                else .ok
                  { folderId := folder.id
                    absPath := r.absPath
                    relPath := join [47] r.segments
                    size := if stat.isDirectory then 0 else stat.size
                    mtimeMs := stat.mtimeMs
                    isDir := stat.isDirectory
                    name := r.segments.getLast?.getD folder.label }

/-- `resolveWritable`. -/
def resolveWritable (T : WindowsTree) (cm : CaseMap) (st : AuthStore)
    (folderId relPath : JsString) : Except Failure JsString :=
  match writableFolder st folderId with
  | .error e => .error (.api e)
  | .ok folder => match sanitiseRelPath cm relPath with
      | .error e => .error (.api e)
      | .ok segs =>
          if segs = [] then .error (.api (escapes "An upload needs a file name"))
          else (resolvePath T cm folder relPath).map ResolvedPath.absPath

/-! ### The string checks -/

/-- What a segment that is joined looks like. -/
structure CleanSegment (seg : JsString) : Prop where
  ne_nil : seg ≠ []
  named : Named seg
  no_drive : startsWithDrive seg = false
  units : ∀ c ∈ seg, isSlash c = false ∧ 32 ≤ c

/-- What no decoded path may hold. -/
def Hostile (decoded : JsString) : Prop :=
  0 ∈ decoded ∨ decoded.head?.any isSlash = true ∨ startsWithDrive decoded = true ∨
    ∃ seg ∈ segments isSlash decoded, seg = js "." ∨ seg = js ".."

section Sanitise

variable {cm : CaseMap} {input decoded : JsString} {segs : List JsString}

lemma forM_eq_ok {α ε : Type} {f : α → Except ε Unit} {xs : List α} (h : xs.forM f = .ok ()) :
    ∀ x ∈ xs, f x = .ok () := by
  induction xs with
  | nil => simp
  | cons x xs ih =>
      rw [List.forM_eq_forM, List.forM_cons] at h
      cases hx : f x with
      | error e => simp [hx, bind, Except.bind] at h
      | ok u =>
          simp only [hx, bind, Except.bind] at h
          intro y hy
          rcases List.mem_cons.mp hy with rfl | hy
          · exact hx
          · exact ih h y hy

lemma sanitise_eq_ok (h : sanitiseRelPath cm input = .ok segs) :
    segs = segments isSlash input ∧ ∀ form ∈ forms input, checkForm cm form = .ok () := by
  rw [sanitiseRelPath] at h
  split_ifs at h
  split at h
  · cases h
  case h_2 hforms => exact ⟨(Except.ok.inj h).symm, forM_eq_ok hforms⟩

lemma checkForm_eq_ok {form : JsString} (h : checkForm cm form = .ok ()) :
    0 ∉ form ∧ form.head?.any isSlash = false ∧ startsWithDrive form = false ∧
      ∀ seg ∈ segments isSlash form, checkSegment cm seg = .ok () := by
  rw [checkForm] at h
  split_ifs at h with hnul hslash hdrive
  exact ⟨by simpa using hnul, by simpa using hslash, by simpa using hdrive, forM_eq_ok h⟩

lemma checkSegment_eq_ok {raw : JsString} (h : checkSegment cm raw = .ok ()) :
    Named raw ∧ (∀ c ∈ raw, c ≠ 58) ∧ ∀ c ∈ raw, 32 ≤ c := by
  rw [checkSegment] at h
  split_ifs at h with hdots hillegal hcontrol hlast hreserved
  rw [not_or] at hdots
  refine ⟨hdots, ?_, fun c hc => ?_⟩
  · rintro c hc rfl
    exact hillegal (List.any_eq_true.mpr ⟨58, hc, by decide⟩)
  · by_contra hlt
    exact hcontrol (List.any_eq_true.mpr ⟨c, hc, by simpa using hlt⟩)

lemma mem_forms_self : input ∈ forms input := by
  rw [forms]
  split_ifs
  · split
    · split_ifs <;> simp
    · simp
  · simp

/-- The decoded form of a path is one of the forms that are checked. -/
lemma mem_forms_decoded (h : decodeURIComponent input = some decoded) :
    decoded ∈ forms input := by
  rw [forms]
  split_ifs with hpercent
  · rw [h]
    by_cases hd : decoded = input <;> simp [hd]
  · have hself := decodeURIComponent_of_no_percent (by simpa using hpercent)
    rw [h] at hself
    simp [Option.some.inj hself]

/-- **The segments that are joined are clean.** -/
lemma sanitise_clean (h : sanitiseRelPath cm input = .ok segs) :
    ∀ seg ∈ segs, CleanSegment seg := by
  obtain ⟨rfl, hforms⟩ := sanitise_eq_ok h
  intro seg hseg
  obtain ⟨-, -, -, hcheck⟩ := checkForm_eq_ok (hforms input mem_forms_self)
  obtain ⟨hnamed, hcolon, hunits⟩ := checkSegment_eq_ok (hcheck seg hseg)
  have hpiece := piece_of_segments hseg
  refine ⟨hpiece.1, hnamed, ?_, fun c hc => ⟨hpiece.2 c hc, hunits c hc⟩⟩
  unfold startsWithDrive
  split
  · exact absurd rfl (hcolon 58 (by simp))
  · rfl

/-- **A path that decodes to something hostile is rejected.** -/
lemma sanitise_rejects (hdec : decodeURIComponent input = some decoded) (hbad : Hostile decoded) :
    ∃ e, sanitiseRelPath cm input = .error e := by
  cases h : sanitiseRelPath cm input with
  | error e => exact ⟨e, rfl⟩
  | ok segs =>
      obtain ⟨-, hforms⟩ := sanitise_eq_ok h
      obtain ⟨hnul, hslash, hdrive, hcheck⟩ :=
        checkForm_eq_ok (hforms decoded (mem_forms_decoded hdec))
      rcases hbad with hbad | hbad | hbad | ⟨seg, hseg, hbad⟩
      · exact absurd hbad hnul
      · simp [hslash] at hbad
      · simp [hdrive] at hbad
      · have hnamed := (checkSegment_eq_ok (hcheck seg hseg)).1
        exact absurd hbad (not_or.mpr hnamed)

end Sanitise

/-! ### Containment -/

/-- The segments of `root` are, one by one and up to case, the leading segments of `p`. -/
def Inside (cm : CaseMap) (root p : JsString) : Prop :=
  splitSegments root ≠ [] ∧ ∃ front, front <+: splitSegments p ∧
    List.Forall₂ (fun a b => cm.toLowerCase a = cm.toLowerCase b) (splitSegments root) front

lemma zip_all_iff {α : Type} {R : α → α → Bool} {xs ys : List α} :
    xs.length ≤ ys.length ∧ ((xs.zip ys).all fun q => R q.1 q.2) = true ↔
      ∃ front, front <+: ys ∧ List.Forall₂ (fun a b => R a b = true) xs front := by
  induction xs generalizing ys with
  | nil => simp
  | cons x xs ih =>
      cases ys with
      | nil => simp
      | cons y ys =>
          rw [List.zip_cons_cons, List.all_cons, Bool.and_eq_true, List.length_cons,
            List.length_cons, Nat.add_le_add_iff_right, and_left_comm, ih]
          constructor
          · rintro ⟨hxy, front, hfront, hsame⟩
            exact ⟨y :: front, List.cons_prefix_cons.mpr ⟨rfl, hfront⟩, .cons hxy hsame⟩
          · rintro ⟨front, hfront, hsame⟩
            cases hsame with
            | cons hxz hsame =>
                obtain ⟨rfl, hrest⟩ := List.cons_prefix_cons.mp hfront
                exact ⟨hxz, _, hrest, hsame⟩

lemma isInsideRoot_iff {cm : CaseMap} {root p : JsString} :
    isInsideRoot cm root p = true ↔ Inside cm root p := by
  have hsame : (fun a b => sameSegment cm a b = true)
      = fun a b => cm.toLowerCase a = cm.toLowerCase b := by
    funext a b
    exact propext decide_eq_true_iff
  rw [isInsideRoot, Inside, ← hsame, ← zip_all_iff]
  simp [and_assoc]

/-! ### Real paths -/

section Paths

variable {T : WindowsTree} {cm : CaseMap} {v : Volume} {ns : List JsString}

def Volume.isUnc : Volume → Bool
  | .drive _ => false
  | .unc _ _ => true

/-- A probe names the leading pieces of the path it was taken from. -/
lemma splitPath_probe (hv : VolumeName v) (hns : ∀ n ∈ ns, Piece n)
    (hdeep : 2 ≤ (v.segs ++ ns).length) :
    splitPath (probe v.isUnc (v.segs ++ ns)) = some (v, ns) := by
  cases v with
  | drive letter =>
      cases ns with
      | nil => simp [Volume.segs] at hdeep
      | cons n ns =>
          have hjoin : probe false ([letter, 58] :: n :: ns)
              = letter :: 58 :: 92 :: join [92] (n :: ns) := by
            simp [probe, IS_WINDOWS, join, List.intercalate]
          exact (congrArg splitPath hjoin).trans
            ((splitPath_drive hv _).trans (by rw [segments_join 92 rfl _ hns]))
  | unc server share =>
      have hjoin : probe true (server :: share :: ns)
          = 92 :: 92 :: (server ++ 92 :: join [92] (share :: ns)) := by
        simp [probe, join, List.intercalate, js, encodeChar]
      have hpieces : ∀ n ∈ share :: ns, Piece n := by
        intro n hn
        rcases List.mem_cons.mp hn with rfl | hn
        · exact hv.2.piece
        · exact hns n hn
      refine (congrArg splitPath hjoin).trans (splitPath_unc hv ?_)
      rw [segments_append_slash hv.1.piece, segments_join 92 rfl _ hpieces]

lemma find_probe (hv : VolumeName v) (hns : ∀ n ∈ ns, Piece n)
    (hdeep : 2 ≤ (v.segs ++ ns).length) :
    T.find (withLongPathPrefix (probe v.isUnc (v.segs ++ ns))) = T.locate v (ns.map toStep) := by
  rw [find_withLong, WindowsTree.find, splitPath_probe hv hns hdeep]

/-- The deepest ancestor of a path that is there, and what is missing below it. -/
structure Deepest (T : WindowsTree) (v : Volume) (ns : List JsString)
    (place : Place Volume ℕ Stat JsString) (first : JsString) (below : List JsString) : Prop where
  above : ∃ above, ns = above ++ first :: below ∧ T.locate v (above.map toStep) = .ok place ∧
    T.locate v ((above ++ [first]).map toStep) = .error .ENOENT

lemma deepest_append {isUnc : Bool} {head tail : List JsString} {last : JsString}
    (hhead : head ≠ []) : deepest T isUnc (head ++ [last]).reverse tail
      = match T.realpath (withLongPathPrefix (probe isUnc (head ++ [last]))) with
        | .ok real => .ok (if tail = [] then real else pathJoin real tail, false)
        | .error .ENOENT => deepest T isUnc head.reverse (last :: tail)
        | .error e => .error (.fs e) := by
  rw [List.reverse_append, List.reverse_singleton]
  cases hrev : head.reverse with
  | nil => exact absurd (List.reverse_eq_nil_iff.mp hrev) hhead
  | cons a rest =>
      have hback : (last :: a :: rest).reverse = head ++ [last] := by
        rw [← hrev, List.reverse_cons, List.reverse_reverse]
      rw [← hback]
      rfl

/-- A probe that is there ends the loop; one that is missing goes on above it. -/
lemma deepest_probe (hv : VolumeName v) {above tail head : List JsString} {last : JsString}
    (hns : ∀ n ∈ above, Piece n) (hhead : head ≠ []) (hsegs : v.segs ++ above = head ++ [last])
    {real : JsString} {existed : Bool}
    (hmiss : T.locate v ((above ++ tail.take 1).map toStep) = .error .ENOENT)
    (h : deepest T v.isUnc (v.segs ++ above).reverse tail = .ok (real, existed)) :
    (existed = false ∧ ∃ place first below, Deepest T v (above ++ tail) place first below ∧
      real = pathJoin (render place.volume place.names) (first :: below)) ∨
    T.locate v (above.map toStep) = .error .ENOENT ∧
      deepest T v.isUnc head.reverse (last :: tail) = .ok (real, existed) := by
  have hdeep : 2 ≤ (v.segs ++ above).length := by
    rw [hsegs, List.length_append, List.length_singleton]
    have := List.length_pos_of_ne_nil hhead
    omega
  have hfind := find_probe (T := T) hv hns hdeep
  rw [hsegs] at h hfind
  rw [deepest_append hhead, WindowsTree.realpath, hfind] at h
  cases hloc : T.locate v (above.map toStep) with
  | ok place =>
      rw [hloc] at h
      obtain ⟨hreal, rfl⟩ := Prod.mk.inj (Except.ok.inj h)
      cases tail with
      | nil =>
          rw [List.take_nil, List.append_nil, hloc] at hmiss
          cases hmiss
      | cons first below =>
          rw [if_neg (List.cons_ne_nil _ _)] at hreal
          exact .inl ⟨rfl, place, first, below, ⟨above, rfl, hloc, hmiss⟩, hreal.symm⟩
  | error e =>
      rw [hloc] at h
      cases e with
      | ENOENT => exact .inr ⟨rfl, h⟩
      | ENOTDIR | EISDIR | EEXIST | ELOOP | EACCES | EPERM | EIO => cases h

lemma deepest_eq_ok (hv : VolumeName v) {above tail : List JsString}
    (hns : ∀ n ∈ above, Piece n) {real : JsString} {existed : Bool}
    (hmiss : T.locate v ((above ++ tail.take 1).map toStep) = .error .ENOENT)
    (h : deepest T v.isUnc (v.segs ++ above).reverse tail = .ok (real, existed)) :
    existed = false ∧ ∃ place first below, Deepest T v (above ++ tail) place first below ∧
      real = pathJoin (render place.volume place.names) (first :: below) := by
  induction above using List.reverseRecOn generalizing tail with
  | nil =>
      cases v with
      | drive letter => cases h
      | unc server share =>
          have hhead : [server] ≠ [] := by simp
          rcases deepest_probe hv hns hhead rfl hmiss h with hdone | ⟨-, hup⟩
          · exact hdone
          · cases hup
  | append_singleton above last ih =>
      have hhead : v.segs ++ above ≠ [] := by
        cases v <;> simp [Volume.segs]
      rcases deepest_probe hv hns hhead (List.append_assoc ..).symm hmiss h with
        hdone | ⟨hmiss', hup⟩
      · exact hdone
      · have hlast : T.locate v ((above ++ (last :: tail).take 1).map toStep) = .error .ENOENT :=
          hmiss'
        have hrest := ih (fun n hn => hns n (List.mem_append_left _ hn)) hlast hup
        rwa [List.append_assoc, List.singleton_append]

/-- What `realpathOrDeepest` answers: the real path where there is one, else that of the
deepest ancestor that is there, with what is missing below it. -/
theorem realpathOrDeepest_spec {p real : JsString} {existed : Bool}
    (hp : splitPath p = some (v, ns)) (hstrip : stripLongPathPrefix p = render v ns)
    (h : realpathOrDeepest T (withLongPathPrefix p) = .ok (real, existed)) :
    (existed = true ∧ T.realpath p = .ok real) ∨
    existed = false ∧ ∃ place first below, Deepest T v ns place first below ∧
      real = pathJoin (render place.volume place.names) (first :: below) := by
  obtain ⟨hv, hns, hsegs⟩ := splitPath_eq_some hp
  have hlong : T.realpath (withLongPathPrefix p) = T.realpath p := by
    rw [WindowsTree.realpath, find_withLong, WindowsTree.realpath]
  rw [realpathOrDeepest, hlong] at h
  cases hreal : T.realpath p with
  | ok r =>
      rw [hreal] at h
      obtain ⟨rfl, rfl⟩ := Prod.mk.inj (Except.ok.inj h)
      exact .inl ⟨rfl, rfl⟩
  | error e =>
      rw [hreal] at h
      cases e with
      | ENOENT =>
          have hunc : (js "\\\\").isPrefixOf (stripLongPathPrefix (withLongPathPrefix p)) = v.isUnc := by
            rw [strip_withLong, hstrip]
            cases v with
            | drive letter =>
                refine Bool.eq_false_iff.mpr fun hprefix => ?_
                rw [List.isPrefixOf_iff_prefix] at hprefix
                exact (of_isLetter hv).1 (List.cons_prefix_cons.mp hprefix).1.symm
            | unc server share => rfl
          have hloop : deepest T v.isUnc (v.segs ++ ns).reverse [] = .ok (real, existed) := by
            rw [← hunc, ← hsegs, ← splitSegments_withLong]
            exact h
          have hmiss : T.locate v (ns.map toStep) = .error .ENOENT := by
            rw [WindowsTree.realpath, WindowsTree.find, hp] at hreal
            simp only at hreal
            cases hloc : T.locate v (ns.map toStep) with
            | ok place => simp [hloc, Except.map] at hreal
            | error e => simpa [hloc, Except.map] using hreal
          have hdone := deepest_eq_ok hv hns (by simpa using hmiss) hloop
          rw [List.append_nil] at hdone
          exact .inr hdone
      | ENOTDIR | EISDIR | EEXIST | ELOOP | EACCES | EPERM | EIO => cases h

/-! ### What is resolved -/

lemma realpath_withLong (p : JsString) : T.realpath (withLongPathPrefix p) = T.realpath p := by
  rw [WindowsTree.realpath, find_withLong, WindowsTree.realpath]

lemma splitPath_of_realpath {p real : JsString} (h : T.realpath p = .ok real) :
    ∃ v ns, splitPath p = some (v, ns) := by
  obtain ⟨place, hp, -⟩ := realpath_eq_ok h
  rw [WindowsTree.find] at hp
  split at hp
  · cases hp
  case h_2 v ns hsplit => exact ⟨v, ns, hsplit⟩

lemma strip_of_realpath {p real : JsString} (h : T.realpath p = .ok real) :
    stripLongPathPrefix real = real := by
  obtain ⟨place, hp, rfl⟩ := realpath_eq_ok h
  exact strip_real (real_of_find hp)

/-- A root joined with clean segments is in normal form. -/
lemma joined_normal {root : JsString} {segs : List JsString} (hroot : splitPath root = some (v, ns))
    (hsegs : segs ≠ []) (hclean : ∀ seg ∈ segs, CleanSegment seg) :
    splitPath (joinedPath root segs) = some (v, normalize (ns ++ segs)) ∧
      stripLongPathPrefix (joinedPath root segs) = render v (normalize (ns ++ segs)) := by
  obtain ⟨hv, hns, -⟩ := splitPath_eq_some hroot
  have hpieces : ∀ n ∈ normalize (ns ++ segs), Piece n := by
    intro n hn
    rcases List.mem_append.mp (of_mem_normalize hn).1 with hn | hn
    · exact hns n hn
    · exact ⟨(hclean n hn).ne_nil, fun c hc => ((hclean n hn).units c hc).1⟩
  rw [joinedPath, if_neg hsegs, pathResolve, appendSegments_of_splitPath hroot]
  exact ⟨splitPath_render hv hpieces, strip_render hv _⟩

/-- Where a resolved path comes from: it is the real path of the joined path; or that is not
there, and it is the real path of the deepest ancestor that is, with the rest appended. -/
inductive Origin (T : WindowsTree) (joined real : JsString) : Prop
  | existing (h : T.realpath joined = .ok real)
  | missing {v : Volume} {ns : List JsString} {place : Place Volume ℕ Stat JsString}
      {first : JsString} {below : List JsString} (hsplit : splitPath joined = some (v, ns))
      (hdeep : Deepest T v ns place first below) (hnamed : ∀ n ∈ first :: below, Named n ∧ Piece n)
      (hreal : real = render place.volume (place.names ++ first :: below))

lemma Deepest.real {place : Place Volume ℕ Stat JsString} {first : JsString}
    {below : List JsString} (h : Deepest T v ns place first below) : T.RealPlace place := by
  obtain ⟨above, -, hloc, -⟩ := h.above
  obtain ⟨-, -, -, -, -, -, hreal⟩ := FileTree.locate_eq_ok hloc
  exact hreal

/-- What lies below a real place by named pieces is read back, and is in normal form. -/
lemma below_real {place : Place Volume ℕ Stat JsString} (h : T.RealPlace place)
    {rest : List JsString} (hrest : ∀ n ∈ rest, Named n ∧ Piece n) :
    splitPath (render place.volume (place.names ++ rest)) = some (place.volume, place.names ++ rest)
      ∧ ∀ n ∈ place.names ++ rest, Named n := by
  have hboth : ∀ n ∈ place.names ++ rest, Named n ∧ Piece n := by
    intro n hn
    rcases List.mem_append.mp hn with hn | hn
    · have hname := names_of_real h n hn
      exact ⟨⟨hname.2.1, hname.2.2.1⟩, hname.piece⟩
    · exact hrest n hn
  exact ⟨splitPath_render (volume_of_real h) fun n hn => (hboth n hn).2, fun n hn => (hboth n hn).1⟩

lemma Origin.strip {joined real : JsString} (h : Origin T joined real) :
    stripLongPathPrefix real = real := by
  cases h with
  | existing h => exact strip_of_realpath h
  | missing hsplit hdeep hnamed hreal =>
      rw [hreal]
      exact strip_render (volume_of_real hdeep.real) _

/-- **What `resolvePath` answers.** -/
theorem resolvePath_eq_ok {folder : FolderRow} {relPath : JsString} {r : ResolvedPath}
    (h : resolvePath T cm folder relPath = .ok r) : ∃ rootReal,
      sanitiseRelPath cm relPath = .ok r.segments ∧
      T.realpath (stripLongPathPrefix folder.path) = .ok rootReal ∧
      Origin T (joinedPath (stripLongPathPrefix folder.path) r.segments) r.realPath ∧
      Inside cm rootReal r.realPath ∧ r.absPath = withLongPathPrefix r.realPath := by
  rw [resolvePath] at h
  split at h
  · cases h
  case h_2 segs hsegs =>
    simp only [realpath_withLong] at h
    split_ifs at h with hlex
    split at h
    · cases h
    · cases h
    case h_3 rootReal hroot =>
      split at h
      · cases h
      case h_2 real existed hreal =>
        split_ifs at h with hin
        rw [Bool.not_eq_true', Bool.not_eq_false, isInsideRoot_iff] at hin
        obtain rfl := Except.ok.inj h
        have horigin : Origin T (joinedPath (stripLongPathPrefix folder.path) segs) real := by
          by_cases hnil : segs = []
          · subst hnil
            rw [joinedPath, if_pos rfl] at hreal ⊢
            rw [realpathOrDeepest, realpath_withLong, hroot] at hreal
            obtain ⟨rfl, -⟩ := Prod.mk.inj (Except.ok.inj hreal)
            exact .existing hroot
          · obtain ⟨v, ns, hsplit⟩ := splitPath_of_realpath hroot
            obtain ⟨hjoined, hstrip⟩ := joined_normal hsplit hnil (sanitise_clean hsegs)
            rcases realpathOrDeepest_spec hjoined hstrip hreal with
              ⟨-, hthere⟩ | ⟨-, place, first, below, hdeep, hjoin⟩
            · exact .existing hthere
            · have hnamed : ∀ n ∈ first :: below, Named n ∧ Piece n := by
                obtain ⟨above, habove, -⟩ := hdeep.above
                intro n hn
                have hmem : n ∈ normalize (ns ++ segs) := by
                  rw [habove]
                  exact List.mem_append_right _ hn
                exact ⟨(of_mem_normalize hmem).2, (splitPath_eq_some hjoined).2.1 n hmem⟩
              refine .missing hjoined hdeep hnamed (hjoin.trans ?_)
              rw [pathJoin, appendSegments_of_splitPath (splitPath_real hdeep.real),
                normalize_of_named (below_real hdeep.real hnamed).2]
        have hstrip := horigin.strip
        rw [strip_of_realpath hroot, hstrip] at hin
        exact ⟨rootReal, hsegs, hroot, hstrip.symm ▸ horigin, hstrip.symm ▸ hin, rfl⟩

/-- A path that is not there is not there after it was resolved either. -/
lemma find_missing {real : JsString} {place : Place Volume ℕ Stat JsString}
    {first : JsString} {below : List JsString} (hdeep : Deepest T v ns place first below)
    (hnamed : ∀ n ∈ first :: below, Named n ∧ Piece n)
    (hreal : real = render place.volume (place.names ++ first :: below)) :
    T.find real = .error .ENOENT := by
  obtain ⟨hsplit, hall⟩ := below_real hdeep.real hnamed
  obtain ⟨above, -, hloc, hmiss⟩ := hdeep.above
  rw [List.map_append, List.map_singleton] at hmiss
  have hfirst : toStep first = .down first := by
    have h := (hnamed first List.mem_cons_self).1
    rw [toStep, if_neg h.1, if_neg h.2]
  rw [hreal, WindowsTree.find, hsplit]
  simp only
  rw [map_toStep hall, List.map_append, List.map_cons, ← hfirst]
  exact FileTree.locate_missing hloc hmiss (by simp) _

end Paths

lemma resolve_eq_ok {T : WindowsTree} {cm : CaseMap} {st : AuthStore}
    {folderId relPath : JsString} {r : ResolvedFile}
    (h : resolve T cm st folderId relPath = .ok r) : ∃ folder q stat,
      getFolder st folderId = .ok folder ∧ resolvePath T cm folder relPath = .ok q ∧
      T.stat q.absPath = .ok stat ∧ r.absPath = q.absPath ∧ r.relPath = join [47] q.segments ∧
      r.folderId = folder.id := by
  rw [resolve] at h
  split at h
  · cases h
  case h_2 folder hfolder =>
    split_ifs at h
    split at h
    · cases h
    case h_2 q hq =>
      split at h
      · cases h
      case h_2 stat hstat =>
        by_cases hkind : (!stat.isDirectory && !stat.isFile) = true
        · rw [if_pos hkind] at h
          cases h
        · rw [if_neg hkind] at h
          obtain rfl := Except.ok.inj h
          exact ⟨folder, q, stat, hfolder, hq, hstat, rfl, rfl, rfl⟩

/-- **Read confinement**: what `resolve` returns is an absolute path, the real path of the root
joined with clean segments, inside the real root; and a path that decodes to something hostile
is rejected. -/
theorem resolve_confined (T : WindowsTree) (cm : CaseMap) (st : AuthStore)
    (folderId relPath : JsString) :
    (∀ r, resolve T cm st folderId relPath = .ok r → ∃ folder segs rootReal real,
      getFolder st folderId = .ok folder ∧ sanitiseRelPath cm relPath = .ok segs ∧
      r.relPath = join [47] segs ∧ (∀ seg ∈ segs, CleanSegment seg) ∧
      (splitPath r.absPath).isSome = true ∧
      T.realpath (stripLongPathPrefix folder.path) = .ok rootReal ∧
      T.realpath (joinedPath (stripLongPathPrefix folder.path) segs) = .ok real ∧
      T.realpath r.absPath = .ok real ∧ Inside cm rootReal real) ∧
    ∀ decoded, decodeURIComponent relPath = some decoded → Hostile decoded →
      ∃ f, resolve T cm st folderId relPath = .error f := by
  constructor
  · intro r h
    obtain ⟨folder, q, stat, hfolder, hq, hstat, habs, hrel, -⟩ := resolve_eq_ok h
    obtain ⟨rootReal, hsegs, hroot, horigin, hin, hlong⟩ := resolvePath_eq_ok hq
    have hclean := sanitise_clean hsegs
    rw [hlong] at habs
    cases horigin with
    | missing hsplit hdeep hnamed hreal =>
        have hnone : T.find q.realPath = .error .ENOENT := find_missing hdeep hnamed hreal
        rw [WindowsTree.stat, hlong, find_withLong, hnone] at hstat
        cases hstat
    | existing hthere =>
        have hidem := realpath_idem hthere
        obtain ⟨v, ns, hsplit⟩ := splitPath_of_realpath hidem
        refine ⟨folder, q.segments, rootReal, q.realPath, hfolder, hsegs, hrel, hclean, ?_, hroot,
          hthere, ?_, hin⟩
        · rw [habs, splitPath_withLong, hsplit]
          rfl
        · rw [habs, realpath_withLong]
          exact hidem
  · intro decoded hdec hbad
    have hreject : ∃ e, sanitiseRelPath cm relPath = .error e := sanitise_rejects hdec hbad
    obtain ⟨e, he⟩ := hreject
    rw [resolve]
    split
    · exact ⟨_, rfl⟩
    · split_ifs
      · exact ⟨_, rfl⟩
      · rw [resolvePath, he]
        exact ⟨_, rfl⟩

/-! ### Concrete trees -/

def asciiCase : CaseMap := ⟨lower, upper⟩

/-- One shared folder, `C:\m`. -/
def plainStore : AuthStore where
  devices := .empty
  pairing_tokens := .empty
  folder_permissions := .empty
  shared_folders := ⟨[⟨js "f", js "C:\\m", js "M", true, true, true, true, none, none, none, 0⟩],
    by decide⟩

def plainFile : Entry Volume ℕ Stat JsString := .leaf ⟨false, true, 3, 0⟩

/-- Below `C:\m`: a directory with a file, a file with `DEL` in its name, a link to the
directory and one out of the folder. -/
def plainTree : WindowsTree := .ofEntries
  [(0, js "m", .dir 1), (0, js "w", .dir 3), (1, js "d", .dir 2), (2, js "a.txt", plainFile),
    (1, js "a\x7f", plainFile),
    (1, js "l", .link ⟨some (.drive 67), [.down (js "m"), .down (js "d")]⟩),
    (1, js "o", .link ⟨none, [.up, .down (js "w")]⟩), (3, js "b.txt", plainFile)]
  (by decide)

example : resolve plainTree asciiCase plainStore (js "f") (js "o/b.txt")
    = .error (.api (escapes "Path resolves outside its shared folder")) := by decide +kernel

theorem resolve_confined_plain : ∃ r, resolve plainTree asciiCase plainStore (js "f")
      (js "L/A.TXT") = .ok r ∧ r.absPath = js "\\\\?\\C:\\m\\d\\a.txt" ∧
    ∃ rootReal real, plainTree.realpath r.absPath = .ok real ∧ Inside asciiCase rootReal real := by
  have hr : resolve plainTree asciiCase plainStore (js "f") (js "L/A.TXT")
      = .ok ⟨js "f", js "\\\\?\\C:\\m\\d\\a.txt", js "L/A.TXT", 3, 0, false, js "A.TXT"⟩ := by
    decide +kernel
  obtain ⟨-, -, rootReal, real, -, -, -, -, -, -, -, hreal, hin⟩ :=
    (resolve_confined plainTree asciiCase plainStore (js "f") (js "L/A.TXT")).1 _ hr
  exact ⟨_, hr, rfl, rootReal, real, hreal, hin⟩

/-- The control characters of Unicode. -/
def isControl (c : CodeUnit) : Bool := c < 32 || (127 ≤ c && c ≤ 159)

/-- **A control character is let through**: `resolve` answers for a name with `DEL` in it. -/
theorem control_character_resolves : ¬ ∀ (T : WindowsTree) (cm : CaseMap) (st : AuthStore)
    (folderId relPath : JsString) (r : ResolvedFile) (segs : List JsString),
    resolve T cm st folderId relPath = .ok r → sanitiseRelPath cm relPath = .ok segs →
    ∀ seg ∈ segs, ∀ c ∈ seg, isControl c = false := by
  intro h
  have hr : resolve plainTree asciiCase plainStore (js "f") (js "a\x7f")
      = .ok ⟨js "f", js "\\\\?\\C:\\m\\a\x7f", js "a\x7f", 3, 0, false, js "a\x7f"⟩ := by
    decide +kernel
  have hsegs : sanitiseRelPath asciiCase (js "a\x7f") = .ok [js "a\x7f"] := by decide +kernel
  have hdel := h _ _ _ _ _ _ _ hr hsegs (js "a\x7f") List.mem_cons_self 127 (by decide)
  exact absurd hdel (by decide)

end LocalCast.Library
