import Mathlib.Tactic

/-!
File trees with links, as the operating system walks them.

* `FileTree`: volumes, directories, leaves and links. A lookup answers the name as the tree
  spells it, so trees that fold case or keep short names are covered; it may fail with any
  error.
* `walk`, `locate`: the walk along a path, following at most `maxLinks` links.
* `walk_append`, `walk_more`: a walk over a concatenation, and a walk with more links to spare.
* `locate_names`: the real path of what a walk reaches leads back there.
* `locate_missing`: what fails below a path fails below its real path, in the same way.
* `openWrite`, `makeDirs`, `touched`: where creating a file, and before it the directories
  above it, takes effect.
-/

/-- The errors of the operating system that programs tell apart. -/
inductive Errno where
  | ENOENT | ENOTDIR | EISDIR | EEXIST | ELOOP | EACCES | EPERM | EIO
deriving DecidableEq, Repr

/-- A component of a path: `.`, `..`, or a name. -/
inductive PathStep (ν : Type*) where
  | here
  | up
  | down (name : ν)
deriving DecidableEq

/-- What a link holds; without a volume it is relative to the directory of the link. -/
structure LinkTarget (V ν : Type*) where
  volume : Option V
  steps : List (PathStep ν)
deriving DecidableEq

inductive Entry (V D κ ν : Type*) where
  | dir (d : D)
  | leaf (k : κ)
  | link (t : LinkTarget V ν)
deriving DecidableEq

/-- A file tree over volumes `V`, directories `D`, leaves `κ` and names `ν`. -/
structure FileTree (V D κ ν : Type*) where
  volume : V → Except Errno (V × D)
  lookup : D → ν → Except Errno (ν × Entry V D κ ν)
  /-- What walking through a leaf fails with. -/
  notDir : Errno
  maxLinks : ℕ
  volume_self : ∀ v v' d, volume v = .ok (v', d) → volume v' = .ok (v', d)
  lookup_self : ∀ d n c e, lookup d n = .ok (c, e) → lookup d c = .ok (c, e)

variable {V D κ ν : Type*}

/-- A directory and the way down to it, innermost first. -/
structure Spot (V D ν : Type*) where
  volume : V
  root : D
  down : List (ν × D)

/-- A directory, or a leaf in one. -/
structure Place (V D κ ν : Type*) where
  spot : Spot V D ν
  leaf : Option (ν × κ)

namespace Spot

def dir (s : Spot V D ν) : D := (s.down.head?.map Prod.snd).getD s.root

def names (s : Spot V D ν) : List ν := (s.down.map Prod.fst).reverse

/-- The directory above; a root is above itself. -/
def parent (s : Spot V D ν) : Spot V D ν := { s with down := s.down.tail }

def push (s : Spot V D ν) (name : ν) (d : D) : Spot V D ν :=
  { s with down := (name, d) :: s.down }

/-- The root directory of a volume. -/
def top (v : V) (d : D) : Spot V D ν := ⟨v, d, []⟩

@[simp] lemma dir_push (s : Spot V D ν) (name : ν) (d : D) : (s.push name d).dir = d := rfl

@[simp] lemma names_push (s : Spot V D ν) (name : ν) (d : D) :
    (s.push name d).names = s.names ++ [name] := by
  simp [names, push]

@[simp] lemma names_cons (v : V) (root : D) (name : ν) (d : D) (down : List (ν × D)) :
    (⟨v, root, (name, d) :: down⟩ : Spot V D ν).names
      = (⟨v, root, down⟩ : Spot V D ν).names ++ [name] :=
  names_push ⟨v, root, down⟩ name d

@[simp] lemma volume_push (s : Spot V D ν) (name : ν) (d : D) :
    (s.push name d).volume = s.volume := rfl

end Spot

namespace Place

def volume (p : Place V D κ ν) : V := p.spot.volume

def names (p : Place V D κ ν) : List ν := p.spot.names ++ (p.leaf.map Prod.fst).toList

@[simp] lemma names_dir (s : Spot V D ν) : (⟨s, none⟩ : Place V D κ ν).names = s.names :=
  List.append_nil _

@[simp] lemma names_leaf (s : Spot V D ν) (c : ν) (k : κ) :
    (⟨s, some (c, k)⟩ : Place V D κ ν).names = s.names ++ [c] := rfl

end Place

namespace FileTree

variable (fs : FileTree V D κ ν)

/-! ### The walk -/

/-- The walk up to the next link, where `follow` goes on with `n` links to spare. -/
def along (follow : Spot V D ν → LinkTarget V ν → List (PathStep ν) →
    Except Errno (ℕ × Place V D κ ν)) (n : ℕ) :
    Spot V D ν → List (PathStep ν) → Except Errno (ℕ × Place V D κ ν)
  | s, [] => .ok (n, ⟨s, none⟩)
  | s, .here :: xs => along follow n s xs
  | s, .up :: xs => along follow n s.parent xs
  | s, .down c :: xs => match fs.lookup s.dir c with
      | .error e => .error e
      | .ok (name, .dir d) => along follow n (s.push name d) xs
      | .ok (name, .leaf k) => if xs = [] then .ok (n, ⟨s, some (name, k)⟩) else .error fs.notDir
      | .ok (_, .link t) => follow s t xs

/-- Where the target of a link found in `s` starts. -/
def start (s : Spot V D ν) (t : LinkTarget V ν) : Except Errno (Spot V D ν) :=
  match t.volume with
  | none => .ok s
  | some v => (fs.volume v).map fun r => .top r.1 r.2

/-- The walk from `s` along a path with `n` links to spare: what it reaches, and the links it
has left. -/
def walk : ℕ → Spot V D ν → List (PathStep ν) → Except Errno (ℕ × Place V D κ ν)
  | 0 => fs.along (fun _ _ _ => .error .ELOOP) 0
  | n + 1 => fs.along
      (fun s t xs => (fs.start s t).bind fun s' => walk n s' (t.steps ++ xs)) (n + 1)

/-- The walk through a link. -/
def follow (s : Spot V D ν) (t : LinkTarget V ν) (xs : List (PathStep ν)) :
    ℕ → Except Errno (ℕ × Place V D κ ν)
  | 0 => .error .ELOOP
  | n + 1 => (fs.start s t).bind fun s' => fs.walk n s' (t.steps ++ xs)

/-- What a path on a volume leads to. -/
def locate (v : V) (xs : List (PathStep ν)) : Except Errno (Place V D κ ν) :=
  (fs.volume v).bind fun r => (fs.walk fs.maxLinks (.top r.1 r.2) xs).map Prod.snd

variable {fs} {n m k : ℕ} {s : Spot V D ν} {p : Place V D κ ν} {xs ys : List (PathStep ν)}
  {x : PathStep ν} {e : Errno} {v : V}

@[simp] lemma walk_nil : fs.walk n s [] = .ok (n, ⟨s, none⟩) := by cases n <;> rfl

@[simp] lemma walk_here : fs.walk n s (.here :: xs) = fs.walk n s xs := by cases n <;> rfl

@[simp] lemma walk_up : fs.walk n s (.up :: xs) = fs.walk n s.parent xs := by cases n <;> rfl

lemma walk_down (c : ν) : fs.walk n s (.down c :: xs) = match fs.lookup s.dir c with
    | .error e => .error e
    | .ok (name, .dir d) => fs.walk n (s.push name d) xs
    | .ok (name, .leaf k) => if xs = [] then .ok (n, ⟨s, some (name, k)⟩) else .error fs.notDir
    | .ok (_, .link t) => fs.follow s t xs n := by
  cases n <;> rfl

variable (fs) in
/-- The walk from what a walk has reached. -/
def onward (n : ℕ) (p : Place V D κ ν) (ys : List (PathStep ν)) :
    Except Errno (ℕ × Place V D κ ν) :=
  match p.leaf with
  | none => fs.walk n p.spot ys
  | some _ => if ys = [] then .ok (n, p) else .error fs.notDir

/-- A walk over a concatenation, where that holds of the links on the way. -/
lemma walk_append_of_follow (hf : ∀ s t xs ys, fs.follow s t (xs ++ ys) n
      = (fs.follow s t xs n).bind fun r => fs.onward r.1 r.2 ys) :
    fs.walk n s (xs ++ ys) = (fs.walk n s xs).bind fun r => fs.onward r.1 r.2 ys := by
  induction xs generalizing s with
  | nil => simp [Except.bind, onward]
  | cons x xs ih =>
      cases x with
      | here => simpa using ih
      | up => simpa using ih
      | down c =>
          rw [List.cons_append, walk_down, walk_down]
          rcases fs.lookup s.dir c with e | ⟨name, d | k | t⟩
          · rfl
          · exact ih
          · by_cases hx : xs = [] <;> by_cases hy : ys = [] <;>
              simp [hx, hy, Except.bind, onward]
          · exact hf s t xs ys

/-- A walk over a concatenation goes on from where the first part leads. -/
theorem walk_append (n : ℕ) (s : Spot V D ν) (xs ys : List (PathStep ν)) :
    fs.walk n s (xs ++ ys) = (fs.walk n s xs).bind fun r => fs.onward r.1 r.2 ys := by
  induction n generalizing s xs ys with
  | zero => exact walk_append_of_follow fun _ _ _ _ => rfl
  | succ n ih =>
      refine walk_append_of_follow fun s t xs ys => ?_
      simp only [follow]
      cases fs.start s t with
      | error e => rfl
      | ok s' =>
          have h := ih s' (t.steps ++ xs) ys
          rwa [List.append_assoc] at h

/-- The outcome of a walk with `k` more links to spare. -/
def withMore (k : ℕ) : Except Errno (ℕ × Place V D κ ν) → Except Errno (ℕ × Place V D κ ν)
  | .ok (m, p) => .ok (m + k, p)
  | .error e => .error e

lemma walk_more_of_follow (hf : ∀ s t xs, fs.follow s t xs n ≠ .error .ELOOP →
      fs.follow s t xs (n + k) = withMore k (fs.follow s t xs n))
    (h : fs.walk n s xs ≠ .error .ELOOP) :
    fs.walk (n + k) s xs = withMore k (fs.walk n s xs) := by
  induction xs generalizing s with
  | nil => simp [withMore]
  | cons x xs ih =>
      cases x with
      | here =>
          rw [walk_here] at h ⊢
          rw [ih h, walk_here]
      | up =>
          rw [walk_up] at h ⊢
          rw [ih h, walk_up]
      | down c =>
          rw [walk_down] at h
          rw [walk_down, walk_down]
          rcases hl : fs.lookup s.dir c with e | ⟨name, d | leaf | t⟩
          · rfl
          · rw [hl] at h
            exact ih h
          · by_cases hx : xs = [] <;> simp [hx, withMore]
          · rw [hl] at h
            exact hf s t xs h

/-- More links to spare change no outcome but the one that ran out of them. -/
theorem walk_more (k : ℕ) (h : fs.walk n s xs ≠ .error .ELOOP) :
    fs.walk (n + k) s xs = withMore k (fs.walk n s xs) := by
  induction n generalizing s xs with
  | zero => exact walk_more_of_follow (fun _ _ _ h => absurd rfl h) h
  | succ n ih =>
      refine walk_more_of_follow (fun s t xs h => ?_) h
      rw [Nat.succ_add]
      simp only [follow] at h ⊢
      cases hs : fs.start s t with
      | error e => rfl
      | ok s' =>
          rw [hs] at h
          exact ih h

/-! ### Real places -/

variable (fs) in
/-- Every name on the way down is spelled as the tree spells it, and is a directory. -/
def Chain (root : D) : List (ν × D) → Prop
  | [] => True
  | (c, d) :: down =>
      fs.lookup ((down.head?.map Prod.snd).getD root) c = .ok (c, .dir d) ∧ Chain root down

variable (fs) in
/-- A directory reached without links, by names as the tree spells them. -/
structure RealSpot (s : Spot V D ν) : Prop where
  volume : fs.volume s.volume = .ok (s.volume, s.root)
  chain : fs.Chain s.root s.down

variable (fs) in
structure RealPlace (p : Place V D κ ν) : Prop where
  spot : fs.RealSpot p.spot
  leaf : ∀ c k, p.leaf = some (c, k) → fs.lookup p.spot.dir c = .ok (c, .leaf k)

lemma RealSpot.parent (h : fs.RealSpot s) : fs.RealSpot s.parent := by
  refine ⟨h.volume, ?_⟩
  have hchain := h.chain
  rw [Spot.parent]
  cases hd : s.down with
  | nil => trivial
  | cons q down =>
      rw [hd] at hchain
      exact hchain.2

lemma RealSpot.push {c name : ν} {d : D} (h : fs.RealSpot s)
    (hl : fs.lookup s.dir c = .ok (name, .dir d)) : fs.RealSpot (s.push name d) :=
  ⟨h.volume, fs.lookup_self _ _ _ _ hl, h.chain⟩

lemma RealSpot.start {t : LinkTarget V ν} {s' : Spot V D ν} (h : fs.RealSpot s)
    (hs : fs.start s t = .ok s') : fs.RealSpot s' := by
  rw [FileTree.start] at hs
  cases hv : t.volume with
  | none =>
      rw [hv] at hs
      exact Except.ok.inj hs ▸ h
  | some v =>
      simp only [hv] at hs
      cases hr : fs.volume v with
      | error e => simp [hr, Except.map] at hs
      | ok r =>
          rw [hr] at hs
          obtain rfl := Except.ok.inj hs
          exact ⟨fs.volume_self _ _ _ hr, trivial⟩

lemma real_of_walk_of_follow (hf : ∀ s t xs m p, fs.RealSpot s →
      fs.follow s t xs n = .ok (m, p) → m ≤ n ∧ fs.RealPlace p)
    (hs : fs.RealSpot s) (h : fs.walk n s xs = .ok (m, p)) : m ≤ n ∧ fs.RealPlace p := by
  induction xs generalizing s with
  | nil =>
      rw [walk_nil] at h
      obtain ⟨rfl, rfl⟩ := Prod.mk.inj (Except.ok.inj h)
      exact ⟨le_rfl, hs, fun _ _ hc => nomatch hc⟩
  | cons x xs ih =>
      cases x with
      | here => exact ih hs (walk_here.symm.trans h)
      | up => exact ih hs.parent (walk_up.symm.trans h)
      | down c =>
          rw [walk_down] at h
          rcases hl : fs.lookup s.dir c with e | ⟨name, d | leaf | t⟩
          · simp [hl] at h
          · rw [hl] at h
            exact ih (hs.push hl) h
          · simp only [hl] at h
            split_ifs at h
            obtain ⟨rfl, rfl⟩ := Prod.mk.inj (Except.ok.inj h)
            refine ⟨le_rfl, hs, fun c' k' hc => ?_⟩
            obtain ⟨rfl, rfl⟩ := Prod.mk.inj (Option.some.inj hc)
            exact fs.lookup_self _ _ _ _ hl
          · rw [hl] at h
            exact hf s t xs m p hs h

/-- A walk from a real directory reaches a real place, and gains no links. -/
theorem real_of_walk (hs : fs.RealSpot s) (h : fs.walk n s xs = .ok (m, p)) :
    m ≤ n ∧ fs.RealPlace p := by
  induction n generalizing s xs m p with
  | zero => exact real_of_walk_of_follow (fun _ _ _ _ _ _ h => nomatch h) hs h
  | succ n ih =>
      refine real_of_walk_of_follow (fun s t xs m p hs h => ?_) hs h
      rw [follow] at h
      cases hs' : fs.start s t with
      | error e => simp [hs', Except.bind] at h
      | ok s' =>
          rw [hs'] at h
          obtain ⟨hm, hp⟩ := ih (hs.start hs') h
          exact ⟨hm.trans n.le_succ, hp⟩

/-- The names of a real directory lead back to it, at the cost of no link. -/
lemma walk_names (hs : fs.RealSpot s) (n : ℕ) (ys : List (PathStep ν)) :
    fs.walk n (.top s.volume s.root) (s.names.map .down ++ ys) = fs.walk n s ys := by
  obtain ⟨v, root, down⟩ := s
  have hchain := hs.chain
  clear hs
  induction down generalizing ys with
  | nil => rfl
  | cons q down ih =>
      obtain ⟨c, d⟩ := q
      rw [Spot.names_cons, List.map_append, List.append_assoc, ih _ hchain.2]
      refine (walk_down c).trans ?_
      have hl : fs.lookup (Spot.dir ⟨v, root, down⟩) c = .ok (c, .dir d) := hchain.1
      rw [hl]
      rfl

lemma onward_of_real (hp : fs.RealPlace p) (n : ℕ) (ys : List (PathStep ν)) :
    fs.walk n (.top p.volume p.spot.root) (p.names.map .down ++ ys) = fs.onward n p ys := by
  rw [Place.names, List.map_append, List.append_assoc, Place.volume, walk_names hp.spot, onward]
  cases hleaf : p.leaf with
  | none => rfl
  | some r =>
      obtain ⟨c, k⟩ := r
      refine (walk_down c).trans ?_
      rw [hp.leaf c k hleaf]
      by_cases hy : ys = []
      · subst hy
        simp [← hleaf]
      · simp [hy]

lemma locate_eq_ok (h : fs.locate v xs = .ok p) : ∃ v' d m, fs.volume v = .ok (v', d) ∧
    fs.walk fs.maxLinks (.top v' d) xs = .ok (m, p) ∧ m ≤ fs.maxLinks ∧ fs.RealPlace p := by
  rw [locate] at h
  cases hv : fs.volume v with
  | error e => simp [hv, Except.bind] at h
  | ok r =>
      rw [hv] at h
      cases hw : fs.walk fs.maxLinks (.top r.1 r.2) xs with
      | error e => simp [hw, Except.bind, Except.map] at h
      | ok q =>
          simp only [Except.bind, hw, Except.map, Except.ok.injEq] at h
          obtain ⟨m, p'⟩ := q
          obtain rfl : p' = p := h
          obtain ⟨hm, hp⟩ := real_of_walk (s := .top r.1 r.2)
            ⟨fs.volume_self _ _ _ hv, trivial⟩ hw
          exact ⟨r.1, r.2, m, rfl, hw, hm, hp⟩

lemma locate_onward (hp : fs.RealPlace p) (ys : List (PathStep ν)) :
    fs.locate p.volume (p.names.map .down ++ ys)
      = (fs.onward fs.maxLinks p ys).map Prod.snd := by
  have hv : fs.volume p.volume = .ok (p.volume, p.spot.root) := hp.spot.volume
  rw [locate, hv]
  exact congrArg (Except.map Prod.snd) (onward_of_real hp fs.maxLinks ys)

/-- The real path of what a path leads to leads back there. -/
theorem locate_names (h : fs.locate v xs = .ok p) :
    fs.locate p.volume (p.names.map .down) = .ok p := by
  obtain ⟨v', d, m, -, -, -, hp⟩ := locate_eq_ok h
  have hback := locate_onward hp []
  rw [List.append_nil] at hback
  rw [hback, onward]
  cases hleaf : p.leaf with
  | none => simp [Except.map, ← hleaf]
  | some r => simp [Except.map]

/-- A walk that fails at its first step fails with more links to spare and more steps to go. -/
lemma onward_error (hm : m ≤ n) (h : fs.onward m p [x] = .error e) (he : e ≠ .ELOOP)
    (ys : List (PathStep ν)) : fs.onward n p (x :: ys) = .error e := by
  rw [onward] at h ⊢
  cases hleaf : p.leaf with
  | some r =>
      rw [hleaf] at h
      simpa using h
  | none =>
      rw [hleaf] at h
      have hwalk : fs.walk m p.spot [x] = .error e := h
      obtain ⟨k, rfl⟩ := Nat.exists_eq_add_of_le hm
      have hone : fs.walk (m + k) p.spot [x] = .error e := by
        rw [walk_more k (by rw [hwalk]; simpa using he), hwalk, withMore]
      have happ : fs.walk (m + k) p.spot (x :: ys) = _ := walk_append (m + k) p.spot [x] ys
      rwa [hone] at happ

/-- What fails right below a path fails below its real path, however far below. -/
theorem locate_missing (h : fs.locate v xs = .ok p) (h' : fs.locate v (xs ++ [x]) = .error e)
    (he : e ≠ .ELOOP) (ys : List (PathStep ν)) :
    fs.locate p.volume (p.names.map .down ++ x :: ys) = .error e := by
  obtain ⟨v', d, m, hv, hw, hm, hp⟩ := locate_eq_ok h
  have hstuck : fs.onward m p [x] = .error e := by
    rw [locate, hv] at h'
    simp only [Except.bind, walk_append, hw] at h'
    cases ho : fs.onward m p [x] with
    | ok r => simp [ho, Except.map] at h'
    | error e' => simpa [ho, Except.map] using h'
  rw [locate_onward hp, onward_error hm hstuck he ys]
  rfl

/-! ### Creating -/

/-- The write up to the next link. -/
def openAlong (fs : FileTree V D κ ν)
    (follow : Spot V D ν → LinkTarget V ν → List (PathStep ν) → Except Errno (Spot V D ν × ν)) :
    Spot V D ν → List (PathStep ν) → Except Errno (Spot V D ν × ν)
  | _, [] => .error .EISDIR
  | s, .here :: xs => openAlong fs follow s xs
  | s, .up :: xs => openAlong fs follow s.parent xs
  | s, .down c :: xs => match fs.lookup s.dir c with
      | .error e => if e = .ENOENT ∧ xs = [] then .ok (s, c) else .error e
      | .ok (name, .dir d) => openAlong fs follow (s.push name d) xs
      | .ok (name, .leaf _) => if xs = [] then .ok (s, name) else .error fs.notDir
      | .ok (_, .link t) => follow s t xs

/-- Opening a file for writing, created where it is missing: the directory and the name that
are written, links followed to the end. -/
def openWrite (fs : FileTree V D κ ν) :
    ℕ → Spot V D ν → List (PathStep ν) → Except Errno (Spot V D ν × ν)
  | 0 => fs.openAlong fun _ _ _ => .error .ELOOP
  | n + 1 => fs.openAlong
      fun s t xs => (fs.start s t).bind fun s' => openWrite fs n s' (t.steps ++ xs)

/-- Creating the directories of a path where they are missing: the deepest one that is there,
and the names of those to be created below it. A link without a target is there, and is no
directory. -/
def makeDirs (fs : FileTree V D κ ν) (s : Spot V D ν) : List ν → Except Errno (Spot V D ν × List ν)
  | [] => .ok (s, [])
  | c :: cs => match fs.walk fs.maxLinks s [.down c] with
      | .ok (_, ⟨s', none⟩) => makeDirs fs s' cs
      | .ok (_, ⟨_, some _⟩) => .error .EEXIST
      | .error e => match fs.lookup s.dir c with
          | .error .ENOENT => .ok (s, c :: cs)
          | _ => .error e

/-- Everything created or written when the missing directories above a path are created and
then the file itself is opened for writing. -/
def touched (fs : FileTree V D κ ν) (v : V) (names : List ν) : List (V × List ν) :=
  match fs.volume v, names.getLast? with
  | .ok (v', d), some last => match fs.makeDirs (.top v' d) names.dropLast with
      | .error _ => []
      | .ok (_, []) => match fs.openWrite fs.maxLinks (.top v' d) (names.map .down) with
          | .error _ => []
          | .ok (s, c) => [(s.volume, s.names ++ [c])]
      | .ok (s, fresh) =>
          (fresh ++ [last]).inits.tail.map fun made => (s.volume, s.names ++ made)
  | _, _ => []

lemma openWrite_down (c : ν) : fs.openWrite n s (.down c :: xs) = match fs.lookup s.dir c with
    | .error e => if e = .ENOENT ∧ xs = [] then .ok (s, c) else .error e
    | .ok (name, .dir d) => fs.openWrite n (s.push name d) xs
    | .ok (name, .leaf _) => if xs = [] then .ok (s, name) else .error fs.notDir
    | .ok (_, .link t) => match n with
      | 0 => .error .ELOOP
      | n + 1 => (fs.start s t).bind fun s' => fs.openWrite n s' (t.steps ++ xs) := by
  cases n <;> rfl

@[simp] lemma openWrite_nil : fs.openWrite n s [] = .error .EISDIR := by cases n <;> rfl

/-- The names of a real directory lead a write there. -/
lemma openWrite_names (hs : fs.RealSpot s) (n : ℕ) (ys : List (PathStep ν)) :
    fs.openWrite n (.top s.volume s.root) (s.names.map .down ++ ys) = fs.openWrite n s ys := by
  obtain ⟨v, root, down⟩ := s
  have hchain := hs.chain
  clear hs
  induction down generalizing ys with
  | nil => rfl
  | cons q down ih =>
      obtain ⟨c, d⟩ := q
      rw [Spot.names_cons, List.map_append, List.append_assoc, ih _ hchain.2]
      refine (openWrite_down c).trans ?_
      have hl : fs.lookup (Spot.dir ⟨v, root, down⟩) c = .ok (c, .dir d) := hchain.1
      rw [hl]
      rfl

/-- The directories of a real directory are there. -/
lemma makeDirs_names (hs : fs.RealSpot s) (cs : List ν) :
    fs.makeDirs (.top s.volume s.root) (s.names ++ cs) = fs.makeDirs s cs := by
  obtain ⟨v, root, down⟩ := s
  have hchain := hs.chain
  clear hs
  induction down generalizing cs with
  | nil => rfl
  | cons q down ih =>
      obtain ⟨c, d⟩ := q
      have hl : fs.lookup (Spot.dir ⟨v, root, down⟩) c = .ok (c, .dir d) := hchain.1
      have hwalk : fs.walk fs.maxLinks ⟨v, root, down⟩ [.down c]
          = .ok (fs.maxLinks, ⟨⟨v, root, (c, d) :: down⟩, none⟩) := by
        rw [walk_down, hl]
        exact walk_nil
      rw [Spot.names_cons, List.append_assoc, ih _ hchain.2, List.singleton_append, makeDirs, hwalk]

lemma touched_concat {v' : V} {d : D} (hv : fs.volume v = .ok (v', d)) (init : List ν) (last : ν) :
    fs.touched v (init ++ [last]) = match fs.makeDirs (.top v' d) init with
      | .error _ => []
      | .ok (_, []) =>
          match fs.openWrite fs.maxLinks (.top v' d) ((init ++ [last]).map .down) with
          | .error _ => []
          | .ok (s, c) => [(s.volume, s.names ++ [c])]
      | .ok (s, fresh) =>
          (fresh ++ [last]).inits.tail.map fun made => (s.volume, s.names ++ made) := by
  rw [touched, hv, List.getLast?_concat, List.dropLast_concat]

/-- In a directory that is there, one file is written: the one the write leads to. -/
lemma touched_in_dir (hs : fs.RealSpot s) (c : ν) : fs.touched s.volume (s.names ++ [c])
      = match fs.openWrite fs.maxLinks s [.down c] with
        | .error _ => []
        | .ok (s', c') => [(s'.volume, s'.names ++ [c'])] := by
  have hdirs := makeDirs_names hs []
  have hopen := openWrite_names hs fs.maxLinks [.down c]
  rw [List.append_nil] at hdirs
  rw [touched_concat hs.volume, hdirs, List.map_append, List.map_singleton, hopen]
  rfl

/-- Writing to what is there writes there, or nowhere. -/
theorem touched_existing (hp : fs.RealPlace p) :
    ∀ loc ∈ fs.touched p.volume p.names, loc = (p.volume, p.names) := by
  obtain ⟨s, leaf⟩ := p
  intro loc hloc
  cases leaf with
  | some r =>
      obtain ⟨c, k⟩ := r
      have hopen : fs.openWrite fs.maxLinks s [.down c] = .ok (s, c) := by
        rw [openWrite_down, hp.leaf c k rfl]
        rfl
      rw [Place.names_leaf] at hloc ⊢
      rw [Place.volume, touched_in_dir hp.spot, hopen] at hloc
      exact List.mem_singleton.mp hloc
  | none =>
      obtain ⟨v, root, down⟩ := s
      cases down with
      | nil =>
          have hv : fs.volume v = .ok (v, root) := hp.spot.volume
          have hnone : fs.touched v [] = [] := by rw [touched, hv]; rfl
          exact absurd hloc (hnone ▸ List.not_mem_nil)
      | cons q down =>
          obtain ⟨c, d⟩ := q
          have hl : fs.lookup (Spot.dir ⟨v, root, down⟩) c = .ok (c, .dir d) := hp.spot.chain.1
          have hopen : fs.openWrite fs.maxLinks ⟨v, root, down⟩ [.down c] = .error .EISDIR := by
            rw [openWrite_down, hl]
            exact openWrite_nil
          have hdir := touched_in_dir (s := ⟨v, root, down⟩) hp.spot.parent c
          rw [hopen] at hdir
          rw [Place.names_dir, Spot.names_cons, Place.volume, hdir] at hloc
          exact absurd hloc List.not_mem_nil

section Below

variable {first : ν} {below : List ν}

/-- Below a leaf nothing can be created. -/
lemma touched_below_leaf (hp : fs.RealPlace p) (hleaf : p.leaf ≠ none) :
    fs.touched p.volume (p.names ++ first :: below) = [] := by
  obtain ⟨s, leaf⟩ := p
  obtain ⟨⟨c, k⟩, rfl⟩ := Option.ne_none_iff_exists'.mp hleaf
  have hwalk : fs.walk fs.maxLinks s [.down c] = .ok (fs.maxLinks, ⟨s, some (c, k)⟩) := by
    rw [walk_down, hp.leaf c k rfl]
    rfl
  obtain hnil | ⟨init, last, hlast⟩ := List.eq_nil_or_concat' (first :: below)
  · cases hnil
  · have hdirs := makeDirs_names hp.spot (c :: init)
    rw [makeDirs, hwalk] at hdirs
    rw [Place.volume, Place.names_leaf, hlast, ← List.append_assoc, List.append_assoc s.names,
      touched_concat hp.spot.volume, List.singleton_append, hdirs]

/-- Below a directory, where two components or more are missing, all of them are created. -/
lemma touched_below_missing (hs : fs.RealSpot s) (hbelow : below ≠ [])
    (hmiss : fs.walk fs.maxLinks s [.down first] = .error .ENOENT)
    (hl : fs.lookup s.dir first = .error .ENOENT) :
    fs.touched s.volume (s.names ++ first :: below) =
      (first :: below).inits.tail.map fun made => (s.volume, s.names ++ made) := by
  obtain hnil | ⟨init, last, rfl⟩ := List.eq_nil_or_concat' below
  · exact absurd hnil hbelow
  · have hdirs := makeDirs_names hs (first :: init)
    rw [makeDirs, hmiss, hl] at hdirs
    rw [← List.cons_append, ← List.append_assoc, touched_concat hs.volume, hdirs]

/-- A link without a target keeps the directories below it from being created. -/
lemma touched_below_taken (hs : fs.RealSpot s) (hbelow : below ≠ [])
    (hmiss : fs.walk fs.maxLinks s [.down first] = .error .ENOENT)
    (hl : fs.lookup s.dir first ≠ .error .ENOENT) :
    fs.touched s.volume (s.names ++ first :: below) = [] := by
  obtain hnil | ⟨init, last, rfl⟩ := List.eq_nil_or_concat' below
  · exact absurd hnil hbelow
  · have hdirs := makeDirs_names hs (first :: init)
    rw [makeDirs, hmiss] at hdirs
    rw [← List.cons_append, ← List.append_assoc, touched_concat hs.volume, hdirs]
    rcases hentry : fs.lookup s.dir first with e | r
    · cases e with
      | ENOENT => exact absurd hentry hl
      | ENOTDIR | EISDIR | EEXIST | ELOOP | EACCES | EPERM | EIO => rfl
    · rfl

end Below

/-! ### Missing paths -/

/-- What is missing above is missing below. -/
lemma locate_append_error (h : fs.locate v xs = .error e) (ys : List (PathStep ν)) :
    fs.locate v (xs ++ ys) = .error e := by
  rw [locate] at h ⊢
  cases hv : fs.volume v with
  | error e' =>
      rw [hv] at h
      exact h
  | ok r =>
      rw [hv] at h
      simp only [Except.bind] at h ⊢
      rw [walk_append]
      cases hw : fs.walk fs.maxLinks (.top r.1 r.2) xs with
      | ok q => simp [hw, Except.map] at h
      | error e' => simpa [hw, Except.map, Except.bind] using h

/-- What fails right below a path fails right below the directory it leads to. -/
lemma walk_missing {s : Spot V D ν} (h : fs.locate v xs = .ok ⟨s, none⟩)
    (h' : fs.locate v (xs ++ [x]) = .error e) (he : e ≠ .ELOOP) :
    fs.walk fs.maxLinks s [x] = .error e := by
  have hmiss := locate_missing h h' he []
  obtain ⟨-, -, -, -, -, -, hreal⟩ := locate_eq_ok h
  rw [locate_onward hreal] at hmiss
  have hwalk : (fs.walk fs.maxLinks s [x]).map Prod.snd = .error e := hmiss
  cases hw : fs.walk fs.maxLinks s [x] with
  | ok q => simp [hw, Except.map] at hwalk
  | error e' => simpa [hw, Except.map] using hwalk

end FileTree
