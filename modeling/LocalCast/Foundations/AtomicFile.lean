import LocalCast.Foundations.Disk
import LocalCast.Foundations.Runs

/-!
A file that is replaced as a whole: its new bytes are written under another name, which is then
renamed over it.

* `Flight`, `State`: a replacement under way, and any number of them over one disk.
* `step`: what a replacement does, one call of the file system at a time, and how it can end:
  it fails, the program is killed, or the power goes.
* `Whole`: the invariant; `whole_step` is what one step keeps.
* `content_of_run`: after any run the file holds the last value that was renamed over it, whole.
* `exists_run_replace`: a replacement that nothing disturbs is finished.
* `run_map`: the disk depends on what is written of the values, and on nothing else of them.

A file whose bytes were flushed keeps them when the power goes; one whose bytes were not holds
anything then. Renaming is not torn.
-/

namespace AtomicFile

open Runs

variable {π β : Type*}

/-! ### Replacements -/

/-- A replacement under way: the inode of the temporary file, the value it is written from, how
many bytes have been written, and whether these have been flushed. -/
structure Flight (β : Type*) where
  inode : ℕ
  value : β
  written : ℕ
  synced : Bool

/-- The disk, the inodes with bytes that were not flushed, the replacements under way by the names
of their temporary files, and the value of the last one that was finished. -/
structure State (π β : Type*) where
  disk : Disk π
  unsynced : ℕ → Bool
  flights : π → Option (Flight β)
  committed : Option β

inductive Action (π β : Type*) where
  /-- The temporary file is opened, and emptied if it was there. -/
  | start (temp : π) (value : β)
  /-- At most so many of the remaining bytes are written. -/
  | write (temp : π) (n : ℕ)
  | sync (temp : π)
  | rename (temp : π)
  /-- A call has failed, and the temporary file is removed or stays. -/
  | abandon (temp : π) (removed : Bool)
  /-- The program is killed. -/
  | crash
  /-- The power goes. -/
  | powerCut (garbage : ℕ → List UInt8)

/-- A disk on which nothing is under way, and no file is there yet that was replaced. -/
def State.init (d : Disk π) : State π β := ⟨d, fun _ => false, fun _ => none, none⟩

section Step

variable [DecidableEq π] (encode : β → List UInt8) (target : π) (flush : Bool)

namespace State

/-- The temporary file of a replacement. -/
def start (s : State π β) (temp : π) (value : β) (x : ℕ) : State π β :=
  { s with
    disk := s.disk.truncate temp
    unsynced := Function.update s.unsynced x true
    flights := Function.update s.flights temp (some ⟨x, value, 0, false⟩) }

def write (s : State π β) (temp : π) (f : Flight β) (part : List UInt8) : State π β :=
  { s with
    disk := s.disk.write f.inode f.written part
    unsynced := Function.update s.unsynced f.inode true
    flights := Function.update s.flights temp
      (some { f with written := f.written + part.length, synced := false }) }

def sync (s : State π β) (temp : π) (f : Flight β) : State π β :=
  { s with
    unsynced := Function.update s.unsynced f.inode false
    flights := Function.update s.flights temp (some { f with synced := true }) }

def rename (s : State π β) (temp : π) (f : Flight β) : State π β :=
  { s with
    disk := s.disk.rename temp target
    flights := Function.update s.flights temp none
    committed := some f.value }

def abandon (s : State π β) (temp : π) (removed : Bool) : State π β :=
  { s with
    disk := if removed then s.disk.remove temp else s.disk
    flights := Function.update s.flights temp none }

def crash (s : State π β) : State π β := { s with flights := fun _ => none }

/-- What was not flushed is lost. -/
def powerCut (s : State π β) (garbage : ℕ → List UInt8) : State π β :=
  { s with
    disk := { s.disk with bytes := fun x => if s.unsynced x then garbage x else s.disk.bytes x }
    unsynced := fun _ => false
    flights := fun _ => none }

end State

/-- One step. With `flush` a file is flushed before it is renamed, and the power can go. -/
def step (s : State π β) : Action π β → Option (State π β)
  | .start temp value =>
      if temp ≠ target ∧ (s.flights temp).isNone then
        ((s.disk.truncate temp).names temp).map (s.start temp value)
      else none
  | .write temp n =>
      (s.flights temp).map fun f =>
        s.write temp f (((encode f.value).drop f.written).take n)
  | .sync temp =>
      (s.flights temp).bind fun f =>
        if f.written = (encode f.value).length then some (s.sync temp f) else none
  | .rename temp =>
      (s.flights temp).bind fun f =>
        if f.written = (encode f.value).length ∧ (flush → f.synced) then
          some (s.rename target temp f)
        else none
  | .abandon temp removed => (s.flights temp).map fun _ => s.abandon temp removed
  | .crash => some s.crash
  | .powerCut garbage => if flush then some (s.powerCut garbage) else none

/-! ### The file is whole -/

/-- A replacement has written the beginning of its value, under a name that is not the file's;
one that was flushed has written all of it. -/
structure Underway (s : State π β) (temp : π) (f : Flight β) : Prop where
  temp_ne : temp ≠ target
  names : s.disk.names temp = some f.inode
  bytes : s.disk.bytes f.inode = (encode f.value).take f.written
  written_le : f.written ≤ (encode f.value).length
  synced : f.synced = true →
    f.written = (encode f.value).length ∧ s.unsynced f.inode = false

/-- The file holds the value of the last replacement that was finished, and where files are
flushed it is. -/
structure Whole (s : State π β) : Prop where
  content : s.disk.content target = s.committed.map encode
  flushed : flush = true → ∀ x, s.disk.names target = some x → s.unsynced x = false
  underway : ∀ temp f, s.flights temp = some f → Underway encode target s temp f

variable {encode target flush} {s t : State π β}

section Frame

omit [DecidableEq π]

/-- A replacement's inode is neither the file's nor that of another replacement. -/
lemma Underway.inode_ne {temp : π} {f : Flight β} (h : Underway encode target s temp f) {p : π}
    (hp : p ≠ temp) {x : ℕ} (hx : s.disk.names p = some x) : x ≠ f.inode := by
  rintro rfl
  exact hp (s.disk.inj p temp f.inode hx h.names)

/-- A step that leaves the name and the bytes of a replacement leaves it under way. -/
lemma Underway.frame {p : π} {f : Flight β} (h : Underway encode target s p f)
    (hnames : t.disk.names p = s.disk.names p)
    (hbytes : t.disk.bytes f.inode = s.disk.bytes f.inode)
    (hsynced : t.unsynced f.inode = s.unsynced f.inode) : Underway encode target t p f where
  temp_ne := h.temp_ne
  names := hnames.trans h.names
  bytes := hbytes.trans h.bytes
  written_le := h.written_le
  synced hf := ⟨(h.synced hf).1, hsynced.trans (h.synced hf).2⟩

lemma content_eq_some {p : π} {x : ℕ} (h : s.disk.names p = some x) :
    s.disk.content p = some (s.disk.bytes x) := by
  rw [Disk.content, h, Option.map_some]

end Frame

lemma bytes_truncate (d : Disk π) {p : π} {x y : ℕ} (hx : (d.truncate p).names p = some x)
    (hy : y ≠ x) : (d.truncate p).bytes y = d.bytes y := by
  cases hp : d.names p with
  | none =>
      have htruncate : d.truncate p = d.createNew p := by rw [Disk.truncate, hp]
      rw [htruncate, Disk.names_createNew, if_pos rfl, Option.some.injEq] at hx
      rw [htruncate]
      exact Function.update_of_ne (hx ▸ hy) _ _
  | some z =>
      have htruncate : d.truncate p = { d with bytes := Function.update d.bytes z [] } := by
        rw [Disk.truncate, hp]
      rw [htruncate] at hx ⊢
      obtain rfl : z = x := Option.some.inj (hp.symm.trans hx)
      exact Function.update_of_ne hy _ _

/-- What stands before the offset, and the bytes that follow. -/
lemma writeAt_take (l : List UInt8) {w : ℕ} (hw : w ≤ l.length) (n : ℕ) :
    Disk.writeAt (l.take w) w ((l.drop w).take n) =
      l.take (w + ((l.drop w).take n).length) := by
  have hlength : (l.take w).length = w := List.length_take_of_le hw
  have hpart : (l.drop w).take n = (l.drop w).take ((l.drop w).take n).length := by
    rw [List.length_take, ← List.take_eq_take_min]
  have hbehind : (l.take w).drop (w + ((l.drop w).take n).length) = [] :=
    List.drop_of_length_le (by omega)
  rw [Disk.writeAt, List.take_take, Nat.min_self, hlength, Nat.sub_self, List.replicate_zero,
    List.append_nil, hbehind, List.append_nil, List.take_add, ← hpart]

lemma Whole.start (h : Whole encode target flush s) {temp : π} {value : β} {x : ℕ}
    (htemp : temp ≠ target) (hx : (s.disk.truncate temp).names temp = some x) :
    Whole encode target flush (s.start temp value x) := by
  obtain ⟨y, hy, hempty, hold⟩ := s.disk.exists_truncate temp
  obtain rfl : x = y := Option.some.inj (hx.symm.trans hy)
  have hother {p : π} (hp : p ≠ temp) {z : ℕ} (hz : s.disk.names p = some z) : z ≠ x := by
    rintro rfl
    rcases hold with hold | rfl
    · exact hp (s.disk.inj p temp z hz hold)
    · exact (s.disk.lt_next p _ hz).ne rfl
  refine ⟨?_, ?_, ?_⟩
  · exact (s.disk.content_truncate htemp.symm).trans h.content
  · intro hflush z hz
    have hz' : s.disk.names target = some z := by
      rwa [State.start, Disk.names_truncate_of_ne _ _ _ htemp.symm] at hz
    simp only [State.start, Function.update_of_ne (hother htemp.symm hz')]
    exact h.flushed hflush z hz'
  · intro p f hf
    by_cases hp : p = temp
    · subst hp
      simp only [State.start, Function.update_self, Option.some.injEq] at hf
      subst hf
      exact ⟨htemp, hx, hempty, Nat.zero_le _, by simp⟩
    · simp only [State.start, Function.update_of_ne hp] at hf
      have hunder := h.underway p f hf
      have hne := hother hp hunder.names
      exact hunder.frame (Disk.names_truncate_of_ne _ _ _ hp) (bytes_truncate _ hx hne)
        (Function.update_of_ne hne _ _)

lemma Whole.write (h : Whole encode target flush s) {temp : π} {f : Flight β}
    (hf : s.flights temp = some f) (n : ℕ) :
    Whole encode target flush (s.write temp f (((encode f.value).drop f.written).take n)) := by
  have hunder := h.underway temp f hf
  refine ⟨?_, ?_, ?_⟩
  · refine (s.disk.content_write f.written _ fun hname => ?_).trans h.content
    exact hunder.inode_ne hunder.temp_ne.symm hname rfl
  · intro hflush z hz
    have hne := hunder.inode_ne hunder.temp_ne.symm (x := z) hz
    simp only [State.write, Function.update_of_ne hne]
    exact h.flushed hflush z hz
  · intro p g hg
    by_cases hp : p = temp
    · subst hp
      simp only [State.write, Function.update_self, Option.some.injEq] at hg
      subst hg
      refine ⟨hunder.temp_ne, hunder.names, ?_, ?_, by simp⟩
      · simp only [State.write, Disk.write, Function.update_self]
        rw [hunder.bytes]
        exact writeAt_take _ hunder.written_le n
      · simp only [List.length_take, List.length_drop]
        have := hunder.written_le
        omega
    · simp only [State.write, Function.update_of_ne hp] at hg
      have hother := h.underway p g hg
      have hne := hunder.inode_ne hp hother.names
      exact hother.frame rfl (Function.update_of_ne hne _ _) (Function.update_of_ne hne _ _)

lemma Whole.sync (h : Whole encode target flush s) {temp : π} {f : Flight β}
    (hf : s.flights temp = some f) (hwritten : f.written = (encode f.value).length) :
    Whole encode target flush (s.sync temp f) := by
  have hunder := h.underway temp f hf
  refine ⟨h.content, ?_, ?_⟩
  · intro hflush z hz
    have hne := hunder.inode_ne hunder.temp_ne.symm (x := z) hz
    simp only [State.sync, Function.update_of_ne hne]
    exact h.flushed hflush z hz
  · intro p g hg
    by_cases hp : p = temp
    · subst hp
      simp only [State.sync, Function.update_self, Option.some.injEq] at hg
      subst hg
      exact ⟨hunder.temp_ne, hunder.names, hunder.bytes, hunder.written_le,
        fun _ => ⟨hwritten, Function.update_self _ _ _⟩⟩
    · simp only [State.sync, Function.update_of_ne hp] at hg
      have hother := h.underway p g hg
      exact hother.frame rfl rfl (Function.update_of_ne (hunder.inode_ne hp hother.names) _ _)

lemma Whole.rename (h : Whole encode target flush s) {temp : π} {f : Flight β}
    (hf : s.flights temp = some f) (hwritten : f.written = (encode f.value).length)
    (hsynced : flush = true → f.synced = true) :
    Whole encode target flush (s.rename target temp f) := by
  have hunder := h.underway temp f hf
  refine ⟨?_, ?_, ?_⟩
  · calc (s.disk.rename temp target).content target
        = s.disk.content temp := s.disk.content_rename_self
      _ = some (s.disk.bytes f.inode) := content_eq_some hunder.names
      _ = some (encode f.value) := by rw [hunder.bytes, hwritten, List.take_length]
  · intro hflush z hz
    simp only [State.rename, Disk.names_rename, if_true] at hz
    obtain rfl : f.inode = z := Option.some.inj (hunder.names.symm.trans hz)
    exact (hunder.synced (hsynced hflush)).2
  · intro p g hg
    by_cases hp : p = temp
    · subst hp
      simp [State.rename] at hg
    · simp only [State.rename, Function.update_of_ne hp] at hg
      have hother := h.underway p g hg
      refine hother.frame ?_ rfl rfl
      simp only [State.rename, Disk.names_rename, if_neg hother.temp_ne, if_neg hp]

lemma Whole.abandon (h : Whole encode target flush s) {temp : π} {f : Flight β}
    (hf : s.flights temp = some f) (removed : Bool) :
    Whole encode target flush (s.abandon temp removed) := by
  have hne : target ≠ temp := (h.underway temp f hf).temp_ne.symm
  have hnames {p : π} (hp : p ≠ temp) :
      (s.abandon temp removed).disk.names p = s.disk.names p := by
    cases removed with
    | false => rfl
    | true =>
        simp only [State.abandon, if_true, Disk.names_remove]
        exact if_neg hp
  have hbytes : (s.abandon temp removed).disk.bytes = s.disk.bytes := by
    cases removed <;> rfl
  refine ⟨?_, ?_, ?_⟩
  · rw [Disk.content, hnames hne, hbytes]
    exact h.content
  · intro hflush z hz
    rw [hnames hne] at hz
    exact h.flushed hflush z hz
  · intro p g hg
    by_cases hp : p = temp
    · subst hp
      simp [State.abandon] at hg
    · simp only [State.abandon, Function.update_of_ne hp] at hg
      exact (h.underway p g hg).frame (hnames hp) (by rw [hbytes]) rfl

omit [DecidableEq π] in
lemma Whole.powerCut (h : Whole encode target flush s) (hflush : flush = true)
    (garbage : ℕ → List UInt8) : Whole encode target flush (s.powerCut garbage) := by
  refine ⟨?_, fun _ _ _ => rfl, by simp [State.powerCut]⟩
  cases hname : s.disk.names target with
  | none =>
      have hold := h.content
      rw [Disk.content, hname] at hold
      simpa [State.powerCut, Disk.content, hname] using hold
  | some x =>
      have hold := h.content
      rw [content_eq_some hname] at hold
      have hkept := h.flushed hflush x hname
      simpa [State.powerCut, Disk.content, hname, hkept] using hold

/-- **Every step keeps the file whole.** -/
theorem whole_step {a : Action π β} (h : Whole encode target flush s)
    (hstep : step encode target flush s a = some t) : Whole encode target flush t := by
  cases a with
  | start temp value =>
      simp only [step] at hstep
      split_ifs at hstep with hguard
      obtain ⟨x, hx, rfl⟩ := Option.map_eq_some_iff.mp hstep
      exact h.start hguard.1 hx
  | write temp n =>
      obtain ⟨f, hf, rfl⟩ := Option.map_eq_some_iff.mp hstep
      exact h.write hf n
  | sync temp =>
      obtain ⟨f, hf, hguard⟩ := Option.bind_eq_some_iff.mp hstep
      split_ifs at hguard with hwritten
      cases hguard
      exact h.sync hf hwritten
  | rename temp =>
      obtain ⟨f, hf, hguard⟩ := Option.bind_eq_some_iff.mp hstep
      split_ifs at hguard with hdone
      cases hguard
      exact h.rename hf hdone.1 hdone.2
  | abandon temp removed =>
      obtain ⟨f, hf, rfl⟩ := Option.map_eq_some_iff.mp hstep
      exact h.abandon hf removed
  | crash =>
      cases hstep
      exact ⟨h.content, h.flushed, by simp [State.crash]⟩
  | powerCut garbage =>
      simp only [step] at hstep
      split_ifs at hstep with hflush
      cases hstep
      exact h.powerCut hflush garbage

omit [DecidableEq π] in
lemma whole_init {d : Disk π} (h : d.content target = none) :
    Whole encode target flush (State.init d) :=
  ⟨h, fun _ _ _ => rfl, by simp [State.init]⟩

/-- **The file is whole after any run**: it holds what was renamed over it last. -/
theorem content_of_run {as : List (Action π β)} (h : Whole encode target flush s)
    (hrun : Run (Steps (step encode target flush)) s as t) :
    t.disk.content target = t.committed.map encode :=
  (hrun.invariant (fun _ _ _ hwhole hstep => whole_step hwhole hstep) h).content

/-- A replacement that nothing disturbs is finished. -/
lemma exists_run_replace (encode : β → List UInt8) (flush : Bool) {temp : π}
    (htemp : temp ≠ target) (hfree : s.flights temp = none) (value : β) :
    ∃ t, Run (Steps (step encode target flush)) s
        [.start temp value, .write temp (encode value).length, .sync temp, .rename temp] t ∧
      t.committed = some value := by
  obtain ⟨x, hx, -, -⟩ := s.disk.exists_truncate temp
  set opened := s.start temp value x with hopened
  set f : Flight β := ⟨x, value, 0, false⟩
  set part := ((encode value).drop 0).take (encode value).length with hpart
  have hwritten : 0 + part.length = (encode value).length := by simp [hpart]
  set filled := opened.write temp f part with hfilled
  set g : Flight β := ⟨x, value, 0 + part.length, false⟩
  set flushed := filled.sync temp g with hflushed
  set k : Flight β := ⟨x, value, 0 + part.length, true⟩
  refine ⟨flushed.rename target temp k, ?_, rfl⟩
  refine .cons (t := opened) ?_ (.cons (t := filled) ?_ (.cons (t := flushed) ?_ (.single ?_)))
  · simp only [Steps, step]
    rw [if_pos ⟨htemp, by simp [hfree]⟩, hx]
    rfl
  · simp only [Steps, step, hopened, State.start, Function.update_self, Option.map_some]
    rfl
  · simp only [Steps, step, hfilled, State.write, Function.update_self, Option.bind_some]
    rw [if_pos hwritten]
    rfl
  · simp only [Steps, step, hflushed, State.sync, Function.update_self, Option.bind_some]
    rw [if_pos ⟨hwritten, fun _ => trivial⟩]

/-! ### A replacement that is killed -/

/-- Nothing is under way. -/
def Idle (s : State π β) : Prop := ∀ p, s.flights p = none

/-- The calls of a replacement that does not flush: the file is opened, written in two parts, and
renamed. -/
def calls (encode : β → List UInt8) (temp : π) (value : β) (n : ℕ) : List (Action π β) :=
  [.start temp value, .write temp n, .write temp (encode value).length, .rename temp]

/-- The first calls of a replacement, after which the program is killed. -/
def killedAfter (encode : β → List UInt8) (temp : π) (value : β) (n k : ℕ) :
    List (Action π β) := (calls encode temp value n).take k ++ [.crash]

section Killed

variable {temp : π} {value : β}

lemma step_start (encode : β → List UInt8) (flush : Bool) (value : β) (htemp : temp ≠ target)
    (hfree : s.flights temp = none) :
    ∃ t x, step encode target flush s (.start temp value) = some t ∧
      t.flights = Function.update s.flights temp (some ⟨x, value, 0, false⟩) ∧
      t.committed = s.committed := by
  obtain ⟨x, hx, -, -⟩ := s.disk.exists_truncate temp
  refine ⟨s.start temp value x, x, ?_, rfl, rfl⟩
  simp only [step]
  rw [if_pos ⟨htemp, by simp [hfree]⟩, hx]
  rfl

lemma step_write (encode : β → List UInt8) (target : π) (flush : Bool) {f : Flight β}
    (hf : s.flights temp = some f)
    (hle : f.written ≤ (encode f.value).length) (n : ℕ) :
    ∃ t, step encode target flush s (.write temp n) = some t ∧
      t.flights = Function.update s.flights temp
        (some ⟨f.inode, f.value, min (f.written + n) (encode f.value).length, false⟩) ∧
      t.committed = s.committed := by
  have hlength : f.written + (((encode f.value).drop f.written).take n).length =
      min (f.written + n) (encode f.value).length := by
    rw [List.length_take, List.length_drop]
    omega
  refine ⟨s.write temp f (((encode f.value).drop f.written).take n), ?_, ?_, rfl⟩
  · simp only [step, hf, Option.map_some]
  · simp only [State.write, hlength]

lemma step_rename (encode : β → List UInt8) (target : π) {f : Flight β}
    (hf : s.flights temp = some f)
    (hwritten : f.written = (encode f.value).length) :
    ∃ t, step encode target false s (.rename temp) = some t ∧
      t.flights = Function.update s.flights temp none ∧ t.committed = some f.value := by
  refine ⟨s.rename target temp f, ?_, rfl, rfl⟩
  simp only [step, hf, Option.bind_some]
  exact if_pos ⟨hwritten, by simp⟩

/-- The states that a replacement goes through, one call after the other. -/
lemma exists_states (encode : β → List UInt8) (value : β) (hs : Idle s) (htemp : temp ≠ target)
    (n : ℕ) :
    ∃ s₁ s₂ s₃ s₄, step encode target false s (.start temp value) = some s₁ ∧
      step encode target false s₁ (.write temp n) = some s₂ ∧
      step encode target false s₂ (.write temp (encode value).length) = some s₃ ∧
      step encode target false s₃ (.rename temp) = some s₄ ∧ Idle s₄ ∧
      s₁.committed = s.committed ∧ s₂.committed = s.committed ∧ s₃.committed = s.committed ∧
      s₄.committed = some value := by
  obtain ⟨s₁, x, h₁, hf₁, hc₁⟩ := step_start encode false value htemp (hs temp)
  have hopened : s₁.flights temp = some ⟨x, value, 0, false⟩ := by
    rw [hf₁, Function.update_self]
  obtain ⟨s₂, h₂, hf₂, hc₂⟩ := step_write encode target false hopened (Nat.zero_le _) n
  have hpart : s₂.flights temp =
      some ⟨x, value, min (0 + n) (encode value).length, false⟩ := by
    rw [hf₂, Function.update_self]
  obtain ⟨s₃, h₃, hf₃, hc₃⟩ := step_write encode target false hpart
    (Nat.min_le_right _ _) (encode value).length
  have hwhole : s₃.flights temp = some ⟨x, value, (encode value).length, false⟩ := by
    rw [hf₃, Function.update_self]
    simp
  obtain ⟨s₄, h₄, hf₄, hc₄⟩ := step_rename encode target hwhole rfl
  refine ⟨s₁, s₂, s₃, s₄, h₁, h₂, h₃, h₄, fun p => ?_, hc₁, hc₂.trans hc₁,
    hc₃.trans (hc₂.trans hc₁), hc₄⟩
  rw [hf₄]
  by_cases hp : p = temp
  · rw [hp, Function.update_self]
  · rw [Function.update_of_ne hp, hf₃, Function.update_of_ne hp, hf₂, Function.update_of_ne hp,
      hf₁, Function.update_of_ne hp, hs p]

/-- A replacement that nothing interrupts. -/
theorem exec_calls (encode : β → List UInt8) (value : β) (hs : Idle s) (htemp : temp ≠ target)
    (n : ℕ) :
    ∃ t, exec (step encode target false) s (calls encode temp value n) = some t ∧ Idle t ∧
      t.committed = some value := by
  obtain ⟨s₁, s₂, s₃, s₄, h₁, h₂, h₃, h₄, hidle, -, -, -, hc⟩ :=
    exists_states encode value hs htemp n
  exact ⟨s₄, by simp only [calls, exec, h₁, h₂, h₃, h₄, Option.bind_some], hidle, hc⟩

/-- **A replacement that is killed has either not begun or is finished**: it counts from its last
call on. -/
theorem exec_killedAfter (encode : β → List UInt8) (value : β) (hs : Idle s)
    (htemp : temp ≠ target) (n k : ℕ) :
    ∃ t, exec (step encode target false) s (killedAfter encode temp value n k) = some t ∧
      Idle t ∧ t.committed = if 4 ≤ k then some value else s.committed := by
  obtain ⟨s₁, s₂, s₃, s₄, h₁, h₂, h₃, h₄, -, hc₁, hc₂, hc₃, hc₄⟩ :=
    exists_states encode value hs htemp n
  have hcrash (u : State π β) : step encode target false u .crash = some u.crash := rfl
  have hidle (u : State π β) : Idle u.crash := fun _ => rfl
  rcases Nat.lt_or_ge k 4 with hk | hk
  · rw [if_neg (by omega)]
    interval_cases k
    · exact ⟨s.crash, rfl, hidle s, rfl⟩
    · exact ⟨s₁.crash, by simp [killedAfter, calls, exec, h₁, hcrash], hidle s₁, hc₁⟩
    · exact ⟨s₂.crash, by simp [killedAfter, calls, exec, h₁, h₂, hcrash], hidle s₂, hc₂⟩
    · exact ⟨s₃.crash, by simp [killedAfter, calls, exec, h₁, h₂, h₃, hcrash], hidle s₃, hc₃⟩
  · have htake : (calls encode temp value n).take k = calls encode temp value n :=
      List.take_of_length_le hk
    rw [if_pos hk, killedAfter, htake]
    exact ⟨s₄.crash, by simp [calls, exec, h₁, h₂, h₃, h₄, hcrash], hidle s₄, hc₄⟩

end Killed

/-! ### What is written of a value -/

variable {γ : Type*} (g : β → γ)

def Flight.map (f : Flight β) : Flight γ := ⟨f.inode, g f.value, f.written, f.synced⟩

def State.map (s : State π β) : State π γ :=
  ⟨s.disk, s.unsynced, Option.map (Flight.map g) ∘ s.flights, s.committed.map g⟩

def Action.map : Action π β → Action π γ
  | .start temp value => .start temp (g value)
  | .write temp n => .write temp n
  | .sync temp => .sync temp
  | .rename temp => .rename temp
  | .abandon temp removed => .abandon temp removed
  | .crash => .crash
  | .powerCut garbage => .powerCut garbage

section Map

variable {g} {temp : π} {f : Flight β}

omit [DecidableEq π] in
lemma flights_map {p : π} (h : s.flights p = some f) : (s.map g).flights p = some (f.map g) := by
  simp only [State.map, Function.comp_apply, h, Option.map_some]

lemma map_start (value : β) (x : ℕ) :
    (s.start temp value x).map g = (s.map g).start temp (g value) x := by
  simp only [State.map, State.start, Function.comp_update]
  rfl

lemma map_write (part : List UInt8) :
    (s.write temp f part).map g = (s.map g).write temp (f.map g) part := by
  simp only [State.map, State.write, Function.comp_update]
  rfl

lemma map_sync : (s.sync temp f).map g = (s.map g).sync temp (f.map g) := by
  simp only [State.map, State.sync, Function.comp_update]
  rfl

lemma map_rename : (s.rename target temp f).map g = (s.map g).rename target temp (f.map g) := by
  simp only [State.map, State.rename, Function.comp_update]
  rfl

lemma map_abandon (removed : Bool) :
    (s.abandon temp removed).map g = (s.map g).abandon temp removed := by
  simp only [State.map, State.abandon, Function.comp_update]
  rfl

/-- What is done with a value depends on what is written of it, and on nothing else. -/
lemma step_map {encode' : γ → List UInt8} (hg : ∀ v, encode' (g v) = encode v) {a : Action π β}
    (h : step encode target flush s a = some t) :
    step encode' target flush (s.map g) (a.map g) = some (t.map g) := by
  cases a with
  | start temp value =>
      simp only [step] at h
      split_ifs at h with hguard
      obtain ⟨x, hx, rfl⟩ := Option.map_eq_some_iff.mp h
      have hfree : ((s.map g).flights temp).isNone = true := by
        simpa [State.map] using hguard.2
      simp only [step, Action.map, if_pos (⟨hguard.1, hfree⟩ : temp ≠ target ∧ _)]
      rw [map_start]
      exact congrArg (Option.map _) hx
  | write temp n =>
      obtain ⟨f, hf, rfl⟩ := Option.map_eq_some_iff.mp h
      simp only [step, Action.map, flights_map hf, Option.map_some, map_write]
      rw [← hg]
      rfl
  | sync temp =>
      obtain ⟨f, hf, hguard⟩ := Option.bind_eq_some_iff.mp h
      split_ifs at hguard with hwritten
      cases hguard
      simp only [step, Action.map, flights_map hf, Option.bind_some, map_sync]
      exact if_pos ((congrArg List.length (hg _)).symm ▸ hwritten)
  | rename temp =>
      obtain ⟨f, hf, hguard⟩ := Option.bind_eq_some_iff.mp h
      split_ifs at hguard with hdone
      cases hguard
      simp only [step, Action.map, flights_map hf, Option.bind_some, map_rename]
      exact if_pos ⟨(congrArg List.length (hg _)).symm ▸ hdone.1, hdone.2⟩
  | abandon temp removed =>
      obtain ⟨f, hf, rfl⟩ := Option.map_eq_some_iff.mp h
      simp only [step, Action.map, flights_map hf, Option.map_some, map_abandon]
  | crash =>
      cases h
      rfl
  | powerCut garbage =>
      simp only [step] at h
      split_ifs at h with hflush
      cases h
      simp only [step, Action.map, if_pos hflush]
      rfl

/-- **The disk depends on what is written of the values, and on nothing else.** -/
theorem run_map {encode' : γ → List UInt8} (hg : ∀ v, encode' (g v) = encode v)
    {as : List (Action π β)} (h : Run (Steps (step encode target flush)) s as t) :
    Run (Steps (step encode' target flush)) (s.map g) (as.map (Action.map g)) (t.map g) := by
  induction h with
  | nil s => exact .nil _
  | cons hstep _ ih => exact .cons (step_map hg hstep) ih

end Map

end Step

end AtomicFile
