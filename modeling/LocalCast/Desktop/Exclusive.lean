import LocalCast.Desktop.Manager

/-!
Whether the destinations of the downloads are exclusive.

* `Machine.Apart`: two destinations with neither a file nor a partial file in common.
* `Exclusive`: no two jobs on their way share a file, no more of them run than may, and no end of
  one renamed over a file.
* `claims`: a name is claimed where it is taken up, and kept while it is in use. The name that
  `enqueue` finds free is apart from those in use, a cancelled job that is resumed finds its own
  free again, no other program takes a destination in use, and no job comes back from the state
  file to a destination where there is a file.
* `Claimed.step`, `downloads_exclusive`: over such runs the destinations are exclusive.
* `downloads_share`: a cancelled job is resumed after its name was given away.
-/

namespace LocalCast.Desktop

open JsString Runs

variable {F : Type*}

/-! ### The law -/

/-- Done or cancelled jobs have no claim on their destination. -/
def JobStatus.active (status : JobStatus) : Bool := status ≠ .done && status ≠ .cancelled

/-- No file and no partial file in common. -/
structure Machine.Apart (m : Machine F) (p q : JsString) : Prop where
  file : m.file p ≠ m.file q
  part : m.file (partPathFor p) ≠ m.file (partPathFor q)
  left : m.file (partPathFor p) ≠ m.file q
  right : m.file p ≠ m.file (partPathFor q)

lemma Machine.Apart.symm {m : Machine F} {p q : JsString} (h : m.Apart p q) : m.Apart q p :=
  ⟨h.file.symm, h.part.symm, h.right.symm, h.left.symm⟩

instance [DecidableEq F] (m : Machine F) (p q : JsString) : Decidable (m.Apart p q) :=
  decidable_of_iff (m.file p ≠ m.file q ∧ m.file (partPathFor p) ≠ m.file (partPathFor q) ∧
      m.file (partPathFor p) ≠ m.file q ∧ m.file p ≠ m.file (partPathFor q))
    ⟨fun ⟨h1, h2, h3, h4⟩ => ⟨h1, h2, h3, h4⟩, fun h => ⟨h.file, h.part, h.left, h.right⟩⟩

/-- Downloads as they should be. -/
structure Exclusive (m : Machine F) (concurrency : ℕ) (s : DownloadManager F) : Prop where
  apart : ∀ i k j l, s.jobs.get i = some j → s.jobs.get k = some l → i ≠ k →
    j.status.active → l.status.active →
      j.destination ≠ l.destination ∧ m.file j.destination ≠ m.file l.destination ∧
        m.file (partPathFor j.destination) ≠ m.file (partPathFor l.destination)
  bounded : s.running.length ≤ concurrency
  kept : s.overwritten = false

/-- No job on its way has a file in common with the path. -/
def DownloadManager.alone [DecidableEq F] (m : Machine F) (s : DownloadManager F)
    (path : JsString) : Bool :=
  s.jobs.rows.all fun job => !job.status.active || m.Apart path job.destination

/-- No job of the table is on its way to a destination where there is a file. -/
def vacant (m : Machine F) (disk : F → Bool) (jobs : Table Download) : Bool :=
  jobs.rows.all fun job => !job.status.active || !disk (m.file job.destination)

/-- Names are claimed where they are taken up, and kept while they are in use. -/
def claims [DecidableEq F] (m : Machine F) (s : DownloadManager F) : ManagerAction F → Bool
  | .enqueue fileName now =>
      let safe := m.safeFileName fileName
      ((m.candidates safe ++ [m.copyPath safe now]).find? (s.free m)).any (s.alone m)
  | .resume id => (s.jobs.get id).all fun job =>
      job.status ≠ .cancelled || (s.alone m job.destination && !s.disk (m.file job.destination))
  | .created f => s.jobs.rows.all fun job => !job.status.active || m.file job.destination ≠ f
  | .load => vacant m s.disk s.saved
  | _ => true

/-! ### The invariant -/

/-- The jobs of a table that are on their way are apart. -/
def Separate (m : Machine F) (jobs : Table Download) : Prop :=
  ∀ i k j l, jobs.get i = some j → jobs.get k = some l → i ≠ k → j.status.active →
    l.status.active → m.Apart j.destination l.destination

structure Claimed (m : Machine F) (concurrency : ℕ) (s : DownloadManager F) : Prop where
  separate : Separate m s.jobs
  vacant : ∀ i j, s.jobs.get i = some j → j.status.active → s.disk (m.file j.destination) = false
  running : ∀ r ∈ s.running, ∃ j, s.jobs.get r.id = some j ∧ j.status = .downloading
  bounded : s.running.length ≤ concurrency
  fresh : ∀ i j, s.jobs.get i = some j → i ≤ s.sequence
  saved : Separate m s.saved
  savedFresh : ∀ i j, s.saved.get i = some j → i ≤ s.sequence
  kept : s.overwritten = false

section Claims

variable {m : Machine F} {concurrency : ℕ} {s t : DownloadManager F} {id : ℕ}

lemma Claimed.exclusive (h : Claimed m concurrency s) : Exclusive m concurrency s where
  apart i k j l hj hl hik hja hla := by
    have hapart := h.separate i k j l hj hl hik hja hla
    exact ⟨fun heq => hapart.file (congrArg m.file heq), hapart.file, hapart.part⟩
  bounded := h.bounded
  kept := h.kept

/-- What is checked of every row is known of every job on its way. -/
lemma all_active_iff {jobs : Table Download} {p : Download → Bool} :
    (jobs.rows.all fun job => !job.status.active || p job) = true ↔
      ∀ i j, jobs.get i = some j → j.status.active → p j = true := by
  simp only [List.all_eq_true, Bool.or_eq_true, Bool.not_eq_true']
  constructor
  · intro h i j hj hactive
    exact (h j (Table.get_eq_some_iff.mp hj).1).resolve_left (by simp [hactive])
  · intro h j hj
    by_cases hactive : j.status.active = true
    · exact .inr (h _ j (Table.get_of_mem hj) hactive)
    · exact .inl (by simpa using hactive)

lemma vacant_iff {disk : F → Bool} {jobs : Table Download} : vacant m disk jobs = true ↔
    ∀ i j, jobs.get i = some j → j.status.active → disk (m.file j.destination) = false := by
  simp only [Desktop.vacant, all_active_iff, Bool.not_eq_true']

/-! ### What the parts of a step keep -/

/-- A table whose jobs on their way are such jobs of another one, where they were. -/
lemma Separate.mono {jobs jobs' : Table Download} (h : Separate m jobs)
    (hsub : ∀ i j', jobs'.get i = some j' → j'.status.active →
      ∃ j, jobs.get i = some j ∧ j.status.active ∧ j.destination = j'.destination) :
    Separate m jobs' := by
  intro i k j' l' hj' hl' hik hja hla
  obtain ⟨j, hj, hja, hjd⟩ := hsub i j' hj' hja
  obtain ⟨l, hl, hla, hld⟩ := hsub k l' hl' hla
  rw [← hjd, ← hld]
  exact h i k j l hj hl hik hja hla

lemma alone_iff [DecidableEq F] {path : JsString} : s.alone m path = true ↔
    ∀ i j, s.jobs.get i = some j → j.status.active → m.Apart path j.destination := by
  simp only [DownloadManager.alone, all_active_iff, decide_eq_true_eq]

lemma get_update (id : ℕ) (status : JobStatus) (i : ℕ) : (s.update id status).jobs.get i =
    if i = id then (s.jobs.get i).map fun job => { job with status } else s.jobs.get i :=
  Table.get_updateKey _ _ (fun job : Download => { job with status })
    (fun _ _ => rfl) _

namespace Claimed

lemma requeue (h : Claimed m concurrency s) (queue : List ℕ) :
    Claimed m concurrency { s with queue } := { h with }

lemma abort (h : Claimed m concurrency s) (id : ℕ) {f : RunningJob → RunningJob}
    (hf : ∀ r, (f r).id = r.id) : Claimed m concurrency (s.abort id f) := by
  refine { h with running := fun r hr => ?_, bounded := ?_ }
  · obtain ⟨r', hr', rfl⟩ := List.mem_map.mp hr
    obtain ⟨j, hj, hstatus⟩ := h.running r' hr'
    refine ⟨j, ?_, hstatus⟩
    split_ifs
    · rw [hf]
      exact hj
    · exact hj
  · simpa [DownloadManager.abort] using h.bounded

/-- Fewer transfers. -/
lemma stop (h : Claimed m concurrency s) (id : ℕ) :
    Claimed m concurrency { s with running := s.running.filter (·.id ≠ id) } where
  __ := h
  running r hr := h.running r (List.mem_of_mem_filter hr)
  bounded := (List.length_filter_le _ _).trans h.bounded

/-- A job takes another status. On its way again, its destination has to be its own. -/
lemma update (h : Claimed m concurrency s) {status : JobStatus}
    (hrun : status = .downloading ∨ ∀ r ∈ s.running, r.id ≠ id)
    (hnew : status.active → ∀ j, s.jobs.get id = some j → j.status.active ∨
      (∀ k l, s.jobs.get k = some l → l.status.active → m.Apart j.destination l.destination) ∧
        s.disk (m.file j.destination) = false) :
    Claimed m concurrency (s.update id status) := by
  have hown : status.active → ∀ j k l, s.jobs.get id = some j → s.jobs.get k = some l →
      id ≠ k → l.status.active → m.Apart j.destination l.destination := by
    intro hactive j k l hj hl hik hla
    rcases hnew hactive j hj with hja | ⟨halone, -⟩
    · exact h.separate id k j l hj hl hik hja hla
    · exact halone k l hl hla
  refine { h with separate := ?_, vacant := ?_, running := ?_, fresh := ?_ }
  · intro i k j l hj hl hik hja hla
    rw [get_update] at hj hl
    split_ifs at hj hl with hi hk hk
    · exact absurd (hi.trans hk.symm) hik
    · obtain ⟨j0, hj0, rfl⟩ := Option.map_eq_some_iff.mp hj
      exact hown hja j0 k l (hi ▸ hj0) hl (hi ▸ hik) hla
    · obtain ⟨l0, hl0, rfl⟩ := Option.map_eq_some_iff.mp hl
      exact (hown hla l0 i j (hk ▸ hl0) hj (hk ▸ hik.symm) hja).symm
    · exact h.separate i k j l hj hl hik hja hla
  · intro i j hj hja
    rw [get_update] at hj
    split_ifs at hj with hi
    · obtain ⟨j0, hj0, rfl⟩ := Option.map_eq_some_iff.mp hj
      rcases hnew hja j0 (hi ▸ hj0) with hj0a | ⟨-, hfree⟩
      · exact h.vacant i j0 hj0 hj0a
      · exact hfree
    · exact h.vacant i j hj hja
  · intro r hr
    obtain ⟨j, hj, hstatus⟩ := h.running r hr
    rw [get_update]
    split_ifs with hi
    · rcases hrun with hdown | hrun
      · exact ⟨{ j with status }, by rw [hj]; rfl, hdown⟩
      · exact absurd hi (hrun r hr)
    · exact ⟨j, hj, hstatus⟩
  · intro i j hj
    rw [get_update] at hj
    split_ifs at hj with hi
    · obtain ⟨j0, hj0, -⟩ := Option.map_eq_some_iff.mp hj
      exact h.fresh i j0 hj0
    · exact h.fresh i j hj

/-! ### The queue -/

lemma run (h : Claimed m concurrency s) (hqueued : (s.jobs.get id).any (·.status = .queued) = true)
    (hlt : s.running.length < concurrency) : Claimed m concurrency (s.run id) := by
  obtain ⟨job, hjob, hstatus⟩ := (Option.any_eq_true _ _).mp hqueued
  have hactive : job.status.active := by
    rw [of_decide_eq_true hstatus]
    rfl
  have hdown : Claimed m concurrency (s.update id .downloading) := by
    refine h.update (.inl rfl) fun _ j hj => ?_
    cases hj.symm.trans hjob
    exact .inl hactive
  refine { hdown with running := fun r hr => ?_, bounded := ?_ }
  · rcases List.mem_cons.mp hr with rfl | hr
    · have hget := get_update (s := s) id .downloading id
      rw [if_pos rfl, hjob] at hget
      exact ⟨_, hget, rfl⟩
    · exact hdown.running r (List.mem_of_mem_filter hr)
  · exact (Nat.succ_le_succ (List.length_filter_le _ _)).trans hlt

lemma pumpFrom (queue : List ℕ) (h : Claimed m concurrency s) :
    Claimed m concurrency (s.pumpFrom concurrency queue) := by
  induction queue generalizing s with
  | nil => exact h.requeue []
  | cons next rest ih =>
      rw [DownloadManager.pumpFrom]
      split_ifs with hlt hqueued
      · exact ih (h.run hqueued hlt)
      · exact ih h
      · exact h.requeue _

lemma pump (h : Claimed m concurrency s) : Claimed m concurrency (s.pump concurrency) :=
  h.pumpFrom s.queue

/-- The end of a transfer whose job was on its way. -/
lemma settle (h : Claimed m concurrency s) {job : Download} (hjob : s.jobs.get id = some job)
    (hactive : job.status.active) (status : JobStatus) :
    Claimed m concurrency (s.settle concurrency id status) := by
  have hstop : ∀ r ∈ s.running.filter (·.id ≠ id), r.id ≠ id := fun r hr =>
    of_decide_eq_true (List.mem_filter.mp hr).2
  refine ((h.stop id).update (.inr hstop) fun _ j hj => ?_).pump
  cases hj.symm.trans hjob
  exact .inl hactive

lemma notMem_of_transfer (hnone : ¬(s.transfer? id).isSome = true) :
    ∀ r ∈ s.running, r.id ≠ id := by
  intro r hr
  have hfind := List.find?_eq_none.mp (Option.not_isSome_iff_eq_none.mp hnone) r hr
  simpa using hfind

/-- The job of a transfer is on its way. -/
lemma active_of_transfer (h : Claimed m concurrency s) {r : RunningJob} {job : Download}
    (hr : s.transfer? id = some r) (hjob : s.jobs.get id = some job) : job.status.active := by
  obtain ⟨j, hj, hstatus⟩ := h.running r (List.mem_of_find?_eq_some hr)
  have hid : r.id = id := by simpa using List.find?_some hr
  cases (hid ▸ hj).symm.trans hjob
  rw [hstatus]
  rfl

/-! ### The steps -/

variable [DecidableEq F]

/-- A file that appears is not one of a job on its way. -/
lemma setFile (h : Claimed m concurrency s) {f : F} {present : Bool}
    (hf : present = true → ∀ i j, s.jobs.get i = some j → j.status.active →
      m.file j.destination ≠ f) : Claimed m concurrency (s.setFile f present) := by
  refine { h with vacant := fun i j hj hactive => ?_ }
  change Function.update s.disk f present (m.file j.destination) = false
  rw [Function.update_apply]
  split_ifs with heq
  · by_contra hpresent
    exact hf (by simpa using hpresent) i j hj hactive heq
  · exact h.vacant i j hj hactive

lemma removeFile (h : Claimed m concurrency s) (f : F) :
    Claimed m concurrency (s.setFile f false) := h.setFile nofun

/-- The partial file of a job on its way is not the file of any. -/
lemma setPart (h : Claimed m concurrency s) {job : Download} (hjob : s.jobs.get id = some job)
    (hactive : job.status.active) (present : Bool) :
    Claimed m concurrency (s.setFile (m.file (partPathFor job.destination)) present) := by
  refine h.setFile fun _ i j hj hja => ?_
  by_cases hi : i = id
  · have hjj : j = job := Option.some.inj (hj.symm.trans (hi ▸ hjob))
    rw [hjj]
    exact (m.part_ne _).symm
  · exact (h.separate i id j job hj hjob hi hja hactive).right

/-- A name that was free, and has no file in common with those in use. -/
lemma enqueue (h : Claimed m concurrency s) {fileName : JsString} {now : ℕ}
    (hguard : claims m s (.enqueue fileName now) = true) :
    Claimed m concurrency (s.enqueue m concurrency fileName now) := by
  obtain ⟨path, hpath, halone⟩ := (Option.any_eq_true _ _).mp hguard
  have hdest : s.destinationFor m fileName now = path := by
    rw [List.find?_append] at hpath
    rw [DownloadManager.destinationFor]
    cases hfound : (m.candidates (m.safeFileName fileName)).find? (s.free m) with
    | none =>
        rw [hfound, Option.none_or] at hpath
        exact (List.mem_singleton.mp (List.mem_of_find?_eq_some hpath)).symm
    | some other =>
        rw [hfound, Option.some_or] at hpath
        exact Option.some.inj hpath
  have hfile : s.disk (m.file path) = false := by
    have hfree := List.find?_some hpath
    simp only [DownloadManager.free, Bool.and_eq_true, Bool.not_eq_true'] at hfree
    exact hfree.1.2
  have hnone : s.jobs.get (s.sequence + 1) = none := by
    by_contra hsome
    obtain ⟨j, hj⟩ := Option.ne_none_iff_exists'.mp hsome
    exact absurd (h.fresh _ j hj) (by omega)
  have hget : ∀ i, (s.jobs.put ⟨s.sequence + 1, path, .queued⟩).get i =
      if i = s.sequence + 1 then some ⟨s.sequence + 1, path, .queued⟩ else s.jobs.get i :=
    Table.get_put _ _
  rw [DownloadManager.enqueue, hdest]
  refine pump { h with separate := ?_, vacant := ?_, running := ?_, fresh := ?_, savedFresh := ?_ }
  · intro i k j l hj hl hik hja hla
    rw [hget] at hj hl
    split_ifs at hj hl with hi hk hk
    · exact absurd (hi.trans hk.symm) hik
    · cases hj
      exact alone_iff.mp halone k l hl hla
    · cases hl
      exact (alone_iff.mp halone i j hj hja).symm
    · exact h.separate i k j l hj hl hik hja hla
  · intro i j hj hja
    rw [hget] at hj
    split_ifs at hj
    · cases hj
      exact hfile
    · exact h.vacant i j hj hja
  · intro r hr
    obtain ⟨j, hj, hstatus⟩ := h.running r hr
    refine ⟨j, ?_, hstatus⟩
    rw [hget, if_neg fun heq => by simp [heq, hnone] at hj]
    exact hj
  · intro i j hj
    rw [hget] at hj
    split_ifs at hj with hi
    · exact hi.le
    · exact (h.fresh i j hj).trans (Nat.le_succ _)
  · exact fun i j hj => (h.savedFresh i j hj).trans (Nat.le_succ _)

omit [DecidableEq F] in
lemma pause (h : Claimed m concurrency s) (id : ℕ) : Claimed m concurrency (s.pause id) := by
  rw [DownloadManager.pause]
  split_ifs with hrunning hqueued
  · exact h.abort id fun _ => rfl
  · obtain ⟨job, hjob, hstatus⟩ := (Option.any_eq_true _ _).mp hqueued
    refine (h.requeue _).update (.inr (notMem_of_transfer hrunning)) fun _ j hj => .inl ?_
    cases hj.symm.trans hjob
    rw [of_decide_eq_true hstatus]
    rfl
  · exact h

lemma resume (h : Claimed m concurrency s) (hguard : claims m s (.resume id) = true) :
    Claimed m concurrency (s.resume concurrency id) := by
  rw [DownloadManager.resume]
  split
  case h_2 => exact h
  case h_1 job hjob =>
      split_ifs with hstatus
      · exact h
      · simp only [not_or] at hstatus
        have hidle : ∀ r ∈ s.running, r.id ≠ id := by
          rintro r hr rfl
          obtain ⟨j, hj, hdown⟩ := h.running r hr
          cases hj.symm.trans hjob
          exact hstatus.1 hdown
        refine ((h.update (.inr hidle) fun _ j hj => ?_).requeue _).pump
        cases hj.symm.trans hjob
        simp only [claims, hjob, Option.all_some, Bool.or_eq_true, Bool.and_eq_true,
          decide_eq_true_eq, Bool.not_eq_true'] at hguard
        rcases hguard with hcancelled | ⟨halone, hfree⟩
        · refine .inl ?_
          simp [JobStatus.active, hcancelled, hstatus.2.2]
        · exact .inr ⟨alone_iff.mp halone, hfree⟩

lemma cancel (h : Claimed m concurrency s) (id : ℕ) : Claimed m concurrency (s.cancel m id) := by
  rw [DownloadManager.cancel]
  split_ifs with hrunning
  · exact h.abort id fun _ => rfl
  · split
    case h_1 job _ =>
        have hremoved : Claimed m concurrency
            ((s.dequeue id).setFile (m.file (partPathFor job.destination)) false) :=
          (h.requeue (s.queue.filter (· ≠ id))).removeFile _
        exact hremoved.update (.inr (notMem_of_transfer hrunning)) fun hactive =>
          absurd hactive (by decide)
    case h_2 => exact h

/-- The file under the name of the destination is the job's own from then on. -/
lemma finish (h : Claimed m concurrency s) {r : RunningJob} {job : Download}
    (hr : s.transfer? id = some r) (hjob : s.jobs.get id = some job) :
    Claimed m concurrency (s.finish m concurrency job) := by
  have hid : job.id = id := Table.key_of_get hjob
  have hactive := h.active_of_transfer hr hjob
  have hstop : ∀ r ∈ s.running.filter (·.id ≠ id), r.id ≠ id := fun r hr =>
    of_decide_eq_true (List.mem_filter.mp hr).2
  have hdone : Claimed m concurrency
      (DownloadManager.update { s with running := s.running.filter (·.id ≠ id) } id .done) :=
    (h.stop id).update (.inr hstop) fun hactive => absurd hactive (by decide)
  have hgone : ∀ i j, (s.update id .done).jobs.get i = some j → j.status.active →
      m.file j.destination ≠ m.file job.destination := by
    intro i j hj hja
    rw [get_update] at hj
    split_ifs at hj with hi
    · obtain ⟨j0, -, rfl⟩ := Option.map_eq_some_iff.mp hj
      cases hja
    · exact (h.separate i id j job hj hjob hi hja hactive).file
  have hrenamed : Claimed m concurrency
      (((DownloadManager.update { s with running := s.running.filter (·.id ≠ id) } id .done).setFile
        (m.file (partPathFor job.destination)) false).setFile (m.file job.destination) true) :=
    (hdone.removeFile _).setFile fun _ => hgone
  have hkept : (s.overwritten || s.disk (m.file job.destination)) = false := by
    rw [h.kept, h.vacant id job hjob hactive]
    rfl
  rw [DownloadManager.finish, hid, hkept]
  exact pump { hrenamed with kept := rfl }

lemma caught (h : Claimed m concurrency s) {r : RunningJob} {job : Download}
    (hr : s.transfer? id = some r) (hjob : s.jobs.get id = some job) (aborted : Bool) :
    Claimed m concurrency (s.caught m concurrency job r aborted) := by
  have hid : job.id = id := Table.key_of_get hjob
  have hactive := h.active_of_transfer hr hjob
  rw [DownloadManager.caught, hid]
  split_ifs
  all_goals
    first
      | exact settle (h.setPart hjob hactive false) hjob hactive _
      | exact h.settle hjob hactive _

omit [DecidableEq F] in
lemma load (h : Claimed m concurrency s) (hguard : Desktop.vacant m s.disk s.saved = true) :
    Claimed m concurrency s.load := by
  have hget : ∀ i, s.load.jobs.get i = (s.saved.get i).map Download.restored := fun i =>
    Table.get_update _ _ Download.restored (fun _ _ => rfl) _
  have hsub : ∀ i j', s.load.jobs.get i = some j' → j'.status.active →
      ∃ j, s.saved.get i = some j ∧ j.status.active ∧ j.destination = j'.destination := by
    intro i j' hj' hactive
    rw [hget] at hj'
    obtain ⟨j, hj, rfl⟩ := Option.map_eq_some_iff.mp hj'
    refine ⟨j, hj, ?_, rfl⟩
    rw [Download.restored] at hactive
    cases hstatus : j.status <;> simp_all [JobStatus.active]
  refine { h with
    separate := h.saved.mono hsub
    vacant := ?_
    running := fun r hr => absurd hr List.not_mem_nil
    bounded := Nat.zero_le _
    fresh := ?_ }
  · intro i j' hj' hactive
    obtain ⟨j, hj, hja, hdest⟩ := hsub i j' hj' hactive
    rw [← hdest]
    exact vacant_iff.mp hguard i j hj hja
  · intro i j' hj'
    rw [hget] at hj'
    obtain ⟨j, hj, -⟩ := Option.map_eq_some_iff.mp hj'
    exact h.savedFresh i j hj

/-- **A step over which names are claimed and kept leaves them so.** -/
theorem step {a : ManagerAction F} (h : Claimed m concurrency s) (hguard : claims m s a = true)
    (hstep : managerStep m concurrency s a = some t) : Claimed m concurrency t := by
  cases a with
  | enqueue fileName now =>
      cases hstep
      exact h.enqueue hguard
  | pause id =>
      cases hstep
      exact h.pause id
  | resume id =>
      cases hstep
      exact h.resume hguard
  | cancel id =>
      cases hstep
      exact h.cancel id
  | part id present =>
      simp only [managerStep] at hstep
      split at hstep
      case h_1 r job hr hjob =>
          cases hstep
          exact h.setPart hjob (h.active_of_transfer hr hjob) present
      case h_2 => cases hstep
  | finish id =>
      simp only [managerStep] at hstep
      split at hstep
      case h_1 r job hr hjob =>
          split_ifs at hstep
          cases hstep
          exact h.finish hr hjob
      case h_2 => cases hstep
  | fail id aborted =>
      simp only [managerStep] at hstep
      split at hstep
      case h_1 r job hr hjob =>
          cases hstep
          exact h.caught hr hjob aborted
      case h_2 => cases hstep
  | created f =>
      cases hstep
      refine h.setFile fun _ i j hj hactive => ?_
      exact of_decide_eq_true (all_active_iff.mp hguard i j hj hactive)
  | removed f =>
      cases hstep
      exact h.removeFile f
  | persist =>
      cases hstep
      exact { h with saved := h.separate, savedFresh := h.fresh }
  | load =>
      cases hstep
      exact h.load hguard

omit [DecidableEq F] in
lemma init (m : Machine F) (concurrency : ℕ) (disk : F → Bool) :
    Claimed m concurrency (.init disk) where
  separate _ _ _ _ hj := by cases hj
  vacant _ _ hj := by cases hj
  running _ hr := absurd hr List.not_mem_nil
  bounded := Nat.zero_le _
  fresh _ _ hj := by cases hj
  saved _ _ _ _ hj := by cases hj
  savedFresh _ _ hj := by cases hj
  kept := rfl

end Claimed

variable [DecidableEq F]

/-- **Where names are claimed and kept, the destinations are exclusive**: no two jobs on their way
share a file or a partial file, no more run than may, and none ends by renaming over a file. -/
theorem downloads_exclusive {disk : F → Bool} {as : List (ManagerAction F)}
    (h : Run (Guarded (fun s a => claims m s a = true) (managerStep m concurrency))
      (.init disk) as s) : Exclusive m concurrency s :=
  (h.invariant (fun _ _ _ hs hstep => hs.step hstep.1 hstep.2)
    (Claimed.init m concurrency disk)).exclusive

end Claims

/-! ### A name given away -/

/-- A client on a system whose paths name a file each. -/
def laptop : Machine JsString where
  windows := false
  downloadDir := js "/downloads/"
  file := id
  part_ne path hpath := by
    have hlength := congrArg List.length hpath
    have hsuffix : PART_SUFFIX.length = 7 := by decide
    simp only [partPathFor, id, List.length_append, hsuffix] at hlength
    omega

/-- Two films of one name, one of them paused over a restart. -/
theorem downloads_exclusive_restarted : ∃ s,
    Run (Guarded (fun s a => claims laptop s a = true) (managerStep laptop 2))
      (.init fun _ => false)
      [.enqueue (js "film.mkv") 0, .enqueue (js "film.mkv") 0, .part 1 true, .part 2 true,
        .finish 1, .persist, .load, .resume 2, .finish 2] s ∧
    s.jobs.rows.map (fun job => (job.destination, job.status)) =
      [(js "/downloads/film.mkv", .done), (js "/downloads/film (2).mkv", .done)] ∧
    Exclusive laptop 2 s := by
  obtain ⟨s, hrun, hs⟩ := exists_guarded_run_of_exec
    (fun s a => claims laptop s a = true) (managerStep laptop 2) (.init fun _ => false)
    [.enqueue (js "film.mkv") 0, .enqueue (js "film.mkv") 0, .part 1 true, .part 2 true,
      .finish 1, .persist, .load, .resume 2, .finish 2]
    (fun s => s.jobs.rows.map (fun job => (job.destination, job.status)) =
      [(js "/downloads/film.mkv", .done), (js "/downloads/film (2).mkv", .done)])
    (by decide)
  exact ⟨s, hrun, of_decide_eq_true hs, downloads_exclusive hrun⟩

/-- **A film is cancelled, asked for once more, and the cancelled job resumed**: both write to one
partial file, and the second to end renames over what the first one left. -/
theorem downloads_share : ∃ s,
    Run (Steps (managerStep laptop 2)) (.init fun _ => false)
      [.enqueue (js "film.mkv") 0, .part 1 true, .cancel 1, .fail 1 true,
        .enqueue (js "film.mkv") 0, .resume 1] s ∧
    ¬Exclusive laptop 2 s ∧
    ∃ t, Run (Steps (managerStep laptop 2)) s
      [.part 2 true, .finish 2, .part 1 true, .finish 1] t ∧ t.overwritten = true := by
  obtain ⟨t, hrun, ht⟩ := exists_run_of_exec (managerStep laptop 2) (.init fun _ => false)
    ([.enqueue (js "film.mkv") 0, .part 1 true, .cancel 1, .fail 1 true,
      .enqueue (js "film.mkv") 0, .resume 1] ++ [.part 2 true, .finish 2, .part 1 true, .finish 1])
    (·.overwritten) (by decide)
  obtain ⟨s, hs, hst⟩ := hrun.split
  have hshared : (exec (managerStep laptop 2) (.init fun _ => false)
      [.enqueue (js "film.mkv") 0, .part 1 true, .cancel 1, .fail 1 true,
        .enqueue (js "film.mkv") 0, .resume 1]).any (fun s =>
      s.jobs.get 1 = some ⟨1, js "/downloads/film.mkv", .downloading⟩ ∧
        s.jobs.get 2 = some ⟨2, js "/downloads/film.mkv", .downloading⟩) = true := by
    decide
  rw [exec_eq_some_iff.mpr hs, Option.any_some, decide_eq_true_eq] at hshared
  refine ⟨s, hs, fun hexclusive => ?_, t, hst, ht⟩
  exact (hexclusive.apart 1 2 _ _ hshared.1 hshared.2 (by decide) rfl rfl).1 rfl

end LocalCast.Desktop
