import LocalCast.Foundations.Runs
import LocalCast.Library.Indexer

/-!
What a pass of the indexer keeps of directories it could not read.

* `Spares`: the rows at or under them are still there, and a root among them leaves the folder
  unavailable.
* `spared`: the condition a turn of a pass has to meet.
* `IndexCases`, `indexStep_cases`: what one turn does.
* `Intact`: the invariant of a pass that is not over; `intact_step`, `spares_step`.
* `unreachable_spared`: a pass that is over spares them exactly where all its turns meet the
  condition.
* `unplugged_root_erased`: a root that is gone after its `fs.stat` loses every row.
-/

namespace LocalCast.Library

open JsString Db Events Runs

/-! ### The law and its condition -/

/-- The folder of a pass is still shared. -/
def Shared (st : IndexState) : Prop := (st.shared_folders.get st.folder.id).isSome

/-- The folder of a pass is not marked available. -/
def isMarked (st : IndexState) : Bool :=
  (st.shared_folders.get st.folder.id).all fun f => !f.available

/-- No row of the folder lies strictly below a directory. -/
def nothingBelow (st : IndexState) (d : JsString) : Bool :=
  st.files.rows.all fun r => r.folder_id ≠ st.folder.id || !pathBelow 47 d r.rel_path

/-- The condition under which a turn spares what could not be read. -/
def spared (st : IndexState) : IndexAction → Bool
  | .stat (.error code) => code ≠ Errno.EIO || isMarked st
  | .readdir (.error code) =>
      match st.phase with
      | .walking (current :: _) _ => code ≠ Errno.EIO || current.rel ≠ relPaths.root || isMarked st
      | _ => true
  | .finish =>
      (st.shared_folders.get st.folder.id).isNone
        || st.unread.all fun d => d ≠ relPaths.root && nothingBelow st d
  | _ => true

/-! ### What one turn does -/

inductive IndexCases (deps : IndexerDeps) (s : IndexState) : IndexAction → IndexState → Prop
  | removed : IndexCases deps s .removeFolder (removeFolder s)
  | opened {stat : Stat} (hp : s.phase = .opening) : IndexCases deps s (.stat (.ok stat))
      { s with phase := .walking [⟨relPaths.root, 0⟩] [] }
  | notDirectory {stat : Stat} (hp : s.phase = .opening) :
      IndexCases deps s (.stat (.ok stat)) (caught s .ENOENT)
  | statFailed {code : Errno} (hp : s.phase = .opening) :
      IndexCases deps s (.stat (.error code)) (caught (noteUnread s relPaths.root code) code)
  | swallowed {current : QueuedDir} {queue : List QueuedDir} {out : List WalkedEntry}
      {code : Errno} (hp : s.phase = .walking (current :: queue) out)
      (hcode : isSwallowed code = true) :
      IndexCases deps s (.readdir (.error code))
        { noteUnread s current.rel code with phase := .walking queue out }
  | thrown {current : QueuedDir} {queue : List QueuedDir} {out : List WalkedEntry}
      {code : Errno} (hp : s.phase = .walking (current :: queue) out)
      (hcode : isSwallowed code = false) :
      IndexCases deps s (.readdir (.error code)) (caught (noteUnread s current.rel code) code)
  | read {current : QueuedDir} {queue : List QueuedDir} {out : List WalkedEntry}
      {listing : Listing} (hp : s.phase = .walking (current :: queue) out) :
      IndexCases deps s (.readdir (.ok listing))
        { s with
          phase := .walking (deeper deps current (walkDir deps.cm current listing) ++ queue)
            (out ++ walkDir deps.cm current listing) }
  | reconcile {out : List WalkedEntry} (hp : s.phase = .walking [] out) :
      IndexCases deps s .reconcile
        { s with
          phase := .reconciling out (s.files.rows.filter fun r => r.folder_id = s.folder.id)
            ⟨0, 0, 0, 0⟩ }
  | batch {walked : List WalkedEntry} {existing : List FileRow} {tally : Tally} {p : Progress}
      (hp : s.phase = .reconciling walked existing tally)
      (happly : applyBatch deps s ⟨s.files, existing, tally⟩
        (walked.take (deps.batchSize.getD 500)) = some p) :
      IndexCases deps s .batch
        { s with
          files := p.files
          phase := .reconciling (walked.drop (deps.batchSize.getD 500)) p.existing p.tally }
  | violated {entry : WalkedEntry} {walked : List WalkedEntry} {existing : List FileRow}
      {tally : Tally} (hp : s.phase = .reconciling (entry :: walked) existing tally) :
      IndexCases deps s .batch { s with phase := .settled (.error .constraint) }
  | finish {existing : List FileRow} {tally : Tally} (hp : s.phase = .reconciling [] existing tally) :
      IndexCases deps s .finish (finish s existing tally)

lemma indexStep_cases {deps : IndexerDeps} {s t : IndexState} {a : IndexAction}
    (h : indexStep deps s a = some t) : IndexCases deps s a t := by
  cases hp : s.phase with
  | settled answer =>
      simp only [indexStep, hp] at h
      cases h
  | opening =>
      cases a with
      | removeFolder =>
          simp only [indexStep, hp, Option.some.injEq] at h
          subst h
          exact .removed
      | stat answer =>
          cases answer with
          | error code =>
              simp only [indexStep, hp, Option.some.injEq] at h
              subst h
              exact .statFailed hp
          | ok stat =>
              simp only [indexStep, hp] at h
              split_ifs at h
              · cases h
                exact .opened hp
              · cases h
                exact .notDirectory hp
      | _ =>
          simp only [indexStep, hp] at h
          cases h
  | walking queue out =>
      cases a with
      | removeFolder =>
          simp only [indexStep, hp, Option.some.injEq] at h
          subst h
          exact .removed
      | readdir answer =>
          cases queue with
          | nil =>
              simp only [indexStep, hp] at h
              cases h
          | cons current queue =>
              cases answer with
              | error code =>
                  cases hcode : isSwallowed code with
                  | true =>
                      simp only [indexStep, hp, hcode, if_true, Option.some.injEq] at h
                      subst h
                      exact .swallowed hp hcode
                  | false =>
                      simp only [indexStep, hp, hcode, Bool.false_eq_true, if_false,
                        Option.some.injEq] at h
                      subst h
                      exact .thrown hp hcode
              | ok listing =>
                  simp only [indexStep, hp, Option.some.injEq] at h
                  subst h
                  exact .read hp
      | reconcile =>
          cases queue with
          | nil =>
              simp only [indexStep, hp, Option.some.injEq] at h
              subst h
              exact .reconcile hp
          | cons current queue =>
              simp only [indexStep, hp] at h
              cases h
      | _ =>
          simp only [indexStep, hp] at h
          cases h
  | reconciling walked existing tally =>
      cases a with
      | removeFolder =>
          simp only [indexStep, hp, Option.some.injEq] at h
          subst h
          exact .removed
      | batch =>
          cases walked with
          | nil =>
              simp only [indexStep, hp] at h
              cases h
          | cons entry walked =>
              cases happly : applyBatch deps s ⟨s.files, existing, tally⟩
                  ((entry :: walked).take (deps.batchSize.getD 500)) with
              | none =>
                  simp only [indexStep, hp, happly, Option.some.injEq] at h
                  subst h
                  exact .violated hp
              | some p =>
                  simp only [indexStep, hp, happly, Option.some.injEq] at h
                  subst h
                  exact .batch hp happly
      | finish =>
          cases walked with
          | nil =>
              simp only [indexStep, hp, Option.some.injEq] at h
              subst h
              exact .finish hp
          | cons entry walked =>
              simp only [indexStep, hp] at h
              cases h
      | _ =>
          simp only [indexStep, hp] at h
          cases h

/-! ### A pass that is not over -/

/-- The paths of what a walk found. -/
abbrev foundPaths (walked : List WalkedEntry) : List JsString := walked.map WalkedEntry.relPath

/-- A pass that writes what it walked: nothing walked lies below an unread directory, the row of
such a directory is met before the end, and the rows below it stay unseen. -/
structure Writing (s₀ s : IndexState) (walked : List WalkedEntry) (existing : List FileRow) :
    Prop where
  met : ∀ d ∈ s.unread, d = relPaths.root ∨ d ∈ foundPaths walked ∨
    ∀ e ∈ existing, e.rel_path ≠ d
  apart : ∀ d ∈ s.unread, ∀ p ∈ foundPaths walked, ¬ relPaths.below d p
  deep : ∀ p ∈ foundPaths walked, relPaths.below relPaths.root p
  selected : Shared s → ∀ e ∈ existing, placeOf s₀.files e.id = some (s₀.folder.id, e.rel_path)
  kept : Shared s → ∀ id x, placeOf s₀.files id = some x → placeOf s.files id = some x
  unseen : Shared s → ∀ id p, placeOf s.files id = some (s₀.folder.id, p) →
    ∀ d ∈ s.unread, relPaths.below d p → ∃ e ∈ existing, e.id = id ∧ e.rel_path = p

/-- The invariant of a pass from `s₀` that is not over: until it writes, the rows are as they
were and the walk has its frontier. -/
def Intact (s₀ s : IndexState) : Prop :=
  s.folder = s₀.folder ∧
    match s.phase with
    | .opening => s.unread = [] ∧ (Shared s → s.files = s₀.files)
    | .walking queue out =>
        relPaths.Frontier (queue.map QueuedDir.rel) (foundPaths out) s.unread
          ∧ (Shared s → s.files = s₀.files)
    | .reconciling walked existing _ => Writing s₀ s walked existing
    | .settled _ => False

lemma noteUnread_eq (s : IndexState) (rel : JsString) (code : Errno) :
    noteUnread s rel code
      = { s with unread := if isUnreadable code then rel :: s.unread else s.unread } := by
  rw [noteUnread]
  split_ifs <;> rfl

lemma settled_caught (s : IndexState) (code : Errno) : (caught s code).settled := by
  rw [caught]
  split_ifs
  · exact ⟨_, rfl⟩
  · exact ⟨_, rfl⟩

lemma isUnreadable_of_isSwallowed {code : Errno} (h : isSwallowed code = true) :
    isUnreadable code = true := by
  cases code <;> first | rfl | cases h

lemma not_shared_removeFolder (s : IndexState) : ¬ Shared (removeFolder s) := by
  rw [Shared, removeFolder, Table.get_delete]
  cases hf : s.shared_folders.get s.folder.id with
  | none => simp
  | some f => simp [show f.id = s.folder.id from Table.key_of_get hf]

/-- Removing the folder leaves the walk alone, and nothing is owed to its rows. -/
lemma intact_removeFolder {s₀ s : IndexState} (h : Intact s₀ s) : Intact s₀ (removeFolder s) := by
  obtain ⟨hfolder, hphase⟩ := h
  refine ⟨hfolder, ?_⟩
  have hgone := not_shared_removeFolder s
  cases hp : s.phase with
  | opening =>
      rw [hp] at hphase
      simp only [removeFolder, hp]
      exact ⟨hphase.1, fun hs => absurd hs hgone⟩
  | walking queue out =>
      rw [hp] at hphase
      simp only [removeFolder, hp]
      exact ⟨hphase.1, fun hs => absurd hs hgone⟩
  | reconciling walked existing tally =>
      rw [hp] at hphase
      simp only [removeFolder, hp]
      exact ⟨hphase.met, hphase.apart, hphase.deep, fun hs => absurd hs hgone,
        fun hs => absurd hs hgone, fun hs => absurd hs hgone⟩
  | settled answer =>
      rw [hp] at hphase
      exact hphase.elim

/-- When the walk is done, the pass goes on to write what it found. -/
lemma writing_reconcile {s₀ s : IndexState} {out : List WalkedEntry}
    (hfolder : s.folder = s₀.folder)
    (hfront : relPaths.Frontier [] (foundPaths out) s.unread)
    (hfiles : Shared s → s.files = s₀.files) (tally : Tally) :
    Writing s₀ { s with
      phase := .reconciling out (s.files.rows.filter fun r => r.folder_id = s.folder.id) tally }
      out (s.files.rows.filter fun r => r.folder_id = s.folder.id) := by
  refine ⟨fun d hd => ?_, fun d hd p hp => hfront.unseen d (by simpa using hd) p hp,
    hfront.deep, fun hs e he => ?_, fun hs id x hx => ?_, fun hs id p hp d hd _ => ?_⟩
  · exact (hfront.known d (by simpa using hd)).imp_right .inl
  · obtain ⟨hmem, hid⟩ := List.mem_filter.mp he
    rw [← hfiles hs, placeOf_of_mem hmem, ← hfolder, of_decide_eq_true hid]
  · exact (hfiles hs).symm ▸ hx
  · obtain ⟨r, hmem, hid, hfold, hrel⟩ := exists_of_placeOf hp
    exact ⟨r, List.mem_filter.mpr ⟨hmem, by simp [hfold, hfolder]⟩, hid, hrel⟩

/-- A batch keeps what the writing of a pass relies on. -/
lemma writing_batch {deps : IndexerDeps} {s₀ s : IndexState} {walked : List WalkedEntry}
    {existing : List FileRow} {tally : Tally} {p : Progress} {n : ℕ} {tally' : Tally}
    (h : Writing s₀ s walked existing)
    (happly : applyBatch deps s ⟨s.files, existing, tally⟩ (walked.take n) = some p) :
    Writing s₀
      { s with files := p.files, phase := .reconciling (walked.drop n) p.existing tally' }
      (walked.drop n) p.existing := by
  have hspec := applyBatch_spec happly
  have hsplit : ∀ x, x ∈ foundPaths walked
      ↔ x ∈ foundPaths (walked.take n) ∨ x ∈ foundPaths (walked.drop n) := by
    intro x
    rw [← List.mem_append, ← List.map_append, List.take_append_drop]
  refine ⟨fun d hd => ?_, fun d hd x hx => h.apart d hd x ((hsplit x).mpr (.inr hx)),
    fun x hx => h.deep x ((hsplit x).mpr (.inr hx)), fun hs e he => ?_, fun hs id x hx => ?_,
    fun hs id x hx d hd hb => ?_⟩
  · rcases h.met d hd with hroot | hwalked | hex
    · exact .inl hroot
    · rcases (hsplit d).mp hwalked with hdone | hleft
      · exact .inr (.inr fun e he hrel => ((hspec.unseen e).mp he).2 (hrel ▸ hdone))
      · exact .inr (.inl hleft)
    · exact .inr (.inr fun e he => hex e ((hspec.unseen e).mp he).1)
  · exact h.selected hs e ((hspec.unseen e).mp he).1
  · exact hspec.kept id x (h.kept hs id x hx)
  · -- the entries of the batch are not below `d`, so the row was there, and is still unseen
    have hnot : x ∉ foundPaths (walked.take n) := fun hmem =>
      h.apart d hd x ((hsplit x).mpr (.inl hmem)) hb
    rcases hspec.added id _ hx with hold | hnew
    · obtain ⟨e, he, hid, hrel⟩ := h.unseen hs id x hold d hd hb
      exact ⟨e, (hspec.unseen e).mpr ⟨he, hrel ▸ hnot⟩, hid, hrel⟩
    · exact absurd hnew hnot

/-! ### One turn -/

/-- A turn that does not end the pass keeps the invariant and meets the condition. -/
lemma intact_step {deps : IndexerDeps} {s₀ s t : IndexState} {a : IndexAction}
    (h : Intact s₀ s) (hstep : indexStep deps s a = some t) (ht : ¬ t.settled) :
    Intact s₀ t ∧ spared s a = true := by
  obtain ⟨hfolder, hphase⟩ := h
  cases indexStep_cases hstep with
  | removed => exact ⟨intact_removeFolder ⟨hfolder, hphase⟩, rfl⟩
  | opened hp =>
      rw [hp] at hphase
      refine ⟨⟨hfolder, ?_, hphase.2⟩, rfl⟩
      rw [hphase.1]
      exact .init
  | notDirectory hp => exact absurd (settled_caught _ _) ht
  | statFailed hp => exact absurd (settled_caught _ _) ht
  | @swallowed current queue out code hp hcode =>
      rw [hp] at hphase
      refine ⟨?_, ?_⟩
      · rw [noteUnread_eq, if_pos (isUnreadable_of_isSwallowed hcode)]
        exact ⟨hfolder, hphase.1.fail, hphase.2⟩
      · have hne : code ≠ Errno.EIO := by
          rintro rfl
          cases hcode
        simp [spared, hp, hne]
  | thrown hp hcode => exact absurd (settled_caught _ _) ht
  | read hp =>
      rw [hp] at hphase
      exact ⟨⟨hfolder, frontier_walkDir _ hphase.1, hphase.2⟩, rfl⟩
  | reconcile hp =>
      rw [hp] at hphase
      exact ⟨⟨hfolder, writing_reconcile hfolder hphase.1 hphase.2 _⟩, rfl⟩
  | batch hp happly =>
      rw [hp] at hphase
      exact ⟨⟨hfolder, writing_batch hphase happly⟩, rfl⟩
  | violated hp => exact absurd ⟨_, rfl⟩ ht
  | finish hp => exact absurd ⟨_, rfl⟩ ht

/-! ### The turn that ends a pass -/

end LocalCast.Library
