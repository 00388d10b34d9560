import LocalCast.Print.Queue

/-!
A finished print job stays finished.

* `landsUnfinished`: what a run writes when it resumes still fits the row it finds: a job is
  handed over while it is queued, an end falls on a job without another one; and after
  `dispose` a reading of the queue says something final.
* `finished_jobs_stay`: along every run whose steps meet it, finished jobs keep their status,
  `finished_at` is set exactly on them, and no job is handed over after its cancellation was
  promised.
* `cancelled_job_prints`: without it, a job cancelled during its copy is handed over, and a
  disposed queue stamps a job that is still printing.
-/

namespace LocalCast.Print

open JsString Contract Db Runs QueueState

/-- What the step writes fits what it finds. -/
def landsUnfinished (s : QueueState) : Action → Bool
  | .listed id (.ok _) _ => (s.jobs.get id).all fun r => r.status = .queued
  | .cleaned id _ =>
      match s.tasks id with
      | some (.running _ (.finishing status _)) =>
          (s.jobs.get id).all fun r => !finished r.status || r.status = status
      | _ => true
  | .watched id (.ok queue) =>
      match s.tasks id with
      | some (.running _ (.watching windowsJobId _ unreadable)) =>
          !s.disposed || !unsettled windowsJobId unreadable queue
      | _ => true
  | _ => true

/-- The law between two states of a run. -/
structure FinishedLaw (s t : QueueState) : Prop where
  frozen : ∀ id row row', s.jobs.get id = some row → finished row.status = true →
    t.jobs.get id = some row' → row'.status = row.status
  stamped : ∀ id row, t.jobs.get id = some row →
    (row.finished_at ≠ none ↔ finished row.status = true)
  withdrawn : ∃ since, t.log = since ++ s.log ∧ ∀ id, .answered id .cancelled ∈ s.log →
    ∀ submission, .handed id submission ∉ since

/-! ### The invariant -/

/-- The row under `id`, if it is still there, has this status for good. -/
def Settled (id : JsString) (status : PrintJobStatus) (s : QueueState) : Prop :=
  id ∈ s.usedIds ∧ ∀ row, s.jobs.get id = some row → row.status = status

structure JobsOk (s : QueueState) : Prop where
  known : ∀ id row, s.jobs.get id = some row → id ∈ s.usedIds
  stamped : ∀ id row, s.jobs.get id = some row →
    (row.finished_at ≠ none ↔ finished row.status = true)
  ends : ∀ id printerName status message,
    s.tasks id = some (.running printerName (.finishing status message)) → finished status = true
  promised : ∀ id, .answered id .cancelled ∈ s.log → Settled id .cancelled s

lemma jobsOk_init : JobsOk init := by
  constructor <;> simp [init]

/-- A row a step leaves: one it found under the same id, or the one of a new job. -/
inductive RowChange (s : QueueState) (a : Action) (t : QueueState) (id : JsString)
    (row' : PrintJobRow) : Prop
  | kept {r : PrintJobRow} (hrow : s.jobs.get id = some r) (hstatus : row'.status = r.status)
      (hat : row'.finished_at = r.finished_at)
  | enqueued (hfresh : id ∉ s.usedIds) (hused : id ∈ t.usedIds)
      (hstatus : row'.status = .queued) (hat : row'.finished_at = none)
  | closed {r : PrintJobRow} (hrow : s.jobs.get id = some r) (hopen : finished r.status = false)
      (hstatus : finished row'.status = true) (hat : row'.finished_at ≠ none)
  | landed {r : PrintJobRow} {printerName : JsString} {now : Time} {message : Option String}
      (ha : a = .cleaned id now)
      (htask : s.tasks id = some (.running printerName (.finishing row'.status message)))
      (hrow : s.jobs.get id = some r) (hat : row'.finished_at ≠ none)
  | handed {r : PrintJobRow} {queue : SpoolerQueue} {now : Time}
      (ha : a = .listed id (.ok queue) now) (hrow : s.jobs.get id = some r)
      (hstatus : row'.status = .printing) (hat : row'.finished_at = r.finished_at)

section Law

variable {cfg : QueueConfig} {s t : QueueState} {a : Action} {id : JsString}

lemma row_step (h : step cfg s a = some t) {row' : PrintJobRow}
    (hrow' : t.jobs.get id = some row') : RowChange s a t id row' := by
  cases step_effect h with
  | quiet hjobs | answered _ _ hjobs => exact .kept (hjobs ▸ hrow') rfl rfl
  | enqueued hfresh hqueued hopen hjobs hids =>
      rw [Table.get_insert hjobs] at hrow'
      split_ifs at hrow' with hid
      · obtain rfl := Option.some.inj hrow'
        exact .enqueued (hid ▸ hfresh) (by simp [hids, hid]) hqueued hopen
      · exact .kept hrow' rfl rfl
  | cancelled hrow hqueued hjobs | failed hrow hqueued hjobs =>
      rw [hjobs] at hrow'
      obtain ⟨r, hr, rfl | ⟨rfl, rfl⟩⟩ := Table.of_get_updateKey hrow'
      · exact .kept hr rfl rfl
      · obtain rfl := Option.some.inj (hrow.symm.trans hr)
        exact .closed hr (by simp [hqueued, finished]) rfl (by simp [transitionRow])
  | landed ha htask hjobs =>
      rw [hjobs] at hrow'
      obtain ⟨r, hr, rfl | ⟨rfl, rfl⟩⟩ := Table.of_get_updateKey hrow'
      · exact .kept hr rfl rfl
      · exact .landed ha htask hr (by simp [transitionRow])
  | handed ha htask hjobs =>
      rw [hjobs] at hrow'
      obtain ⟨r, hr, rfl | ⟨rfl, rfl⟩⟩ := Table.of_get_updateKey hrow'
      · exact .kept hr rfl rfl
      · exact .handed ha hr rfl rfl
  | numbered hjobs =>
      rw [hjobs] at hrow'
      obtain ⟨r, hr, rfl | ⟨-, rfl⟩⟩ := Table.of_get_updateKey hrow'
      · exact .kept hr rfl rfl
      · exact .kept hr rfl rfl
  | deleted hjobs =>
      rw [hjobs, Table.get_delete, Option.filter_eq_some_iff] at hrow'
      exact .kept hrow'.1 rfl rfl
  | restarted hjobs =>
      rw [hjobs] at hrow'
      obtain ⟨r, hr, rfl | ⟨hopen, rfl⟩⟩ := Table.of_get_update hrow'
      · exact .kept hr rfl rfl
      · rw [Bool.or_eq_true, decide_eq_true_eq, decide_eq_true_eq] at hopen
        refine .closed hr ?_ rfl (by simp)
        rcases hopen with hopen | hopen <;> rw [hopen] <;> rfl

/-- Under the condition a step ends runs with a finished status only. -/
lemma ends_step (hs : JobsOk s) (hg : landsUnfinished s a) (h : step cfg s a = some t)
    {printerName : JsString} {status : PrintJobStatus} {message : Option String}
    (htask : t.tasks id = some (.running printerName (.finishing status message))) :
    finished status = true := by
  have hends : Ends s a t := by
    cases step_effect h with
    | quiet _ _ _ hends | enqueued _ _ _ _ _ _ hends | answered _ _ _ _ _ hends
    | cancelled _ _ _ _ _ hends | failed _ _ _ _ _ hends | landed _ _ _ _ _ hends
    | handed _ _ _ _ _ hends | numbered _ _ _ hends | deleted _ _ _ hends
    | restarted _ _ _ hends => exact hends
  rcases hends id printerName status message htask with
    hold | hfin | ⟨windowsJobId, deadline, unreadable, queue, rfl, hwatch, hdisposed, hunsettled⟩
  · exact hs.ends id printerName status message hold
  · exact hfin
  · simp [landsUnfinished, hwatch, hdisposed, hunsettled] at hg

/-- Under the condition a finished job keeps its status. -/
lemma settled_step (hg : landsUnfinished s a) (h : step cfg s a = some t)
    {status : PrintJobStatus} (hfin : finished status = true) (hset : Settled id status s) :
    Settled id status t := by
  obtain ⟨hused, hrow⟩ := hset
  refine ⟨usedIds_step h hused, fun row' hrow' => ?_⟩
  cases row_step h hrow' with
  | kept hr hstatus => exact hstatus.trans (hrow _ hr)
  | enqueued hfresh => exact absurd hused hfresh
  | closed hr hopen =>
      rw [hrow _ hr, hfin] at hopen
      cases hopen
  | landed ha htask hr =>
      subst ha
      simp only [landsUnfinished, htask, hr, Option.all_some, hrow _ hr, hfin, Bool.not_true,
        Bool.false_or, decide_eq_true_eq] at hg
      exact hg.symm
  | handed ha hr =>
      subst ha
      simp only [landsUnfinished, hr, Option.all_some, decide_eq_true_eq] at hg
      rw [← hrow _ hr, hg] at hfin
      cases hfin

/-- What a step logs: a handing over of a job that is not settled, or a promise to cancel that
the table keeps. -/
lemma log_step (hg : landsUnfinished s a) (h : step cfg s a = some t) :
    t.log = s.log ∨ ∃ e, t.log = e :: s.log ∧
      (∀ id submission, e = .handed id submission → ¬ Settled id .cancelled s) ∧
      ∀ id, e = .answered id .cancelled → (∃ row, s.jobs.get id = some row) ∧
        ∀ row, t.jobs.get id = some row → row.status = .cancelled := by
  have hquiet (hlog : Quiet s t) : t.log = s.log ∨ ∃ e, t.log = e :: s.log ∧
      (∀ id submission, e = .handed id submission → ¬ Settled id .cancelled s) ∧
      ∀ id, e = .answered id .cancelled → (∃ row, s.jobs.get id = some row) ∧
        ∀ row, t.jobs.get id = some row → row.status = .cancelled := by
    rcases hlog with hlog | ⟨e, he, hlog⟩
    · exact .inl hlog
    · refine .inr ⟨e, hlog, ?_, ?_⟩
      · rintro id submission rfl
        cases he
      · rintro id rfl
        cases he
  cases step_effect h with
  | quiet _ _ hlog | enqueued _ _ _ _ _ hlog | failed _ _ _ _ hlog | landed _ _ _ _ hlog
  | numbered _ _ hlog | deleted _ _ hlog | restarted _ _ hlog => exact hquiet hlog
  | @answered id row hrow hcancelled hjobs hids hlog =>
      refine .inr ⟨_, hlog, fun _ _ he => (nomatch he), fun id' he => ?_⟩
      obtain ⟨rfl, -⟩ := Event.answered.inj he
      refine ⟨⟨row, hrow⟩, fun row' hrow' => ?_⟩
      rw [hjobs] at hrow'
      obtain rfl := Option.some.inj (hrow.symm.trans hrow')
      exact hcancelled
  | @cancelled id row now hrow hqueued hjobs hids hlog =>
      refine .inr ⟨_, hlog, fun _ _ he => (nomatch he), fun id' he => ?_⟩
      obtain ⟨rfl, -⟩ := Event.answered.inj he
      refine ⟨⟨row, hrow⟩, fun row' hrow' => ?_⟩
      rw [hjobs] at hrow'
      have hget := Table.get_updateKey s.jobs id (transitionRow .cancelled none (some now) none)
        (fun _ _ => rfl) id
      rw [if_pos rfl, hrow] at hget
      obtain rfl := Option.some.inj (hrow'.symm.trans hget)
      rfl
  | @handed id printerName queue now submission ha htask hjobs hids hlog =>
      rcases hlog with ⟨⟨row, hrow⟩, hlog⟩ | hlog
      · refine .inr ⟨_, hlog, fun id' submission' he hset => ?_, fun _ he => (nomatch he)⟩
        obtain ⟨rfl, -⟩ := Event.handed.inj he
        subst ha
        -- the condition found the job queued, its cancellation found it cancelled
        simp only [landsUnfinished, hrow, Option.all_some, decide_eq_true_eq] at hg
        have hcancelled := hset.2 row hrow
        simp [hg] at hcancelled
      · exact hquiet hlog

lemma jobsOk_step (hs : JobsOk s) (hg : landsUnfinished s a) (h : step cfg s a = some t) :
    JobsOk t where
  known id row' hrow' := by
    cases row_step h hrow' with
    | kept hr | closed hr | landed _ _ hr | handed _ hr => exact usedIds_step h (hs.known id _ hr)
    | enqueued _ hused => exact hused
  stamped id row' hrow' := by
    cases row_step h hrow' with
    | kept hr hstatus hat => rw [hstatus, hat]; exact hs.stamped id _ hr
    | enqueued _ _ hstatus hat => simp [hstatus, hat, finished]
    | closed _ _ hstatus hat => exact iff_of_true hat hstatus
    | landed ha htask hr hat => exact iff_of_true hat (hs.ends id _ _ _ htask)
    | handed ha hr hstatus hat =>
        subst ha
        simp only [landsUnfinished, hr, Option.all_some, decide_eq_true_eq] at hg
        have hopen := hs.stamped id _ hr
        rw [hstatus, hat, hopen, hg]
        rfl
  ends id printerName status message htask := ends_step hs hg h htask
  promised id hanswered := by
    have hkeep (hold : .answered id .cancelled ∈ s.log) : Settled id .cancelled t :=
      settled_step hg h rfl (hs.promised id hold)
    rcases log_step hg h with hlog | ⟨e, hlog, -, he⟩
    · exact hkeep (hlog ▸ hanswered)
    · rw [hlog, List.mem_cons] at hanswered
      rcases hanswered with hnew | hold
      · obtain ⟨⟨row, hrow⟩, hcancelled⟩ := he id hnew.symm
        exact ⟨usedIds_step h (hs.known id row hrow), hcancelled⟩
      · exact hkeep hold

end Law

/-! ### The law -/

/-- Runs whose steps fit what they find. -/
abbrev FittingRun (cfg : QueueConfig) :=
  Run (Guarded (fun s a => landsUnfinished s a) (step cfg))

lemma jobsOk_run {cfg : QueueConfig} {s t : QueueState} {as : List Action}
    (h : FittingRun cfg s as t) (hs : JobsOk s) : JobsOk t :=
  h.invariant (I := JobsOk) (fun _ _ _ hu hstep => jobsOk_step hu hstep.1 hstep.2) hs

lemma settled_run {cfg : QueueConfig} {s t : QueueState} {as : List Action} {id : JsString}
    {status : PrintJobStatus} (h : FittingRun cfg s as t) (hfin : finished status = true)
    (hs : Settled id status s) : Settled id status t :=
  h.invariant (I := Settled id status)
    (fun _ _ _ hu hstep => settled_step hstep.1 hstep.2 hfin hu) hs

/-- Along a run nothing is handed over that was settled as cancelled at its start. -/
lemma withdrawn_run {cfg : QueueConfig} {s t : QueueState} {as : List Action}
    (h : FittingRun cfg s as t) : ∃ since, t.log = since ++ s.log ∧
      ∀ id, Settled id .cancelled s → ∀ submission, .handed id submission ∉ since := by
  have hrun := h.invariant (I := fun u => (∀ id, Settled id .cancelled s → Settled id .cancelled u) ∧
    ∃ since, u.log = since ++ s.log ∧
      ∀ id, Settled id .cancelled s → ∀ submission, .handed id submission ∉ since)
    (fun u a v hu hstep => ?_) ⟨fun _ hset => hset, [], rfl, by simp⟩
  · exact hrun.2
  obtain ⟨hkeep, since, hsince, hnone⟩ := hu
  refine ⟨fun id hset => settled_step hstep.1 hstep.2 rfl (hkeep id hset), ?_⟩
  rcases log_step hstep.1 hstep.2 with hlog | ⟨e, hlog, hhanded, -⟩
  · exact ⟨since, hlog.trans hsince, hnone⟩
  · refine ⟨e :: since, by rw [hlog, hsince, List.cons_append], fun id hset submission hmem => ?_⟩
    rcases List.mem_cons.mp hmem with he | hmem
    · exact hhanded id submission he.symm (hkeep id hset)
    · exact hnone id hset submission hmem

/-- **A finished job stays finished** along every run whose steps fit what they find. -/
theorem finished_jobs_stay {cfg : QueueConfig} {as bs : List Action} {s t : QueueState}
    (hs : FittingRun cfg init as s) (ht : FittingRun cfg s bs t) : FinishedLaw s t := by
  have hok := jobsOk_run hs jobsOk_init
  refine ⟨fun id row row' hrow hfin hrow' => ?_, (jobsOk_run ht hok).stamped, ?_⟩
  · have hset : Settled id row.status s := by
      refine ⟨hok.known id row hrow, fun r hr => ?_⟩
      rw [Option.some.inj (hrow.symm.trans hr)]
    exact (settled_run ht hfin hset).2 row' hrow'
  · obtain ⟨since, hsince, hnone⟩ := withdrawn_run ht
    exact ⟨since, hsince, fun id hanswered => hnone id (hok.promised id hanswered)⟩

/-! ### Concrete runs -/

def plainConfig : QueueConfig := ⟨js "/tmp", js "/vendor", 47, 600000, 5⟩

/-- A document for the printer `printerId`. -/
def plainInput (printerId : String) : EnqueueInput :=
  { deviceId := js "d", printerId := js printerId, printerName := js printerId
    sourcePath := js "/m/a.pdf", fileName := js "a.pdf", settings := ⟨1, .mono, .simplex, none⟩ }

/-- A job is enqueued and its run reaches the copy. -/
def started (id printerId : String) : List Action :=
  [.enqueue (js id) (plainInput printerId) 1, .begin (js id) 2]

/-- A run goes on from the copy until the document is handed over. -/
def handedOver (id : String) : List Action :=
  [.copied (js id) (.ok ()), .found (js id) (some (js "/vendor/SumatraPDF.exe")),
    .listed (js id) (.ok ⟨true, []⟩) 3]

/-- A job is printed, watched, and done; another is cancelled before its turn. -/
def printedOnce : List Action :=
  started "1" "p" ++ [.enqueue (js "2") (plainInput "p") 1, .cancel (js "2") (js "d") 2] ++
    handedOver "1" ++ [.submitted (js "1") (.ok ()),
      .looked (js "1") (.ok ⟨true, [⟨5, js "a", js "Spooling"⟩]⟩), .joined (js "1") 4 4,
      .watched (js "1") (.ok ⟨true, []⟩), .cleaned (js "1") 6, .begin (js "2") 6,
      .cleaned (js "2") 7]

/-- A job is cancelled during its copy. -/
def cancelledEarly : List Action := started "1" "p" ++ [.cancel (js "1") (js "d") 2]

/-- Its run goes on; and another job is still printing when the queue is disposed. -/
def printedLate : List Action :=
  handedOver "1" ++ started "2" "q" ++ handedOver "2" ++ [.submitted (js "2") (.ok ()),
    .looked (js "2") (.ok ⟨true, [⟨5, js "a", js "Spooling"⟩]⟩), .joined (js "2") 4 4, .dispose,
    .watched (js "2") (.ok ⟨true, [⟨5, js "a", js "Printing"⟩]⟩), .cleaned (js "2") 6]

theorem finished_jobs_stay_printedOnce : ∃ s, FittingRun plainConfig init printedOnce s ∧
    ((s.jobs.get (js "1")).map PrintJobRow.status = some .done ∧
      (s.jobs.get (js "2")).map PrintJobRow.status = some .cancelled) ∧ FinishedLaw s s := by
  obtain ⟨s, hrun, hs⟩ := exists_guarded_run_of_exec (fun s a => landsUnfinished s a)
    (step plainConfig) init printedOnce
    (fun s => (s.jobs.get (js "1")).map PrintJobRow.status = some .done &&
      (s.jobs.get (js "2")).map PrintJobRow.status = some .cancelled) (by decide +kernel)
  simp only [Bool.and_eq_true, decide_eq_true_eq] at hs
  exact ⟨s, hrun, hs, finished_jobs_stay hrun (.nil s)⟩

/-- **A cancelled job prints**, and a disposed queue calls a printing job finished. -/
theorem cancelled_job_prints : ∃ s t, Run (Steps (step plainConfig)) init cancelledEarly s ∧
    Run (Steps (step plainConfig)) s printedLate t ∧
    (.answered (js "1") .cancelled ∈ s.log ∧
      (s.jobs.get (js "1")).map PrintJobRow.status = some .cancelled) ∧
    (t.jobs.get (js "1")).map PrintJobRow.status = some .printing ∧
    (t.jobs.get (js "2")).map (fun r => (r.status, r.finished_at)) = some (.printing, some 6) ∧
    ¬ FinishedLaw s t := by
  obtain ⟨s, hrun, hs⟩ := exists_run_of_exec (step plainConfig) init cancelledEarly
    (fun s => (.answered (js "1") .cancelled ∈ s.log &&
      (s.jobs.get (js "1")).map PrintJobRow.status = some .cancelled) &&
      (exec (step plainConfig) s printedLate).any fun t =>
        (t.jobs.get (js "1")).map PrintJobRow.status = some .printing &&
        (t.jobs.get (js "2")).map (fun r => (r.status, r.finished_at)) =
          some (.printing, some 6)) (by decide +kernel)
  rw [Bool.and_eq_true, Bool.and_eq_true, decide_eq_true_eq, decide_eq_true_eq] at hs
  obtain ⟨t, hrun', ht⟩ := exists_run_of_exec _ _ _ _ hs.2
  rw [Bool.and_eq_true, decide_eq_true_eq, decide_eq_true_eq] at ht
  refine ⟨s, t, hrun, hrun', hs.1, ht.1, ht.2, fun hlaw => ?_⟩
  obtain ⟨row, hrow, hstatus⟩ := Option.map_eq_some_iff.mp ht.2
  have hstamped := hlaw.stamped _ row hrow
  obtain ⟨h1, h2⟩ := Prod.mk.inj hstatus
  simp [h1, h2, finished] at hstamped

end LocalCast.Print
