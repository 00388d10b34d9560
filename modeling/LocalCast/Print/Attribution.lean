import LocalCast.Print.Queue

/-!
Whose spooler job a print job calls its own.

The print queue runs beside the Windows queues of its printers, in which documents appear and
disappear as they like. A reading of one shows what is in it when it is taken, which is before
it is answered; an unreadable one shows nothing.

* `SpoolerWorld`, `worldStep`: the queue, the Windows queues, and the readings under way.
  `earlier` keeps for every job what its printer had shown when its submission began.
* `undisturbed`: nothing else is submitted to a printer between the first reading and the
  submission. `firstReadable`: the condition, that the first reading was one, or that there was
  nothing to read.
* `Stage`, `move_of_step`: how far a run is as far as Windows is concerned, and what a step
  makes of it.
* `attribution_holds`: along every run that meets the condition no job is ever recorded with,
  nor removes, what was in the queue before.
* `stranger_removed`: without it, a document of somebody else is taken for ours and cancelled.
-/

namespace LocalCast.Print

open JsString Contract Db Runs QueueState

/-! ### The Windows queues -/

/-- The print queue beside the Windows queues of the printers. `known` is every id a printer's
queue has held, `earlier` what it had held when the submission of a job began, and `removed`
the jobs that cancellations removed. -/
structure SpoolerWorld where
  queue : QueueState
  windows : JsString → List ℤ
  known : JsString → List ℤ
  reading : JsString → Option Listing
  earlier : JsString → List ℤ
  removed : List (JsString × ℤ)

namespace SpoolerWorld

/-- A server that starts over queues that need not be empty. -/
def start (windows : JsString → List ℤ) : SpoolerWorld where
  queue := .init
  windows := windows
  known := windows
  reading _ := none
  earlier _ := []
  removed := []

end SpoolerWorld

/-- What a reading of a queue may be: an error, nothing, or the ids in it. -/
def shows (windows : List ℤ) : Listing → Bool
  | .error _ => true
  | .ok queue =>
      if queue.readable then queue.jobs.map SpoolerJob.id = windows else queue.jobs = []

/-- The printer whose queue a run has asked to read. -/
def readsFrom : Option Task → Option JsString
  | some (.running _ (.listing submission)) => some submission.printerName
  | some (.running printerName (.submitting _ _ _ (.looking _ _)))
  | some (.running printerName (.watching _ _ _)) => some printerName
  | _ => none

/-- The reading a step of the queue answers. -/
def Action.answers : Action → Option (JsString × Listing)
  | .listed id r _ | .looked id r | .watched id r => some (id, r)
  | _ => none

inductive WorldAction where
  /-- A document is queued, under an id the printer has not used. -/
  | appears (printerName : JsString) (windowsJobId : ℤ)
  | vanishes (printerName : JsString) (windowsJobId : ℤ)
  /-- A reading that a run has asked for is taken. -/
  | takes (id : JsString) (r : Listing)
  /-- `removeSpoolerJob` reaches the spooler. -/
  | removes (id : JsString)
  | queue (a : Action)

/-- The world after a step of the queue: a reading is answered, and a submission begins where
the first one was. -/
def settleReading (w : SpoolerWorld) (a : Action) (queue : QueueState) : SpoolerWorld :=
  match a with
  | .listed id r _ =>
      { w with
        queue := queue
        reading := Function.update w.reading id none
        earlier := match r, w.queue.tasks id with
          | .ok _, some (.running _ (.listing submission)) =>
              Function.update w.earlier id (w.known submission.printerName)
          | _, _ => w.earlier }
  | .looked id _ | .watched id _ =>
      { w with queue := queue, reading := Function.update w.reading id none }
  | _ => { w with queue := queue }

def worldStep (cfg : QueueConfig) (w : SpoolerWorld) : WorldAction → Option SpoolerWorld
  | .appears printerName windowsJobId =>
      if windowsJobId ∈ w.known printerName then none
      else some { w with
        windows := Function.update w.windows printerName
          (w.windows printerName ++ [windowsJobId])
        known := Function.update w.known printerName (windowsJobId :: w.known printerName) }
  | .vanishes printerName windowsJobId =>
      some { w with
        windows := Function.update w.windows printerName
          ((w.windows printerName).filter (· ≠ windowsJobId)) }
  | .takes id r =>
      match readsFrom (w.queue.tasks id), w.reading id with
      | some printerName, none =>
          if shows (w.windows printerName) r then
            some { w with reading := Function.update w.reading id (some r) }
          else none
      | _, _ => none
  | .removes id =>
      match w.queue.tasks id with
      | some (.running printerName (.removing windowsJobId)) =>
          some { w with
            windows := Function.update w.windows printerName
              ((w.windows printerName).filter (· ≠ windowsJobId))
            removed := (id, windowsJobId) :: w.removed }
      | _ => none
  | .queue a =>
      if a.answers.all fun x => w.reading x.1 = some x.2 then
        (step cfg w.queue a).map (settleReading w a)
      else none

/-! ### The law -/

/-- What is recorded for a job, and what its cancellation removes, was not in the queue before
its submission began. -/
structure AttributionLaw (w : SpoolerWorld) : Prop where
  recorded : ∀ id row windowsJobId, w.queue.jobs.get id = some row →
    row.windows_job_id = some windowsJobId → windowsJobId ∉ w.earlier id
  spared : ∀ id windowsJobId, (id, windowsJobId) ∈ w.removed → windowsJobId ∉ w.earlier id

/-- The printer a run is about to submit to. -/
def listingOn : Option Task → Option JsString
  | some (.running _ (.listing submission)) => some submission.printerName
  | _ => none

/-- Nothing is queued on a printer between the first reading of a job and its submission. -/
def undisturbed (w : SpoolerWorld) : WorldAction → Bool
  | .appears printerName _ => w.queue.usedIds.all fun id =>
      listingOn (w.queue.tasks id) ≠ some printerName || (w.reading id).isNone
  | _ => true

/-- The first reading of a job was one, or its printer's queue is empty. -/
def firstReadable (w : SpoolerWorld) : WorldAction → Bool
  | .queue (.listed id (.ok queue) _) => queue.readable
      || (listingOn (w.queue.tasks id)).all fun printerName => w.windows printerName = []
  | _ => true

/-! ### How far a run is -/

/-- A run as far as Windows is concerned: before its first reading, waiting for it, submitting
with what it has found, with a spooler job of its own, or without one. -/
inductive Stage where
  | fresh
  | listing (printerName : JsString)
  | submitting (printerName : JsString) (before : List ℤ) (found : Option ℤ)
  | attributed (windowsJobId : ℤ)
  | gone
deriving DecidableEq

/-- The job a discovery has settled on. -/
def Discovery.found : Discovery → Option ℤ
  | .settled windowsJobId => windowsJobId
  | _ => none

def Pc.stage (printerName : JsString) : Pc → Stage
  | .copying _ _ | .finding _ _ | .probing _ _ => .fresh
  | .listing submission => .listing submission.printerName
  | .submitting _ before _ discovery => .submitting printerName before discovery.found
  | .watching windowsJobId _ _ | .pausing windowsJobId _ _ | .removing windowsJobId =>
      .attributed windowsJobId
  | .leaving | .finishing _ _ => .gone

def stageOf : Option Task → Stage
  | some (.waiting _ _) => .fresh
  | some (.running printerName pc) => pc.stage printerName
  | some .settled | none => .gone

/-! ### What a step makes of a run -/

/-- The job a step is about, where it is one of its run. -/
def Action.job : Action → Option JsString
  | .enqueue id _ _ | .begin id _ | .copied id _ | .found id _ | .probed id _ | .listed id _ _
  | .submitted id _ | .looked id _ | .woke id _ | .joined id _ _ | .watched id _ | .removed id
  | .cleaned id _ => some id
  | .cancel .. | .dispose | .deleteDevice _ | .restart _ => none

/-- The row of a job, if it is there, was there with the same spooler job. -/
def KeepsNumber (s t : QueueState) (id : JsString) : Prop :=
  ∀ row', t.jobs.get id = some row' →
    ∃ row, s.jobs.get id = some row ∧ row'.windows_job_id = row.windows_job_id

/-- What a step makes of the run of `id` and of its row. -/
inductive Move (s : QueueState) (a : Action) (t : QueueState) (id : JsString) : Prop
  | kept (hstage : stageOf (t.tasks id) = stageOf (s.tasks id)) (hrow : KeepsNumber s t id)
  | ended (hstage : stageOf (t.tasks id) = .gone) (hrow : KeepsNumber s t id)
  | enqueued (hfresh : id ∉ s.usedIds) (hused : id ∈ t.usedIds)
      (hstage : stageOf (t.tasks id) = .fresh)
      (hrow : ∀ row', t.jobs.get id = some row' → row'.windows_job_id = none)
  | asked {printerName : JsString} (hfrom : stageOf (s.tasks id) = .fresh)
      (hstage : stageOf (t.tasks id) = .listing printerName) (hrow : KeepsNumber s t id)
  | handed {submission : Submission} {printerName : JsString} {queue : SpoolerQueue} {now : Time}
      (ha : a = .listed id (.ok queue) now)
      (hfrom : s.tasks id = some (.running printerName (.listing submission)))
      (hstage : stageOf (t.tasks id)
        = .submitting submission.printerName (queue.jobs.map SpoolerJob.id) none)
      (hrow : KeepsNumber s t id)
  | found {printerName : JsString} {before : List ℤ} {windowsJobId : ℤ} {queue : SpoolerQueue}
      (ha : a = .looked id (.ok queue))
      (hfrom : stageOf (s.tasks id) = .submitting printerName before none)
      (hmem : windowsJobId ∈ queue.jobs.map SpoolerJob.id) (hnew : windowsJobId ∉ before)
      (hstage : stageOf (t.tasks id) = .submitting printerName before (some windowsJobId))
      (hrow : KeepsNumber s t id)
  | numbered {printerName : JsString} {before : List ℤ} {windowsJobId : ℤ}
      (hfrom : stageOf (s.tasks id) = .submitting printerName before (some windowsJobId))
      (hstage : stageOf (t.tasks id) = .attributed windowsJobId ∨ stageOf (t.tasks id) = .gone)
      (hrow : ∀ row', t.jobs.get id = some row' → row'.windows_job_id = some windowsJobId)

section Moves

variable {cfg : QueueConfig} {s t : QueueState} {a : Action} {id j printerName : JsString}

lemma keepsNumber_of_eq (h : t.jobs = s.jobs) : KeepsNumber s t id :=
  fun row' hrow' => ⟨row', h ▸ hrow', rfl⟩

/-- A transition leaves the spooler job of its row. -/
lemma keepsNumber_of_transition {status : PrintJobStatus} {started finished : Option Time}
    {message : Option String}
    (h : t.jobs = s.jobs.updateKey j (transitionRow status started finished message)) :
    KeepsNumber s t id := by
  intro row' hrow'
  rw [h] at hrow'
  obtain ⟨row, hrow, rfl | ⟨-, rfl⟩⟩ := Table.of_get_updateKey hrow'
  · exact ⟨row', hrow, rfl⟩
  · exact ⟨row, hrow, rfl⟩

/-- A step of the run of `j` leaves the others alone. -/
lemma move_of_update {task : Task} (htasks : t.tasks = Function.update s.tasks j (some task))
    (hrow : ∀ id, KeepsNumber s t id) (hown : id = j → Move s a t j) : Move s a t id := by
  by_cases hid : id = j
  · exact hid ▸ hown hid
  · refine .kept ?_ (hrow id)
    rw [htasks, Function.update_of_ne hid]

lemma goOn_task {pc : Pc} : (s.goOn j printerName pc).tasks j = some (.running printerName pc) :=
  Function.update_self ..

lemma stage_task {task : Option Task} (h : s.tasks id = task) :
    stageOf (s.tasks id) = stageOf task := by rw [h]

/-- A run goes on at a stage it was in, or is over. -/
lemma move_goOn {pc : Pc} (h : pc.stage printerName = stageOf (s.tasks j)
    ∨ pc.stage printerName = .gone) : Move s a (s.goOn j printerName pc) id := by
  refine move_of_update rfl (fun _ => keepsNumber_of_eq rfl) fun _ => ?_
  have hstage : stageOf ((s.goOn j printerName pc).tasks j) = pc.stage printerName :=
    stage_task goOn_task
  rcases h with h | h
  · exact .kept (hstage.trans h) (keepsNumber_of_eq rfl)
  · exact .ended (hstage.trans h) (keepsNumber_of_eq rfl)

/-- A run settles, whatever it wrote, as long as it kept the spooler jobs. -/
lemma move_settled (htasks : t.tasks = Function.update s.tasks j (some .settled))
    (hrow : ∀ id, KeepsNumber s t id) : Move s a t id := by
  refine move_of_update htasks hrow fun _ => .ended ?_ (hrow j)
  rw [htasks, Function.update_self]
  rfl

lemma move_finishRun {status : PrintJobStatus} {message : Option String} {now : Time} :
    Move s a (finishRun s j status message now) id := by
  rw [finishRun]
  split_ifs
  · exact move_settled rfl fun _ => keepsNumber_of_transition rfl
  · exact move_settled rfl fun _ => keepsNumber_of_transition rfl

lemma stage_watchTop {windowsJobId : ℤ} {deadline now : Time} {unreadable : ℕ} :
    (watchTop cfg s id windowsJobId deadline unreadable now).stage printerName
        = .attributed windowsJobId ∨
      (watchTop cfg s id windowsJobId deadline unreadable now).stage printerName = .gone := by
  rw [watchTop]
  split_ifs
  · exact .inl rfl
  · exact .inl rfl
  · exact .inr rfl

lemma stage_watchBody {disposed : Bool} {windowsJobId : ℤ} {deadline : Time} {unreadable : ℕ}
    {queue : SpoolerQueue} :
    (watchBody disposed windowsJobId deadline unreadable queue).stage printerName
        = .attributed windowsJobId ∨
      (watchBody disposed windowsJobId deadline unreadable queue).stage printerName = .gone := by
  rw [watchBody]
  by_cases hr : queue.readable = true
  · rw [if_pos hr]
    cases queue.jobs.find? fun job => job.id = windowsJobId with
    | none => exact .inr rfl
    | some mine =>
        simp only
        cases classifyJobStatus mine.status with
        | error | cancelled | done => exact .inr rfl
        | printing =>
            cases disposed with
            | true => exact .inr rfl
            | false => exact .inl rfl
  · rw [if_neg hr]
    by_cases hlimit : unreadable + 1 ≥ unreadableLimit
    · rw [if_pos hlimit]
      exact .inr rfl
    · rw [if_neg hlimit]
      cases disposed with
      | true => exact .inr rfl
      | false => exact .inl rfl

lemma move_crash {error : String} : Move s a (s.crash j error) id :=
  move_settled rfl fun _ => keepsNumber_of_eq rfl

/-- A run that has not read the queue yet goes on. -/
lemma move_fresh {pc : Pc} (hfrom : stageOf (s.tasks j) = .fresh)
    (h : pc.stage printerName = .fresh ∨ (∃ p, pc.stage printerName = .listing p) ∨
      pc.stage printerName = .gone) : Move s a (s.goOn j printerName pc) id := by
  rcases h with h | ⟨p, h⟩ | h
  · exact move_goOn (.inl (h.trans hfrom.symm))
  · refine move_of_update rfl (fun _ => keepsNumber_of_eq rfl) fun _ => ?_
    exact .asked hfrom ((stage_task goOn_task).trans h) (keepsNumber_of_eq rfl)
  · exact move_goOn (.inr h)

lemma move_begin {now : Time} (hfrom : stageOf (s.tasks j) = .fresh) :
    Move s a (begin s j printerName now) id := by
  rw [begin]
  cases hrow : s.jobs.get j with
  | none => exact move_settled rfl fun _ => keepsNumber_of_eq rfl
  | some row =>
      simp only
      split_ifs with hleave hsource
      · exact move_goOn (.inr rfl)
      · exact move_finishRun
      · exact move_fresh hfrom (.inl rfl)

lemma stage_chooseHelper {row : PrintJobRow} {path : JsString} {sumatra : Option JsString} :
    (chooseHelper cfg printerName row path sumatra).stage printerName = .fresh ∨
      (∃ p, (chooseHelper cfg printerName row path sumatra).stage printerName = .listing p) ∨
      (chooseHelper cfg printerName row path sumatra).stage printerName = .gone := by
  cases sumatra with
  | some helper =>
      rw [chooseHelper]
      split
      · exact .inr (.inr rfl)
      · exact .inr (.inl ⟨_, rfl⟩)
  | none =>
      rw [chooseHelper]
      split
      · exact .inr (.inr rfl)
      · exact .inl rfl

lemma stage_checkSupport {path : JsString} {support : PrintToSupport} :
    (∃ p, (checkSupport cfg printerName path support).stage printerName = .listing p) ∨
      (checkSupport cfg printerName path support).stage printerName = .gone := by
  rw [checkSupport]
  split
  · exact .inr rfl
  · exact .inl ⟨_, rfl⟩

/-- The first reading is answered. -/
lemma move_handOver {submission : Submission} {queue : SpoolerQueue} {now : Time}
    (hfrom : s.tasks j = some (.running printerName (.listing submission))) :
    Move s (.listed j (.ok queue) now)
      (handOver s j submission (queue.jobs.map SpoolerJob.id) now) id := by
  rw [handOver]
  split_ifs
  · refine move_of_update rfl (fun _ => keepsNumber_of_transition rfl) fun _ => ?_
    exact .handed rfl hfrom (stage_task goOn_task) (keepsNumber_of_transition rfl)
  · exact move_settled rfl fun _ => keepsNumber_of_transition rfl

/-- The discovery looks at a reading. -/
lemma move_look {submission : Submission} {before : List ℤ}
    {submitted : Option (Except String Unit)} {attempt trailing : ℕ} {r : Listing}
    (hfrom : s.tasks j = some (.running printerName (.submitting submission before submitted
      (.looking attempt trailing)))) :
    Move s (.looked j r) (s.goOn j printerName (.submitting submission before submitted
      (look cfg submission before submitted.isNone attempt trailing r))) id := by
  have hstage : stageOf (s.tasks j) = .submitting printerName before none := stage_task hfrom
  cases r with
  | error e => exact move_goOn (.inl hstage.symm)
  | ok queue =>
      rw [look]
      cases hfresh : queue.jobs.find? fun job => job.id ∉ before with
      | none =>
          refine move_goOn (.inl ?_)
          dsimp only
          rw [hstage]
          split_ifs <;> rfl
      | some job =>
          refine move_of_update rfl (fun _ => keepsNumber_of_eq rfl) fun _ => ?_
          exact .found rfl hstage (List.mem_map_of_mem (List.mem_of_find?_eq_some hfresh))
            (by simpa using List.find?_some hfresh)
            (stage_task goOn_task) (keepsNumber_of_eq rfl)

/-- The submission and the discovery are over. -/
lemma move_join {submission : Submission} {before : List ℤ} {submitted : Except String Unit}
    {windowsJobId : Option ℤ} {now later : Time}
    (hfrom : s.tasks j = some (.running printerName (.submitting submission before
      (some submitted) (.settled windowsJobId)))) :
    Move s a (join cfg s j submission submitted windowsJobId now later) id := by
  have hstage : stageOf (s.tasks j) = .submitting printerName before windowsJobId :=
    stage_task hfrom
  cases submitted with
  | error e => exact move_goOn (.inr rfl)
  | ok u =>
      cases windowsJobId with
      | none => exact move_goOn (.inr rfl)
      | some w =>
          have hjobs : (join cfg s j submission (.ok u) (some w) now later).jobs
              = s.jobs.updateKey j fun r => { r with windows_job_id := some w } := rfl
          by_cases hid : id = j
          · subst hid
            refine .numbered hstage ?_ fun row' hrow' => ?_
            · have htask : (join cfg s id submission (.ok u) (some w) now later).tasks id
                  = some (.running submission.printerName (watch cfg s id (some w) now later)) :=
                Function.update_self ..
              rw [htask]
              exact stage_watchTop
            · rw [hjobs] at hrow'
              obtain ⟨row, -, rfl⟩ := Table.of_get_updateKey_self hrow'
              rfl
          · refine .kept (stage_task (Function.update_of_ne hid ..)) fun row' hrow' => ?_
            rw [hjobs] at hrow'
            obtain ⟨row, hrow, rfl | ⟨hj, -⟩⟩ := Table.of_get_updateKey hrow'
            · exact ⟨row', hrow, rfl⟩
            · exact absurd hj hid

/-- **What a step makes of a run.** -/
theorem move_of_step (h : step cfg s a = some t) (id : JsString) : Move s a t id := by
  cases a with
  | enqueue j input now =>
      simp only [step, enqueue] at h
      split_ifs at h with hused
      obtain ⟨jobs, hjobs, rfl⟩ := Option.map_eq_some_iff.mp h
      by_cases hid : id = j
      · subst hid
        refine .enqueued hused (by simp) ?_ fun row' hrow' => ?_
        · dsimp only
          rw [Function.update_self]
          rfl
        · have hget := Table.get_insert hjobs id
          rw [hrow', key_printJob, if_pos rfl] at hget
          rw [Option.some.inj hget]
      · refine .kept ?_ fun row' hrow' => ?_
        · dsimp only
          rw [Function.update_of_ne hid]
        · have hget := Table.get_insert hjobs id
          rw [hrow', key_printJob, if_neg hid] at hget
          exact ⟨row', hget.symm, rfl⟩
  | cancel jobId deviceId now =>
      obtain rfl := Option.some.inj h
      rw [cancel]
      cases s.jobs.get jobId with
      | none => exact .kept rfl (keepsNumber_of_eq rfl)
      | some row =>
          simp only
          split_ifs
          · exact .kept rfl (keepsNumber_of_eq rfl)
          · cases row.status with
            | queued => exact .kept rfl (keepsNumber_of_transition rfl)
            | cancelled | done | error | printing => exact .kept rfl (keepsNumber_of_eq rfl)
  | dispose =>
      obtain rfl := Option.some.inj h
      exact .kept rfl (keepsNumber_of_eq rfl)
  | begin j now =>
      rw [step] at h
      split at h
      case h_2 => cases h
      case h_1 printerName previous htask =>
        split_ifs at h
        obtain rfl := Option.some.inj h
        exact move_begin (stage_task htask)
  | copied j r =>
      simp only [step] at h
      split at h
      case h_1 printerName row path htask =>
        obtain rfl := Option.some.inj h
        exact move_goOn (.inl (stage_task htask).symm)
      case h_2 => obtain rfl := Option.some.inj h; exact move_goOn (.inr rfl)
      case h_3 => cases h
  | found j sumatra =>
      rw [step] at h
      split at h
      case h_2 => cases h
      case h_1 printerName row path htask =>
        obtain rfl := Option.some.inj h
        exact move_fresh (stage_task htask) stage_chooseHelper
  | probed j support =>
      rw [step] at h
      split at h
      case h_2 => cases h
      case h_1 printerName row path htask =>
        obtain rfl := Option.some.inj h
        exact move_fresh (stage_task htask) (.inr stage_checkSupport)
  | listed j r now =>
      simp only [step] at h
      split at h
      case h_1 submission queue htask =>
        obtain rfl := Option.some.inj h
        exact move_handOver htask
      case h_2 => obtain rfl := Option.some.inj h; exact move_crash
      case h_3 => cases h
  | submitted j r =>
      rw [step] at h
      split at h
      case h_2 => cases h
      case h_1 printerName submission before discovery htask =>
        obtain rfl := Option.some.inj h
        exact move_goOn (.inl (stage_task htask).symm)
  | looked j r =>
      rw [step] at h
      split at h
      case h_2 => cases h
      case h_1 htask =>
        obtain rfl := Option.some.inj h
        exact move_look htask
  | woke j now =>
      rw [step] at h
      split at h
      case h_3 => cases h
      case h_1 htask =>
        obtain rfl := Option.some.inj h
        refine move_goOn (.inl (Eq.trans ?_ (stage_task htask).symm))
        rw [lookAgain]
        split_ifs <;> rfl
      case h_2 htask =>
        obtain rfl := Option.some.inj h
        refine move_goOn ?_
        rw [stage_task htask]
        exact stage_watchTop
  | joined j now later =>
      rw [step] at h
      split at h
      case h_3 => cases h
      case h_1 htask => obtain rfl := Option.some.inj h; exact move_join htask
      case h_2 => obtain rfl := Option.some.inj h; exact move_crash
  | watched j r =>
      simp only [step] at h
      split at h
      case h_1 htask =>
        obtain rfl := Option.some.inj h
        refine move_goOn ?_
        rw [stage_task htask]
        exact stage_watchBody
      case h_2 => obtain rfl := Option.some.inj h; exact move_crash
      case h_3 => cases h
  | removed j =>
      rw [step] at h
      split at h
      case h_2 => cases h
      case h_1 => obtain rfl := Option.some.inj h; exact move_goOn (.inr rfl)
  | cleaned j now =>
      rw [step] at h
      split at h
      case h_3 => cases h
      case h_1 =>
        obtain rfl := Option.some.inj h
        exact move_settled rfl fun _ => keepsNumber_of_eq rfl
      case h_2 => obtain rfl := Option.some.inj h; exact move_finishRun
  | deleteDevice deviceId =>
      obtain rfl := Option.some.inj h
      refine .kept rfl fun row' hrow' => ?_
      have hjobs : (s.setJobs (s.jobs.delete fun r => r.device_id = deviceId)).jobs
          = s.jobs.delete fun r => r.device_id = deviceId := rfl
      rw [hjobs, Table.get_delete, Option.filter_eq_some_iff] at hrow'
      exact ⟨row', hrow'.1, rfl⟩
  | restart now =>
      obtain rfl := Option.some.inj h
      refine .ended rfl fun row' hrow' => ?_
      simp only [restart, Table.get_update] at hrow'
      obtain ⟨row, hrow, rfl⟩ := Option.map_eq_some_iff.mp hrow'
      refine ⟨row, hrow, ?_⟩
      split_ifs <;> rfl

end Moves

/-! ### The invariant -/

/-- Nothing has been recorded for a job, nor removed for it. -/
def Unattributed (w : SpoolerWorld) (id : JsString) : Prop :=
  (∀ row, w.queue.jobs.get id = some row → row.windows_job_id = none) ∧
    ∀ windowsJobId, (id, windowsJobId) ∉ w.removed

/-- What holds of a run at its stage. The reading under way shows everything that is in the queue,
before the submission, and after it nothing of before that the first one did not. -/
def StageOk (w : SpoolerWorld) (id : JsString) : Stage → Prop
  | .fresh => Unattributed w id ∧ w.reading id = none
  | .listing printerName => Unattributed w id ∧ ∀ queue, w.reading id = some (.ok queue) →
      queue.readable = true → w.windows printerName ⊆ queue.jobs.map SpoolerJob.id
  | .submitting printerName before found => Unattributed w id ∧
      w.earlier id ⊆ w.known printerName ∧
      (∀ x ∈ w.windows printerName, x ∈ w.earlier id → x ∈ before) ∧
      (∀ queue, w.reading id = some (.ok queue) →
        ∀ x ∈ queue.jobs.map SpoolerJob.id, x ∈ w.earlier id → x ∈ before) ∧
      ∀ x, found = some x → x ∉ w.earlier id
  | .attributed windowsJobId => windowsJobId ∉ w.earlier id
  | .gone => True

structure WorldOk (w : SpoolerWorld) : Prop where
  drawn : ∀ id, stageOf (w.queue.tasks id) ≠ .gone → id ∈ w.queue.usedIds
  idle : ∀ id, id ∉ w.queue.usedIds → w.reading id = none ∧ ∀ x, (id, x) ∉ w.removed
  shown : ∀ printerName, w.windows printerName ⊆ w.known printerName
  stages : ∀ id, StageOk w id (stageOf (w.queue.tasks id))
  law : AttributionLaw w

lemma worldOk_start (windows : JsString → List ℤ) : WorldOk (.start windows) where
  drawn id h := absurd rfl h
  idle id _ := ⟨rfl, fun _ h => nomatch h⟩
  shown _ := List.Subset.refl _
  stages id := trivial
  law := ⟨fun _ _ _ hrow => by simp [SpoolerWorld.start, init] at hrow, fun _ _ h => nomatch h⟩

section Invariant

variable {cfg : QueueConfig} {w v : SpoolerWorld}

/-- The Windows queues lose documents. -/
lemma worldOk_shrunk (hw : WorldOk w) (windows : JsString → List ℤ)
    (hsub : ∀ printerName, windows printerName ⊆ w.windows printerName) :
    WorldOk { w with windows := windows } where
  drawn := hw.drawn
  idle := hw.idle
  shown printerName := List.Subset.trans (hsub printerName) (hw.shown printerName)
  law := ⟨hw.law.recorded, hw.law.spared⟩
  stages id := by
    have hstage := hw.stages id
    dsimp only
    cases h : stageOf (w.queue.tasks id) with
    | listing printerName =>
        rw [h] at hstage
        exact ⟨hstage.1, fun queue hr hreadable =>
          List.Subset.trans (hsub _) (hstage.2 queue hr hreadable)⟩
    | submitting printerName before found =>
        rw [h] at hstage
        exact ⟨hstage.1, hstage.2.1, fun x hx => hstage.2.2.1 x (hsub _ hx), hstage.2.2.2⟩
    | fresh | attributed x | gone =>
        rw [h] at hstage
        exact hstage

lemma listingOn_of_stage {task : Option Task} {printerName : JsString}
    (h : stageOf task = .listing printerName) : listingOn task = some printerName := by
  cases task with
  | none => cases h
  | some task =>
      cases task with
      | waiting _ _ | settled => cases h
      | running _ pc =>
          cases pc <;> cases h
          rfl

/-- The runs that read a queue. -/
lemma stage_of_readsFrom {task : Option Task} {printerName : JsString}
    (h : readsFrom task = some printerName) : stageOf task = .listing printerName ∨
      (∃ before, stageOf task = .submitting printerName before none) ∨
        ∃ x, stageOf task = .attributed x := by
  rw [readsFrom.eq_def] at h
  split at h
  · exact .inl (congrArg Stage.listing (Option.some.inj h))
  · obtain rfl := Option.some.inj h
    exact .inr (.inl ⟨_, rfl⟩)
  · obtain rfl := Option.some.inj h
    exact .inr (.inr ⟨_, rfl⟩)
  · cases h

/-- A document is queued while no first reading is out. -/
lemma worldOk_appeared (hw : WorldOk w) {printerName : JsString} {x : ℤ}
    (hg : undisturbed w (.appears printerName x) = true) (hx : x ∉ w.known printerName) :
    WorldOk { w with
      windows := Function.update w.windows printerName (w.windows printerName ++ [x])
      known := Function.update w.known printerName (x :: w.known printerName) } where
  drawn := hw.drawn
  idle := hw.idle
  shown q := by
    intro y hy
    dsimp only at hy ⊢
    rw [Function.update_apply] at hy ⊢
    split_ifs at hy ⊢ with hq
    · rcases List.mem_append.mp hy with hy | hy
      · exact List.mem_cons_of_mem _ (hw.shown _ hy)
      · exact List.mem_cons.mpr (.inl (List.mem_singleton.mp hy))
    · exact hw.shown q hy
  law := ⟨hw.law.recorded, hw.law.spared⟩
  stages id := by
    have hstage := hw.stages id
    dsimp only
    cases h : stageOf (w.queue.tasks id) with
    | listing q =>
        rw [h] at hstage
        refine ⟨hstage.1, fun queue hr hreadable => ?_⟩
        have hq : q ≠ printerName := by
          rintro rfl
          have hid := hw.drawn id (by simp [h])
          have hquiet := List.all_eq_true.mp hg id hid
          dsimp only at hr
          simp [listingOn_of_stage h, hr] at hquiet
        dsimp only
        rw [Function.update_of_ne hq]
        exact hstage.2 queue hr hreadable
    | submitting q before found =>
        rw [h] at hstage
        obtain ⟨hfree, hearlier, hwindows, hreading, hfound⟩ := hstage
        refine ⟨hfree, fun y hy => ?_, fun y hy hy' => ?_, hreading, hfound⟩
        · have hknown := hearlier hy
          dsimp only
          rw [Function.update_apply]
          split_ifs with hq
          · exact List.mem_cons_of_mem _ (hq ▸ hknown)
          · exact hknown
        · dsimp only at hy hy'
          rw [Function.update_apply] at hy
          split_ifs at hy with hq
          · subst hq
            rcases List.mem_append.mp hy with hy | hy
            · exact hwindows y hy hy'
            · -- its id is new to the printer, and `earlier` is not
              rw [List.mem_singleton.mp hy] at hy'
              exact absurd (hearlier hy') hx
          · exact hwindows y hy hy'
    | fresh | attributed y | gone =>
        rw [h] at hstage
        exact hstage

/-- A reading is taken of what is in the queue now. -/
lemma worldOk_taken (hw : WorldOk w) {j printerName : JsString} {r : Listing}
    (hreads : readsFrom (w.queue.tasks j) = some printerName)
    (hshows : shows (w.windows printerName) r = true) :
    WorldOk { w with reading := Function.update w.reading j (some r) } := by
  have hids {queue : SpoolerQueue} (h : r = .ok queue) :
      (queue.readable = true → queue.jobs.map SpoolerJob.id = w.windows printerName) ∧
        ∀ x ∈ queue.jobs.map SpoolerJob.id, x ∈ w.windows printerName := by
    subst h
    rw [shows] at hshows
    split_ifs at hshows with hreadable
    · have hmap := of_decide_eq_true hshows
      exact ⟨fun _ => hmap, fun x hx => hmap ▸ hx⟩
    · have hempty := of_decide_eq_true hshows
      exact ⟨fun h => absurd h hreadable, fun x hx => by simp [hempty] at hx⟩
  have hof := stage_of_readsFrom hreads
  refine ⟨hw.drawn, fun id hid => ?_, hw.shown, fun id => ?_, ⟨hw.law.recorded, hw.law.spared⟩⟩
  · have hne : id ≠ j := by
      rintro rfl
      refine hid (hw.drawn id ?_)
      rcases hof with h | ⟨_, h⟩ | ⟨_, h⟩ <;> simp [h]
    dsimp only
    rw [Function.update_of_ne hne]
    exact hw.idle id hid
  · have hstage := hw.stages id
    dsimp only
    by_cases hid : id = j
    · subst hid
      rcases hof with h | ⟨before, h⟩ | ⟨x, h⟩
      · rw [h] at hstage ⊢
        refine ⟨hstage.1, fun queue hr hreadable => ?_⟩
        dsimp only at hr
        rw [Function.update_self] at hr
        rw [((hids (Option.some.inj hr)).1 hreadable)]
        exact List.Subset.refl _
      · rw [h] at hstage ⊢
        obtain ⟨hfree, hearlier, hwindows, -, hfound⟩ := hstage
        refine ⟨hfree, hearlier, hwindows, fun queue hr x hx => ?_, hfound⟩
        dsimp only at hr
        rw [Function.update_self] at hr
        exact hwindows x ((hids (Option.some.inj hr)).2 x hx)
      · rw [h] at hstage ⊢
        exact hstage
    · cases h : stageOf (w.queue.tasks id) with
      | gone => trivial
      | fresh | listing p | submitting p before found | attributed x =>
          rw [h] at hstage
          simp only [StageOk, Unattributed, Function.update_of_ne hid] at hstage ⊢
          exact hstage

/-- A printer's queue loses one document. -/
lemma worldOk_vanished (hw : WorldOk w) (printerName : JsString) (x : ℤ) :
    WorldOk { w with
      windows := Function.update w.windows printerName
        ((w.windows printerName).filter (· ≠ x)) } := by
  refine worldOk_shrunk hw _ fun q => ?_
  rw [Function.update_apply]
  split_ifs with hq
  · intro y hy
    exact hq ▸ List.mem_of_mem_filter hy
  · exact List.Subset.refl _

/-- A cancellation has the spooler remove the job of its run. -/
lemma worldOk_removed (hw : WorldOk w) {j : JsString} {x : ℤ}
    (hj : stageOf (w.queue.tasks j) = .attributed x) :
    WorldOk { w with removed := (j, x) :: w.removed } := by
  have hnot : x ∉ w.earlier j := by
    have hstage := hw.stages j
    rw [hj] at hstage
    exact hstage
  have hused : j ∈ w.queue.usedIds := hw.drawn j (by simp [hj])
  refine ⟨hw.drawn, fun id hid => ⟨(hw.idle id hid).1, fun y hy => ?_⟩, hw.shown, fun id => ?_,
    hw.law.recorded, fun id y hy => ?_⟩
  · rcases List.mem_cons.mp hy with hy | hy
    · exact hid ((Prod.mk.inj hy).1 ▸ hused)
    · exact (hw.idle id hid).2 y hy
  · have hstage := hw.stages id
    by_cases hid : id = j
    · subst hid
      dsimp only
      rw [hj] at hstage ⊢
      exact hstage
    · have hfree (h : Unattributed w id) : Unattributed { w with removed := (j, x) :: w.removed }
          id := by
        refine ⟨h.1, fun y hy => ?_⟩
        rcases List.mem_cons.mp hy with hy | hy
        · exact hid (Prod.mk.inj hy).1
        · exact h.2 y hy
      dsimp only
      cases h : stageOf (w.queue.tasks id) with
      | fresh | listing p | submitting p before found =>
          rw [h] at hstage
          exact ⟨hfree hstage.1, hstage.2⟩
      | attributed y | gone =>
          rw [h] at hstage
          exact hstage
  · rcases List.mem_cons.mp hy with hy | hy
    · obtain ⟨rfl, rfl⟩ := Prod.mk.inj hy
      exact hnot
    · exact hw.law.spared id y hy

end Invariant

/-! ### Steps of the queue -/

section Queue

variable {cfg : QueueConfig} {w v : SpoolerWorld} {a : Action} {t : QueueState} {id : JsString}

/-- What a step of the queue leaves of the world beside it. -/
lemma settleReading_rest (w : SpoolerWorld) (a : Action) (t : QueueState) :
    (settleReading w a t).queue = t ∧ (settleReading w a t).windows = w.windows ∧
      (settleReading w a t).known = w.known ∧ (settleReading w a t).removed = w.removed := by
  cases a <;> exact ⟨rfl, rfl, rfl, rfl⟩

/-- Readings are only answered. -/
lemma reading_of_settle {r : Listing} (h : (settleReading w a t).reading id = some r) :
    w.reading id = some r := by
  cases a with
  | listed j q now | looked j q | watched j q =>
      simp only [settleReading, Function.update_apply] at h
      split_ifs at h
      exact h
  | _ => exact h

/-- `earlier` changes for a job whose first reading is answered, and for no other. -/
lemma earlier_of_settle (hne : ∀ printerName, stageOf (w.queue.tasks id) ≠ .listing printerName) :
    (settleReading w a t).earlier id = w.earlier id := by
  cases a with
  | listed j r now =>
      cases r with
      | error e => rfl
      | ok queue =>
          simp only [settleReading]
          cases htask : w.queue.tasks j with
          | none => rfl
          | some task =>
              cases task with
              | waiting _ _ | settled => rfl
              | running printerName pc =>
                  cases pc with
                  | listing submission =>
                      dsimp only
                      rw [Function.update_apply]
                      split_ifs with hid
                      · subst hid
                        exact absurd (stage_task htask) (hne _)
                      · rfl
                  | _ => rfl
  | _ => rfl

/-- What the answered reading was when it was taken. -/
lemma taken_of_answers (hans : (a.answers.all fun x => w.reading x.1 = some x.2) = true)
    {r : Listing} (ha : a.answers = some (id, r)) : w.reading id = some r := by
  rw [ha] at hans
  exact of_decide_eq_true hans

/-- A row that keeps its spooler job still fits the law. -/
lemma recorded_of_keeps (hw : WorldOk w) (hrow : KeepsNumber w.queue t id) {row' : PrintJobRow}
    {x : ℤ} (hget : t.jobs.get id = some row') (hx : row'.windows_job_id = some x) :
    x ∉ (settleReading w a t).earlier id := by
  obtain ⟨row, hrow, hsame⟩ := hrow row' hget
  by_cases hlisting : ∃ printerName, stageOf (w.queue.tasks id) = .listing printerName
  · obtain ⟨printerName, h⟩ := hlisting
    have hstage := hw.stages id
    rw [h] at hstage
    have hnone := hstage.1.1 row hrow
    rw [← hsame, hx] at hnone
    cases hnone
  · rw [earlier_of_settle fun printerName h => hlisting ⟨printerName, h⟩]
    exact hw.law.recorded id row x hrow (hsame ▸ hx)

/-- Nothing is recorded for a run that keeps its row. -/
lemma unattributed_of_keeps (hfree : Unattributed w id) (hrow : KeepsNumber w.queue t id) :
    Unattributed (settleReading w a t) id := by
  obtain ⟨hqueue, -, -, hremoved⟩ := settleReading_rest w a t
  refine ⟨fun row' hget => ?_, fun x => ?_⟩
  · rw [hqueue] at hget
    obtain ⟨row, hrow, hsame⟩ := hrow row' hget
    exact hsame.trans (hfree.1 row hrow)
  · rw [hremoved]
    exact hfree.2 x

/-- A run that stays at its stage. -/
lemma stageOk_kept (hw : WorldOk w) (hrow : KeepsNumber w.queue t id) :
    StageOk (settleReading w a t) id (stageOf (w.queue.tasks id)) := by
  have hstage := hw.stages id
  obtain ⟨-, hwindows, hknown, -⟩ := settleReading_rest w a t
  cases h : stageOf (w.queue.tasks id) with
  | fresh =>
      rw [h] at hstage
      refine ⟨unattributed_of_keeps hstage.1 hrow, ?_⟩
      cases hr : (settleReading w a t).reading id with
      | none => rfl
      | some r =>
          have hold := reading_of_settle hr
          rw [hstage.2] at hold
          cases hold
  | listing p =>
      rw [h] at hstage
      refine ⟨unattributed_of_keeps hstage.1 hrow, fun queue hr hreadable => ?_⟩
      rw [hwindows]
      exact hstage.2 queue (reading_of_settle hr) hreadable
  | submitting p before found =>
      rw [h] at hstage
      obtain ⟨hfree, hearlier, hshown, hreading, hfound⟩ := hstage
      have hsame := earlier_of_settle (a := a) (t := t) (w := w) fun q hq => by
        cases h.symm.trans hq
      refine ⟨unattributed_of_keeps hfree hrow, ?_, ?_, fun queue hr => ?_, ?_⟩
      · rw [hsame, hknown]
        exact hearlier
      · rw [hwindows, hsame]
        exact hshown
      · rw [hsame]
        exact hreading queue (reading_of_settle hr)
      · rw [hsame]
        exact hfound
  | attributed x =>
      rw [h] at hstage
      have hsame := earlier_of_settle (a := a) (t := t) (w := w) fun q hq => by
        cases h.symm.trans hq
      exact fun hx => hstage (hsame ▸ hx)
  | gone => trivial

/-- What a step of the queue does to the run of a job. -/
lemma stageOk_step (hw : WorldOk w) (hg : firstReadable w (.queue a) = true)
    (hans : (a.answers.all fun x => w.reading x.1 = some x.2) = true) (hmove : Move w.queue a t id) :
    StageOk (settleReading w a t) id (stageOf (t.tasks id)) := by
  have hstage := hw.stages id
  obtain ⟨hqueue, hwindows, hknown, hremoved⟩ := settleReading_rest w a t
  cases hmove with
  | kept hsame hrow =>
      rw [hsame]
      exact stageOk_kept hw hrow
  | ended hgone =>
      rw [hgone]
      trivial
  | enqueued hfresh _ hto hrow =>
      rw [hto]
      obtain ⟨hidle, hnone⟩ := hw.idle id hfresh
      refine ⟨⟨fun row' hget => hrow row' (hqueue ▸ hget), fun x => ?_⟩, ?_⟩
      · rw [hremoved]
        exact hnone x
      · cases hr : (settleReading w a t).reading id with
        | none => rfl
        | some r =>
            have hold := reading_of_settle hr
            rw [hidle] at hold
            cases hold
  | asked hfrom hto hrow =>
      rw [hfrom] at hstage
      rw [hto]
      refine ⟨unattributed_of_keeps hstage.1 hrow, fun queue hr => ?_⟩
      have hold := reading_of_settle hr
      rw [hstage.2] at hold
      cases hold
  | @handed submission printerName queue now ha hfrom hto hrow =>
      subst ha
      have hlisting : stageOf (w.queue.tasks id) = .listing submission.printerName :=
        stage_task hfrom
      rw [hlisting] at hstage
      rw [hto]
      have hreading : w.reading id = some (.ok queue) := taken_of_answers hans rfl
      have hearlier : (settleReading w (.listed id (.ok queue) now) t).earlier id
          = w.known submission.printerName := by
        simp only [settleReading, hfrom, Function.update_self]
      -- everything that is in the queue is in the reading
      have hshown : w.windows submission.printerName ⊆ queue.jobs.map SpoolerJob.id := by
        rw [firstReadable, Bool.or_eq_true] at hg
        rcases hg with hreadable | hempty
        · exact hstage.2 queue hreading hreadable
        · rw [listingOn_of_stage hlisting] at hempty
          rw [of_decide_eq_true hempty]
          exact List.nil_subset _
      refine ⟨unattributed_of_keeps hstage.1 hrow, ?_, fun x hx _ => ?_, fun queue' hr => ?_,
        fun x hx => nomatch hx⟩
      · rw [hearlier, hknown]
        exact List.Subset.refl _
      · rw [hwindows] at hx
        exact hshown hx
      · simp [settleReading] at hr
  | @found printerName before x queue ha hfrom hmem hnew hto hrow =>
      subst ha
      rw [hfrom] at hstage
      rw [hto]
      obtain ⟨hfree, hearlier, hshown, hreading, -⟩ := hstage
      have hsame := earlier_of_settle (a := .looked id (.ok queue)) (t := t) (w := w)
        fun q hq => by cases hfrom.symm.trans hq
      have htaken : w.reading id = some (.ok queue) := taken_of_answers hans rfl
      refine ⟨unattributed_of_keeps hfree hrow, ?_, ?_, fun queue' hr => ?_, fun y hy => ?_⟩
      · rw [hsame, hknown]
        exact hearlier
      · rw [hwindows, hsame]
        exact hshown
      · rw [hsame]
        exact hreading queue' (reading_of_settle hr)
      · obtain rfl := Option.some.inj hy
        rw [hsame]
        exact fun hx => hnew (hreading queue htaken x hmem hx)
  | numbered hfrom hto _ =>
      rw [hfrom] at hstage
      have hsame := earlier_of_settle (a := a) (t := t) (w := w) fun q hq => by
        cases hfrom.symm.trans hq
      rcases hto with hto | hto
      · rw [hto]
        exact fun hx => hstage.2.2.2.2 _ rfl (hsame ▸ hx)
      · rw [hto]
        trivial

/-- A step of the queue keeps the invariant. -/
lemma worldOk_queue {cfg : QueueConfig} (hw : WorldOk w)
    (hg : firstReadable w (.queue a) = true)
    (hans : (a.answers.all fun x => w.reading x.1 = some x.2) = true)
    (hstep : step cfg w.queue a = some t) : WorldOk (settleReading w a t) := by
  obtain ⟨hqueue, hwindows, hknown, hremoved⟩ := settleReading_rest w a t
  refine ⟨fun id hid => ?_, fun id hid => ?_, fun q => ?_, fun id => ?_, ⟨?_, ?_⟩⟩
  · rw [hqueue] at hid ⊢
    cases move_of_step hstep id with
    | kept hsame => exact usedIds_step hstep (hw.drawn id (hsame ▸ hid))
    | ended hgone => exact absurd hgone hid
    | enqueued _ hused => exact hused
    | asked hfrom | found _ hfrom | numbered hfrom =>
        exact usedIds_step hstep (hw.drawn id (by simp [hfrom]))
    | handed _ hfrom =>
        exact usedIds_step hstep (hw.drawn id (by rw [stage_task hfrom]; simp [stageOf, Pc.stage]))
  · rw [hqueue] at hid
    obtain ⟨hidle, hnone⟩ := hw.idle id fun h => hid (usedIds_step hstep h)
    refine ⟨?_, by rw [hremoved]; exact hnone⟩
    cases hr : (settleReading w a t).reading id with
    | none => rfl
    | some r =>
        have hold := reading_of_settle hr
        rw [hidle] at hold
        cases hold
  · rw [hwindows, hknown]
    exact hw.shown q
  · rw [hqueue]
    exact stageOk_step hw hg hans (move_of_step hstep id)
  · intro id row' x hget hx
    rw [hqueue] at hget
    cases move_of_step hstep id with
    | kept _ hrow | ended _ hrow | asked _ _ hrow | handed _ _ _ hrow | found _ _ _ _ _ hrow =>
        exact recorded_of_keeps hw hrow hget hx
    | enqueued _ _ _ hrow =>
        rw [hrow row' hget] at hx
        cases hx
    | numbered hfrom _ hrow =>
        obtain rfl := Option.some.inj ((hrow row' hget).symm.trans hx)
        have hstage := hw.stages id
        rw [hfrom] at hstage
        rw [earlier_of_settle fun q hq => by cases hfrom.symm.trans hq]
        exact hstage.2.2.2.2 _ rfl
  · intro id x hx
    rw [hremoved] at hx
    by_cases hlisting : ∃ printerName, stageOf (w.queue.tasks id) = .listing printerName
    · obtain ⟨printerName, h⟩ := hlisting
      have hstage := hw.stages id
      rw [h] at hstage
      exact absurd hx (hstage.1.2 x)
    · rw [earlier_of_settle fun printerName h => hlisting ⟨printerName, h⟩]
      exact hw.law.spared id x hx

end Queue

/-! ### Every run -/

/-- The assumption on the other programs, and the condition. -/
def attributable (w : SpoolerWorld) (a : WorldAction) : Bool := undisturbed w a && firstReadable w a

lemma worldOk_step {cfg : QueueConfig} {w v : SpoolerWorld} {a : WorldAction} (hw : WorldOk w)
    (hg : attributable w a = true) (hstep : worldStep cfg w a = some v) : WorldOk v := by
  obtain ⟨hundisturbed, hfirst⟩ := (Bool.and_eq_true ..).mp hg
  cases a with
  | appears printerName x =>
      rw [worldStep] at hstep
      split_ifs at hstep with hx
      obtain rfl := Option.some.inj hstep
      exact worldOk_appeared hw hundisturbed hx
  | vanishes printerName x =>
      obtain rfl := Option.some.inj hstep
      exact worldOk_vanished hw printerName x
  | takes id r =>
      rw [worldStep] at hstep
      split at hstep
      case h_2 => cases hstep
      case h_1 printerName hreads _ =>
        split_ifs at hstep with hshows
        obtain rfl := Option.some.inj hstep
        exact worldOk_taken hw hreads hshows
  | removes id =>
      rw [worldStep] at hstep
      split at hstep
      case h_2 => cases hstep
      case h_1 printerName x htask =>
        obtain rfl := Option.some.inj hstep
        exact worldOk_vanished (worldOk_removed hw (stage_task htask)) printerName x
  | queue a =>
      rw [worldStep] at hstep
      split_ifs at hstep with hans
      obtain ⟨t, ht, rfl⟩ := Option.map_eq_some_iff.mp hstep
      exact worldOk_queue hw hfirst hans ht

/-- **A print job is never taken for one that was there before**, along every run in which the
first reading of a job is one, or finds nothing to read, and no other program submits between
that reading and the submission. -/
theorem attribution_holds {cfg : QueueConfig} {windows : JsString → List ℤ}
    {as : List WorldAction} {w : SpoolerWorld}
    (hrun : Run (Guarded (fun w a => attributable w a = true) (worldStep cfg)) (.start windows)
      as w) : AttributionLaw w :=
  (hrun.invariant (I := WorldOk) (fun _ _ _ hw hstep => worldOk_step hw hstep.1 hstep.2)
    (worldOk_start windows)).law

/-! ### Somebody else's document -/

/-- Document `7` of somebody else is in the queue of `p`. -/
def busyPrinter (printerName : JsString) : List ℤ := if printerName = js "p" then [7] else []

/-- A job for `p`, up to its first reading. -/
def upToFirstReading : List WorldAction :=
  [.queue (.enqueue (js "1") ⟨js "d", js "p", js "p", js "/m/a.pdf", js "a.pdf",
      ⟨1, .mono, .simplex, none⟩⟩ 1),
    .queue (.begin (js "1") 2), .queue (.copied (js "1") (.ok ())),
    .queue (.found (js "1") (some (js "/vendor/SumatraPDF.exe")))]

/-- The first reading is answered with `r`. -/
def firstReading (r : SpoolerQueue) : List WorldAction :=
  [.takes (js "1") (.ok r), .queue (.listed (js "1") (.ok r) 3),
    .queue (.submitted (js "1") (.ok ()))]

/-- The discovery reads `r`, and the job is cancelled. -/
def discoveredAndCancelled (r : SpoolerQueue) : List WorldAction :=
  [.takes (js "1") (.ok r), .queue (.looked (js "1") (.ok r)),
    .queue (.cancel (js "1") (js "d") 4), .queue (.joined (js "1") 4 4), .removes (js "1")]

def spooling (x : ℤ) : SpoolerJob := ⟨x, js "a", js "Spooling"⟩

def printConfig : QueueConfig := ⟨js "/tmp", js "/vendor", 47, 600000, 5⟩

/-- With a first reading, the job that appears afterwards is found and removed. -/
theorem attribution_holds_readable : ∃ w,
    Run (Guarded (fun w a => attributable w a = true) (worldStep printConfig))
      (.start busyPrinter)
      (upToFirstReading ++ firstReading ⟨true, [spooling 7]⟩ ++ [.appears (js "p") 8] ++
        discoveredAndCancelled ⟨true, [spooling 7, spooling 8]⟩) w ∧
    w.removed = [(js "1", 8)] ∧ AttributionLaw w := by
  obtain ⟨w, hrun, hw⟩ := exists_guarded_run_of_exec (fun w a => attributable w a = true)
    (worldStep printConfig) (.start busyPrinter)
    (upToFirstReading ++ firstReading ⟨true, [spooling 7]⟩ ++ [.appears (js "p") 8] ++
      discoveredAndCancelled ⟨true, [spooling 7, spooling 8]⟩)
    (fun w => w.removed = [(js "1", 8)]) (by decide +kernel)
  exact ⟨w, hrun, of_decide_eq_true hw, attribution_holds hrun⟩

/-- **An unreadable first reading** looks like an empty queue: the next one finds document `7`,
and the cancellation removes it. -/
theorem stranger_removed : ¬ ∀ (cfg : QueueConfig) (windows : JsString → List ℤ)
    (as : List WorldAction) (w : SpoolerWorld),
    Run (Guarded (fun w a => undisturbed w a = true) (worldStep cfg)) (.start windows) as w →
      AttributionLaw w := by
  intro h
  obtain ⟨w, hrun, hw⟩ := exists_guarded_run_of_exec (fun w a => undisturbed w a = true)
    (worldStep printConfig) (.start busyPrinter)
    (upToFirstReading ++ firstReading ⟨false, []⟩ ++ discoveredAndCancelled ⟨true, [spooling 7]⟩)
    (fun w => (js "1", 7) ∈ w.removed && 7 ∈ w.earlier (js "1")) (by decide +kernel)
  rw [Bool.and_eq_true, decide_eq_true_eq, decide_eq_true_eq] at hw
  exact (h _ _ _ w hrun).spared _ _ hw.1 hw.2

end LocalCast.Print
