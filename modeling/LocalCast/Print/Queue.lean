import LocalCast.Db.Schema
import LocalCast.Foundations.Runs
import LocalCast.Uploads.Paths

/-!
`modules/print/jobs.ts`: the print queue, as one system of the `print_jobs` table, the promise
chain of every printer, and the runs of the jobs, each waiting on the file system, a process
or a timer.

A step is what happens from one `await` of a run to the next, or one synchronous call. The
answers of the outside (a copy, the helper that was found, a reading of the Windows queue) are
part of the action, so a run meets any of them. The disk holds nothing but spool copies here
and is left out; an `INSERT` that a foreign key refuses changes nothing and is no step.

* `Action`, `step`: one such step.
* `Effect`, `step_effect`: everything a step can do to the table, the runs and the log.
-/

namespace LocalCast.Print

open JsString Contract Db Runs

/-! ### State -/

/-- What the queue takes from its context and its options. -/
structure QueueConfig where
  tempDir : JsString
  vendorDir : JsString
  separator : CodeUnit
  pollTimeoutMs : ℕ
  discoverAttempts : ℕ

/-- `extname` of the file name's last component. -/
def extname (fileName : JsString) : JsString :=
  let base := (Uploads.splitLast (fun c => c = 47 || c = 92) fileName).2
  if base = js ".." then [] else (Uploads.splitExt base).2

/-- The spool copy of a job. -/
def spoolPath (cfg : QueueConfig) (id fileName : JsString) : JsString :=
  cfg.tempDir ++ cfg.separator :: (js "print-" ++ id ++ extname fileName)

structure EnqueueInput where
  deviceId : JsString
  printerId : JsString
  printerName : JsString
  sourcePath : JsString
  fileName : JsString
  settings : PrintSettingsInput
deriving DecidableEq

/-- A document handed to Windows: through the helper, or through the `PrintTo` verb. -/
structure Submission where
  sumatra : Option JsString
  printerName : JsString
  settings : JsString
  filePath : JsString
deriving DecidableEq

/-- A reading of the Windows queue; the parser of its output may throw. -/
abbrev Listing := Except String SpoolerQueue

/-- `discoverJobId`: waiting on a reading, waiting on its timer, or over. -/
inductive Discovery where
  | looking (attempt trailing : ℕ)
  | pausing (attempt trailing : ℕ)
  | settled (windowsJobId : Option ℤ)
  | threw (error : String)
deriving DecidableEq

/-- Where `run` waits, and what it holds there. -/
inductive Pc where
  /-- `cleanupSpool`, then nothing. -/
  | leaving
  /-- `copyFile`, `findSumatra`, `probePrintTo`. -/
  | copying (row : PrintJobRow) (spoolPath : JsString)
  | finding (row : PrintJobRow) (spoolPath : JsString)
  | probing (row : PrintJobRow) (spoolPath : JsString)
  /-- The reading of the queue before the submission. -/
  | listing (submission : Submission)
  /-- The submission and, alongside it, the discovery of its job. -/
  | submitting (submission : Submission) (before : List ℤ)
      (submitted : Option (Except String Unit)) (discovery : Discovery)
  /-- `watch`, waiting on a reading, on its timer, and on `removeSpoolerJob`. -/
  | watching (windowsJobId : ℤ) (deadline : Time) (unreadable : ℕ)
  | pausing (windowsJobId : ℤ) (deadline : Time) (unreadable : ℕ)
  | removing (windowsJobId : ℤ)
  /-- `cleanupSpool`, then `finish`. -/
  | finishing (status : PrintJobStatus) (message : Option String)
deriving DecidableEq

/-- A link of a printer's promise chain: behind the link of `previous`, running, or settled. -/
inductive Task where
  | waiting (printerName : JsString) (previous : Option JsString)
  | running (printerName : JsString) (pc : Pc)
  | settled
deriving DecidableEq

/-- What the outside sees: the answers of the calls and what reaches the spooler. -/
inductive Event where
  | queued (jobId : JsString)
  | answered (jobId : JsString) (status : PrintJobStatus)
  | refused (e : ApiException)
  | handed (jobId : JsString) (submission : Submission)
  | crashed (jobId : JsString) (error : String)
deriving DecidableEq

/-- `chains` names the job whose link is a printer's last; `usedIds` records the ids drawn. -/
structure QueueState where
  jobs : Table PrintJobRow
  tasks : JsString → Option Task
  chains : JsString → Option JsString
  cancelRequested : List JsString
  disposed : Bool
  usedIds : List JsString
  log : List Event

namespace QueueState

/-- A queue over an empty table. -/
def init : QueueState where
  jobs := .empty
  tasks _ := none
  chains _ := none
  cancelRequested := []
  disposed := false
  usedIds := []
  log := []

/-- The run of a job goes on at `pc`. -/
def goOn (s : QueueState) (id printerName : JsString) (pc : Pc) : QueueState :=
  { s with tasks := Function.update s.tasks id (some (.running printerName pc)) }

/-- The link of a job settles. -/
def settle (s : QueueState) (id : JsString) : QueueState :=
  { s with tasks := Function.update s.tasks id (some .settled) }

def record (s : QueueState) (e : Event) : QueueState := { s with log := e :: s.log }

/-- A run rejects: its link catches the error and settles. -/
def crash (s : QueueState) (id : JsString) (error : String) : QueueState :=
  (s.settle id).record (.crashed id error)

def setJobs (s : QueueState) (jobs : Table PrintJobRow) : QueueState := { s with jobs := jobs }

end QueueState

open QueueState

/-! ### The pieces of the queue -/

/-- `requireJob`'s refusal. -/
def noSuchJob : ApiException := ⟨.notFound, "No such print job."⟩

/-- The `UPDATE` of `transition`: a column without a new value keeps its own. -/
def transitionRow (status : PrintJobStatus) (started finished : Option Time)
    (message : Option String) (r : PrintJobRow) : PrintJobRow :=
  { r with
    status := status
    started_at := started <|> r.started_at
    finished_at := finished <|> r.finished_at
    error_message := message <|> r.error_message }

/-- `finish` up to the check that the row is there. -/
def finish (s : QueueState) (id : JsString) (status : PrintJobStatus) (message : Option String)
    (now : Time) : QueueState :=
  { s with
    cancelRequested := s.cancelRequested.filter (· ≠ id)
    jobs := s.jobs.updateKey id (transitionRow status none (some now) message) }

/-- A run that ends in `finish`, or in its rejection where the row is gone. -/
def finishRun (s : QueueState) (id : JsString) (status : PrintJobStatus)
    (message : Option String) (now : Time) : QueueState :=
  if (s.jobs.get id).isSome then (finish s id status message now).settle id
  else (finish s id status message now).crash id noSuchJob.message

/-- `run` up to its first `await`. -/
def begin (s : QueueState) (id printerName : JsString) (now : Time) : QueueState :=
  match s.jobs.get id with
  | none => s.settle id
  | some row =>
      if row.status ≠ .queued ∨ id ∈ s.cancelRequested ∨ s.disposed = true then
        s.goOn id printerName .leaving
      else if row.spool_path.all (· = []) ∨ row.source_path.all (· = []) then
        finishRun s id .error (some "The job lost its source file before it could be printed.") now
      else s.goOn id printerName (.copying row (row.spool_path.getD []))

/-- `run` from the search for the helper on: what is wanted is turned into settings, or
refused. -/
def chooseHelper (cfg : QueueConfig) (printerName : JsString) (row : PrintJobRow)
    (spoolPath : JsString) : Option JsString → Pc
  | some path => match buildPrintSettings row.settings with
      | .error e => .finishing .error (some e.message)
      | .ok settings => .listing ⟨some path, printerName, settings, spoolPath⟩
  | none => match assertFallbackCanHonour row.settings cfg.vendorDir with
      | .error e => .finishing .error (some e.message)
      | .ok () => .probing row spoolPath

/-- `run` from the probe of the `PrintTo` verb on. -/
def checkSupport (cfg : QueueConfig) (printerName spoolPath : JsString)
    (support : PrintToSupport) : Pc :=
  match assertFallbackCanPrintType support cfg.vendorDir with
  | .error e => .finishing .error (some e.message)
  | .ok () => .listing ⟨none, printerName, [], spoolPath⟩

/-- `run` from the first reading of the queue on: the job is printing, and is handed over. -/
def handOver (s : QueueState) (id : JsString) (submission : Submission) (before : List ℤ)
    (now : Time) : QueueState :=
  let s' := s.setJobs (s.jobs.updateKey id (transitionRow .printing (some now) none none))
  if (s.jobs.get id).isSome then
    (s'.goOn id submission.printerName (.submitting submission before none (.looking 0 0))).record
      (.handed id submission)
  else s'.crash id noSuchJob.message

/-- `PrintTo` returns long before its job appears, so it gets more looks. -/
def trailingAttempts (cfg : QueueConfig) (submission : Submission) : ℕ :=
  if submission.sumatra.isSome then cfg.discoverAttempts else cfg.discoverAttempts * 4

/-- One look of `discoverJobId` at the queue. -/
def look (cfg : QueueConfig) (submission : Submission) (before : List ℤ) (inFlight : Bool)
    (attempt trailing : ℕ) : Listing → Discovery
  | .error e => .threw e
  | .ok queue => match queue.jobs.find? fun job => job.id ∉ before with
      | some fresh => .settled (some fresh.id)
      | none =>
          if inFlight then .pausing attempt trailing
          else if trailing + 1 ≥ trailingAttempts cfg submission then .settled none
          else .pausing attempt (trailing + 1)

/-- The loop of `discoverJobId` after its timer. -/
def lookAgain (cfg : QueueConfig) (submission : Submission) (attempt trailing : ℕ) : Discovery :=
  if attempt + 1 < max (trailingAttempts cfg submission) 1 * 40 then
    .looking (attempt + 1) trailing
  else .settled none

/-- The message of a submission that failed. -/
def submitFailure (submission : Submission) (error : String) : String :=
  if submission.sumatra.isSome then "The print helper failed: " ++ error
  else "Windows could not print this file: " ++ error ++ ". " ++
    "Install the print helper to print this type."

/-- `describeDuration`. -/
def describeDuration (ms : ℕ) : String :=
  if ms < 60000 then
    let seconds := max 1 ((ms + 500) / 1000)
    toString seconds ++ " second" ++ if seconds = 1 then "" else "s"
  else
    let minutes := (ms + 30000) / 60000
    toString minutes ++ " minute" ++ if minutes = 1 then "" else "s"

/-- The head of the loop of `watch`. -/
def watchTop (cfg : QueueConfig) (s : QueueState) (id : JsString) (windowsJobId : ℤ)
    (deadline : Time) (unreadable : ℕ) (now : Time) : Pc :=
  if now < deadline then
    if id ∈ s.cancelRequested then .removing windowsJobId
    else .watching windowsJobId deadline unreadable
  else .finishing .error (some ("The job was still in the Windows queue after " ++
    describeDuration cfg.pollTimeoutMs ++ " and was given up on. The printer is most likely " ++
    "paused, offline or out of paper."))

/-- `watch` from its start. -/
def watch (cfg : QueueConfig) (s : QueueState) (id : JsString) (windowsJobId : Option ℤ)
    (now later : Time) : Pc :=
  match windowsJobId with
  | none => .finishing .done none
  | some w => watchTop cfg s id w (now + cfg.pollTimeoutMs) 0 later

def unreadableLimit : ℕ := 3

/-- A reading that says nothing final about the job. -/
def unsettled (windowsJobId : ℤ) (unreadable : ℕ) (queue : SpoolerQueue) : Bool :=
  if queue.readable then
    (queue.jobs.find? fun job => job.id = windowsJobId).any fun mine =>
      classifyJobStatus mine.status = .printing
  else unreadable + 1 < unreadableLimit

/-- The body of the loop of `watch` after its reading. -/
def watchBody (disposed : Bool) (windowsJobId : ℤ) (deadline : Time) (unreadable : ℕ)
    (queue : SpoolerQueue) : Pc :=
  if queue.readable then
    match queue.jobs.find? fun job => job.id = windowsJobId with
    | none => .finishing .done none
    | some mine => match classifyJobStatus mine.status with
        | .error => .finishing .error (some ("Printer reported: " ++ toText mine.status))
        | .cancelled => .finishing .cancelled none
        | .done => .finishing .done none
        | .printing =>
            if disposed then .finishing .printing none else .pausing windowsJobId deadline 0
  else if unreadable + 1 ≥ unreadableLimit then
    .finishing .error (some ("The Windows print queue stopped responding, so LocalCast cannot " ++
      "say whether this job printed. Check the printer before sending it again."))
  else if disposed then .finishing .printing none
  else .pausing windowsJobId deadline (unreadable + 1)

/-- `cancel`. -/
def cancel (s : QueueState) (jobId deviceId : JsString) (now : Time) : QueueState :=
  match s.jobs.get jobId with
  | none => s.record (.refused noSuchJob)
  | some row =>
      if row.device_id ≠ deviceId then s.record (.refused noSuchJob)
      else match row.status with
        | .cancelled => s.record (.answered jobId .cancelled)
        | .done | .error =>
            s.record (.refused ⟨.badRequest, "This job has already finished."⟩)
        | .queued => (finish s jobId .cancelled none now).record (.answered jobId .cancelled)
        | .printing =>
            { s with cancelRequested := jobId :: s.cancelRequested }.record
              (.answered jobId .printing)

/-- `enqueue`. -/
def enqueue (cfg : QueueConfig) (s : QueueState) (id : JsString) (input : EnqueueInput)
    (now : Time) : Option QueueState :=
  let row : PrintJobRow :=
    { id := id, device_id := input.deviceId, printer_id := input.printerId
      source_path := some input.sourcePath
      spool_path := some (spoolPath cfg id input.fileName), file_name := input.fileName
      settings := input.settings, status := .queued, error_message := none
      windows_job_id := none, created_at := now, started_at := none, finished_at := none }
  if id ∈ s.usedIds then none
  else (s.jobs.insert row).map fun jobs =>
    { s with
      jobs := jobs
      tasks := Function.update s.tasks id
        (some (.waiting input.printerName (s.chains input.printerId)))
      chains := Function.update s.chains input.printerId (some id)
      usedIds := id :: s.usedIds
      log := .queued id :: s.log }

/-- Starting a server again closes out what the previous process left, whose runs are gone. -/
def restart (s : QueueState) (now : Time) : QueueState :=
  { s with
    jobs := s.jobs.update (fun r => r.status = .queued || r.status = .printing) fun r =>
      { r with
        status := .error
        error_message := some "The server restarted while this job was in the queue."
        finished_at := some now }
    tasks := fun _ => none
    chains := fun _ => none
    cancelRequested := []
    disposed := false }

/-! ### Steps -/

inductive Action where
  | enqueue (id : JsString) (input : EnqueueInput) (now : Time)
  | cancel (jobId deviceId : JsString) (now : Time)
  | dispose
  /-- A link is reached, and its job is run. -/
  | begin (id : JsString) (now : Time)
  | copied (id : JsString) (r : Except String Unit)
  | found (id : JsString) (sumatra : Option JsString)
  | probed (id : JsString) (support : PrintToSupport)
  | listed (id : JsString) (r : Listing) (now : Time)
  | submitted (id : JsString) (r : Except String Unit)
  | looked (id : JsString) (r : Listing)
  /-- The timer of the discovery, and that of the watch. -/
  | woke (id : JsString) (now : Time)
  /-- Both the submission and the discovery are over; the clock is read twice. -/
  | joined (id : JsString) (now later : Time)
  | watched (id : JsString) (r : Listing)
  /-- `removeSpoolerJob` settles; its failure is only logged. -/
  | removed (id : JsString)
  | cleaned (id : JsString) (now : Time)
  /-- A device is deleted, and its jobs with it. -/
  | deleteDevice (deviceId : JsString)
  | restart (now : Time)

/-- The links behind which a link may start. -/
def ready (s : QueueState) : Option JsString → Bool
  | none => true
  | some previous => s.tasks previous = some .settled

/-- `run` from the end of the submission and the discovery on. -/
def join (cfg : QueueConfig) (s : QueueState) (id : JsString) (submission : Submission)
    (submitted : Except String Unit) (windowsJobId : Option ℤ) (now later : Time) : QueueState :=
  match submitted, windowsJobId with
  | .error e, _ =>
      s.goOn id submission.printerName (.finishing .error (some (submitFailure submission e)))
  | .ok (), none => s.goOn id submission.printerName (watch cfg s id none now later)
  | .ok (), some w =>
      (s.setJobs (s.jobs.updateKey id fun r => { r with windows_job_id := some w })).goOn id
        submission.printerName (watch cfg s id (some w) now later)

/-- One step; `none` where the action is not enabled. -/
def step (cfg : QueueConfig) (s : QueueState) : Action → Option QueueState
  | .enqueue id input now => enqueue cfg s id input now
  | .cancel jobId deviceId now => some (cancel s jobId deviceId now)
  | .dispose => some { s with disposed := true }
  | .begin id now =>
      match s.tasks id with
      | some (.waiting printerName previous) =>
          if ready s previous then some (begin s id printerName now) else none
      | _ => none
  | .copied id r =>
      match s.tasks id, r with
      | some (.running printerName (.copying row spoolPath)), .ok () =>
          some (s.goOn id printerName (.finding row spoolPath))
      | some (.running printerName (.copying _ _)), .error e =>
          some (s.goOn id printerName
            (.finishing .error (some ("Could not read the file to print: " ++ e))))
      | _, _ => none
  | .found id sumatra =>
      match s.tasks id with
      | some (.running printerName (.finding row spoolPath)) =>
          some (s.goOn id printerName (chooseHelper cfg printerName row spoolPath sumatra))
      | _ => none
  | .probed id support =>
      match s.tasks id with
      | some (.running printerName (.probing _ spoolPath)) =>
          some (s.goOn id printerName (checkSupport cfg printerName spoolPath support))
      | _ => none
  | .listed id r now =>
      match s.tasks id, r with
      | some (.running _ (.listing submission)), .ok queue =>
          some (handOver s id submission (queue.jobs.map SpoolerJob.id) now)
      | some (.running _ (.listing _)), .error e => some (s.crash id e)
      | _, _ => none
  | .submitted id r =>
      match s.tasks id with
      | some (.running printerName (.submitting submission before none discovery)) =>
          some (s.goOn id printerName (.submitting submission before (some r) discovery))
      | _ => none
  | .looked id r =>
      match s.tasks id with
      | some (.running printerName (.submitting submission before submitted
          (.looking attempt trailing))) =>
          some (s.goOn id printerName (.submitting submission before submitted
            (look cfg submission before submitted.isNone attempt trailing r)))
      | _ => none
  | .woke id now =>
      match s.tasks id with
      | some (.running printerName (.submitting submission before submitted
          (.pausing attempt trailing))) =>
          some (s.goOn id printerName (.submitting submission before submitted
            (lookAgain cfg submission attempt trailing)))
      | some (.running printerName (.pausing windowsJobId deadline unreadable)) =>
          some (s.goOn id printerName (watchTop cfg s id windowsJobId deadline unreadable now))
      | _ => none
  | .joined id now later =>
      match s.tasks id with
      | some (.running _ (.submitting submission _ (some submitted) (.settled windowsJobId))) =>
          some (join cfg s id submission submitted windowsJobId now later)
      | some (.running _ (.submitting _ _ (some _) (.threw e))) => some (s.crash id e)
      | _ => none
  | .watched id r =>
      match s.tasks id, r with
      | some (.running printerName (.watching windowsJobId deadline unreadable)), .ok queue =>
          some (s.goOn id printerName
            (watchBody s.disposed windowsJobId deadline unreadable queue))
      | some (.running _ (.watching _ _ _)), .error e => some (s.crash id e)
      | _, _ => none
  | .removed id =>
      match s.tasks id with
      | some (.running printerName (.removing _)) =>
          some (s.goOn id printerName (.finishing .cancelled none))
      | _ => none
  | .cleaned id now =>
      match s.tasks id with
      | some (.running _ .leaving) => some (s.settle id)
      | some (.running _ (.finishing status message)) =>
          some (finishRun s id status message now)
      | _ => none
  | .deleteDevice deviceId => some (s.setJobs (s.jobs.delete fun r => r.device_id = deviceId))
  | .restart now => some (restart s now)

/-! ### Everything a step can do -/

def finished : PrintJobStatus → Bool
  | .done | .error | .cancelled => true
  | .queued | .printing => false

/-- Neither a document handed over nor a job promised to be cancelled. -/
def harmless : Event → Bool
  | .handed _ _ | .answered _ .cancelled => false
  | _ => true

/-- At most one harmless event is logged. -/
def Quiet (s t : QueueState) : Prop := t.log = s.log ∨ ∃ e, harmless e ∧ t.log = e :: s.log

/-- A run comes to the end it held before, or to one with a finished status, or, after
`dispose`, from a reading that says nothing final. -/
def Ends (s : QueueState) (a : Action) (t : QueueState) : Prop :=
  ∀ id printerName status message,
    t.tasks id = some (.running printerName (.finishing status message)) →
    s.tasks id = some (.running printerName (.finishing status message)) ∨
      finished status = true ∨
      ∃ windowsJobId deadline unreadable queue, a = .watched id (.ok queue) ∧
        s.tasks id = some (.running printerName (.watching windowsJobId deadline unreadable)) ∧
        s.disposed = true ∧ unsettled windowsJobId unreadable queue = true

/-- What a step does to the table and the log. -/
inductive Effect (s : QueueState) (a : Action) (t : QueueState) : Prop
  | quiet (hjobs : t.jobs = s.jobs) (hids : t.usedIds = s.usedIds) (hlog : Quiet s t)
      (hends : Ends s a t)
  | enqueued {row : PrintJobRow} (hfresh : row.id ∉ s.usedIds) (hqueued : row.status = .queued)
      (hopen : row.finished_at = none) (hjobs : s.jobs.insert row = some t.jobs)
      (hids : t.usedIds = row.id :: s.usedIds) (hlog : Quiet s t) (hends : Ends s a t)
  | answered {id : JsString} {row : PrintJobRow} (hrow : s.jobs.get id = some row)
      (hcancelled : row.status = .cancelled) (hjobs : t.jobs = s.jobs)
      (hids : t.usedIds = s.usedIds) (hlog : t.log = .answered id .cancelled :: s.log)
      (hends : Ends s a t)
  | cancelled {id : JsString} {row : PrintJobRow} {now : Time} (hrow : s.jobs.get id = some row)
      (hqueued : row.status = .queued)
      (hjobs : t.jobs = s.jobs.updateKey id (transitionRow .cancelled none (some now) none))
      (hids : t.usedIds = s.usedIds) (hlog : t.log = .answered id .cancelled :: s.log)
      (hends : Ends s a t)
  | failed {id : JsString} {row : PrintJobRow} {now : Time} {message : Option String}
      (hrow : s.jobs.get id = some row) (hqueued : row.status = .queued)
      (hjobs : t.jobs = s.jobs.updateKey id (transitionRow .error none (some now) message))
      (hids : t.usedIds = s.usedIds) (hlog : Quiet s t) (hends : Ends s a t)
  | landed {id printerName : JsString} {now : Time} {status : PrintJobStatus}
      {message : Option String} (ha : a = .cleaned id now)
      (htask : s.tasks id = some (.running printerName (.finishing status message)))
      (hjobs : t.jobs = s.jobs.updateKey id (transitionRow status none (some now) message))
      (hids : t.usedIds = s.usedIds) (hlog : Quiet s t) (hends : Ends s a t)
  | handed {id printerName : JsString} {queue : SpoolerQueue} {now : Time}
      {submission : Submission} (ha : a = .listed id (.ok queue) now)
      (htask : s.tasks id = some (.running printerName (.listing submission)))
      (hjobs : t.jobs = s.jobs.updateKey id (transitionRow .printing (some now) none none))
      (hids : t.usedIds = s.usedIds)
      (hlog : (∃ row, s.jobs.get id = some row) ∧ t.log = .handed id submission :: s.log ∨
        Quiet s t) (hends : Ends s a t)
  | numbered {id : JsString} {w : ℤ}
      (hjobs : t.jobs = s.jobs.updateKey id fun r => { r with windows_job_id := some w })
      (hids : t.usedIds = s.usedIds) (hlog : Quiet s t) (hends : Ends s a t)
  | deleted {deviceId : JsString}
      (hjobs : t.jobs = s.jobs.delete fun r => r.device_id = deviceId)
      (hids : t.usedIds = s.usedIds) (hlog : Quiet s t) (hends : Ends s a t)
  | restarted {now : Time} (hjobs : t.jobs = s.jobs.update
        (fun r => r.status = .queued || r.status = .printing) fun r => { r with
          status := .error
          error_message := some "The server restarted while this job was in the queue."
          finished_at := some now })
      (hids : t.usedIds = s.usedIds) (hlog : Quiet s t) (hends : Ends s a t)

section Step

variable {cfg : QueueConfig} {s t : QueueState} {a : Action} {id printerName : JsString}

lemma quiet_record {e : Event} (he : harmless e = true) (ht : t.log = e :: s.log) : Quiet s t :=
  .inr ⟨e, he, ht⟩

lemma ends_same (h : t.tasks = s.tasks) : Ends s a t := by
  intro id printerName status message ht
  exact .inl (h ▸ ht)

/-- Only the run of `id` moves, to a `pc` that may be an end. -/
lemma ends_update {task : Task} (h : t.tasks = Function.update s.tasks id (some task))
    (hend : ∀ printerName status message, task = .running printerName (.finishing status message) →
      finished status = true ∨
      ∃ windowsJobId deadline unreadable queue, a = .watched id (.ok queue) ∧
        s.tasks id = some (.running printerName (.watching windowsJobId deadline unreadable)) ∧
        s.disposed = true ∧ unsettled windowsJobId unreadable queue = true) : Ends s a t := by
  intro id' printerName status message ht
  rw [h, Function.update_apply] at ht
  split_ifs at ht with hid
  · subst hid
    exact .inr (hend printerName status message (Option.some.inj ht))
  · exact .inl ht

/-- The ends a `pc` may be, where no reading is involved. -/
def endOk : Pc → Bool
  | .finishing status _ => finished status
  | _ => true

lemma ends_goOn {pc : Pc} (h : t.tasks = Function.update s.tasks id (some (.running printerName pc)))
    (hpc : endOk pc = true) : Ends s a t := by
  refine ends_update h fun printerName' status message heq => .inl ?_
  obtain ⟨-, rfl⟩ := Task.running.inj heq
  exact hpc

lemma ends_settle (h : t.tasks = Function.update s.tasks id (some .settled)) : Ends s a t :=
  ends_update h fun _ _ _ heq => nomatch heq

lemma goOn_effect {pc : Pc} (hpc : endOk pc = true) : Effect s a (s.goOn id printerName pc) :=
  .quiet rfl rfl (.inl rfl) (ends_goOn rfl hpc)

lemma settle_effect : Effect s a (s.settle id) :=
  .quiet rfl rfl (.inl rfl) (ends_settle rfl)

lemma crash_effect {error : String} : Effect s a (s.crash id error) :=
  .quiet rfl rfl (quiet_record rfl rfl) (ends_settle rfl)

lemma endOk_chooseHelper {row : PrintJobRow} {spoolPath : JsString} {sumatra : Option JsString} :
    endOk (chooseHelper cfg printerName row spoolPath sumatra) = true := by
  cases sumatra with
  | some path =>
      rw [chooseHelper]
      split <;> rfl
  | none =>
      rw [chooseHelper]
      split <;> rfl

lemma endOk_checkSupport {spoolPath : JsString} {support : PrintToSupport} :
    endOk (checkSupport cfg printerName spoolPath support) = true := by
  rw [checkSupport]
  split <;> rfl

lemma endOk_watchTop {windowsJobId : ℤ} {deadline now : Time} {unreadable : ℕ} :
    endOk (watchTop cfg s id windowsJobId deadline unreadable now) = true := by
  rw [watchTop]
  split_ifs <;> rfl

lemma endOk_watch {windowsJobId : Option ℤ} {now later : Time} :
    endOk (watch cfg s id windowsJobId now later) = true := by
  cases windowsJobId with
  | none => rfl
  | some w => exact endOk_watchTop

/-- A reading ends the watch with a finished status, unless it says nothing final and the queue
is disposed. -/
lemma watchBody_end {disposed : Bool} {windowsJobId : ℤ} {deadline : Time} {unreadable : ℕ}
    {queue : SpoolerQueue} {status : PrintJobStatus} {message : Option String}
    (h : watchBody disposed windowsJobId deadline unreadable queue = .finishing status message) :
    finished status = true ∨ disposed = true ∧ unsettled windowsJobId unreadable queue = true := by
  rw [watchBody] at h
  rw [unsettled]
  by_cases hr : queue.readable = true
  · rw [if_pos hr] at h
    rw [if_pos hr]
    cases hmine : queue.jobs.find? fun job => job.id = windowsJobId with
    | none =>
        simp only [hmine, Pc.finishing.injEq] at h
        exact .inl (h.1 ▸ rfl)
    | some mine =>
        simp only [hmine] at h
        cases hclass : classifyJobStatus mine.status with
        | error | cancelled | done =>
            simp only [hclass, Pc.finishing.injEq] at h
            exact .inl (h.1 ▸ rfl)
        | printing =>
            simp only [hclass] at h
            cases disposed with
            | true => exact .inr ⟨rfl, by simp [hclass]⟩
            | false => cases h
  · rw [if_neg hr] at h
    rw [if_neg hr]
    by_cases hlimit : unreadable + 1 ≥ unreadableLimit
    · rw [if_pos hlimit] at h
      obtain ⟨rfl, -⟩ := Pc.finishing.inj h
      exact .inl rfl
    · rw [if_neg hlimit] at h
      cases disposed with
      | true => exact .inr ⟨rfl, by simpa using hlimit⟩
      | false => cases h

lemma cancel_effect {jobId deviceId : JsString} {now : Time} :
    Effect s a (cancel s jobId deviceId now) := by
  have hrefuse (e : ApiException) : Effect s a (s.record (.refused e)) :=
    .quiet rfl rfl (quiet_record rfl rfl) (ends_same rfl)
  rw [cancel]
  cases hrow : s.jobs.get jobId with
  | none => exact hrefuse _
  | some row =>
      simp only
      by_cases hdevice : row.device_id ≠ deviceId
      · rw [if_pos hdevice]
        exact hrefuse _
      · rw [if_neg hdevice]
        cases hstatus : row.status with
        | cancelled => exact .answered hrow hstatus rfl rfl rfl (ends_same rfl)
        | done | error => exact hrefuse _
        | queued => exact .cancelled hrow hstatus rfl rfl rfl (ends_same rfl)
        | printing => exact .quiet rfl rfl (quiet_record rfl rfl) (ends_same rfl)

/-- The log and the runs after a run's last write. -/
lemma finishRun_ends {status : PrintJobStatus} {message : Option String} {now : Time} :
    (finishRun s id status message now).jobs =
        s.jobs.updateKey id (transitionRow status none (some now) message) ∧
      (finishRun s id status message now).usedIds = s.usedIds ∧
      Quiet s (finishRun s id status message now) ∧
      Ends s a (finishRun s id status message now) := by
  rw [finishRun]
  split_ifs
  · exact ⟨rfl, rfl, .inl rfl, ends_settle rfl⟩
  · exact ⟨rfl, rfl, quiet_record rfl rfl, ends_settle rfl⟩

lemma begin_effect {now : Time} : Effect s a (begin s id printerName now) := by
  rw [begin]
  cases hrow : s.jobs.get id with
  | none => exact settle_effect
  | some row =>
      simp only
      split_ifs with hleave hsource
      · exact goOn_effect rfl
      · simp only [not_or, not_not] at hleave
        obtain ⟨hjobs, hids, hlog, hends⟩ := finishRun_ends (a := a)
        exact .failed hrow hleave.1 hjobs hids hlog hends
      · exact goOn_effect rfl

lemma handOver_effect {submission : Submission} {queue : SpoolerQueue} {now : Time}
    (htask : s.tasks id = some (.running printerName (.listing submission))) :
    Effect s (.listed id (.ok queue) now)
      (handOver s id submission (queue.jobs.map SpoolerJob.id) now) := by
  rw [handOver]
  split_ifs with hrow
  · exact .handed rfl htask rfl rfl (.inl ⟨Option.isSome_iff_exists.mp hrow, rfl⟩)
      (ends_goOn rfl rfl)
  · exact .handed rfl htask rfl rfl (.inr (quiet_record rfl rfl)) (ends_settle rfl)

lemma join_effect {submission : Submission} {submitted : Except String Unit}
    {windowsJobId : Option ℤ} {now later : Time} :
    Effect s a (join cfg s id submission submitted windowsJobId now later) := by
  cases submitted with
  | error e => exact goOn_effect rfl
  | ok u =>
      cases windowsJobId with
      | none => exact goOn_effect endOk_watch
      | some w => exact .numbered rfl rfl (.inl rfl) (ends_goOn rfl endOk_watch)

/-- **Everything a step can do.** -/
theorem step_effect (h : step cfg s a = some t) : Effect s a t := by
  cases a with
  | enqueue id input now =>
      simp only [step, enqueue] at h
      split_ifs at h with hused
      obtain ⟨jobs, hjobs, rfl⟩ := Option.map_eq_some_iff.mp h
      exact .enqueued hused rfl rfl hjobs rfl (quiet_record rfl rfl)
        (ends_update rfl fun _ _ _ heq => nomatch heq)
  | cancel jobId deviceId now =>
      obtain rfl := Option.some.inj h
      exact cancel_effect
  | dispose =>
      obtain rfl := Option.some.inj h
      exact .quiet rfl rfl (.inl rfl) (ends_same rfl)
  | begin id now =>
      rw [step] at h
      split at h
      case h_2 => cases h
      case h_1 printerName previous htask =>
        split_ifs at h
        obtain rfl := Option.some.inj h
        exact begin_effect
  | copied id r =>
      simp only [step] at h
      split at h
      case h_1 => obtain rfl := Option.some.inj h; exact goOn_effect rfl
      case h_2 => obtain rfl := Option.some.inj h; exact goOn_effect rfl
      case h_3 => cases h
  | found id sumatra =>
      rw [step] at h
      split at h
      case h_2 => cases h
      case h_1 => obtain rfl := Option.some.inj h; exact goOn_effect endOk_chooseHelper
  | probed id support =>
      rw [step] at h
      split at h
      case h_2 => cases h
      case h_1 => obtain rfl := Option.some.inj h; exact goOn_effect endOk_checkSupport
  | listed id r now =>
      simp only [step] at h
      split at h
      case h_1 submission queue htask =>
        obtain rfl := Option.some.inj h
        exact handOver_effect htask
      case h_2 => obtain rfl := Option.some.inj h; exact crash_effect
      case h_3 => cases h
  | submitted id r =>
      rw [step] at h
      split at h
      case h_2 => cases h
      case h_1 => obtain rfl := Option.some.inj h; exact goOn_effect rfl
  | looked id r =>
      rw [step] at h
      split at h
      case h_2 => cases h
      case h_1 => obtain rfl := Option.some.inj h; exact goOn_effect rfl
  | woke id now =>
      rw [step] at h
      split at h
      case h_1 => obtain rfl := Option.some.inj h; exact goOn_effect rfl
      case h_2 => obtain rfl := Option.some.inj h; exact goOn_effect endOk_watchTop
      case h_3 => cases h
  | joined id now later =>
      rw [step] at h
      split at h
      case h_1 => obtain rfl := Option.some.inj h; exact join_effect
      case h_2 => obtain rfl := Option.some.inj h; exact crash_effect
      case h_3 => cases h
  | watched id r =>
      simp only [step] at h
      split at h
      case h_1 printerName windowsJobId deadline unreadable queue htask =>
        obtain rfl := Option.some.inj h
        refine .quiet rfl rfl (.inl rfl) (ends_update rfl fun _ status message heq => ?_)
        obtain ⟨rfl, hpc⟩ := Task.running.inj heq
        rcases watchBody_end hpc with hfin | ⟨hdisposed, hunsettled⟩
        · exact .inl hfin
        · exact .inr ⟨_, _, _, _, rfl, htask, hdisposed, hunsettled⟩
      case h_2 => obtain rfl := Option.some.inj h; exact crash_effect
      case h_3 => cases h
  | removed id =>
      rw [step] at h
      split at h
      case h_2 => cases h
      case h_1 => obtain rfl := Option.some.inj h; exact goOn_effect rfl
  | cleaned id now =>
      rw [step] at h
      split at h
      case h_1 => obtain rfl := Option.some.inj h; exact settle_effect
      case h_2 htask =>
        obtain rfl := Option.some.inj h
        obtain ⟨hjobs, hids, hlog, hends⟩ := finishRun_ends
        exact .landed rfl htask hjobs hids hlog hends
      case h_3 => cases h
  | deleteDevice deviceId =>
      obtain rfl := Option.some.inj h
      exact .deleted rfl rfl (.inl rfl) (ends_same rfl)
  | restart now =>
      obtain rfl := Option.some.inj h
      refine .restarted rfl rfl (.inl rfl) fun id printerName status message ht => ?_
      simp [restart] at ht

/-- Ids that were drawn stay drawn. -/
lemma usedIds_step (h : step cfg s a = some t) : s.usedIds ⊆ t.usedIds := by
  cases step_effect h with
  | enqueued _ _ _ _ hids => simp [hids]
  | quiet _ hids | answered _ _ _ hids | cancelled _ _ _ hids | failed _ _ _ hids
  | landed _ _ _ hids | handed _ _ _ hids | numbered _ hids | deleted _ hids
  | restarted _ hids => simp [hids]

end Step

end LocalCast.Print
