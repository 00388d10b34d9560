import LocalCast.Desktop.Downloads
import LocalCast.Foundations.Table
import LocalCast.Uploads.Paths

/-!
`main/downloads.ts` of the desktop client: the queue of all its jobs and the names they claim.

* `Machine`: the downloads folder, and which file the system takes a path to name.
* `safeFileName`, `candidates`, `free`, `destinationFor`: how a destination is chosen.
* `DownloadManager`, `pump`: the jobs, the queue and the transfers that run, with the state file
  and the files on the disk.
* `managerStep`: a call of the user, what a transfer does to its files, a transfer that settles,
  another program at work in the folder, and the client started again.

What a transfer does between its first request and its end is `Desktop.Downloads`; here it only
has its partial file. The sizes, the errors, the listeners and `stopAll`, a `pause` of every
transfer, are left out.
-/

namespace LocalCast.Desktop

open JsString JsNumber Runs

/-! ### Names -/

/-- Suffix for the partial file. -/
def PART_SUFFIX : JsString := js ".lcpart"

def partPathFor (destination : JsString) : JsString := destination ++ PART_SUFFIX

/-- Where the client runs. Two paths may name one file, as the case of a letter does not count
on Windows; a path and its partial file never do. -/
structure Machine (F : Type*) where
  windows : Bool
  /-- The downloads folder with the separator behind it, as `join` writes it. -/
  downloadDir : JsString
  file : JsString → F
  part_ne : ∀ path, file (partPathFor path) ≠ file path

def isLetter (c : CodeUnit) : Bool := (65 ≤ c && c ≤ 90) || (97 ≤ c && c ≤ 122)

/-- The characters Windows takes in no name. -/
def isIllegal (c : CodeUnit) : Bool := c ∈ js "\\/:*?\"<>|"

namespace Machine

variable {F : Type*} (m : Machine F)

def isSeparator (c : CodeUnit) : Bool := c = 47 || (m.windows && c = 92)

/-- The last component of a path, without a drive and without separators behind it. -/
def basename (path : JsString) : JsString :=
  let drive := m.windows && path.head?.any isLetter && path[1]? = some 58
  let path := if drive then path.drop 2 else path
  ((path.reverse.dropWhile m.isSeparator).takeWhile fun c => !m.isSeparator c).reverse

/-- A file name from a remote index turned into one this machine may write. -/
def safeFileName (fileName : JsString) : JsString :=
  let cleaned := (m.basename fileName).map fun c => if isIllegal c then 95 else c
  if cleaned.all (· = 46) then js "download" else cleaned

/-- `stem (n).ext` in the downloads folder. -/
def copyPath (safe : JsString) (n : ℕ) : JsString :=
  let (stem, ext) := Uploads.splitExt safe
  m.downloadDir ++ stem ++ js " (" ++ decimal n ++ js ")" ++ ext

/-- The name itself, then the copies up to the 999th. -/
def candidates (safe : JsString) : List JsString :=
  (m.downloadDir ++ safe) :: (List.range' 2 998).map (m.copyPath safe)

end Machine

/-! ### The manager -/

/-- A job, as far as its place on the disk goes. -/
structure Download where
  id : ℕ
  destination : JsString
  status : JobStatus
deriving DecidableEq

instance : Keyed Download ℕ := ⟨Download.id⟩

/-- A job that comes back from the state file: nothing is running any more. -/
def Download.restored (job : Download) : Download :=
  { job with
    status := if job.status = .downloading ∨ job.status = .queued then .paused else job.status }

/-- A transfer, and why its signal was raised. -/
structure RunningJob where
  id : ℕ
  paused : Bool
  cancelled : Bool
deriving DecidableEq

/-- `sequence` counts the ids ever drawn: the clock in an id tells a run of the client from the
one before. `saved` is the state file and `disk` the files there are; `overwritten` records that
a `#finish` renamed over one. -/
structure DownloadManager (F : Type*) where
  jobs : Table Download
  queue : List ℕ
  running : List RunningJob
  sequence : ℕ
  saved : Table Download
  disk : F → Bool
  overwritten : Bool

namespace DownloadManager

/-- A client that starts for the first time, with whatever is in the folder. -/
def init {F : Type*} (disk : F → Bool) : DownloadManager F where
  jobs := .empty
  queue := []
  running := []
  sequence := 0
  saved := .empty
  disk
  overwritten := false

variable {F : Type*} (s : DownloadManager F)

/-- Nobody claims the path, and neither it nor its partial file exists. -/
def free (m : Machine F) (candidate : JsString) : Bool :=
  (s.jobs.rows.all fun job => job.status = .cancelled || job.destination ≠ candidate) &&
    !s.disk (m.file candidate) && !s.disk (m.file (partPathFor candidate))

/-- The fallback under the time of day is not tried. -/
def destinationFor (m : Machine F) (fileName : JsString) (now : ℕ) : JsString :=
  let safe := m.safeFileName fileName
  ((m.candidates safe).find? (s.free m)).getD (m.copyPath safe now)

def update (id : ℕ) (status : JobStatus) : DownloadManager F :=
  { s with jobs := s.jobs.updateKey id fun job => { job with status } }

def transfer? (id : ℕ) : Option RunningJob := s.running.find? (·.id = id)

/-- A flag of a transfer, and its signal. -/
def abort (id : ℕ) (f : RunningJob → RunningJob) : DownloadManager F :=
  { s with running := s.running.map fun r => if r.id = id then f r else r }

def dequeue (id : ℕ) : DownloadManager F := { s with queue := s.queue.filter (· ≠ id) }

/-- `#run` up to the first answer it waits for. -/
def run (id : ℕ) : DownloadManager F :=
  { s.update id .downloading with
    running := ⟨id, false, false⟩ :: s.running.filter (·.id ≠ id) }

/-- The loop of `#pump` over the queue. -/
def pumpFrom (concurrency : ℕ) (s : DownloadManager F) : List ℕ → DownloadManager F
  | [] => { s with queue := [] }
  | next :: rest =>
      if s.running.length < concurrency then
        if (s.jobs.get next).any (·.status = .queued) then pumpFrom concurrency (s.run next) rest
        else pumpFrom concurrency s rest
      else { s with queue := next :: rest }

def pump (concurrency : ℕ) : DownloadManager F := s.pumpFrom concurrency s.queue

/-- The `finally` of `#run`, once the job has the status of its end. -/
def settle (concurrency id : ℕ) (status : JobStatus) : DownloadManager F :=
  { s.update id status with running := s.running.filter (·.id ≠ id) }.pump concurrency

variable [DecidableEq F]

/-- A file appears or disappears. -/
def setFile (f : F) (present : Bool) : DownloadManager F :=
  { s with disk := Function.update s.disk f present }

def enqueue (m : Machine F) (concurrency : ℕ) (fileName : JsString) (now : ℕ) :
    DownloadManager F :=
  let job : Download := ⟨s.sequence + 1, s.destinationFor m fileName now, .queued⟩
  { s with
    jobs := s.jobs.put job
    queue := s.queue ++ [job.id]
    sequence := s.sequence + 1 }.pump concurrency

def pause (id : ℕ) : DownloadManager F :=
  if (s.transfer? id).isSome then s.abort id fun r => { r with paused := true }
  else if (s.jobs.get id).any (·.status = .queued) then (s.dequeue id).update id .paused
  else s

/-- Nothing where the job is on its way or done, or where there is none (`UnknownDownload`). -/
def resume (concurrency id : ℕ) : DownloadManager F :=
  match s.jobs.get id with
  | some job =>
      if job.status = .downloading ∨ job.status = .queued ∨ job.status = .done then s
      else { s.update id .queued with queue := s.queue ++ [id] }.pump concurrency
  | none => s

def cancel (m : Machine F) (id : ℕ) : DownloadManager F :=
  if (s.transfer? id).isSome then s.abort id fun r => { r with cancelled := true }
  else
    match s.jobs.get id with
    | some job =>
        ((s.dequeue id).setFile (m.file (partPathFor job.destination)) false).update id .cancelled
    | none => s

/-- `#finish`, with the partial file there to be renamed. -/
def finish (m : Machine F) (concurrency : ℕ) (job : Download) : DownloadManager F :=
  let renamed := (s.setFile (m.file (partPathFor job.destination)) false).setFile
    (m.file job.destination) true
  { renamed with overwritten := s.overwritten || s.disk (m.file job.destination) }.settle
    concurrency job.id .done

/-- The `catch` of `#run`; `aborted` is `isCancelled` of the error. -/
def caught (m : Machine F) (concurrency : ℕ) (job : Download) (r : RunningJob) (aborted : Bool) :
    DownloadManager F :=
  if r.cancelled then
    (s.setFile (m.file (partPathFor job.destination)) false).settle concurrency job.id .cancelled
  else s.settle concurrency job.id (if r.paused ∨ aborted then .paused else .error)

/-- `load`, in a new process. -/
def load : DownloadManager F :=
  { s with
    jobs := s.saved.update (fun _ => true) Download.restored
    queue := []
    running := [] }

end DownloadManager

/-! ### Steps -/

inductive ManagerAction (F : Type*) where
  | enqueue (fileName : JsString) (now : ℕ)
  | pause (id : ℕ)
  | resume (id : ℕ)
  | cancel (id : ℕ)
  /-- A transfer opens or removes its partial file. -/
  | part (id : ℕ) (present : Bool)
  | finish (id : ℕ)
  | fail (id : ℕ) (aborted : Bool)
  /-- Another program. -/
  | created (f : F)
  | removed (f : F)
  /-- The state file is written. -/
  | persist
  /-- The client is gone, and starts again. -/
  | load

variable {F : Type*} [DecidableEq F]

def managerStep (m : Machine F) (concurrency : ℕ) (s : DownloadManager F) :
    ManagerAction F → Option (DownloadManager F)
  | .enqueue fileName now => some (s.enqueue m concurrency fileName now)
  | .pause id => some (s.pause id)
  | .resume id => some (s.resume concurrency id)
  | .cancel id => some (s.cancel m id)
  | .part id present =>
      match s.transfer? id, s.jobs.get id with
      | some _, some job => some (s.setFile (m.file (partPathFor job.destination)) present)
      | _, _ => none
  | .finish id =>
      match s.transfer? id, s.jobs.get id with
      | some _, some job =>
          if s.disk (m.file (partPathFor job.destination)) then
            some (s.finish m concurrency job)
          else none
      | _, _ => none
  | .fail id aborted =>
      match s.transfer? id, s.jobs.get id with
      | some r, some job => some (s.caught m concurrency job r aborted)
      | _, _ => none
  | .created f => some (s.setFile f true)
  | .removed f => some (s.setFile f false)
  | .persist => some { s with saved := s.jobs }
  | .load => some s.load

end LocalCast.Desktop
