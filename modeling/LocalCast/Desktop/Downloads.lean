import Mathlib.Data.List.TakeWhile
import LocalCast.Foundations.Runs
import LocalCast.Http.Range

/-!
`main/downloads.ts` of the desktop client: one download job, the file on the server it
fetches, and the answers in between.

* `totalFromContentRange`, `startFromContentRange`, `sizeFromHeaders`: what is read off headers.
* `ServedHistory`: the file on the server with every version it ever had. Replacing it leaves
  a file that is being read alone, writing to it does not.
* `downloadStep`: the manager cut at its awaits, and the server answering and reading.
* `totalFromContentRange_contentRangeOf` and its siblings: the headers of `serveFile` read back.

The clock, the listeners and the queue of the other jobs are left out.
-/

namespace LocalCast.Desktop

open JsString JsNumber Contract Http Runs

/-- The content of a file. -/
abbrev Bytes := List UInt8

/-! ### Headers -/

/-- `/\/(\d+)\s*$/` at the first unit: the group. -/
def totalHere (text : JsString) : Option JsString :=
  match text with
  | 47 :: rest =>
      if rest.takeWhile isDigit ≠ [] ∧ (rest.dropWhile isDigit).all isSpace then
        some (rest.takeWhile isDigit)
      else none
  | _ => none

def totalFromContentRange (value : Option JsString) : Option ℕ :=
  value.bind fun text => (text.tails.findSome? totalHere).bind number

/-- `^\s*bytes\s+(\d+)\s*-`, of any case: the group. -/
def rangeStart (text : JsString) : Option JsString :=
  let text := text.dropWhile isSpace
  let rest := text.drop 5
  let digits := (rest.dropWhile isSpace).takeWhile isDigit
  if lower (text.take 5) = js "bytes" ∧ rest.takeWhile isSpace ≠ [] ∧ digits ≠ [] ∧
      ((rest.dropWhile isSpace).dropWhile isDigit |>.dropWhile isSpace).head? = some 45 then
    some digits
  else none

def startFromContentRange (value : Option JsString) : Option ℕ :=
  value.bind fun text => (rangeStart text).bind number

/-- `Content-Length` describes the slice, not the file. -/
def sizeFromHeaders (contentRange contentLength : Option JsString) (offset : ℕ) : Option ℕ :=
  match totalFromContentRange contentRange with
  | some total => some total
  | none => (contentLength.bind number).map (· + offset)

/-! ### The headers of `serveFile` read back -/

lemma findSome_totalHere {text : JsString} (h : 47 ∉ text) {rest digits : JsString}
    (hrest : totalHere (47 :: rest) = some digits) :
    (text ++ 47 :: rest).tails.findSome? totalHere = some digits := by
  induction text with
  | nil => simp [hrest]
  | cons c cs ih =>
      have hc : c ≠ 47 := fun hc => h (by simp [hc])
      have hhere : totalHere (c :: (cs ++ 47 :: rest)) = none := by
        unfold totalHere
        split
        · simp_all
        · rfl
      rw [List.cons_append, List.tails, List.findSome?_cons, hhere]
      exact ih fun hcs => h (by simp [hcs])

lemma totalHere_decimal (n : ℕ) : totalHere (47 :: decimal n) = some (decimal n) := by
  have htake : (decimal n).takeWhile isDigit = decimal n :=
    List.takeWhile_eq_self_iff.mpr fun _ => isDigit_of_mem_decimal
  have hdrop : (decimal n).dropWhile isDigit = [] :=
    List.dropWhile_eq_nil_iff.mpr fun _ => isDigit_of_mem_decimal
  rw [totalHere, htake, hdrop, if_pos ⟨decimal_ne_nil n, rfl⟩]

lemma totalFromContentRange_unsatisfiedRange {size : ℕ} (h : size < 2 ^ 53) :
    totalFromContentRange (some (unsatisfiedRange size)) = some size := by
  have htext : unsatisfiedRange size = js "bytes *" ++ 47 :: decimal size := rfl
  rw [totalFromContentRange, Option.bind_some, htext,
    findSome_totalHere (by decide) (totalHere_decimal size)]
  exact number_decimal h

lemma totalFromContentRange_contentRangeOf (start last : ℕ) {size : ℕ} (h : size < 2 ^ 53) :
    totalFromContentRange (some (contentRangeOf start last size)) = some size := by
  have hslash : 47 ∉ js "bytes " ++ decimal start ++ 45 :: decimal last := by
    have hdigits (n : ℕ) : 47 ∉ decimal n := by
      intro hmem
      exact notMem_of_isDigit (isDigit_of_mem_decimal hmem) (l := [47]) rfl (by simp)
    have hbytes : 47 ∉ js "bytes " := by decide
    simp [hdigits, hbytes]
  have htext : contentRangeOf start last size =
      (js "bytes " ++ decimal start ++ 45 :: decimal last) ++ 47 :: decimal size := by
    simp [contentRangeOf]
  rw [totalFromContentRange, Option.bind_some, htext,
    findSome_totalHere hslash (totalHere_decimal size)]
  exact number_decimal h

lemma rangeStart_contentRangeOf (start last size : ℕ) :
    rangeStart (contentRangeOf start last size) = some (decimal start) := by
  have hdash : isDigit 45 = false := rfl
  have htext : contentRangeOf start last size =
      js "bytes" ++ 32 :: (decimal start ++ 45 :: (decimal last ++ 47 :: decimal size)) := by
    simp only [contentRangeOf, List.append_assoc, List.cons_append]
    rfl
  have hdrop : (contentRangeOf start last size).dropWhile isSpace =
      contentRangeOf start last size := rfl
  have hword : lower ((contentRangeOf start last size).take 5) = js "bytes" := by
    rw [htext]
    rfl
  have hrest : (contentRangeOf start last size).drop 5 =
      32 :: (decimal start ++ 45 :: (decimal last ++ 47 :: decimal size)) := by
    rw [htext]
    rfl
  have hblank : (32 :: (decimal start ++ 45 :: (decimal last ++ 47 :: decimal size))).dropWhile
      isSpace = decimal start ++ 45 :: (decimal last ++ 47 :: decimal size) :=
    dropWhile_isSpace_decimal start _
  simp only [rangeStart, hdrop]
  simp [hrest, hword, hblank, takeWhile_decimal start hdash, dropWhile_decimal start hdash,
    decimal_ne_nil, show isSpace 32 = true from rfl, show isSpace 45 = false from rfl]

lemma startFromContentRange_contentRangeOf {start : ℕ} (last size : ℕ) (h : start < 2 ^ 53) :
    startFromContentRange (some (contentRangeOf start last size)) = some start := by
  rw [startFromContentRange, Option.bind_some, rangeStart_contentRangeOf]
  exact number_decimal h

/-! ### The file on the server -/

/-- A version of the file. -/
structure FileVersion where
  bytes : Bytes
  mtimeMs : ℚ
  size_lt : bytes.length < 2 ^ 53
deriving DecidableEq

/-- The path of the file: `inodes` are the files that were put there, as they are now, `path`
the one that is there, and `versions` is all it ever held, most recent first. -/
structure ServedHistory where
  name : JsString
  inodes : List FileVersion
  path : Option ℕ
  versions : List FileVersion

namespace ServedHistory

variable (h : ServedHistory)

def current : Option FileVersion := h.path.bind fun i => h.inodes[i]?

/-- Another file is moved over the path. -/
def replace (v : FileVersion) : ServedHistory :=
  { h with inodes := h.inodes ++ [v], path := some h.inodes.length, versions := v :: h.versions }

/-- The file at the path is written to. -/
def modify (v : FileVersion) : ServedHistory :=
  match h.path with
  | none => h
  | some i => { h with inodes := h.inodes.set i v, versions := v :: h.versions }

end ServedHistory

/-- The body of an answer: the interval `serveFile` streams, the file it was opened on, the
bytes read so far, and how many of these the client has taken. -/
structure Body where
  first : ℕ
  last : ℕ
  inode : Option ℕ
  sent : Bytes
  taken : ℕ

namespace Body

def pending (b : Body) : Bytes := b.sent.drop b.taken

/-- What the read stream gets next from a file, at most `n` bytes. -/
def next (b : Body) (v : FileVersion) (n : ℕ) : Bytes :=
  (v.bytes.drop (b.first + b.sent.length)).take (min n (b.last + 1 - (b.first + b.sent.length)))

end Body

/-! ### The job -/

inductive JobStatus where
  | queued | downloading | paused | done | error | cancelled
deriving DecidableEq

structure DownloadJob where
  status : JobStatus
  receivedBytes : ℕ
  totalBytes : Option ℕ
  errorCode : Option ErrorCode
deriving DecidableEq

/-- Where a run of `#transfer` waits. -/
inductive Phase where
  /-- For the answer; the partial file was `stat`ed. -/
  | requested (offset : ℕ)
  | answered (offset : ℕ) (answer : Except Refusal Response)
  /-- In the loop over the body. -/
  | receiving (total : Option ℕ) (written : ℕ)
deriving DecidableEq

/-- A run of `#run`. -/
structure Running where
  paused : Bool
  cancelled : Bool
  phase : Phase
  body : Option Body

/-- The server's file, the job and its record on disk, and the two files of the job. -/
structure DownloadState where
  server : ServedHistory
  job : Option DownloadJob
  saved : Option DownloadJob
  running : Option Running
  part : Option Bytes
  destination : Option Bytes

namespace DownloadState

/-- A job that was just enqueued, for a file that never was. -/
def init (name : JsString) (totalBytes : Option ℕ) : DownloadState :=
  { server := ⟨name, [], none, []⟩, job := some ⟨.queued, 0, totalBytes, none⟩, saved := none
    running := none, part := none, destination := none }

variable (s : DownloadState)

/-- `bytesOnDisk` of the partial file. -/
def bytesOnDisk : ℕ := (s.part.map List.length).getD 0

/-- `#update`. -/
def update (f : DownloadJob → DownloadJob) : DownloadState := { s with job := s.job.map f }

def stop : DownloadState := { s with running := none }

def goOn (r : Running) : DownloadState := { s with running := some r }

/-- The `catch` of `#run`; no code stands for an abort. -/
def caught (r : Running) (code : Option ErrorCode) : DownloadState :=
  if r.cancelled then
    { s with part := none }.stop.update fun job =>
      { job with status := .cancelled, receivedBytes := 0 }
  else if r.paused ∨ code = none then
    s.stop.update fun job => { job with status := .paused, receivedBytes := s.bytesOnDisk }
  else
    s.stop.update fun job =>
      { job with status := .error, errorCode := code, receivedBytes := s.bytesOnDisk }

/-- `#finish`; `rename` throws where there is no partial file. -/
def finish (r : Running) (size : ℕ) : DownloadState :=
  match s.part with
  | none => s.caught r (some .internal)
  | some bytes => { s with part := none, destination := some bytes }.stop.update fun job =>
      { job with status := .done, receivedBytes := size, totalBytes := some size }

/-- The opening of the sink: `flags` are `a` behind an offset, else `w`. -/
def openSink (offset : ℕ) : DownloadState :=
  if 0 < offset then s else { s with part := some [] }

/-- `#transfer` from the answer to the loop. -/
def receive (r : Running) (offset : ℕ) : Except Refusal Response → DownloadState
  | .error refusal =>
      if refusal.error.status = 416 then
        if totalFromContentRange refusal.contentRange = some offset then s.finish r offset
        else { s with part := none }.caught r (some .rangeNotSatisfiable)
      else s.caught r (some refusal.error.code)
  | .ok response =>
      let servedFrom := if response.status = 200 then 0
        else (startFromContentRange response.contentRange).getD offset
      if servedFrom ≠ offset ∧ servedFrom ≠ 0 then
        { s with part := none }.caught r (some .rangeNotSatisfiable)
      else
        let s := if servedFrom ≠ offset then
          { s with part := none }.update fun job => { job with receivedBytes := 0 } else s
        let total := sizeFromHeaders response.contentRange (some (decimal response.contentLength))
          servedFrom
        let s := s.update fun job => { job with totalBytes := total.or job.totalBytes }
        (s.openSink servedFrom).goOn { r with phase := .receiving total servedFrom }

/-- The bytes behind the loop: the check of the length, then `#finish`. -/
def endOfBody (r : Running) (total : Option ℕ) (written : ℕ) : DownloadState :=
  if total.any fun total => written < total then
    (s.update fun job => { job with receivedBytes := written }).caught r (some .internal)
  else s.finish r (total.getD written)

end DownloadState

/-! ### Steps -/

inductive DownloadAction where
  /-- The file on the server is replaced, written to in place, or removed. -/
  | replaceFile (v : FileVersion)
  | modifyFile (v : FileVersion)
  | removeFile
  /-- The server answers: `stat`, the checks of `serveFile`, the headers. -/
  | serve (mode : AccessMode)
  /-- The request is refused before or instead. -/
  | refuse (refusal : Refusal)
  /-- The read stream of the answer opens its file, and reads from it. -/
  | openFile
  | read (n : ℕ)
  /-- The manager: `#pump`, the answer, a chunk, the end of the body, a rejected `await`. -/
  | start
  | receive
  | write (n : ℕ) (report : Bool)
  | endOfBody
  | fail (code : Option ErrorCode)
  | pause
  | resume
  | cancel
  /-- The record reaches the disk. -/
  | persist
  /-- The app stops at any moment and comes back: of the partial file as much is left as was
  flushed. -/
  | reload (flushed : ℕ)

/-- The request of `#transfer`. -/
def contentRequest (offset : ℕ) : ContentRequest :=
  { method := .get, download := true, ifRange := none
    range := if 0 < offset then some (js "bytes=" ++ (decimal offset ++ [45])) else none }

/-- The answer to the request for one version of the file. -/
def answerFor (name : JsString) (mode : AccessMode) (v : FileVersion) (offset : ℕ) :
    Except Refusal Response :=
  serveFile (contentRequest offset) ⟨v.bytes.length, v.mtimeMs, false, name⟩ ⟨mode, .attachment⟩

/-- The body that goes with an answer. -/
def bodyOf : Except Refusal Response → Option Body
  | .ok response => response.body.map fun interval => ⟨interval.1, interval.2, none, [], 0⟩
  | .error _ => none

/-- `load` on the record of the job. -/
def restored (bytesOnDisk : ℕ) (job : DownloadJob) : DownloadJob :=
  let status := if job.status = .downloading ∨ job.status = .queued then .paused else job.status
  { job with
    status := status
    receivedBytes := if status = .paused ∨ status = .error then bytesOnDisk
      else job.receivedBytes }

/-- The manager's own calls on the job. -/
def control (s : DownloadState) (job : DownloadJob) : DownloadAction → Option DownloadState
  | .start =>
      if s.running = none ∧ job.status = .queued then
        let s := s.update fun job => { job with status := .downloading, errorCode := none }
        some (s.goOn ⟨false, false, .requested s.bytesOnDisk, none⟩)
      else none
  | .pause =>
      match s.running with
      | some r => some (s.goOn { r with paused := true })
      | none =>
          if job.status = .queued then some (s.update fun job => { job with status := .paused })
          else some s
  | .resume =>
      if job.status = .downloading ∨ job.status = .queued ∨ job.status = .done then some s
      else some (s.update fun job =>
        { job with status := .queued, errorCode := none, receivedBytes := s.bytesOnDisk })
  | .cancel =>
      match s.running with
      | some r => some (s.goOn { r with cancelled := true })
      | none => some ({ s with part := none }.update fun job =>
          { job with status := .cancelled, receivedBytes := 0 })
  | _ => none

/-- A step of the server, the manager and what lies between. -/
def downloadStep (s : DownloadState) : DownloadAction → Option DownloadState
  | .replaceFile v => some { s with server := s.server.replace v }
  | .modifyFile v => some { s with server := s.server.modify v }
  | .removeFile => some { s with server := { s.server with path := none } }
  | .serve mode =>
      match s.running, s.server.current with
      | some ⟨paused, cancelled, .requested offset, _⟩, some v =>
          let answer := answerFor s.server.name mode v offset
          some (s.goOn ⟨paused, cancelled, .answered offset answer, bodyOf answer⟩)
      | _, _ => none
  | .refuse refusal =>
      match s.running with
      | some ⟨paused, cancelled, .requested offset, _⟩ =>
          if refusal.error.status = 416 then none
          else some (s.goOn ⟨paused, cancelled, .answered offset (.error refusal), none⟩)
      | _ => none
  | .openFile =>
      match s.running with
      | some ⟨paused, cancelled, phase, some b⟩ =>
          if b.inode = none ∧ s.server.path ≠ none then
            some (s.goOn ⟨paused, cancelled, phase, some { b with inode := s.server.path }⟩)
          else none
      | _ => none
  | .read n =>
      match s.running with
      | some ⟨paused, cancelled, phase, some b⟩ =>
          match b.inode.bind fun i => s.server.inodes[i]? with
          | none => none
          | some v =>
              some (s.goOn ⟨paused, cancelled, phase, some { b with sent := b.sent ++ b.next v n }⟩)
      | _ => none
  | .receive =>
      match s.running with
      | some ⟨paused, cancelled, .answered offset answer, body⟩ =>
          some (s.receive ⟨paused, cancelled, .answered offset answer, body⟩ offset answer)
      | _ => none
  | .write n report =>
      match s.running with
      | some ⟨paused, cancelled, .receiving total written, some b⟩ =>
          let chunk := b.pending.take n
          let s := if report then
            s.update fun job => { job with receivedBytes := written + chunk.length } else s
          some ({ s with part := s.part.map (· ++ chunk) }.goOn
            ⟨paused, cancelled, .receiving total (written + chunk.length),
              some { b with taken := b.taken + chunk.length }⟩)
      | _ => none
  | .endOfBody =>
      match s.running with
      | some ⟨paused, cancelled, .receiving total written, body⟩ =>
          if body.all fun b => b.pending = [] then
            some (s.endOfBody ⟨paused, cancelled, .receiving total written, body⟩ total written)
          else none
      | _ => none
  | .fail code => s.running.map fun r => s.caught r code
  | .persist => some { s with saved := s.job }
  | .reload flushed =>
      let s := { s with running := none, part := s.part.map (List.take flushed) }
      some { s with job := s.saved.map (restored s.bytesOnDisk) }
  | a => s.job.bind fun job => control s job a

end LocalCast.Desktop
