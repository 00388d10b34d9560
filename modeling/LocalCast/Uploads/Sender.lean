import LocalCast.Uploads.Uploader

/-!
`UploadManager.#send` of the desktop client (`main/uploads.ts`), over the upload service.

* `sendStep`: the method, cut where it awaits a request or the file. What it reads is an input:
  the file may grow, shrink or vanish while it is sent.
* `sendLoad`: what a chunk that is not counted costs; `send_bounded` bounds the inputs of any run,
  whoever answers.
* `SendStep`: the method against the server, which does other work on the side.
* `Delivering`, `Undelivered`: what holds of an upload that still ends well, and of one that has
  failed.
* `send_settles`: against the server every upload ends, no accepted chunk is left uncounted, and
  the upload is done exactly where nothing failed, with its session complete on the server.
-/

namespace LocalCast.Uploads

open JsString Contract Db Runs

/-! ### The source -/

/-- What `#send` throws: the rejection of a request, the abort it checks for, a file that cannot
be opened or read, and its own two errors. -/
inductive SendFailure where
  | request (e : UploadError)
  | cancelled
  | unreadable
  | uncounted
  | incomplete
deriving DecidableEq

/-- Where `#send` waits: for its session, for the file to open, for a read into the buffer, for
the answer to a `PATCH`; or it is over. -/
inductive SendPhase where
  | creating
  | opening (session : UploadSession)
  | reading (buffer : ℕ) (session : UploadSession)
  | sending (buffer : ℕ) (session : UploadSession) (chunk : List UInt8)
  | done (session : UploadSession)
  | threw (e : SendFailure)
deriving DecidableEq

/-- What comes back: a session or a rejection, the opened file, what a read put into the buffer;
or the abort of the user. A failure to open or read the file is `none`. -/
inductive SendInput where
  | created (answer : Except UploadError UploadSession)
  | opened (handle : Option Unit)
  | aborted
  | read (bytes : Option (List UInt8))
  | patched (answer : Except UploadError UploadSession)

/-- After the loop. -/
def afterLoop (session : UploadSession) : SendPhase :=
  if session.status ≠ .complete then .threw .incomplete else .done session

/-- The head of the loop. -/
def loopHead (totalBytes buffer : ℕ) (session : UploadSession) : SendPhase :=
  if session.receivedBytes < totalBytes ∧ session.status = .active then .reading buffer session
  else afterLoop session

/-- `#send` of a job of `totalBytes` bytes, from one `await` to the next; `none` where it does not
wait for that. -/
def sendStep (totalBytes : ℕ) : SendPhase → SendInput → Option SendPhase
  | .creating, .created (.ok session) => some (.opening session)
  | .creating, .created (.error e) => some (.threw (.request e))
  | .opening session, .opened (some _) => some (loopHead totalBytes session.chunkSize session)
  | .opening _, .opened none => some (.threw .unreadable)
  | .reading .., .aborted => some (.threw .cancelled)
  | .reading _ _, .read none => some (.threw .unreadable)
  | .reading buffer session, .read (some bytes) =>
      if buffer < bytes.length then none
      else if bytes.length = 0 then some (afterLoop session)
      else some (.sending buffer session bytes)
  | .sending _ _ _, .patched (.error e) => some (.threw (.request e))
  | .sending buffer session _, .patched (.ok next) =>
      if next.receivedBytes ≤ session.receivedBytes then some (.threw .uncounted)
      else some (loopHead totalBytes buffer next)
  | _, _ => none

/-- The upload is over. -/
def SendPhase.over : SendPhase → Bool
  | .done _ | .threw _ => true
  | .creating | .opening _ | .reading .. | .sending .. => false

/-! ### Whoever answers -/

/-- The inputs that may still come, at most. -/
def sendLoad (totalBytes : ℕ) : SendPhase → ℕ
  | .creating => 2 * totalBytes + 2
  | .opening session => 2 * (totalBytes - session.receivedBytes) + 1
  | .reading _ session => 2 * (totalBytes - session.receivedBytes)
  | .sending _ session _ => 2 * (totalBytes - session.receivedBytes) - 1
  | .done _ | .threw _ => 0

/-- A read, and the request behind it, only while bytes are missing. -/
def SendPhase.Missing (totalBytes : ℕ) : SendPhase → Prop
  | .reading _ session | .sending _ session _ => session.receivedBytes < totalBytes
  | .creating | .opening _ | .done _ | .threw _ => True

section Anyone

variable {totalBytes buffer : ℕ} {p q : SendPhase} {input : SendInput} {d : UploadSession}

lemma afterLoop_over : (afterLoop d).over = true := by
  rw [afterLoop]
  split_ifs <;> rfl

lemma sendLoad_of_over (h : p.over = true) : sendLoad totalBytes p = 0 := by
  cases p with
  | done d | threw e => rfl
  | creating | opening d | reading n d | sending n d chunk => cases h

lemma missing_of_over (h : p.over = true) : p.Missing totalBytes := by
  cases p with
  | done d | threw e => trivial
  | creating | opening d | reading n d | sending n d chunk => cases h

/-- The head of the loop goes on only while bytes are missing. -/
lemma missing_loopHead (totalBytes buffer : ℕ) (d : UploadSession) :
    (loopHead totalBytes buffer d).Missing totalBytes ∧
      sendLoad totalBytes (loopHead totalBytes buffer d) ≤ 2 * (totalBytes - d.receivedBytes) := by
  rw [loopHead]
  split_ifs with h
  · exact ⟨h.1, le_rfl⟩
  · refine ⟨missing_of_over afterLoop_over, ?_⟩
    rw [sendLoad_of_over afterLoop_over]
    exact Nat.zero_le _

/-- **One input** brings the end closer: a `PATCH` that moves the session on by nothing ends the
upload. -/
lemma sendLoad_step (hp : p.Missing totalBytes) (h : sendStep totalBytes p input = some q) :
    q.Missing totalBytes ∧ sendLoad totalBytes q < sendLoad totalBytes p := by
  have hthrew (e : SendFailure) (hpos : 0 < sendLoad totalBytes p) :
      (SendPhase.threw e).Missing totalBytes ∧
        sendLoad totalBytes (.threw e) < sendLoad totalBytes p := ⟨trivial, hpos⟩
  revert h
  fun_cases sendStep totalBytes p input <;> intro h
  case case1 session =>
    obtain rfl := Option.some.inj h
    refine ⟨trivial, ?_⟩
    simp only [sendLoad]
    omega
  case case2 e =>
    obtain rfl := Option.some.inj h
    exact hthrew _ (by simp [sendLoad])
  case case3 session handle =>
    obtain rfl := Option.some.inj h
    obtain ⟨hmissing, hload⟩ := missing_loopHead totalBytes session.chunkSize session
    exact ⟨hmissing, Nat.lt_succ_of_le hload⟩
  case case4 session =>
    obtain rfl := Option.some.inj h
    exact hthrew _ (Nat.succ_pos _)
  case case5 | case6 =>
    obtain rfl := Option.some.inj h
    refine hthrew _ ?_
    simp only [SendPhase.Missing] at hp
    simp only [sendLoad]
    omega
  case case7 => cases h
  case case8 n session bytes hfits hempty =>
    obtain rfl := Option.some.inj h
    refine ⟨missing_of_over afterLoop_over, ?_⟩
    rw [sendLoad_of_over afterLoop_over]
    simp only [SendPhase.Missing] at hp
    simp only [sendLoad]
    omega
  case case9 n session bytes hfits hsome =>
    obtain rfl := Option.some.inj h
    refine ⟨hp, ?_⟩
    simp only [SendPhase.Missing] at hp
    simp only [sendLoad]
    omega
  case case10 n session chunk e =>
    obtain rfl := Option.some.inj h
    refine hthrew _ ?_
    simp only [SendPhase.Missing] at hp
    simp only [sendLoad]
    omega
  case case11 n session chunk next hstuck =>
    obtain rfl := Option.some.inj h
    refine hthrew _ ?_
    simp only [SendPhase.Missing] at hp
    simp only [sendLoad]
    omega
  case case12 n session chunk next hmoved =>
    obtain rfl := Option.some.inj h
    obtain ⟨hmissing, hload⟩ := missing_loopHead totalBytes n next
    have hsending : sendLoad totalBytes (.sending n session chunk)
        = 2 * (totalBytes - session.receivedBytes) - 1 := rfl
    refine ⟨hmissing, ?_⟩
    simp only [SendPhase.Missing] at hp
    omega
  case case13 => cases h

end Anyone

/-- One upload: the session `id` that is created for the device, and the size the file had. -/
structure SendJob where
  cfg : UploadConfig
  id : JsString
  deviceId : JsString
  totalBytes : ℕ

/-- The server and the method. -/
structure SendSystem where
  server : UploadState
  phase : SendPhase

/-- What the method waits for against the service: a session that was just created, the answer of
an exchange, unless it is lost, or something of its own machine. The server does other work that
leaves the session alone. -/
inductive SendStep (job : SendJob) (s : SendSystem) : SendInput → SendSystem → Prop
  | created {server : UploadState} {row : UploadRow} {phase : SendPhase}
      (hrow : server.uploads.get job.id = some row) (htotal : row.total_bytes = job.totalBytes)
      (hle : row.received_bytes ≤ row.total_bytes) (hopen : Open row)
      (hstep : sendStep job.totalBytes s.phase (.created (.ok (toDto row))) = some phase) :
      SendStep job s (.created (.ok (toDto row))) ⟨server, phase⟩
  | patched {i buffer : ℕ} {u server : UploadState} {session : UploadSession} {chunk : List UInt8}
      {a : Answer} {phase : SendPhase} (hphase : s.phase = .sending buffer session chunk)
      (hmeanwhile : u.uploads.get job.id = s.server.uploads.get job.id)
      (hexchange : Exchange job.cfg i job.id job.deviceId session.receivedBytes chunk u server a)
      (hstep : sendStep job.totalBytes s.phase (.patched (resultOf a)) = some phase) :
      SendStep job s (.patched (resultOf a)) ⟨server, phase⟩
  | lost {i buffer : ℕ} {u server : UploadState} {session : UploadSession} {chunk : List UInt8}
      {a : Answer} {phase : SendPhase} (hphase : s.phase = .sending buffer session chunk)
      (hmeanwhile : u.uploads.get job.id = s.server.uploads.get job.id)
      (hexchange : Exchange job.cfg i job.id job.deviceId session.receivedBytes chunk u server a)
      (hstep : sendStep job.totalBytes s.phase (.patched (.error .network)) = some phase) :
      SendStep job s (.patched (.error .network)) ⟨server, phase⟩
  | uncreated {e : UploadError} {phase : SendPhase}
      (hstep : sendStep job.totalBytes s.phase (.created (.error e)) = some phase) :
      SendStep job s (.created (.error e)) ⟨s.server, phase⟩
  | unreached {phase : SendPhase}
      (hstep : sendStep job.totalBytes s.phase (.patched (.error .network)) = some phase) :
      SendStep job s (.patched (.error .network)) ⟨s.server, phase⟩
  | opened {handle : Option Unit} {phase : SendPhase}
      (hstep : sendStep job.totalBytes s.phase (.opened handle) = some phase) :
      SendStep job s (.opened handle) ⟨s.server, phase⟩
  | aborted {phase : SendPhase}
      (hstep : sendStep job.totalBytes s.phase .aborted = some phase) :
      SendStep job s .aborted ⟨s.server, phase⟩
  | read {bytes : Option (List UInt8)} {phase : SendPhase}
      (hstep : sendStep job.totalBytes s.phase (.read bytes) = some phase) :
      SendStep job s (.read bytes) ⟨s.server, phase⟩

/-- A request is answered with a session, the file opens, and a read finds bytes. -/
def SendInput.succeeds : SendInput → Bool
  | .created answer | .patched answer => answer.isOk
  | .opened handle => handle.isSome
  | .aborted => false
  | .read bytes => bytes.any fun b => b.length ≠ 0

/-- The upload is done, and its session complete on the server. -/
def Delivered (job : SendJob) (s : SendSystem) : Prop :=
  ∃ session row, s.phase = .done session ∧ s.server.uploads.get job.id = some row ∧
    row.status = .complete ∧ session = toDto row

/-- An upload that has not failed: the method has its session as it is on the server, where it is
complete or short of bytes. -/
def Delivering (job : SendJob) (s : SendSystem) : Prop :=
  s.phase = .creating ∨ ∃ row, s.server.uploads.get job.id = some row ∧
    row.total_bytes = job.totalBytes ∧ row.received_bytes ≤ row.total_bytes ∧ Open row ∧
    match s.phase with
    | .opening session => session = toDto row
    | .reading _ session => session = toDto row ∧ row.status = .active
    | .sending _ session chunk => session = toDto row ∧ row.status = .active ∧ chunk.length ≠ 0
    | .done session => session = toDto row ∧ row.status = .complete
    | .creating | .threw _ => False

/-- An upload that has failed, of its own accord or by what it was answered. -/
def Undelivered (s : SendSystem) : Prop :=
  ∃ e, s.phase = .threw e ∧ e ≠ .uncounted

variable {job : SendJob} {s t : SendSystem} {row : UploadRow} {input : SendInput}
  {inputs : List SendInput}

lemma SendStep.client (h : SendStep job s input t) :
    sendStep job.totalBytes s.phase input = some t.phase := by
  cases h with
  | created _ _ _ _ hstep => exact hstep
  | patched _ _ _ hstep | lost _ _ _ hstep => exact hstep
  | uncreated hstep | unreached hstep | opened hstep | aborted hstep | read hstep => exact hstep

/-- The head of the loop, with the session as it is on the server. -/
lemma delivering_loopHead {buffer : ℕ} {server : UploadState}
    (hrow : server.uploads.get job.id = some row) (htotal : row.total_bytes = job.totalBytes)
    (hle : row.received_bytes ≤ row.total_bytes) (hopen : Open row) :
    Delivering job ⟨server, loopHead job.totalBytes buffer (toDto row)⟩ := by
  refine .inr ⟨row, hrow, htotal, hle, hopen, ?_⟩
  rcases hopen with hcomplete | ⟨hactive, hmore⟩
  · have hhead : loopHead job.totalBytes buffer (toDto row) = .done (toDto row) := by
      have hstatus : (toDto row).status = .complete := hcomplete
      simp [loopHead, afterLoop, hstatus]
    rw [hhead]
    exact ⟨rfl, hcomplete⟩
  · have hstatus : (toDto row).status = .active := hactive
    have hless : (toDto row).receivedBytes < job.totalBytes := htotal ▸ hmore
    rw [loopHead, if_pos ⟨hless, hstatus⟩]
    exact ⟨rfl, hactive⟩

/-- An exchange that is not refused moves the session on by at least a byte. -/
lemma counted_of_outcome {r : UploadRow} {len : ℕ} {a : Answer} (hactive : row.status = .active)
    (hmore : row.received_bytes < row.total_bytes) (hlen : len ≠ 0)
    (h : Outcome (toDto row) len (toDto r) a) :
    (∃ f, a = .refused f) ∨ a = .session (toDto r) ∧ row.received_bytes < r.received_bytes ∧
      r.total_bytes = row.total_bytes ∧ r.received_bytes ≤ r.total_bytes ∧ Open r := by
  generalize hd : toDto r = d' at h
  cases h with
  | stopped hge hle => exact .inl ⟨_, rfl⟩
  | appended _ hlt =>
      have hreceived : r.received_bytes = row.received_bytes + len :=
        congrArg UploadSession.receivedBytes hd
      have htotal : r.total_bytes = row.total_bytes := congrArg UploadSession.totalBytes hd
      have hstatus : r.status = .active := (congrArg UploadSession.status hd).trans hactive
      have hless : row.received_bytes + len < row.total_bytes := hlt
      exact .inr ⟨rfl, by omega, htotal, by omega, .inr ⟨hstatus, by omega⟩⟩
  | completed _ =>
      have hreceived : r.received_bytes = row.total_bytes :=
        congrArg UploadSession.receivedBytes hd
      have htotal : r.total_bytes = row.total_bytes := congrArg UploadSession.totalBytes hd
      have hstatus : r.status = .complete := congrArg UploadSession.status hd
      exact .inr ⟨rfl, by omega, htotal, by omega, .inl hstatus⟩

/-- A chunk that was accepted, and counted, keeps the upload going. -/
lemma delivering_patched {i buffer : ℕ} {u server : UploadState} {chunk : List UInt8} {a : Answer}
    {phase : SendPhase} (hrow : s.server.uploads.get job.id = some row)
    (htotal : row.total_bytes = job.totalBytes) (hle : row.received_bytes ≤ row.total_bytes)
    (hopen : Open row) (hactive : row.status = .active) (hlen : chunk.length ≠ 0)
    (hmeanwhile : u.uploads.get job.id = s.server.uploads.get job.id)
    (hexchange : Exchange job.cfg i job.id job.deviceId (toDto row).receivedBytes chunk u server a)
    (hok : (resultOf a).isOk = true)
    (hstep : sendStep job.totalBytes (.sending buffer (toDto row) chunk) (.patched (resultOf a))
      = some phase) : Delivering job ⟨server, phase⟩ := by
  have hid : row.id = job.id := Table.key_of_get hrow
  have hu : u.uploads.get row.id = some row := by rw [hid, hmeanwhile, hrow]
  have hmore : row.received_bytes < row.total_bytes := by
    rcases hopen with hcomplete | ⟨-, hmore⟩
    · cases hactive.symm.trans hcomplete
    · exact hmore
  rw [← hid] at hexchange
  obtain ⟨r, hr, hout, -⟩ := exchange_outcome hexchange hu hle
  rcases counted_of_outcome hactive hmore hlen hout with
    ⟨f, rfl⟩ | ⟨rfl, hcounted, hsame, hfits, ho⟩
  · cases hok
  · have hmoved : ¬ (toDto r).receivedBytes ≤ (toDto row).receivedBytes := Nat.not_le.mpr hcounted
    simp only [resultOf, sendStep, if_neg hmoved, Option.some.injEq] at hstep
    subst hstep
    exact delivering_loopHead (hid ▸ hr) (hsame.trans htotal) hfits ho

/-- **One input that succeeds** keeps the upload going. -/
lemma delivering_step (h : Delivering job s) (hstep : SendStep job s input t)
    (hok : input.succeeds = true) : Delivering job t := by
  obtain ⟨server, p⟩ := s
  cases hstep with
  | @created server row phase hrow htotal hle hopen hstep =>
      cases p with
      | creating =>
          obtain rfl := Option.some.inj hstep
          exact .inr ⟨row, hrow, htotal, hle, hopen, rfl⟩
      | opening d | reading n d | sending n d chunk | done d | threw e => cases hstep
  | @patched i buffer u server session chunk a phase hphase hmeanwhile hexchange hstep =>
      cases hphase
      rcases h with h | ⟨row, hrow, htotal, hle, hopen, rfl, hactive, hlen⟩
      · cases h
      · exact delivering_patched hrow htotal hle hopen hactive hlen hmeanwhile hexchange hok hstep
  | lost hphase hmeanwhile hexchange hstep => cases hok
  | uncreated hstep | unreached hstep | aborted hstep => cases hok
  | @opened handle phase hstep =>
      cases p with
      | opening session =>
          rcases h with h | ⟨row, hrow, htotal, hle, hopen, rfl⟩
          · cases h
          · cases handle with
            | none => cases hok
            | some handle =>
                obtain rfl := Option.some.inj hstep
                exact delivering_loopHead hrow htotal hle hopen
      | creating | reading n d | sending n d chunk | done d | threw e => cases hstep
  | @read bytes phase hstep =>
      cases p with
      | reading n session =>
          rcases h with h | ⟨row, hrow, htotal, hle, hopen, rfl, hactive⟩
          · cases h
          · cases bytes with
            | none => cases hok
            | some bytes =>
                have hlen : bytes.length ≠ 0 := of_decide_eq_true hok
                simp only [sendStep, if_neg hlen] at hstep
                split_ifs at hstep
                obtain rfl := Option.some.inj hstep
                exact .inr ⟨row, hrow, htotal, hle, hopen, rfl, hactive, hlen⟩
      | creating | opening d | sending n d chunk | done d | threw e => cases hstep

/-- **One input that fails** ends the upload. -/
lemma undelivered_step (h : Delivering job s) (hstep : SendStep job s input t)
    (hfails : input.succeeds = false) : Undelivered t := by
  have hclient := hstep.client
  obtain ⟨server, p⟩ := s
  cases input with
  | created answer =>
      cases answer with
      | ok session => cases hfails
      | error e =>
          cases p with
          | creating => exact ⟨.request e, (Option.some.inj hclient).symm, by simp⟩
          | opening d | reading n d | sending n d chunk | done d | threw e => cases hclient
  | opened handle =>
      cases handle with
      | some handle => cases hfails
      | none =>
          cases p with
          | opening session => exact ⟨.unreadable, (Option.some.inj hclient).symm, by simp⟩
          | creating | reading n d | sending n d chunk | done d | threw e => cases hclient
  | aborted =>
      cases p with
      | reading n d => exact ⟨.cancelled, (Option.some.inj hclient).symm, by simp⟩
      | creating | opening d | sending n d chunk | done d | threw e => cases hclient
  | read bytes =>
      cases p with
      | reading n session =>
          cases bytes with
          | none => exact ⟨.unreadable, (Option.some.inj hclient).symm, by simp⟩
          | some bytes =>
              -- the file is shorter than its session
              have hlen : bytes.length = 0 := by simpa [SendInput.succeeds] using hfails
              rcases h with h | ⟨row, -, -, -, -, rfl, hactive⟩
              · cases h
              · have hstatus : (toDto row).status ≠ .complete := by
                  rw [show (toDto row).status = .active from hactive]
                  decide
                simp only [sendStep, if_pos hlen, afterLoop, if_pos hstatus] at hclient
                split_ifs at hclient
                exact ⟨.incomplete, (Option.some.inj hclient).symm, by simp⟩
      | creating | opening d | sending n d chunk | done d | threw e => cases hclient
  | patched answer =>
      cases answer with
      | ok session => cases hfails
      | error e =>
          cases p with
          | sending n d chunk => exact ⟨.request e, (Option.some.inj hclient).symm, by simp⟩
          | creating | opening d | reading n d | done d | threw e => cases hclient

/-- Nothing comes after the end. -/
lemma no_sendStep_of_over (hover : s.phase.over = true) : ¬ SendStep job s input t := by
  intro hstep
  have hclient := hstep.client
  cases hp : s.phase with
  | done d | threw e =>
      rw [hp] at hclient
      cases input <;> cases hclient
  | creating | opening d | reading n d | sending n d chunk =>
      rw [hp] at hover
      cases hover

lemma delivered_of_over (h : Delivering job s) (hover : s.phase.over = true) : Delivered job s := by
  obtain ⟨server, p⟩ := s
  cases p with
  | done session =>
      rcases h with h | ⟨row, hrow, -, -, -, hsession, hcomplete⟩
      · cases h
      · exact ⟨session, row, rfl, hrow, hcomplete, hsession⟩
  | threw e =>
      rcases h with h | ⟨row, -, -, -, -, hfalse⟩
      · cases h
      · exact hfalse.elim
  | creating | opening d | reading n d | sending n d chunk => cases hover

/-- **An upload of the desktop client** ends after a bounded number of inputs and never waits for
nothing; the service counts every chunk it accepts; and the upload is done exactly where no
request was refused or lost, no read came up short and nobody aborted it, with its session
complete on the server. -/
theorem send_settles (hcreating : s.phase = .creating) (hrun : Run (SendStep job) s inputs t) :
    inputs.length ≤ 2 * job.totalBytes + 2 ∧
      (t.phase.over = false → ∃ input u, SendStep job t input u) ∧
      t.phase ≠ .threw .uncounted ∧
      (t.phase.over = true →
        (Delivered job t ↔ ∀ input ∈ inputs, input.succeeds = true)) := by
  have hkeep : ∀ s input t, Delivering job s → SendStep job s input t →
      input.succeeds = true → Delivering job t :=
    fun _ _ _ h hstep hok => delivering_step h hstep hok
  have hmiss : ∀ s input t, Delivering job s → SendStep job s input t →
      ¬ input.succeeds = true → Undelivered t :=
    fun _ _ _ h hstep hfails => undelivered_step h hstep (Bool.not_eq_true _ ▸ hfails)
  have habsorb : ∀ s input t, Undelivered s → SendStep job s input t → Undelivered t := by
    rintro s input t ⟨e, he, -⟩ hstep
    exact absurd hstep (no_sendStep_of_over (by rw [he]; rfl))
  refine ⟨?_, fun hover => ?_, fun hstuck => ?_, fun hover => ?_⟩
  · have hlength := hrun.length_le (I := fun s => s.phase.Missing job.totalBytes)
      (μ := fun s => sendLoad job.totalBytes s.phase)
      (fun _ _ _ h hstep => (sendLoad_step h hstep.client).1)
      (fun _ _ _ h hstep => (sendLoad_step h hstep.client).2) (by rw [hcreating]; trivial)
    rwa [hcreating] at hlength
  · cases hp : t.phase with
    | creating => exact ⟨_, _, .uncreated (e := .network) (by rw [hp]; rfl)⟩
    | opening d => exact ⟨.opened none, _, .opened (by rw [hp]; rfl)⟩
    | reading n d => exact ⟨_, _, .aborted (by rw [hp]; rfl)⟩
    | sending n d chunk => exact ⟨_, _, .unreached (by rw [hp]; rfl)⟩
    | done d | threw e => simp [hp, SendPhase.over] at hover
  · have hone : Delivering job t ∨ Undelivered t := by
      refine hrun.invariant (I := fun s => Delivering job s ∨ Undelivered s) ?_
        (.inl (.inl hcreating))
      rintro s input t (h | h) hstep
      · cases hok : input.succeeds with
        | true => exact .inl (hkeep s input t h hstep hok)
        | false => exact .inr (undelivered_step h hstep hok)
      · exact .inr (habsorb s input t h hstep)
    rcases hone with h | ⟨e, he, hne⟩
    · obtain ⟨d, row, hdone, -⟩ := delivered_of_over h (by rw [hstuck]; rfl)
      cases hdone.symm.trans hstuck
    · exact hne (SendPhase.threw.inj (he.symm.trans hstuck))
  · rw [← hrun.within_iff_forall (G := fun input => input.succeeds = true)]
    refine hrun.within_iff (I := Delivering job) (B := Undelivered)
      (D := fun s => s.phase.over = true) hkeep hmiss habsorb
      (fun _ h hover => delivered_of_over h hover) ?_ (.inl hcreating) hover
    rintro s ⟨e, he, -⟩ ⟨d, row, hdone, -⟩
    cases hdone.symm.trans he

/-- Three bytes in one chunk. -/
theorem send_settles_three : ∃ t,
    Run (SendStep ⟨plainConfig, js "1", js "d", 3⟩) ⟨.init plainStore .empty, .creating⟩
      [.created (.ok (threeSession 0 .active)), .opened (some ()), .read (some [1, 2, 3]),
        .patched (.ok (threeSession 3 .complete))] t ∧
    Delivered ⟨plainConfig, js "1", js "d", 3⟩ t := by
  obtain ⟨server, hexchange, -⟩ : ∃ server, Exchange plainConfig 0 (js "1") (js "d") 0 [1, 2, 3]
      createdServer server (.session (threeSession 3 .complete)) ∧ (true : Bool) = true :=
    exists_exchange_of_exec
      [.openedTemp 0 false, .chunk 0 [1, 2, 3] 3 false, .closed 0 false 2,
        .resolved 0 (.ok (js "/m/a.jpg")), .madeDir 0 false, .reserved 0 false, .renamed 0 false]
      (.recorded 0 9) (fun _ => true) rfl rfl rfl (by decide +kernel)
  obtain ⟨row, hrow, hdto⟩ := row_of_showsAs
    (show showsAs (threeSession 0 .active) createdServer = true by decide +kernel)
  have htotal : row.total_bytes = 3 := congrArg UploadSession.totalBytes hdto
  have hreceived : row.received_bytes = 0 := congrArg UploadSession.receivedBytes hdto
  have hactive : row.status = .active := congrArg UploadSession.status hdto
  have hcreates : SendStep ⟨plainConfig, js "1", js "d", 3⟩ ⟨.init plainStore .empty, .creating⟩
      (.created (.ok (toDto row))) ⟨createdServer, .opening (toDto row)⟩ :=
    .created hrow htotal (by omega) (.inr ⟨hactive, by omega⟩) rfl
  rw [hdto] at hcreates
  have hpatches : SendStep ⟨plainConfig, js "1", js "d", 3⟩
      ⟨createdServer, .sending 8 (threeSession 0 .active) [1, 2, 3]⟩
      (.patched (resultOf (.session (threeSession 3 .complete))))
      ⟨server, .done (threeSession 3 .complete)⟩ :=
    .patched rfl rfl hexchange rfl
  have hrun : Run (SendStep ⟨plainConfig, js "1", js "d", 3⟩)
      ⟨.init plainStore .empty, .creating⟩
      [.created (.ok (threeSession 0 .active)), .opened (some ()), .read (some [1, 2, 3]),
        .patched (.ok (threeSession 3 .complete))] ⟨server, .done (threeSession 3 .complete)⟩ :=
    .cons hcreates (.cons (.opened rfl) (.cons (.read rfl) (.single hpatches)))
  refine ⟨_, hrun, ((send_settles rfl hrun).2.2.2 rfl).mpr ?_⟩
  simp [SendInput.succeeds, Except.isOk, Except.toBool]

end LocalCast.Uploads
