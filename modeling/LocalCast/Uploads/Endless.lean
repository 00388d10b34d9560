import LocalCast.Uploads.Uploader

/-!
Whether an upload of the phone comes to its end, for a picked file that need not be as long as
its session.

* `Terminates`: no infinite run of requests, and an accepted `PATCH` that leaves the session
  where it stood ends the upload with an error.
* `covers`: the condition. Where bytes are missing, the file has them and the chunks are not
  empty.
* `upload_bounded`: under it the requests of an upload are bounded.
* `exists_empty_patch`, `endless_of_short`: without it the server accepts chunk after chunk and
  the last ones are empty.
* `terminates_iff`: an upload terminates exactly under the condition.
-/

namespace LocalCast.Uploads

open JsString Contract Db Auth Library Runs

/-! ### The property -/

/-- The server accepted a `PATCH` and left the session where the client thought it was. -/
def UploadEvent.stands (session : UploadSession) : UploadEvent → Bool
  | .patched (.session dto) false _ => dto.receivedBytes ≤ session.receivedBytes
  | _ => false

/-- An upload that goes on from `s` comes to its end whatever happens, and is not kept going by
answers that leave it where it is. -/
structure Terminates (job : UploadJob) (s : UploadSystem) : Prop where
  finite : ¬ Endless (UploadStep job) s
  stuck : ∀ events t e u session attempt, Run (UploadStep job) s events t →
    UploadStep job t e u → t.phase = .sending session attempt → e.stands session = true →
      ∃ error, u.phase = .threw error

/-- Where bytes of the session are missing, the file has them and the chunks carry some. -/
def covers (file : List UInt8) (session : UploadSession) : Bool :=
  session.status ≠ .active || session.totalBytes ≤ session.receivedBytes
    || session.totalBytes ≤ file.length && 0 < session.chunkSize

/-! ### A file that covers its session -/

/-- The same upload of the first `n` bytes. -/
def UploadJob.take (job : UploadJob) (n : ℕ) : UploadJob := { job with file := job.file.take n }

section Covered

variable {job : UploadJob} {s t : UploadSystem} {row : UploadRow} {d : UploadSession} {n : ℕ}

/-- The chunks of a session lie within its total. -/
lemma chunkOf_take (file : List UInt8) (htotal : d.totalBytes = n) :
    chunkOf (file.take n) d = chunkOf file d := by
  rw [chunkOf, chunkOf, htotal, List.drop_take, List.take_take]
  congr 1
  omega

lemma continueWith_ne_opening {attempt : ℕ} : continueWith d attempt ≠ .opening := by
  rw [continueWith]
  split_ifs <;> simp

lemma afterPatch_ne_opening {attempt maxAttempts : ℕ} {a : Except UploadError UploadSession} :
    afterPatch maxAttempts d attempt a ≠ .opening := by
  cases a with
  | ok session => exact continueWith_ne_opening
  | error e =>
      rw [afterPatch]
      split_ifs <;> simp

/-- An upload under way that is sound for the first bytes of the file sends these only. -/
lemma step_take {e : UploadEvent} (hn : n ≤ job.file.length) (hs : Sound (job.take n) s)
    (hphase : s.phase ≠ .opening) (hstep : UploadStep job s e t) :
    UploadStep (job.take n) s e t ∧ t.phase ≠ .opening := by
  have hlength : (job.take n).file.length = n := List.length_take_of_le hn
  have hchunk {session : UploadSession} {attempt : ℕ} (hp : s.phase = .sending session attempt) :
      chunkOf (job.take n).file session = chunkOf job.file session := by
    obtain ⟨row, -, -, hunder⟩ := hs.of_sending hp
    exact chunkOf_take job.file (hunder.2.2.1.trans hlength)
  cases hstep with
  | opened hp => exact absurd hp hphase
  | unopened hp => exact absurd hp hphase
  | @patched i u server session attempt a lost hp hmeanwhile hexchange =>
      rw [← hchunk hp] at hexchange
      exact ⟨.patched hp hmeanwhile hexchange, afterPatch_ne_opening⟩
  | @unreached session attempt hp =>
      rw [← hchunk hp]
      refine ⟨.unreached hp, ?_⟩
      dsimp only
      exact afterPatch_ne_opening
  | late hover hlate hmeanwhile hexchange =>
      exact ⟨.late hover hlate hmeanwhile hexchange, hphase⟩
  | reread hp hmeanwhile hrow => exact ⟨.reread hp hmeanwhile hrow, continueWith_ne_opening⟩
  | unread hp => exact ⟨.unread hp, by simp [afterReread]⟩

/-- What holds along an upload whose session has `n` bytes of the file. -/
def OnlyFirst (job : UploadJob) (n : ℕ) (s : UploadSystem) : Prop :=
  Sound (job.take n) s ∧ s.phase ≠ .opening

lemma onlyFirst_step {e : UploadEvent} (hn : n ≤ job.file.length) (hs : OnlyFirst job n s)
    (hstep : UploadStep job s e t) :
    OnlyFirst job n t ∧ load (job.take n) t < load (job.take n) s := by
  obtain ⟨hstep', hphase⟩ := step_take hn hs.1 hs.2 hstep
  obtain ⟨hsound, hload⟩ := sound_step hs.1 hstep'
  exact ⟨⟨hsound, hphase⟩, hload⟩

/-- The upload goes on with the session it was answered. -/
structure Opened (job : UploadJob) (row : UploadRow) (s : UploadSystem) : Prop where
  session : s.server.uploads.get job.id = some row
  phase : s.phase = continueWith (toDto row) 0
  late : s.late = []

lemma onlyFirst_of_opened (h : Opened job row s) (hmore : row.received_bytes < row.total_bytes)
    (hfile : row.total_bytes ≤ job.file.length) (hchunk : 0 < row.chunk_size) :
    OnlyFirst job row.total_bytes s := by
  have hlength : (job.take row.total_bytes).file.length = row.total_bytes :=
    List.length_take_of_le hfile
  have hof : OfFile (job.take row.total_bytes) row := ⟨hlength.symm, hchunk, hmore.le⟩
  have hunder := (underway_continueWith hof (Nat.zero_le (job.take row.total_bytes).maxAttempts)).1
  refine ⟨⟨.inr (.inr ⟨row, h.session, hof, ?_⟩), by simp [h.late]⟩, ?_⟩
  · rw [h.phase]
    exact hunder
  · rw [h.phase]
    exact continueWith_ne_opening

/-- An upload that is over sends nothing more. -/
lemma no_step_of_over {e : UploadEvent} (hover : s.phase.over = true) :
    ¬ UploadStep job s e t := by
  intro hstep
  cases hstep with
  | opened hp | unopened hp | patched hp | unreached hp | reread hp | unread hp =>
      rw [hp] at hover
      cases hover
  | late hp => exact absurd hover (by simp [hp])

/-- The condition fails of no upload that is under way for good, and holds of one that has
nothing to send. -/
lemma covers_cases (h : Opened job row s) (hcovers : covers job.file (toDto row) = true) :
    s.phase.over = true ∨ row.received_bytes < row.total_bytes ∧
      row.total_bytes ≤ job.file.length ∧ 0 < row.chunk_size := by
  have hphase := h.phase
  rw [continueWith] at hphase
  split_ifs at hphase with hmore
  · simp only [covers, Bool.or_eq_true, Bool.and_eq_true, decide_eq_true_eq] at hcovers
    rcases hcovers with (hstatus | hle) | hok
    · exact absurd hmore.1 hstatus
    · exact absurd hmore.2 (not_lt.mpr hle)
    · exact .inr ⟨hmore.2, hok⟩
  · exact .inl (by rw [hphase]; rfl)

/-- **Under the condition the requests of an upload are bounded** by the bytes that were missing. -/
theorem upload_bounded {events : List UploadEvent} (h : Opened job row s)
    (hcovers : covers job.file (toDto row) = true) (hrun : Run (UploadStep job) s events t) :
    events.length ≤ 4 * (job.maxAttempts + 1) * (row.total_bytes - row.received_bytes + 1) := by
  rcases covers_cases h hcovers with hover | ⟨hmore, hfile, hchunk⟩
  · cases hrun with
    | nil => exact Nat.zero_le _
    | cons hstep => exact absurd hstep (no_step_of_over hover)
  · have hlength : (job.take row.total_bytes).file.length = row.total_bytes :=
      List.length_take_of_le hfile
    have hle := hrun.length_le (I := OnlyFirst job row.total_bytes)
      (fun _ _ _ hs hstep => (onlyFirst_step hfile hs hstep).1)
      (fun _ _ _ hs hstep => (onlyFirst_step hfile hs hstep).2)
      (onlyFirst_of_opened h hmore hfile hchunk)
    have hof : OfFile (job.take row.total_bytes) row := ⟨hlength.symm, hchunk, hmore.le⟩
    have hload := (underway_continueWith hof
      (Nat.zero_le (job.take row.total_bytes).maxAttempts)).2
    rw [← h.phase, hlength] at hload
    calc events.length ≤ load (job.take row.total_bytes) s := hle
      _ = 2 * phaseLoad (job.take row.total_bytes) s.phase := by simp [load, h.late]
      _ ≤ 2 * (2 * (job.maxAttempts + 1) * (row.total_bytes - row.received_bytes)
            + 2 * (job.maxAttempts + 1)) := Nat.mul_le_mul_left 2 hload
      _ = 4 * (job.maxAttempts + 1) * (row.total_bytes - row.received_bytes + 1) := by ring

/-- An accepted chunk of a file that has the bytes moves the session on. -/
lemma not_stands {e : UploadEvent} {attempt : ℕ} (hn : n ≤ job.file.length)
    (hs : OnlyFirst job n s) (hstep : UploadStep job s e t)
    (hphase : s.phase = .sending d attempt) : e.stands d = false := by
  obtain ⟨hstep', -⟩ := step_take hn hs.1 hs.2 hstep
  cases hstep' with
  | opened hp => exact absurd hp hs.2
  | unopened hp => exact absurd hp hs.2
  | @patched i u server session attempt' a lost hp hmeanwhile hexchange =>
      obtain ⟨rfl, -⟩ := UploaderPhase.sending.inj (hphase.symm.trans hp)
      obtain ⟨row, hrow, hfile, -, hmore, htotal, hchunk, -, -⟩ := hs.1.of_sending hphase
      obtain ⟨r, hr, -, -, hout, hoffset⟩ := exchange_ofFile hrow hfile hmeanwhile hexchange
      have hlen := length_chunkOf_pos htotal hmore hchunk
      generalize hdto : toDto r = d' at hout
      cases hout with
      | stopped _ _ => rfl
      | appended _ hlt =>
          have heq : d.receivedBytes = row.received_bytes := hoffset.resolve_left (by simp)
          cases lost with
          | true => rfl
          | false =>
              rw [UploadEvent.stands, decide_eq_false_iff_not, heq]
              exact not_le.mpr (Nat.lt_add_of_pos_right hlen)
      | completed _ =>
          cases lost with
          | true => rfl
          | false =>
              rw [UploadEvent.stands, decide_eq_false_iff_not]
              have htotal' : (toDto row).totalBytes = d.totalBytes :=
                hfile.total.trans htotal.symm
              dsimp only
              omega
  | unreached hp => rfl
  | late hover => rfl
  | reread hp => rfl
  | unread hp => rfl

/-- Under the condition an upload terminates. -/
lemma terminates_of_covers (h : Opened job row s)
    (hcovers : covers job.file (toDto row) = true) : Terminates job s := by
  rcases covers_cases h hcovers with hover | ⟨hmore, hfile, hchunk⟩
  · refine ⟨?_, fun events t e u session attempt hrun hstep => ?_⟩
    · rintro ⟨f, rfl, hf⟩
      obtain ⟨e, he⟩ := hf 0
      exact no_step_of_over hover he
    · cases hrun with
      | nil => exact absurd hstep (no_step_of_over hover)
      | cons hstep' => exact absurd hstep' (no_step_of_over hover)
  · have hfirst := onlyFirst_of_opened h hmore hfile hchunk
    refine ⟨not_endless (μ := load (job.take row.total_bytes))
      (fun _ _ _ hs hstep => (onlyFirst_step hfile hs hstep).1)
      (fun _ _ _ hs hstep => (onlyFirst_step hfile hs hstep).2) hfirst,
      fun events t e u session attempt hrun hstep hphase hstands => ?_⟩
    have ht := hrun.invariant (I := OnlyFirst job row.total_bytes)
      (fun _ _ _ hs hstep => (onlyFirst_step hfile hs hstep).1) hfirst
    rw [not_stands hfile ht hstep hphase] at hstands
    cases hstands

end Covered

/-! ### A file that is too short -/

section Short

variable {job : UploadJob} {s t : UploadSystem} {row : UploadRow}

/-- The chunk is taken in whole. -/
lemma exists_chunk_step (cfg : UploadConfig) {w : UploadState} {inode : ℕ} {chunk : List UInt8}
    (hcall : w.calls 0 = some (.writing row inode row.received_bytes false false))
    (hle : row.received_bytes + chunk.length ≤ row.total_bytes) :
    ∃ v, step cfg w (.chunk 0 chunk chunk.length false) = some v ∧ v.uploads = w.uploads ∧
      v.calls 0 = some (.writing row inode (row.received_bytes + chunk.length) false false) := by
  by_cases hempty : chunk = []
  · subst hempty
    exact ⟨w, by simp [step, hcall], rfl, hcall⟩
  · have hfits : ¬ (false = true ∨ row.received_bytes + chunk.length > row.total_bytes) := by
      rintro (h | h)
      · cases h
      · exact absurd hle (not_le.mpr h)
    simp only [step, hcall]
    rw [if_neg hempty, if_neg hfits]
    exact ⟨_, rfl, rfl, calls_goOn _ 0 _⟩

/-- The body is over and more is missing: the session is answered as it is now. -/
lemma exists_closed_step (cfg : UploadConfig) {w : UploadState} {inode received : ℕ}
    (hrow : w.uploads.get row.id = some row)
    (hcall : w.calls 0 = some (.writing row inode received false false))
    (hlt : received < row.total_bytes) :
    ∃ v r, step cfg w (.closed 0 false 0) = some v ∧ Settles 0 w v (.session (toDto r)) ∧
      v.uploads.get row.id = some r ∧ r.device_id = row.device_id ∧
      toDto r = { toDto row with receivedBytes := received } := by
  obtain ⟨r, hr, -, hdevice, hdto⟩ := persisted_row hrow received 0
  obtain ⟨-, hanswers⟩ := persisted_rest w row received 0
  obtain ⟨u, hu⟩ : ∃ u, u = if received ≠ row.received_bytes
      then persistReceived w row.id received 0 else w := ⟨_, rfl⟩
  rw [← hu] at hr hanswers
  have hrequire : require u row.id row.device_id = .ok r := by
    rw [require, hr]
    exact if_pos hdevice
  have hreceived : r.received_bytes = received := congrArg UploadSession.receivedBytes hdto
  have htotal : r.total_bytes = row.total_bytes := congrArg UploadSession.totalBytes hdto
  have hmore : ¬ r.received_bytes ≥ r.total_bytes := by omega
  have hend : appendEnd w 0 row received false false 0 = u.answer 0 (.session (toDto r)) := by
    rw [appendEnd, ← hu]
    simp only [Bool.false_eq_true, if_false, hrequire]
    rw [if_neg hmore]
  refine ⟨u.answer 0 (.session (toDto r)), r, ?_, ⟨rfl, ?_⟩, hr, hdevice, hdto⟩
  · simp only [step, hcall, Bool.or_false, hend]
  · exact congrArg (_ :: ·) hanswers

/-- An append on its own: the whole chunk arrives, and more is missing. -/
lemma exists_accepted {server : UploadState} {chunk : List UInt8}
    (hrow : server.uploads.get job.id = some row) (hdevice : row.device_id = job.deviceId)
    (hactive : row.status = .active) (hlt : row.received_bytes + chunk.length < row.total_bytes) :
    ∃ u v r, Meanwhile job server u ∧
      Exchange job.cfg 0 job.id job.deviceId row.received_bytes chunk u v (.session (toDto r)) ∧
      v.uploads.get job.id = some r ∧ r.device_id = row.device_id ∧
      toDto r = { toDto row with receivedBytes := row.received_bytes + chunk.length } := by
  have hid : row.id = job.id := Table.key_of_get hrow
  obtain ⟨inode, hname, -⟩ := server.disk.exists_truncate row.temp_path
  -- the server with the temp file of the session, and nothing else under way
  let u : UploadState := { server with
    calls := fun _ => none
    disk := server.disk.truncate row.temp_path }
  have hcheck : appendCheck u job.id job.deviceId row.received_bytes (some chunk.length)
      = .ok row := by
    have hrequire : require u job.id job.deviceId = .ok row := by
      rw [require, show u.uploads.get job.id = some row from hrow]
      exact if_pos hdevice
    have hfits : ¬ (row.received_bytes + chunk.length > row.total_bytes) := by omega
    rw [appendCheck, hrequire]
    simp [hactive, hfits]
  have hbegin : step job.cfg u
      (.append 0 job.id job.deviceId row.received_bytes (some chunk.length))
        = some (u.goOn 0 (.appending row)) := by
    simp only [step, hcheck, u]
  have hopens : step job.cfg (u.goOn 0 (.appending row)) (.openedTemp 0 false) = some
      ((u.goOn 0 (.appending row)).goOn 0
        (.writing row inode row.received_bytes false false)) := by
    have hname' : (u.goOn 0 (.appending row)).disk.names row.temp_path = some inode := hname
    simp only [step, calls_goOn, hname']
  obtain ⟨w, hchunk, huploads, hcall⟩ := exists_chunk_step job.cfg
    (calls_goOn (u.goOn 0 (.appending row)) 0
      (.writing row inode row.received_bytes false false)) hlt.le
  have hroww : w.uploads.get row.id = some row := by
    rw [huploads, hid]
    exact hrow
  obtain ⟨v, r, hcloses, hsettles, hr, hdevice', hdto⟩ := exists_closed_step job.cfg hroww
    hcall hlt
  rw [hid] at hr
  refine ⟨u, v, r, rfl, ?_, hr, hdevice', hdto⟩
  refine .served rfl hbegin ?_
    (.cons (.own rfl hopens) (.single (.own rfl hchunk))) rfl hcloses hsettles ?_ ?_
  · rw [calls_goOn]
    simp
  · simp [bodyOf, Action.data]
  · intro _ _
    simp [bodyOf, Action.data]

/-- The client has the session as it is, and the file ends before it or the chunks are empty. -/
def OutOfBytes (job : UploadJob) (s : UploadSystem) : Prop :=
  ∃ row attempt, s.server.uploads.get job.id = some row ∧ row.device_id = job.deviceId ∧
    row.status = .active ∧ row.received_bytes < row.total_bytes ∧
    (job.file.length < row.total_bytes ∨ row.chunk_size = 0) ∧
    s.phase = .sending (toDto row) attempt

/-- A chunk never gets the session to its end. -/
lemma length_chunkOf_lt {d : UploadSession} (hmore : d.receivedBytes < d.totalBytes)
    (hshort : job.file.length < d.totalBytes ∨ d.chunkSize = 0) :
    d.receivedBytes + (chunkOf job.file d).length < d.totalBytes := by
  rw [chunkOf, List.length_take, List.length_drop]
  omega

/-- The server accepts one more chunk, and the client is as far from the end as before. -/
lemma outOfBytes_step (h : OutOfBytes job s) : ∃ e t, UploadStep job s e t ∧ OutOfBytes job t := by
  obtain ⟨row, attempt, hrow, hdevice, hactive, hmore, hshort, hphase⟩ := h
  have hlt : row.received_bytes + (chunkOf job.file (toDto row)).length < row.total_bytes :=
    length_chunkOf_lt (d := toDto row) hmore hshort
  obtain ⟨u, v, r, hmeanwhile, hexchange, hr, hdevice', hdto⟩ :=
    exists_accepted hrow hdevice hactive hlt
  have hstatus : (toDto r).status = .active := by
    rw [hdto]
    exact hactive
  have hmore' : (toDto r).receivedBytes < (toDto r).totalBytes := by
    rw [hdto]
    exact hlt
  have htotal : r.total_bytes = row.total_bytes := congrArg UploadSession.totalBytes hdto
  have hsize : r.chunk_size = row.chunk_size := congrArg UploadSession.chunkSize hdto
  have hnext : afterPatch job.maxAttempts (toDto row) attempt (resultOf (.session (toDto r)))
      = .sending (toDto r) 0 := by
    rw [resultOf, afterPatch, continueWith, if_pos ⟨hstatus, hmore'⟩]
  have hstep : UploadStep job s (.patched (.session (toDto r)) false (stranded job v))
      { s with
        server := v
        phase := afterPatch job.maxAttempts (toDto row) attempt
          (if false then .error .network else resultOf (.session (toDto r))) } :=
    .patched hphase hmeanwhile hexchange
  refine ⟨_, _, hstep, r, 0, hr, hdevice'.trans hdevice, hstatus, hmore', ?_, hnext⟩
  rw [htotal, hsize]
  exact hshort

/-- An upload of a file that is too short goes on for ever. -/
lemma endless_of_not_covers (h : Opened job row s) (hdevice : row.device_id = job.deviceId)
    (hcovers : covers job.file (toDto row) = false) : Endless (UploadStep job) s := by
  simp only [covers, Bool.or_eq_false_iff, Bool.and_eq_false_iff, decide_eq_false_iff_not,
    ne_eq, not_not, not_le, not_lt, Nat.le_zero] at hcovers
  obtain ⟨⟨hactive, hmore⟩, hshort⟩ := hcovers
  refine .of_step (I := OutOfBytes job) (fun _ hs => outOfBytes_step hs)
    ⟨row, 0, h.session, hdevice, hactive, hmore, hshort, ?_⟩
  rw [h.phase, continueWith, if_pos ⟨hactive, hmore⟩]

/-- **An upload terminates exactly when** its session has no bytes missing, or the file has all of
them and the server's chunks are not empty. -/
theorem terminates_iff (h : Opened job row s) (hdevice : row.device_id = job.deviceId) :
    Terminates job s ↔ covers job.file (toDto row) = true := by
  constructor
  · intro hends
    by_contra hno
    rw [Bool.not_eq_true] at hno
    exact hends.finite (endless_of_not_covers h hdevice hno)
  · exact terminates_of_covers h

end Short

/-! ### A file that lost its last byte -/

/-- The session of the three bytes of a file of which one is gone. -/
def twoBytes : UploadJob := ⟨plainConfig, js "1", js "d", [1, 2], 4⟩

/-- The row of session `1`. -/
lemma created_row : ∃ row, createdServer.uploads.get (js "1") = some row ∧
    toDto row = threeSession 0 .active ∧ row.device_id = js "d" := by
  obtain ⟨row, hrow, h⟩ := (Option.any_eq_true _ _).mp
    (show (createdServer.uploads.get (js "1")).any (fun row =>
      toDto row = threeSession 0 .active && row.device_id = js "d") = true by decide +kernel)
  rw [Bool.and_eq_true] at h
  exact ⟨row, hrow, of_decide_eq_true h.1, of_decide_eq_true h.2⟩

/-- The upload of the whole file comes to its end. -/
theorem three_bytes_terminate : ∃ s : UploadSystem,
    s.phase = .sending (threeSession 0 .active) 0 ∧ Terminates threeBytes s := by
  obtain ⟨row, hrow, hdto, hdevice⟩ := created_row
  refine ⟨⟨createdServer, continueWith (toDto row) 0, []⟩, by rw [hdto]; rfl, ?_⟩
  refine (terminates_iff ⟨hrow, rfl, rfl⟩ hdevice).mpr ?_
  rw [hdto]
  decide

/-- **The upload of a file that became shorter never ends.** -/
theorem two_bytes_endless : ¬ ∀ (job : UploadJob) (s : UploadSystem) (row : UploadRow),
    Opened job row s → row.device_id = job.deviceId → Terminates job s := by
  intro h
  obtain ⟨row, hrow, hdto, hdevice⟩ := created_row
  have hopened : Opened twoBytes row ⟨createdServer, continueWith (toDto row) 0, []⟩ :=
    ⟨hrow, rfl, rfl⟩
  refine (h twoBytes _ row hopened hdevice).finite (endless_of_not_covers hopened hdevice ?_)
  rw [hdto]
  decide

end LocalCast.Uploads
