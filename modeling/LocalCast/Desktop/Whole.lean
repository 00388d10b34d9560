import LocalCast.Desktop.Downloads

/-!
What a finished download is: exactly one version of the server's file.

* `AnswerShape`, `answerFor_shape`: the four answers `serveFile` gives to the client's request.
* `unspliced`: the condition. Every stretch the server reads carries on, with the bytes the
  client has by then, one version of the file.
* `Sound`, `sound_step`: the partial file begins a version, and what is under way carries it on.
* `download_whole`: a run of such steps leaves only whole versions at the destination.
* `splice`: a film replaced while the job is paused.
-/

namespace LocalCast.Desktop

open JsString JsNumber Contract Http Runs

/-! ### The answers -/

/-- The answers to a request from `offset` on for a file of `size` bytes. -/
inductive AnswerShape (size offset : ℕ) : Except Refusal Response → Prop
  | refused {refusal : Refusal} (h : refusal.error.status ≠ 416) :
      AnswerShape size offset (.error refusal)
  | beyond {refusal : Refusal} (h : refusal.error.status = 416)
      (hrange : refusal.contentRange = some (unsatisfiedRange size)) :
      AnswerShape size offset (.error refusal)
  | whole {r : Response} (hoffset : offset = 0) (hstatus : r.status = 200)
      (hrange : r.contentRange = none) (hlength : r.contentLength = size)
      (hbody : r.body = if size = 0 then none else some (0, size - 1)) :
      AnswerShape size offset (.ok r)
  | rest {r : Response} (hpos : 0 < offset) (hlt : offset < size) (hstatus : r.status = 206)
      (hrange : r.contentRange = some (contentRangeOf offset (size - 1) size))
      (hbody : r.body = some (offset, size - 1)) :
      AnswerShape size offset (.ok r)

lemma answerFor_shape (name : JsString) (mode : AccessMode) (v : FileVersion) {offset : ℕ}
    (h : offset < 2 ^ 53) :
    AnswerShape v.bytes.length offset (answerFor name mode v offset) := by
  have hget : (contentRequest offset).method = .get := rfl
  have hif : (contentRequest offset).ifRange = none := rfl
  rw [answerFor, serveFile, hget, hif, if_neg (by decide), if_neg (by simp)]
  dsimp only [checkIfRange]
  by_cases hstream : mode = .stream
  · rw [if_pos ⟨hstream, by decide, .inl rfl⟩]
    exact .refused (by decide)
  rw [if_neg fun hm => hstream hm.1]
  by_cases hpos : 0 < offset
  · have hrange : (contentRequest offset).range = some (js "bytes=" ++ (decimal offset ++ [45])) :=
      if_pos hpos
    have hsafe : safe (number (decimal offset)) = some offset := by
      rw [number_decimal h, safe, Option.filter_some, if_pos (by simpa using h)]
    rw [hrange, parseRangeHeader_from, parseBounds]
    by_cases hsize : v.bytes.length = 0
    · rw [if_pos hsize]
      exact .beyond rfl rfl
    rw [if_neg hsize, if_neg (decimal_ne_nil offset), hsafe]
    dsimp only
    by_cases hle : offset ≥ v.bytes.length
    · rw [if_pos hle]
      exact .beyond rfl rfl
    · rw [if_neg hle, if_pos rfl]
      refine .rest hpos (Nat.lt_of_not_ge hle) rfl rfl ?_
      simp [hsize]
  · have hrange : (contentRequest offset).range = none := if_neg hpos
    rw [hrange]
    refine .whole (by omega) rfl rfl rfl ?_
    simp

/-- The body of such an answer begins within it, and nothing of it was read. -/
lemma bodyOf_shape {size offset : ℕ} {answer : Except Refusal Response} {b : Body}
    (h : AnswerShape size offset answer) (hb : bodyOf answer = some b) :
    b.first ≤ b.last ∧ b.first ≤ offset ∧ b.sent = [] ∧ b.taken = 0 := by
  cases h with
  | refused | beyond => cases hb
  | whole hoffset hstatus hrange hlength hbody =>
      rw [bodyOf, hbody] at hb
      split_ifs at hb
      · cases hb
      · obtain rfl := Option.some.inj hb
        simp
  | rest hpos hlt hstatus hrange hbody =>
      rw [bodyOf, hbody] at hb
      obtain rfl := Option.some.inj hb
      exact ⟨Nat.le_sub_one_of_lt hlt, le_rfl, rfl, rfl⟩

/-! ### The condition -/

/-- The bytes of the partial file. -/
def DownloadState.bytes (s : DownloadState) : Bytes := s.part.getD []

/-- What the server reads for an answer, behind the bytes the client has by then, begins a
version of the file no longer than was announced; and a partial file as long as the file now
is, which the client takes for finished, is a version. -/
def unspliced (s : DownloadState) : DownloadAction → Bool
  | .read n =>
      match s.running with
      | some ⟨_, _, _, some b⟩ =>
          (b.inode.bind fun i => s.server.inodes[i]?).all fun v =>
            b.next v n = [] || s.server.versions.any fun w => w.bytes.length ≤ b.last + 1 &&
              (s.bytes.take b.first ++ (b.sent ++ b.next v n)).isPrefixOf w.bytes
      | _ => true
  | .receive =>
      match s.running with
      | some ⟨_, _, .answered offset (.error refusal), _⟩ =>
          !(refusal.error.status = 416 ∧
              totalFromContentRange refusal.contentRange = some offset) ||
            s.server.versions.any fun w => w.bytes = s.bytes
      | _ => true
  | _ => true

/-! ### The invariant -/

/-- Some version of the file starts with these bytes. -/
def Begins (versions : List FileVersion) (bytes : Bytes) : Prop :=
  bytes = [] ∨ ∃ v ∈ versions, bytes <+: v.bytes

/-- What holds of the files and the record of a job. -/
structure Kept (s : DownloadState) : Prop where
  inodes : ∀ v ∈ s.server.inodes, v ∈ s.server.versions
  part : Begins s.server.versions s.bytes
  destination : ∀ b, s.destination = some b → ∃ v ∈ s.server.versions, v.bytes = b
  job : ∀ job, s.job = some job → job.status = .done → s.destination.isSome
  saved : ∀ job, s.saved = some job → job.status = .done → s.destination.isSome

/-- What was read for an answer carries on, behind the first bytes of the partial file, a
version of the file no longer than was announced. -/
structure Carries (versions : List FileVersion) (bytes : Bytes) (b : Body) : Prop where
  first_le : b.first ≤ b.last
  kept : b.first ≤ bytes.length
  sent : b.sent = [] ∨ ∃ v ∈ versions, v.bytes.length ≤ b.last + 1 ∧
    bytes.take b.first ++ b.sent <+: v.bytes

/-- The run of a job fits its partial file: one case per place where it waits, by whether
there is a body. -/
inductive Fits (s : DownloadState) : Running → Prop
  | requested {paused cancelled : Bool} {body : Option Body} :
      Fits s ⟨paused, cancelled, .requested s.bytesOnDisk, body⟩
  | refused {paused cancelled : Bool} {refusal : Refusal} :
      Fits s ⟨paused, cancelled, .answered s.bytesOnDisk (.error refusal), none⟩
  | answeredEmpty {paused cancelled : Bool} {v : FileVersion} {answer : Except Refusal Response}
      (hv : v ∈ s.server.versions) (hshape : AnswerShape v.bytes.length s.bytesOnDisk answer)
      (hbody : bodyOf answer = none) :
      Fits s ⟨paused, cancelled, .answered s.bytesOnDisk answer, none⟩
  | answered {paused cancelled : Bool} {v : FileVersion} {answer : Except Refusal Response}
      {b b' : Body} (hv : v ∈ s.server.versions)
      (hshape : AnswerShape v.bytes.length s.bytesOnDisk answer)
      (hbody : bodyOf answer = some b') (hfirst : b.first = b'.first) (hlast : b.last = b'.last)
      (htaken : b.taken = 0) (hcarries : Carries s.server.versions s.bytes b) :
      Fits s ⟨paused, cancelled, .answered s.bytesOnDisk answer, some b⟩
  | receivingEmpty {paused cancelled : Bool} {v : FileVersion} (hv : v ∈ s.server.versions)
      (hempty : v.bytes = []) (hpart : s.bytes = []) :
      Fits s ⟨paused, cancelled, .receiving (some 0) s.bytesOnDisk, none⟩
  | receiving {paused cancelled : Bool} {b : Body} (hcarries : Carries s.server.versions s.bytes b)
      (hsome : s.part.isSome) (htaken : b.taken ≤ b.sent.length)
      (hpart : s.bytes = s.bytes.take b.first ++ b.sent.take b.taken) :
      Fits s ⟨paused, cancelled, .receiving (some (b.last + 1)) s.bytesOnDisk, some b⟩

structure Sound (s : DownloadState) : Prop where
  kept : Kept s
  running : ∀ r, s.running = some r → Fits s r

/-! ### What the pieces keep -/

section Pieces

variable {s t : DownloadState} {r : Running}

lemma Begins.mono {vs ws : List FileVersion} {bytes : Bytes} (hsub : ∀ v ∈ vs, v ∈ ws)
    (h : Begins vs bytes) : Begins ws bytes :=
  h.imp id fun ⟨v, hv, hpre⟩ => ⟨v, hsub v hv, hpre⟩

/-- A beginning of what begins a version begins it. -/
lemma Begins.of_prefix {vs : List FileVersion} {bytes short : Bytes} (h : Begins vs bytes)
    (hshort : short <+: bytes) : Begins vs short := by
  rcases h with rfl | ⟨v, hv, hpre⟩
  · exact .inl (List.prefix_nil.mp hshort)
  · exact .inr ⟨v, hv, hshort.trans hpre⟩

lemma bytesOnDisk_eq : s.bytesOnDisk = s.bytes.length := by
  unfold DownloadState.bytesOnDisk DownloadState.bytes
  cases s.part <;> rfl

/-- What fits a run goes on fitting it while the partial file stays and versions are added. -/
lemma Fits.mono (hpart : t.part = s.part)
    (hversions : ∀ v ∈ s.server.versions, v ∈ t.server.versions) (h : Fits s r) : Fits t r := by
  have hbytes : t.bytes = s.bytes := by rw [DownloadState.bytes, hpart, DownloadState.bytes]
  have hdisk : t.bytesOnDisk = s.bytesOnDisk := by rw [bytesOnDisk_eq, hbytes, bytesOnDisk_eq]
  have hcarries {b : Body} (hb : Carries s.server.versions s.bytes b) :
      Carries t.server.versions t.bytes b := by
    rw [hbytes]
    refine ⟨hb.first_le, hb.kept, hb.sent.imp id ?_⟩
    rintro ⟨v, hv, hlen, hpre⟩
    exact ⟨v, hversions v hv, hlen, hpre⟩
  cases h with
  | requested => exact hdisk ▸ .requested
  | refused => exact hdisk ▸ .refused
  | answeredEmpty hv hshape hbody =>
      rw [← hdisk] at hshape ⊢
      exact .answeredEmpty (hversions _ hv) hshape hbody
  | answered hv hshape hbody hfirst hlast htaken hb =>
      rw [← hdisk] at hshape ⊢
      exact .answered (hversions _ hv) hshape hbody hfirst hlast htaken (hcarries hb)
  | receivingEmpty hv hempty hnone =>
      rw [← hdisk]
      exact .receivingEmpty (hversions _ hv) hempty (hbytes.trans hnone)
  | receiving hb hsome htaken htake =>
      rw [← hdisk]
      exact .receiving (hcarries hb) (hpart ▸ hsome) htaken (hbytes ▸ htake)

/-- A partial file is shorter than a double is exact. -/
lemma Kept.bytesOnDisk_lt (h : Kept s) : s.bytesOnDisk < 2 ^ 53 := by
  rw [bytesOnDisk_eq]
  rcases h.part with hempty | ⟨v, -, hpre⟩
  · rw [hempty]
    exact Nat.two_pow_pos 53
  · exact hpre.length_le.trans_lt v.size_lt

lemma Kept.update (h : Kept s) {f : DownloadJob → DownloadJob}
    (hf : ∀ job, (f job).status = .done → job.status = .done) : Kept (s.update f) := by
  refine ⟨h.inodes, h.part, h.destination, fun job hjob hdone => ?_, h.saved⟩
  obtain ⟨job', hjob', rfl⟩ := Option.map_eq_some_iff.mp hjob
  exact h.job job' hjob' (hf job' hdone)

/-- The `catch` of a run keeps what the files hold. -/
lemma Kept.caught (h : Kept s) (r : Running) (code : Option ErrorCode) :
    Kept (s.caught r code) := by
  have hstop : Kept s.stop := ⟨h.inodes, h.part, h.destination, h.job, h.saved⟩
  have hempty : Kept { s with part := none }.stop :=
    ⟨h.inodes, .inl rfl, h.destination, h.job, h.saved⟩
  unfold DownloadState.caught
  split_ifs
  · exact hempty.update fun _ hdone => by cases hdone
  · exact hstop.update fun _ hdone => by cases hdone
  · exact hstop.update fun _ hdone => by cases hdone

lemma running_caught (code : Option ErrorCode) : (s.caught r code).running = none := by
  unfold DownloadState.caught
  split_ifs <;> rfl

/-- `#finish` on a partial file that is a version. -/
lemma Sound.finish (h : Kept s) {size : ℕ} (hwhole : ∃ v ∈ s.server.versions, v.bytes = s.bytes) :
    Sound (s.finish r size) := by
  unfold DownloadState.finish
  split
  · exact ⟨h.caught r _, by simp [running_caught]⟩
  case h_2 bytes hpart =>
    refine ⟨⟨h.inodes, .inl rfl, fun b hb => ?_, fun _ _ _ => rfl, fun _ _ _ => rfl⟩, ?_⟩
    · obtain rfl := Option.some.inj hb
      obtain ⟨v, hv, heq⟩ := hwhole
      exact ⟨v, hv, heq.trans (by rw [DownloadState.bytes, hpart, Option.getD_some])⟩
    · rintro r hr
      cases hr

lemma Sound.caught (h : Kept s) (r : Running) (code : Option ErrorCode) :
    Sound (s.caught r code) :=
  ⟨h.caught r code, by simp [running_caught]⟩

/-- A run that goes on with the files untouched. -/
lemma Sound.goOn (h : Kept s) (hr : Fits s r) : Sound (s.goOn r) := by
  refine ⟨⟨h.inodes, h.part, h.destination, h.job, h.saved⟩, fun r' hr' => ?_⟩
  obtain rfl := Option.some.inj hr'
  exact hr.mono (s := s) rfl fun _ => id

/-- A step that touches neither the partial file nor the run. -/
lemma Sound.keep (h : Sound s) (hkept : Kept t) (hpart : t.part = s.part)
    (hrunning : t.running = s.running)
    (hversions : ∀ v ∈ s.server.versions, v ∈ t.server.versions) : Sound t :=
  ⟨hkept, fun r hr => (h.running r (hrunning ▸ hr)).mono hpart hversions⟩

/-- Versions are added, and what lies on the server are versions. -/
lemma Sound.grow (h : Sound s) {server : ServedHistory}
    (hversions : ∀ v ∈ s.server.versions, v ∈ server.versions)
    (hinodes : ∀ v ∈ server.inodes, v ∈ server.versions) : Sound { s with server := server } :=
  h.keep ⟨hinodes, h.kept.part.mono hversions,
    fun b hb => (h.kept.destination b hb).imp fun v hv => ⟨hversions v hv.1, hv.2⟩,
    h.kept.job, h.kept.saved⟩ rfl rfl hversions

end Pieces

/-! ### The answer arrives -/

section Receive

variable {s : DownloadState} {r : Running} {response : Response} {offset : ℕ}

/-- The whole file under a 200: the sink is emptied. -/
lemma receive_whole (r : Running) (hoffset : offset = 0) (hstatus : response.status = 200)
    (hrange : response.contentRange = none) (hlt : response.contentLength < 2 ^ 53) :
    ∃ f : DownloadJob → DownloadJob, (∀ job, (f job).status = job.status) ∧
      s.receive r offset (.ok response) = ({ s.update f with part := some [] }).goOn
        { r with phase := .receiving (some response.contentLength) 0 } := by
  have hsize : sizeFromHeaders response.contentRange (some (decimal response.contentLength)) 0 =
      some response.contentLength := by
    rw [hrange, sizeFromHeaders, totalFromContentRange, Option.bind_none]
    simp [number_decimal hlt]
  subst hoffset
  refine ⟨fun job => { job with totalBytes := (some response.contentLength).or job.totalBytes },
    fun _ => rfl, ?_⟩
  simp only [DownloadState.receive, hstatus, if_true, ne_eq, not_true_eq_false, false_and,
    if_false, hsize]
  rfl

/-- The rest of the file under a 206: the sink appends. -/
lemma receive_rest {size : ℕ} (r : Running) (hpos : 0 < offset) (hlt : offset < 2 ^ 53) (hsize : size < 2 ^ 53)
    (hstatus : response.status = 206)
    (hrange : response.contentRange = some (contentRangeOf offset (size - 1) size)) :
    ∃ f : DownloadJob → DownloadJob, (∀ job, (f job).status = job.status) ∧
      s.receive r offset (.ok response) =
        (s.update f).goOn { r with phase := .receiving (some size) offset } := by
  have hstart : startFromContentRange response.contentRange = some offset := by
    rw [hrange, startFromContentRange_contentRangeOf _ _ hlt]
  have htotal : sizeFromHeaders response.contentRange (some (decimal response.contentLength))
      offset = some size := by
    rw [sizeFromHeaders, hrange, totalFromContentRange_contentRangeOf _ _ hsize]
  refine ⟨fun job => { job with totalBytes := (some size).or job.totalBytes }, fun _ => rfl, ?_⟩
  have hne : ¬ (206 : ℕ) = 200 := by decide
  simp only [DownloadState.receive, hstatus, if_neg hne, hstart, Option.getD_some, ne_eq,
    not_true_eq_false, false_and, if_false, htotal, DownloadState.openSink, if_pos hpos]

lemma Kept.emptied (h : Kept s) {part : Option Bytes} (hpart : part.getD [] = []) :
    Kept { s with part := part } :=
  ⟨h.inodes, .inl hpart, h.destination, h.job, h.saved⟩

/-- A refusal ends the run, or finishes it where the partial file is as long as the file. -/
lemma sound_refused {refusal : Refusal} (h : Kept s)
    (hguard : refusal.error.status = 416 → totalFromContentRange refusal.contentRange = some offset →
      ∃ v ∈ s.server.versions, v.bytes = s.bytes) :
    Sound (s.receive r offset (.error refusal)) := by
  rw [DownloadState.receive]
  split_ifs with hstatus htotal
  · exact Sound.finish h (hguard hstatus htotal)
  · exact Sound.caught (h.emptied rfl) r _
  · exact Sound.caught h r _

lemma sound_receive {answer : Except Refusal Response} (h : Kept s) (hr : Fits s r)
    (hphase : r.phase = .answered offset answer)
    (hguard : ∀ refusal, answer = .error refusal → refusal.error.status = 416 →
      totalFromContentRange refusal.contentRange = some offset →
        ∃ v ∈ s.server.versions, v.bytes = s.bytes) :
    Sound (s.receive r offset answer) := by
  cases answer with
  | error refusal => exact sound_refused h (hguard refusal rfl)
  | ok response =>
      cases hr with
      | requested => cases hphase
      | refused => cases hphase
      | receivingEmpty => cases hphase
      | receiving => cases hphase
      | @answeredEmpty p c v answer hv hshape hbody =>
          obtain ⟨rfl, rfl⟩ := Phase.answered.inj hphase
          cases hshape with
          | rest hpos hlt hstatus hrange hresponse => simp [bodyOf, hresponse] at hbody
          | whole hoffset hstatus hrange hlength hresponse =>
              have hzero : v.bytes.length = 0 := by
                by_contra hne
                simp [bodyOf, hresponse, hne] at hbody
              have hzero' : response.contentLength = 0 := hlength.trans hzero
              obtain ⟨f, hf, heq⟩ := receive_whole (s := s)
                ⟨p, c, .answered s.bytesOnDisk (.ok response), none⟩ hoffset hstatus hrange
                (by omega)
              rw [heq, hzero']
              have hkept : Kept { s.update f with part := some [] } :=
                (h.update fun job hdone => hf job ▸ hdone).emptied rfl
              exact .goOn hkept (.receivingEmpty hv (List.length_eq_zero_iff.mp hzero) rfl)
      | @answered p c v answer b b' hv hshape hbody hfirst hlast htaken hcarries =>
          obtain ⟨rfl, rfl⟩ := Phase.answered.inj hphase
          have hlt := v.size_lt
          cases hshape with
          | rest hpos hlt' hstatus hrange hresponse =>
              obtain ⟨f, hf, heq⟩ := receive_rest (s := s)
                ⟨p, c, .answered s.bytesOnDisk (.ok response), some b⟩ hpos (by omega) hlt hstatus
                hrange
              rw [heq]
              have hb' : b' = ⟨s.bytesOnDisk, v.bytes.length - 1, none, [], 0⟩ := by
                simpa [bodyOf, hresponse, eq_comm] using hbody
              have hb : b.first = s.bytes.length ∧ b.last + 1 = v.bytes.length := by
                rw [hfirst, hlast, hb', ← bytesOnDisk_eq]
                exact ⟨rfl, Nat.sub_add_cancel (by omega)⟩
              have hsome : s.part.isSome := by
                cases hpart : s.part with
                | none => simp [DownloadState.bytesOnDisk, hpart] at hpos
                | some _ => rfl
              have hkept : Kept (s.update f) := h.update fun job hdone => hf job ▸ hdone
              refine .goOn hkept (hb.2 ▸ .receiving (s := s.update f) hcarries hsome ?_ ?_)
              · rw [htaken]
                exact Nat.zero_le _
              · rw [htaken, hb.1, List.take_zero, List.append_nil]
                exact (List.take_length (l := s.bytes)).symm
          | whole hoffset hstatus hrange hlength hresponse =>
              have hne : v.bytes.length ≠ 0 := by
                intro hzero
                simp [bodyOf, hresponse, hzero] at hbody
              obtain ⟨f, hf, heq⟩ := receive_whole (s := s)
                ⟨p, c, .answered s.bytesOnDisk (.ok response), some b⟩ hoffset hstatus hrange
                (by omega)
              rw [heq, hlength]
              have hb' : b' = ⟨0, v.bytes.length - 1, none, [], 0⟩ := by
                simpa [bodyOf, hresponse, hne, eq_comm] using hbody
              have hb : b.first = 0 ∧ b.last + 1 = v.bytes.length := by
                rw [hfirst, hlast, hb']
                exact ⟨rfl, Nat.sub_add_cancel (by omega)⟩
              have hkept : Kept { s.update f with part := some [] } :=
                (h.update fun job hdone => hf job ▸ hdone).emptied rfl
              have hcarries' : Carries s.server.versions [] b := by
                refine ⟨hcarries.first_le, hb.1.le, ?_⟩
                simpa [hb.1] using hcarries.sent
              refine .goOn hkept (hb.2 ▸ .receiving (s := { s.update f with part := some [] })
                hcarries' rfl ?_ ?_)
              · rw [htaken]
                exact Nat.zero_le _
              · rw [htaken, hb.1]
                rfl

end Receive

/-! ### The body arrives -/

section Bodies

variable {s : DownloadState} {paused cancelled : Bool} {phase : Phase} {b c : Body}

/-- A body goes on fitting its run while it grows within a version. -/
lemma Fits.grow (h : Fits s ⟨paused, cancelled, phase, some b⟩) (hfirst : c.first = b.first)
    (hlast : c.last = b.last) (htaken : c.taken = b.taken) {chunk : Bytes}
    (hsent : c.sent = b.sent ++ chunk)
    (hcarries : Carries s.server.versions s.bytes b → Carries s.server.versions s.bytes c) :
    Fits s ⟨paused, cancelled, phase, some c⟩ := by
  cases h with
  | requested => exact .requested
  | answered hv hshape hbody hfirst' hlast' htaken' hb =>
      exact .answered hv hshape hbody (hfirst.trans hfirst') (hlast.trans hlast')
        (htaken.trans htaken') (hcarries hb)
  | receiving hb hsome hle hpart =>
      rw [← hlast]
      refine .receiving (hcarries hb) hsome ?_ ?_
      · rw [htaken, hsent, List.length_append]
        exact hle.trans (Nat.le_add_right _ _)
      · rw [htaken, hsent, hfirst, List.take_append_of_le_length hle]
        exact hpart

/-- The server reads a stretch that meets the condition. -/
lemma Fits.read (h : Fits s ⟨paused, cancelled, phase, some b⟩) {chunk : Bytes}
    (hguard : chunk = [] ∨ ∃ w ∈ s.server.versions, w.bytes.length ≤ b.last + 1 ∧
      s.bytes.take b.first ++ (b.sent ++ chunk) <+: w.bytes) :
    Fits s ⟨paused, cancelled, phase, some { b with sent := b.sent ++ chunk }⟩ := by
  refine h.grow (c := { b with sent := b.sent ++ chunk }) rfl rfl rfl rfl fun hb => ?_
  rcases hguard with rfl | hw
  · simpa using hb
  · exact ⟨hb.first_le, hb.kept, .inr hw⟩

/-- A chunk is written behind the partial file. -/
lemma sound_write (h : Kept s) {total : Option ℕ} {written : ℕ}
    (hr : Fits s ⟨paused, cancelled, .receiving total written, some b⟩) (n : ℕ) :
    Sound ({ s with part := s.part.map (· ++ b.pending.take n) }.goOn
      ⟨paused, cancelled, .receiving total (written + (b.pending.take n).length),
        some { b with taken := b.taken + (b.pending.take n).length }⟩) := by
  cases hr with
  | receiving hb hsome htaken hpart =>
      obtain ⟨bytes, hbytes⟩ := Option.isSome_iff_exists.mp hsome
      have hs : s.bytes = bytes := by rw [DownloadState.bytes, hbytes, Option.getD_some]
      have hdisk : s.bytesOnDisk = bytes.length := by rw [bytesOnDisk_eq, hs]
      rw [hs] at hb hpart
      rw [hbytes, Option.map_some, hdisk]
      obtain ⟨chunk, hchunk⟩ : ∃ chunk, chunk = b.pending.take n := ⟨_, rfl⟩
      rw [← hchunk]
      have hstretch : b.sent.take b.taken ++ chunk = b.sent.take (b.taken + chunk.length) := by
        rw [List.take_add, hchunk, Body.pending, List.length_take, ← List.take_eq_take_min]
      have htake : (bytes ++ chunk).take b.first = bytes.take b.first :=
        List.take_append_of_le_length hb.kept
      have hnew : bytes ++ chunk =
          bytes.take b.first ++ b.sent.take (b.taken + chunk.length) := by
        rw [← hstretch, ← List.append_assoc, ← hpart]
      have hlen : chunk.length ≤ b.sent.length - b.taken := by
        rw [hchunk, Body.pending, List.length_take, List.length_drop]
        exact min_le_right _ _
      have hbegins : Begins s.server.versions (bytes ++ chunk) := by
        rcases hb.sent with hempty | ⟨v, hv, -, hpre⟩
        · have hnil : chunk = [] := by simp [hchunk, Body.pending, hempty]
          rw [hnil, List.append_nil, ← hs]
          exact h.part
        · refine .inr ⟨v, hv, List.IsPrefix.trans ?_ hpre⟩
          rw [hnew, List.prefix_append_right_inj]
          exact List.take_prefix _ _
      have hkept : Kept { s with part := some (bytes ++ chunk) } :=
        ⟨h.inodes, hbegins, h.destination, h.job, h.saved⟩
      refine .goOn hkept ?_
      have hcount : bytes.length + chunk.length =
          ({ s with part := some (bytes ++ chunk) } : DownloadState).bytesOnDisk := by
        rw [← List.length_append]
        rfl
      rw [hcount]
      have hb' : Carries s.server.versions (bytes ++ chunk)
          { b with taken := b.taken + chunk.length } := by
        refine ⟨hb.first_le, ?_, ?_⟩
        · rw [List.length_append]
          exact hb.kept.trans (Nat.le_add_right _ _)
        · rw [htake]
          exact hb.sent
      refine .receiving (s := { s with part := some (bytes ++ chunk) }) hb' rfl ?_ ?_
      · show b.taken + chunk.length ≤ b.sent.length
        omega
      · show bytes ++ chunk =
          (bytes ++ chunk).take b.first ++ b.sent.take (b.taken + chunk.length)
        rw [htake]
        exact hnew

/-- The loop over the body ends: a complete file is a version, else the run is over. -/
lemma sound_endOfBody (h : Kept s) {total : Option ℕ} {written : ℕ} {body : Option Body}
    (hr : Fits s ⟨paused, cancelled, .receiving total written, body⟩)
    (hend : ∀ b, body = some b → b.pending = []) :
    Sound (s.endOfBody ⟨paused, cancelled, .receiving total written, body⟩ total written) := by
  rw [DownloadState.endOfBody]
  split_ifs with hshort
  · refine Sound.caught (Kept.update h ?_) _ _
    exact fun _ hdone => hdone
  refine Sound.finish h ?_
  cases hr with
  | @receivingEmpty p c v hv hempty hpart => exact ⟨v, hv, hempty.trans hpart.symm⟩
  | @receiving p c b hb hsome htaken hpart =>
      have hlong : b.last + 1 ≤ s.bytes.length := by
        rw [← bytesOnDisk_eq]
        simpa using hshort
      have hall : b.sent.take b.taken = b.sent := by
        have hpending : b.sent.drop b.taken = [] := hend b rfl
        rw [List.take_of_length_le (List.drop_eq_nil_iff.mp hpending)]
      rw [hall] at hpart
      rcases hb.sent with hempty | ⟨v, hv, hlen, hpre⟩
      · -- nothing was read, so the partial file ends before the body begins
        have hle : s.bytes.length ≤ b.first := by
          rw [hpart, hempty, List.append_nil, List.length_take]
          exact min_le_left _ _
        have hfirst := hb.first_le
        omega
      · rw [← hpart] at hpre
        exact ⟨v, hv, (hpre.eq_of_length_le (hlen.trans hlong)).symm⟩

end Bodies

/-! ### Runs -/

section Law

variable {s t : DownloadState} {a : DownloadAction}

/-- The manager's calls keep what the files hold. -/
lemma sound_control (h : Sound s) {job : DownloadJob} (hstep : control s job a = some t) :
    Sound t := by
  cases a with
  | start =>
      rw [control] at hstep
      split_ifs at hstep with hstart
      obtain rfl := Option.some.inj hstep
      exact .goOn (h.kept.update fun _ hdone => by cases hdone) .requested
  | pause =>
      rw [control] at hstep
      split at hstep
      case h_1 r hr =>
        obtain rfl := Option.some.inj hstep
        refine .goOn h.kept ?_
        cases h.running r hr <;> constructor <;> assumption
      case h_2 hr =>
        split_ifs at hstep
        all_goals obtain rfl := Option.some.inj hstep
        · exact ⟨h.kept.update fun _ hdone => (by cases hdone), by simp [DownloadState.update, hr]⟩
        · exact h
  | resume =>
      rw [control] at hstep
      split_ifs at hstep
      all_goals obtain rfl := Option.some.inj hstep
      · exact h
      · exact h.keep (h.kept.update fun _ hdone => by cases hdone) rfl rfl fun _ => id
  | cancel =>
      rw [control] at hstep
      split at hstep
      case h_1 r hr =>
        obtain rfl := Option.some.inj hstep
        refine .goOn h.kept ?_
        cases h.running r hr <;> constructor <;> assumption
      case h_2 hr =>
        obtain rfl := Option.some.inj hstep
        exact ⟨(h.kept.emptied rfl).update fun _ hdone => (by cases hdone),
          by simp [DownloadState.update, hr]⟩
  | _ => cases hstep

/-- **One step** that meets the condition keeps the invariant. -/
lemma sound_step (h : Sound s) (hguard : unspliced s a = true) (hstep : downloadStep s a = some t) :
    Sound t := by
  cases a with
  | replaceFile v =>
      obtain rfl := Option.some.inj hstep
      refine h.grow (fun _ => List.mem_cons_of_mem _) fun w hw => ?_
      rcases List.mem_append.mp hw with hw | hw
      · exact List.mem_cons_of_mem _ (h.kept.inodes w hw)
      · exact List.mem_singleton.mp hw ▸ List.mem_cons_self
  | modifyFile v =>
      obtain rfl := Option.some.inj hstep
      rw [ServedHistory.modify]
      cases s.server.path with
      | none => exact h.grow (fun _ => id) h.kept.inodes
      | some i =>
          refine h.grow (fun _ => List.mem_cons_of_mem _) fun w hw => ?_
          rcases List.mem_or_eq_of_mem_set hw with hw | rfl
          · exact List.mem_cons_of_mem _ (h.kept.inodes w hw)
          · exact List.mem_cons_self
  | removeFile =>
      obtain rfl := Option.some.inj hstep
      exact h.grow (fun _ => id) h.kept.inodes
  | serve mode =>
      simp only [downloadStep] at hstep
      split at hstep
      case h_2 => cases hstep
      case h_1 paused cancelled offset body v hrunning hcurrent =>
        obtain rfl := Option.some.inj hstep
        have hv : v ∈ s.server.versions := by
          obtain ⟨i, -, hi⟩ := Option.bind_eq_some_iff.mp hcurrent
          exact h.kept.inodes v (List.mem_of_getElem? hi)
        refine .goOn h.kept ?_
        cases h.running _ hrunning
        have hshape := answerFor_shape s.server.name mode v h.kept.bytesOnDisk_lt
        cases hbody : bodyOf (answerFor s.server.name mode v s.bytesOnDisk) with
        | none => exact .answeredEmpty hv hshape hbody
        | some b =>
            obtain ⟨hle, hoffset, hsent, htaken⟩ := bodyOf_shape hshape hbody
            exact .answered hv hshape hbody rfl rfl htaken
              ⟨hle, hoffset.trans_eq bytesOnDisk_eq, .inl hsent⟩
  | refuse refusal =>
      simp only [downloadStep] at hstep
      split at hstep
      case h_2 => cases hstep
      case h_1 paused cancelled offset body hrunning =>
        split_ifs at hstep with hstatus
        obtain rfl := Option.some.inj hstep
        refine .goOn h.kept ?_
        cases h.running _ hrunning
        exact .refused
  | openFile =>
      simp only [downloadStep] at hstep
      split at hstep
      case h_2 => cases hstep
      case h_1 paused cancelled phase b hrunning =>
        split_ifs at hstep
        obtain rfl := Option.some.inj hstep
        refine .goOn h.kept ((h.running _ hrunning).grow (c := { b with inode := s.server.path })
          rfl rfl rfl (List.append_nil _).symm fun hb => ?_)
        exact ⟨hb.first_le, hb.kept, hb.sent⟩
  | read n =>
      simp only [downloadStep] at hstep
      split at hstep
      case h_2 => cases hstep
      case h_1 paused cancelled phase b hrunning =>
        split at hstep
        · cases hstep
        case h_2 v hv =>
          obtain rfl := Option.some.inj hstep
          refine .goOn h.kept ((h.running _ hrunning).read ?_)
          simpa [unspliced, hrunning, hv] using hguard
  | receive =>
      simp only [downloadStep] at hstep
      split at hstep
      case h_2 => cases hstep
      case h_1 paused cancelled offset answer body hrunning =>
        obtain rfl := Option.some.inj hstep
        refine sound_receive h.kept (h.running _ hrunning) rfl ?_
        rintro refusal rfl hstatus htotal
        simpa [unspliced, hrunning, hstatus, htotal] using hguard
  | write n report =>
      simp only [downloadStep] at hstep
      split at hstep
      case h_2 => cases hstep
      case h_1 paused cancelled total written b hrunning =>
        obtain rfl := Option.some.inj hstep
        cases report with
        | false => exact sound_write h.kept (h.running _ hrunning) n
        | true =>
            have hkept : Kept (s.update fun job =>
                { job with receivedBytes := written + (b.pending.take n).length }) :=
              h.kept.update fun _ hdone => hdone
            exact sound_write hkept ((h.running _ hrunning).mono (s := s) rfl fun _ => id) n
  | endOfBody =>
      simp only [downloadStep] at hstep
      split at hstep
      case h_2 => cases hstep
      case h_1 paused cancelled total written body hrunning =>
        split_ifs at hstep with hend
        obtain rfl := Option.some.inj hstep
        refine sound_endOfBody h.kept (h.running _ hrunning) fun b hb => ?_
        simpa [hb] using hend
  | fail code =>
      obtain ⟨r, -, rfl⟩ := Option.map_eq_some_iff.mp hstep
      exact .caught h.kept r code
  | persist =>
      obtain rfl := Option.some.inj hstep
      exact h.keep ⟨h.kept.inodes, h.kept.part, h.kept.destination, h.kept.job, h.kept.job⟩ rfl rfl
        fun _ => id
  | reload flushed =>
      obtain rfl := Option.some.inj hstep
      refine ⟨⟨h.kept.inodes, ?_, h.kept.destination, ?_, h.kept.saved⟩, by simp⟩
      · refine h.kept.part.of_prefix ?_
        rw [DownloadState.bytes, DownloadState.bytes]
        cases s.part with
        | none => exact List.prefix_rfl
        | some bytes => exact List.take_prefix _ _
      · intro job hjob hdone
        obtain ⟨job', hjob', rfl⟩ := Option.map_eq_some_iff.mp hjob
        refine h.kept.saved job' hjob' ?_
        rw [restored] at hdone
        dsimp only at hdone
        split_ifs at hdone
        exact hdone
  | start | pause | resume | cancel =>
      obtain ⟨job, -, hcontrol⟩ := Option.bind_eq_some_iff.mp hstep
      exact sound_control h hcontrol

/-- **What a finished download is**: after any run whose steps meet the condition, the
destination of a finished job holds a version of the server's file, and its partial file
begins one at all times. -/
theorem download_whole {name : JsString} {totalBytes : Option ℕ} {as : List DownloadAction}
    (h : Run (Guarded (fun s a => unspliced s a) downloadStep) (.init name totalBytes) as s) :
    (∀ job, s.job = some job → job.status = .done →
      ∃ v ∈ s.server.versions, s.destination = some v.bytes) ∧
    Begins s.server.versions s.bytes := by
  have hinit : Sound (.init name totalBytes) := by
    refine ⟨⟨by simp [DownloadState.init], .inl rfl, by simp [DownloadState.init], ?_,
      by simp [DownloadState.init]⟩, by simp [DownloadState.init]⟩
    intro job hjob hdone
    obtain rfl := Option.some.inj hjob
    cases hdone
  have hs : Sound s := h.invariant (fun _ _ _ hs hstep => sound_step hs hstep.1 hstep.2) hinit
  refine ⟨fun job hjob hdone => ?_, hs.kept.part⟩
  obtain ⟨b, hb⟩ := Option.isSome_iff_exists.mp (hs.kept.job job hjob hdone)
  obtain ⟨v, hv, rfl⟩ := hs.kept.destination b hb
  exact ⟨v, hv, hb⟩

end Law

/-! ### Concrete runs -/

def oldFilm : FileVersion := ⟨[1, 1, 1, 1], 0, by decide⟩

def newFilm : FileVersion := ⟨[2, 2, 2, 2], 1, by decide⟩

/-- Half of the film arrives, then the connection drops. -/
def interrupted : List DownloadAction :=
  [.replaceFile oldFilm, .start, .serve .full, .receive, .openFile, .read 2, .write 2 true,
    .fail (some .internal)]

/-- The job is resumed to its end. -/
def resumed : List DownloadAction :=
  [.resume, .start, .serve .full, .receive, .openFile, .read 2, .write 2 false, .endOfBody]

theorem download_whole_resumed : ∃ s,
    Run (Guarded (fun s a => unspliced s a) downloadStep) (.init (js "film.mp4") none)
      (interrupted ++ resumed) s ∧
    (∃ v ∈ s.server.versions, s.destination = some v.bytes) := by
  obtain ⟨s, hrun, hs⟩ := exists_guarded_run_of_exec (fun s a => unspliced s a) downloadStep
    (.init (js "film.mp4") none) (interrupted ++ resumed)
    (fun s => s.job.any fun job => job.status = .done) (by decide +kernel)
  obtain ⟨job, hjob, hdone⟩ := (Option.any_eq_true _ _).mp hs
  exact ⟨s, hrun, (download_whole hrun).1 job hjob (of_decide_eq_true hdone)⟩

/-- Another film of the same size is put in its place before the job is resumed: the job is
done with the beginning of the one and the end of the other. -/
theorem splice : ∃ s,
    Run (Steps downloadStep) (.init (js "film.mp4") none)
      (interrupted ++ .replaceFile newFilm :: resumed) s ∧
    (∃ job, s.job = some job ∧ job.status = .done) ∧ s.destination = some [1, 1, 2, 2] ∧
    ∀ v ∈ s.server.versions, s.destination ≠ some v.bytes := by
  obtain ⟨s, hrun, hs⟩ := exists_run_of_exec downloadStep (.init (js "film.mp4") none)
    (interrupted ++ .replaceFile newFilm :: resumed)
    (fun s => (s.job.any fun job => job.status = .done) && s.destination = some [1, 1, 2, 2] &&
      s.server.versions.all fun v => v.bytes ≠ [1, 1, 2, 2]) (by decide +kernel)
  simp only [Bool.and_eq_true, decide_eq_true_eq, List.all_eq_true] at hs
  obtain ⟨⟨hjob, hdest⟩, hall⟩ := hs
  obtain ⟨job, hjob, hdone⟩ := (Option.any_eq_true _ _).mp hjob
  refine ⟨s, hrun, ⟨job, hjob, of_decide_eq_true hdone⟩, hdest, fun v hv heq => ?_⟩
  rw [hdest] at heq
  exact hall v hv (Option.some.inj heq).symm

end LocalCast.Desktop
