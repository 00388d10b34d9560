import LocalCast.Http.Device
import LocalCast.Webdav.Range

/-!
Playback-only folders on the two surfaces: the content route of the main API and the `GET`
of the WebDAV mount.

* `rangeForm`: the header is one well-formed byte range; `Satisfiable`, `Overlapping`,
  `Overlooked`: what the numbers of it say to each parser.
* `content_denied_iff`, `getOrHead_denied_iff`, `getOrHead_whole_iff`: what each surface answers.
* `stream_mode_iff`: exactly when neither hands out the whole file and both decide alike.
* `two_ranges_whole`: a header with two ranges gets the whole file over WebDAV.
-/

namespace LocalCast.Webdav

open JsString JsNumber Contract Db Auth Library Http

/-! ### One byte range -/

/-- The two texts of a header that is one byte range `bytes=first-last`, not both empty. -/
def rangeForm (range : Option JsString) : Option (JsString × JsString) :=
  match range with
  | none | some [] => none
  | some header =>
      match bytesUnit (trim header) with
      | none => none
      | some group =>
          match (splitOn (fun c => c = 44) group).map trim with
          | [spec] =>
              match rangeSpec spec with
              | none | some ([], []) => none
              | some (first, last) => some (first, last)
          | _ => none

/-- The main API takes the range: its bounds are safe integers, in order, and it starts
within the file. -/
def Satisfiable (first last : JsString) (size : ℕ) : Prop :=
  if first = [] then ∃ n, safe (number last) = some n ∧ n ≠ 0 ∧ size ≠ 0
  else ∃ a, safe (number first) = some a ∧ a < size ∧
    (last = [] ∨ ∃ b, safe (number last) = some b ∧ a ≤ b)

/-- The WebDAV mount takes the range: its bounds are finite, in order, and it starts within
the file. -/
def Overlapping (first last : JsString) (size : ℕ) : Prop :=
  if first = [] then ∃ n, number last = some n ∧ n ≠ 0 ∧ size ≠ 0
  else ∃ a, number first = some a ∧ a < size ∧ (last = [] ∨ ∃ b, number last = some b ∧ a ≤ b)

/-- The WebDAV mount ignores the range: it starts within the file and its bounds are out of
order, or one of them is beyond the doubles. -/
def Overlooked (first last : JsString) (size : ℕ) : Prop :=
  first ≠ [] ∧ ∀ a, number first = some a →
    a < size ∧ last ≠ [] ∧ ∀ b, number last = some b → b < a

section Forms

variable {range : Option JsString} {first last : JsString} {size : ℕ}

lemma main_whole_of_form (h : rangeForm range = none) :
    (Http.parseRangeHeader range size).isFullBody = true := by
  rcases range with - | header
  · rfl
  cases header with
  | nil => rfl
  | cons c cs =>
      cases hunit : bytesUnit (trim (c :: cs)) with
      | none => simp only [Http.parseRangeHeader, hunit, RangeParse.isFullBody]
      | some group =>
          simp only [rangeForm, hunit] at h
          simp only [Http.parseRangeHeader, hunit]
          generalize (splitOn (fun c => c = 44) group).map trim = specs at h ⊢
          rcases specs with - | ⟨spec, - | ⟨spec', specs⟩⟩
          · rfl
          · by_cases hempty : spec = []
            · simp only [hempty, if_pos, RangeParse.isFullBody]
            · rcases hr : rangeSpec spec with - | ⟨_ | ⟨d, ds⟩, _ | ⟨e, es⟩⟩
              · simp only [if_neg hempty, hr, RangeParse.isFullBody]
              · simp only [if_neg hempty, hr, RangeParse.isFullBody]
              all_goals simp [hr] at h
          · dsimp only
            split_ifs <;> rfl

/-- The parse of a header that is one range, by each surface. -/
lemma parse_of_form (h : rangeForm range = some (first, last)) :
    Http.parseRangeHeader range size = Http.parseBounds first last size ∧
      parseRangeHeader range size = parseBounds first last size := by
  rcases range with - | header
  · cases h
  cases header with
  | nil => cases h
  | cons c cs =>
      cases hunit : bytesUnit (trim (c :: cs)) with
      | none => simp [rangeForm, hunit] at h
      | some group =>
          simp only [rangeForm, hunit] at h
          simp only [Http.parseRangeHeader, parseRangeHeader, hunit]
          generalize (splitOn (fun c => c = 44) group).map trim = specs at h ⊢
          rcases specs with - | ⟨spec, - | ⟨spec', specs⟩⟩
          · cases h
          · have hempty : spec ≠ [] := by
              rintro rfl
              cases h
            rcases hr : rangeSpec spec with - | ⟨_ | ⟨d, ds⟩, _ | ⟨e, es⟩⟩
            · simp [hr] at h
            · simp [hr] at h
            all_goals
              simp only [hr, Option.some.injEq, Prod.mk.injEq] at h
              obtain ⟨rfl, rfl⟩ := h
              simp [if_neg hempty, hr]
          · cases h

lemma overlooked_not_overlapping (h : Overlooked first last size) :
    ¬ Overlapping first last size := by
  rw [Overlapping, if_neg h.1]
  rintro ⟨a, ha, -, hlast⟩
  obtain ⟨-, hne, hlt⟩ := h.2 a ha
  rcases hlast with hempty | ⟨b, hb, hle⟩
  · exact hne hempty
  · exact absurd (hlt b hb) (Nat.not_lt.mpr hle)

lemma main_bounds (first last : JsString) (size : ℕ) :
    (Satisfiable first last size ∧ ∃ a b, Http.parseBounds first last size = .single a b) ∨
      (¬ Satisfiable first last size ∧ Http.parseBounds first last size = .unsatisfiable) := by
  unfold Http.parseBounds Satisfiable
  by_cases hsize : size = 0
  · refine .inr ⟨?_, if_pos hsize⟩
    split_ifs
    · simp [hsize]
    · simp [hsize]
  rw [if_neg hsize]
  by_cases hfirst : first = []
  · rw [if_pos hfirst, if_pos hfirst]
    cases safe (number last) with
    | none => simp
    | some n => cases n <;> simp [hsize]
  · rw [if_neg hfirst, if_neg hfirst]
    cases safe (number first) with
    | none => simp
    | some a =>
        dsimp only
        by_cases ha : a ≥ size
        · simp [ha, Nat.not_lt.mpr ha]
        rw [if_neg ha]
        have ha : a < size := Nat.lt_of_not_ge ha
        by_cases hlast : last = []
        · simp [hlast, ha]
        rw [if_neg hlast]
        cases safe (number last) with
        | none => simp [hlast]
        | some b =>
            by_cases hb : b < a
            · simp [hb, hlast, Nat.not_le.mpr hb]
            · simp [hb, ha, Nat.le_of_not_lt hb]

lemma dav_bounds (first last : JsString) (size : ℕ) :
    (Overlapping first last size ∧ ∃ a b, parseBounds first last size = .range a b) ∨
      (Overlooked first last size ∧ parseBounds first last size = .none) ∨
      (¬ Overlapping first last size ∧ ¬ Overlooked first last size ∧
        parseBounds first last size = .unsatisfiable) := by
  unfold parseBounds Overlapping Overlooked
  by_cases hfirst : first = []
  · rw [if_pos hfirst, if_pos hfirst]
    cases number last with
    | none => simp [hfirst]
    | some n =>
        cases n with
        | zero => simp [hfirst]
        | succ n => by_cases hsize : size = 0 <;> simp [hfirst, hsize]
  · rw [if_neg hfirst, if_neg hfirst]
    cases number first with
    | none => simp [hfirst]
    | some a =>
        dsimp only
        by_cases ha : a ≥ size
        · simp [ha, Nat.not_lt.mpr ha]
        rw [if_neg ha]
        have ha : a < size := Nat.lt_of_not_ge ha
        by_cases hlast : last = []
        · have hle : ¬ size - 1 < a := by omega
          simp [hlast, ha, hle]
        rw [if_neg hlast]
        cases number last with
        | none => simp [hlast, ha, hfirst]
        | some b =>
            by_cases hb : b < a
            · simp [hb, hlast, ha, hfirst]
            · simp [hb, ha, Nat.le_of_not_lt hb]

end Forms

/-! ### The two surfaces -/

/-- Refused as a download. -/
def Denied (r : Except Refusal Response) : Prop := ∃ e, r = .error e ∧ e.error.status = 403

/-- Answered 200 with all bytes of a file that has some. -/
def ServesWhole (file : ServedFile) (r : Except Refusal Response) : Prop :=
  ∃ resp, r = .ok resp ∧ resp.status = 200 ∧ file.size ≠ 0 ∧ resp.body = some (0, file.size - 1)

/-- Neither surface hands out the whole file, and both admit or both deny. -/
structure StreamLaw (file : ServedFile) (main : Except Refusal Response)
    (dav : Option (Except Refusal Response)) : Prop where
  mainKeeps : ¬ ServesWhole file main
  davKeeps : ∀ r, dav = some r → ¬ ServesWhole file r
  agree : Denied main ↔ ∃ r, dav = some r ∧ Denied r

/-- The main API finds the `If-Range` of the request stale. -/
def StaleMain (file : ServedFile) (req : ContentRequest) : Prop :=
  ∃ header, req.ifRange = some header ∧ header ≠ [] ∧
    Http.ifRangeMatches header (weakETag file.size file.mtimeMs) (toUTCString ⌊file.mtimeMs⌋) = false

/-- The WebDAV mount finds the `If-Range` of the request stale. -/
def StaleDav (dateParse : JsString → Option ℤ) (file : ServedFile) (req : ContentRequest) : Prop :=
  ifRangeMatches dateParse req.ifRange (weakETag file.size file.mtimeMs) file.mtimeMs = false

/-- The header starts with `bytes=` exactly where it is one byte range that no stale
`If-Range` drops, and then WebDAV, unless the file is empty, neither ignores nor drops it. -/
structure KeepsStreamMode (dateParse : JsString → Option ℤ) (file : ServedFile)
    (req : ContentRequest) : Prop where
  admits : wantsRange req ↔ ∃ first last, rangeForm req.range = some (first, last) ∧
    ¬ (Satisfiable first last file.size ∧ StaleMain file req)
  honoured : wantsRange req → file.size ≠ 0 → ∀ first last,
    rangeForm req.range = some (first, last) → ¬ Overlooked first last file.size ∧
      ¬ (Overlapping first last file.size ∧ StaleDav dateParse file req)

section Surfaces

variable {st : AuthStore} {deviceId folderId : JsString} {file : ServedFile} {req : ContentRequest}
  {dateParse : JsString → Option ℤ}

/-- The range the main API works with. -/
def mainRange (file : ServedFile) (req : ContentRequest) : RangeParse :=
  Http.checkIfRange req.ifRange (weakETag file.size file.mtimeMs) (toUTCString ⌊file.mtimeMs⌋)
    (Http.parseRangeHeader req.range file.size)

/-- The range the WebDAV mount works with. -/
def davRange (dateParse : JsString → Option ℤ) (file : ServedFile) (req : ContentRequest) :
    ParsedRange :=
  checkIfRange dateParse req.ifRange (weakETag file.size file.mtimeMs) file.mtimeMs
    (parseRangeHeader req.range file.size)

lemma assertCan_stream (hmode : modeFor st deviceId folderId = .stream) (op : Operation) :
    assertCan st deviceId folderId op =
      if can .stream op then .ok () else .error ⟨refusal op, refusalMessage op⟩ := by
  simp [assertCan, hmode]

lemma content_stream (hmode : modeFor st deviceId folderId = .stream) (hget : req.method = .get)
    (hdownload : req.download = false) (hfile : file.isDir = false) :
    (Denied (content st deviceId folderId file req) ↔ (mainRange file req).isFullBody) ∧
      ¬ ServesWhole file (content st deviceId folderId file req) := by
  by_cases hrange : req.range = none
  · have hfull : (mainRange file req).isFullBody = true := by
      rw [mainRange, hrange, Http.parseRangeHeader]
      unfold Http.checkIfRange
      split <;> simp_all [RangeParse.isFullBody]
    simp [content, assertCan_stream hmode, can, hget, hrange, Denied, ServesWhole, hfull, refusal,
      ApiException.status, errorStatus]
  · have hserve : content st deviceId folderId file req =
        serveFile req file ⟨.stream, .inline⟩ := by
      simp [content, assertCan_stream hmode, can, hdownload, hrange, hmode]
    rw [hserve, serveFile, if_neg (by simp [hget]), if_neg (by simp [hfile])]
    dsimp only
    rw [← mainRange]
    cases hr : mainRange file req with
    | none | ignore | multiple =>
        simp [hget, RangeParse.isFullBody, Denied, ServesWhole, playbackOnly, ApiException.status,
          errorStatus]
    | unsatisfiable =>
        simp [RangeParse.isFullBody, Denied, ServesWhole, ApiException.status, errorStatus]
    | single start last => simp [RangeParse.isFullBody, Denied, ServesWhole]

lemma isFullBody_single (a b : ℕ) :
    (Http.checkIfRange req.ifRange (weakETag file.size file.mtimeMs) (toUTCString ⌊file.mtimeMs⌋)
      (.single a b)).isFullBody = true ↔ StaleMain file req := by
  rw [StaleMain]
  cases req.ifRange with
  | none => simp [Http.checkIfRange, RangeParse.isFullBody]
  | some header =>
      cases header with
      | nil => simp [Http.checkIfRange, RangeParse.isFullBody]
      | cons c cs =>
          rw [Http.checkIfRange]
          · split_ifs with hmatch <;> simp [RangeParse.isFullBody, hmatch]
          · simp

lemma mainRange_isFullBody : (mainRange file req).isFullBody = true ↔
    ¬ ∃ first last, rangeForm req.range = some (first, last) ∧
      ¬ (Satisfiable first last file.size ∧ StaleMain file req) := by
  cases hform : rangeForm req.range with
  | none =>
      have hwhole : (Http.parseRangeHeader req.range file.size).isFullBody = true :=
        main_whole_of_form hform
      simp only [reduceCtorEq, false_and, exists_false, not_false_eq_true, iff_true]
      unfold mainRange Http.checkIfRange
      split
      · exact hwhole
      · exact hwhole
      case h_3 hsingle => simp [hsingle, RangeParse.isFullBody] at hwhole
      · exact hwhole
  | some fl =>
      obtain ⟨first, last⟩ := fl
      have hiff : (∃ f l, some (first, last) = some (f, l) ∧
          ¬ (Satisfiable f l file.size ∧ StaleMain file req)) ↔
            ¬ (Satisfiable first last file.size ∧ StaleMain file req) := by
        constructor
        · rintro ⟨f, l, heq, hnot⟩
          cases heq
          exact hnot
        · exact fun hnot => ⟨first, last, rfl, hnot⟩
      rw [hiff, not_not, mainRange, (parse_of_form hform).1]
      rcases main_bounds first last file.size with ⟨hsat, a, b, hab⟩ | ⟨hsat, hun⟩
      · rw [hab, isFullBody_single]
        simp [hsat]
      · rw [hun]
        unfold Http.checkIfRange
        split <;> simp_all [RangeParse.isFullBody]

variable (dateParse) in
lemma getOrHead_stream (hmode : modeFor st deviceId folderId = .stream) (hget : req.method = .get)
    (hfile : file.isDir = false) :
    ∃ r, getOrHead dateParse st deviceId folderId file req = some r ∧
      (Denied r ↔ ¬ wantsRange req) ∧ (ServesWhole file r ↔ wantsRange req ∧ file.size ≠ 0 ∧
        (davRange dateParse file req = .none ∨ davRange dateParse file req = .full)) := by
  cases hwants : wantsRange req with
  | false =>
      refine ⟨.error ⟨⟨.downloadNotAllowed, refusalMessage .download⟩, none⟩, ?_, ?_, ?_⟩
      · simp [getOrHead, assertCan_stream hmode, can, hfile, hwants, hget, refusal]
      · simp [Denied, ApiException.status, errorStatus]
      · simp [ServesWhole]
  | true =>
      refine ⟨serveRange dateParse req file .inline, ?_, ?_⟩
      · simp [getOrHead, assertCan_stream hmode, can, hfile, hwants]
      · rw [serveRange, ← davRange]
        cases hr : davRange dateParse file req with
        | none | full => simp [Denied, ServesWhole, hget]
        | unsatisfiable => simp [Denied, ServesWhole, ApiException.status, errorStatus]
        | range start last => simp [Denied, ServesWhole]

lemma davRange_whole {first last : JsString} (hform : rangeForm req.range = some (first, last)) :
    (davRange dateParse file req = .none ∨ davRange dateParse file req = .full) ↔
      Overlooked first last file.size ∨
        (Overlapping first last file.size ∧ StaleDav dateParse file req) := by
  rw [davRange, (parse_of_form hform).2]
  rcases dav_bounds first last file.size with ⟨hover, a, b, hab⟩ | ⟨hlook, hnone⟩ |
    ⟨hover, hlook, hun⟩
  · have hlook : ¬ Overlooked first last file.size := by
      intro hlook
      have := overlooked_not_overlapping hlook hover
      exact this
    rw [hab, checkIfRange]
    split_ifs with hmatch
    · simp [hlook, StaleDav, hmatch]
    · simp [hover, StaleDav, hmatch]
  · simp [hnone, checkIfRange, hlook]
  · simp [hun, checkIfRange, hlook, hover]

end Surfaces

/-- **Playback only on both surfaces**: a `GET` of a file by a device that may only play it
is answered alike, and never with the whole file, exactly where the header is plain. -/
theorem stream_mode_iff (dateParse : JsString → Option ℤ) {st : AuthStore}
    {deviceId folderId : JsString} {file : ServedFile} {req : ContentRequest}
    (hmode : modeFor st deviceId folderId = .stream) (hget : req.method = .get)
    (hdownload : req.download = false) (hfile : file.isDir = false) :
    StreamLaw file (content st deviceId folderId file req)
      (getOrHead dateParse st deviceId folderId file req) ↔ KeepsStreamMode dateParse file req := by
  obtain ⟨r, hr, hdenied, hwhole⟩ :=
    getOrHead_stream dateParse hmode hget hfile
  obtain ⟨hmain, hkeeps⟩ := content_stream hmode hget hdownload hfile
  rw [mainRange_isFullBody] at hmain
  constructor
  · intro hlaw
    have hagree : Denied (content st deviceId folderId file req) ↔ ¬ wantsRange req := by
      rw [hlaw.agree, hr]
      simp [hdenied]
    refine ⟨not_iff_not.mp (hagree.symm.trans hmain), fun hwants hsize first last hform => ?_⟩
    have hnot : ¬ (davRange dateParse file req = .none ∨ davRange dateParse file req = .full) :=
      fun h => hlaw.davKeeps r hr (hwhole.mpr ⟨hwants, hsize, h⟩)
    rw [davRange_whole hform] at hnot
    exact not_or.mp hnot
  · intro hkeep
    refine ⟨hkeeps, fun r' hr' hserves => ?_, ?_⟩
    · obtain rfl := Option.some.inj (hr.symm.trans hr')
      obtain ⟨hwants, hsize, hrange⟩ := hwhole.mp hserves
      obtain ⟨first, last, hform, -⟩ := hkeep.admits.mp hwants
      rw [davRange_whole hform] at hrange
      exact not_or.mpr (hkeep.honoured hwants hsize first last hform) hrange
    · rw [hmain, ← hkeep.admits, hr]
      simp [hdenied]

/-! ### Concrete requests -/

/-- The device `d` may play what is in the folder `f`. -/
def playbackStore : AuthStore where
  devices := .empty
  pairing_tokens := .empty
  folder_permissions := ⟨[⟨js "d", js "f", .stream⟩], List.nodup_singleton _⟩
  shared_folders := ⟨[⟨js "f", js "C:\\m", js "M", true, true, true, true, none, none, none, 0⟩],
    List.nodup_singleton _⟩

def shortFilm : ServedFile := ⟨3, 0, false, js "film.mp4"⟩

def rangeRequest (range : String) : ContentRequest := ⟨.get, false, some (js range), none⟩

theorem stream_mode_iff_prefix :
    modeFor playbackStore (js "d") (js "f") = .stream ∧
      (StreamLaw shortFilm (content playbackStore (js "d") (js "f") shortFilm (rangeRequest "bytes=0-1"))
        (getOrHead (fun _ => none) playbackStore (js "d") (js "f") shortFilm
          (rangeRequest "bytes=0-1")) ↔
        KeepsStreamMode (fun _ => none) shortFilm (rangeRequest "bytes=0-1")) :=
  ⟨by decide, stream_mode_iff _ (by decide) rfl rfl rfl⟩

/-- **Two ranges get the whole file** over WebDAV, where the main API refuses. -/
theorem two_ranges_whole :
    modeFor playbackStore (js "d") (js "f") = .stream ∧
      Denied (content playbackStore (js "d") (js "f") shortFilm (rangeRequest "bytes=0-0,1-1")) ∧
      ¬ StreamLaw shortFilm
        (content playbackStore (js "d") (js "f") shortFilm (rangeRequest "bytes=0-0,1-1"))
        (getOrHead (fun _ => none) playbackStore (js "d") (js "f") shortFilm
          (rangeRequest "bytes=0-0,1-1")) := by
  have hdav : getOrHead (fun _ => none) playbackStore (js "d") (js "f") shortFilm
      (rangeRequest "bytes=0-0,1-1") = some (.ok
        { status := 200, etag := js "W/\"3-0\"", lastModified := js "Thu, 01 Jan 1970 00:00:00 GMT"
          disposition := .inline, contentRange := none, contentLength := 3
          body := some (0, 2) }) := by decide
  have hmain : content playbackStore (js "d") (js "f") shortFilm (rangeRequest "bytes=0-0,1-1")
      = .error ⟨playbackOnly, none⟩ := by decide
  refine ⟨by decide, ⟨_, hmain, rfl⟩, fun hlaw => ?_⟩
  exact hlaw.davKeeps _ hdav ⟨_, rfl, rfl, by decide, rfl⟩

end LocalCast.Webdav
