import LocalCast.Library.MediaTypes
import LocalCast.Webdav.Xml

/-!
`toResource` and `parseDavPath` of `modules/webdav/index.ts`: the path that a listing gives for a
resource, and how the path of a request is read.

* `contentTypeFor`, `toResource`, `parseDavPath`: the functions of the source.
* `IsSegment`: the names a path is made of; `parseDavPath_encodeHref` reads them back.
* `href_roundtrip`: listed paths lead to what was listed, and accepted paths can be listed.
-/

namespace LocalCast.Webdav

open JsString JsNumber Contract Library Http

/-! ### The source -/

/-- `TYPES` of `modules/shared/mime.ts`. -/
def TYPES : List (JsString × JsString) :=
  [ (js ".mp4", js "video/mp4"), (js ".m4v", js "video/x-m4v"), (js ".mov", js "video/quicktime"),
    (js ".mkv", js "video/x-matroska"), (js ".webm", js "video/webm"),
    (js ".avi", js "video/x-msvideo"), (js ".ts", js "video/mp2t"),
    (js ".m3u8", js "application/vnd.apple.mpegurl"),
    (js ".mp3", js "audio/mpeg"), (js ".m4a", js "audio/mp4"), (js ".aac", js "audio/aac"),
    (js ".flac", js "audio/flac"), (js ".wav", js "audio/wav"), (js ".ogg", js "audio/ogg"),
    (js ".jpg", js "image/jpeg"), (js ".jpeg", js "image/jpeg"), (js ".png", js "image/png"),
    (js ".gif", js "image/gif"), (js ".bmp", js "image/bmp"), (js ".webp", js "image/webp"),
    (js ".tif", js "image/tiff"), (js ".tiff", js "image/tiff"), (js ".heic", js "image/heic"),
    (js ".pdf", js "application/pdf"), (js ".txt", js "text/plain; charset=utf-8"),
    (js ".srt", js "application/x-subrip"), (js ".vtt", js "text/vtt"),
    (js ".json", js "application/json"), (js ".zip", js "application/zip") ]

/-- `OCTET_STREAM`. -/
def OCTET_STREAM : JsString := js "application/octet-stream"

/-- `contentTypeFor`; none where the table has a property of its prototype, which is no text. -/
def contentTypeFor (cm : CaseMap) (nameOrExt : JsString) : Option JsString :=
  let afterDot := (nameOrExt.reverse.takeWhile (· ≠ 46)).reverse
  let ext := cm.toLowerCase (if 46 ∈ nameOrExt then 46 :: afterDot else nameOrExt)
  match TYPES.find? fun row => row.1 = ext with
  | some row => some row.2
  | none => if inherited.contains ext then none else some OCTET_STREAM

/-- `toResource`; none where `encodeURIComponent` throws. -/
def toResource (cm : CaseMap) (base folderId : JsString) (segments : List JsString)
    (file : ServedFile) : Option DavResource := do
  let path ← encodeHref (folderId :: segments)
  some
    { href := base ++ js "/" ++ path ++ if file.isDir then js "/" else []
      displayName := if file.name = [] then segments.getLast?.getD folderId else file.name
      isCollection := file.isDir
      contentLength := if file.isDir then 0 else file.size
      lastModifiedMs := file.mtimeMs
      etag := weakETag file.size file.mtimeMs
      contentType := if file.isDir then none else contentTypeFor cm file.name }

/-- `DavTarget`. -/
structure DavTarget where
  folderId : JsString
  relPath : JsString
  segments : List JsString
deriving DecidableEq

/-- One turn of the loop of `parseDavPath`. -/
def decodeSegment (part : JsString) : Except ApiException JsString :=
  match decodeURIComponent part with
  | none => .error ⟨.pathEscapesRoot, "Malformed path encoding."⟩
  | some decoded =>
      if decoded = js "." ∨ decoded = js ".." ∨ 0 ∈ decoded ∨ 47 ∈ decoded then
        .error ⟨.pathEscapesRoot, "Path escapes the shared folder."⟩
      else .ok decoded

/-- `segments.shift()` and what is returned with it; none for the mount root. -/
def toTarget : List JsString → Option DavTarget
  | [] => none
  | folderId :: segments => some ⟨folderId, join (js "/") segments, segments⟩

def parseDavPath (url : JsString) : Except ApiException (Option DavTarget) := do
  let withoutQuery := (splitOn (fun c => decide (c = 63)) url).headD []
  let raw := JsString.segments (fun c => decide (c = 47)) withoutQuery
  let segments ← raw.mapM decodeSegment
  return toTarget segments

/-! ### Segments -/

/-- A name that a path can have in it. -/
structure IsSegment (s : JsString) : Prop where
  ne_nil : s ≠ []
  noSlash : 47 ∉ s
  noNul : 0 ∉ s
  ne_dot : s ≠ js "."
  ne_dotdot : s ≠ js ".."
  wellFormed : WellFormed s

/-- What `randomUUID` gives, hexadecimal digits and hyphens. -/
def IsUuid (s : JsString) : Prop :=
  s.length = 36 ∧ ∀ c ∈ s, (48 ≤ c ∧ c ≤ 57) ∨ (97 ≤ c ∧ c ≤ 102) ∨ c = 45

/-- The id of a folder is a segment. -/
lemma isSegment_of_isUuid {s : JsString} (h : IsUuid s) : IsSegment s := by
  obtain ⟨hlength, hunits⟩ := h
  have hlength_ne {t : JsString} (ht : t.length < 36) : s ≠ t := by
    rintro rfl
    omega
  refine ⟨hlength_ne (by decide), fun hc => absurd (hunits _ hc) (by decide),
    fun hc => absurd (hunits _ hc) (by decide), hlength_ne (by decide), hlength_ne (by decide),
    wellFormed_of_units fun c hc => ?_⟩
  have hc := hunits c hc
  simp only [UInt16.le_iff_toNat_le, UInt16.lt_iff_toNat_lt, ← UInt16.toNat_inj,
    UInt16.reduceToNat] at hc ⊢
  omega

/-- A segment is written as units that are neither `/` nor `?`, and read back. -/
lemma encode_segment {s : JsString} (hs : IsSegment s) :
    ∃ t, encodeURIComponent s = some t ∧ t ≠ [] ∧ 47 ∉ t ∧ 63 ∉ t ∧ decodeSegment t = .ok s := by
  obtain ⟨t, hencode, hdecode⟩ := decode_encode hs.wellFormed
  have hunits := isUriUnit_of_encode hencode
  refine ⟨t, hencode, encode_ne_nil hs.ne_nil hs.wellFormed hencode,
    fun hc => absurd (hunits _ hc) (by decide), fun hc => absurd (hunits _ hc) (by decide), ?_⟩
  rw [decodeSegment, hdecode]
  simp only [hs.ne_dot, hs.ne_dotdot, hs.noNul, hs.noSlash, or_self, if_false]

/-- What a part of a path is read as. -/
lemma isSegment_of_decodeSegment {part s : JsString} (hne : part ≠ []) (hwf : WellFormed part)
    (h : decodeSegment part = .ok s) : IsSegment s := by
  rw [decodeSegment] at h
  cases hdecode : decodeURIComponent part with
  | none =>
      rw [hdecode] at h
      cases h
  | some decoded =>
      rw [hdecode] at h
      dsimp only at h
      split_ifs at h with hbad
      cases h
      obtain ⟨hdot, hdotdot, hnul, hslash⟩ : _ ∧ _ ∧ _ ∧ _ := by simpa only [not_or] using hbad
      exact ⟨decode_ne_nil hne hdecode, hslash, hnul, hdot, hdotdot, wellFormed_decode hwf hdecode⟩

/-! ### Reading a written path -/

/-- The segments of a path are encoded one by one. -/
lemma encodeHref_eq {segments : List JsString} (h : ∀ s ∈ segments, IsSegment s) :
    ∃ parts : List JsString, encodeHref segments = some (join (js "/") parts) ∧
      (∀ p ∈ parts, p ≠ [] ∧ 47 ∉ p ∧ 63 ∉ p) ∧ parts.mapM decodeSegment = .ok segments := by
  have hparts : ∃ parts : List JsString, segments.mapM encodeURIComponent = some parts ∧
      (∀ p ∈ parts, p ≠ [] ∧ 47 ∉ p ∧ 63 ∉ p) ∧ parts.mapM decodeSegment = .ok segments := by
    induction segments with
    | nil => exact ⟨[], rfl, by simp, rfl⟩
    | cons s segments ih =>
        obtain ⟨hs, hrest⟩ := List.forall_mem_cons.mp h
        obtain ⟨t, hencode, hne, hslash, hquery, hdecode⟩ := encode_segment hs
        obtain ⟨parts, hmap, hclean, hback⟩ := ih hrest
        refine ⟨t :: parts, ?_, List.forall_mem_cons.mpr ⟨⟨hne, hslash, hquery⟩, hclean⟩, ?_⟩
        · rw [List.mapM_cons, hencode, hmap]
          rfl
        · rw [List.mapM_cons, hdecode, hback]
          rfl
  obtain ⟨parts, hmap, hclean, hback⟩ := hparts
  exact ⟨parts, by rw [encodeHref, hmap, Option.map_some], hclean, hback⟩

/-- A path without a query, read by its segments. -/
lemma parseDavPath_of_noQuery {url : JsString} (h : 63 ∉ url) :
    parseDavPath url =
      ((JsString.segments (fun c => decide (c = 47)) url).mapM decodeSegment).map toTarget := by
  have hsplit : splitOn (fun c => decide (c = 63)) url = [url] :=
    splitOn_of_no_sep url fun c hc => decide_eq_false fun heq => h (heq ▸ hc)
  rw [parseDavPath, hsplit]
  rfl

/-- A path of clean parts is read as them, with a slash before or after it or without. -/
lemma parseDavPath_join {parts segments : List JsString}
    (h : ∀ p ∈ parts, p ≠ [] ∧ 47 ∉ p ∧ 63 ∉ p) (hback : parts.mapM decodeSegment = .ok segments)
    {before after : JsString} (hbefore : before ∈ [[], js "/"]) (hafter : after ∈ [[], js "/"]) :
    parseDavPath (before ++ join (js "/") parts ++ after) = .ok (toTarget segments) := by
  have hslash : js "/" = [47] := rfl
  have hjoin : JsString.segments (fun c => decide (c = 47)) (join (js "/") parts) = parts :=
    segments_join 47 (by decide) parts fun p hp =>
      ⟨(h p hp).1, fun c hc => decide_eq_false fun heq => (h p hp).2.1 (heq ▸ hc)⟩
  have hquery : 63 ∉ join (js "/") parts := by
    intro hmem
    rcases mem_join hmem with hc | ⟨p, hp, hc⟩
    · exact absurd hc (by decide)
    · exact (h p hp).2.2 hc
  have hsegments : JsString.segments (fun c => decide (c = 47))
      (before ++ join (js "/") parts ++ after) = parts := by
    have hhead (s : JsString) : JsString.segments (fun c => decide (c = 47)) (before ++ s) =
        JsString.segments (fun c => decide (c = 47)) s := by
      rcases List.mem_pair.mp hbefore with rfl | rfl
      · rw [List.nil_append]
      · rw [hslash, List.singleton_append, segments_cons_sep _ _ (by decide)]
    rw [List.append_assoc, hhead]
    rcases List.mem_pair.mp hafter with rfl | rfl
    · rw [List.append_nil, hjoin]
    · rw [hslash, segments_append_sep (by decide), ← hslash, hjoin]
  rw [parseDavPath_of_noQuery, hsegments, hback]
  · rfl
  · have hends {s : JsString} (hs : s ∈ [[], js "/"]) : 63 ∉ s := by
      rcases List.mem_pair.mp hs with rfl | rfl <;> decide
    simp only [List.mem_append, not_or]
    exact ⟨⟨hends hbefore, hquery⟩, hends hafter⟩

/-- The parts of an accepted path are segments. -/
lemma isSegment_of_parseDavPath {url : JsString} (hwf : WellFormed url) {target : Option DavTarget}
    (h : parseDavPath url = .ok target) :
    ∃ segments : List JsString, (∀ s ∈ segments, IsSegment s) ∧ target = toTarget segments := by
  have hparts : ∀ p ∈ JsString.segments (fun c => decide (c = 47))
      ((splitOn (fun c => decide (c = 63)) url).headD []), p ≠ [] ∧ WellFormed p := by
    have hhead : WellFormed ((splitOn (fun c => decide (c = 63)) url).headD []) := by
      have hpieces : ∀ p ∈ splitOn (fun c => decide (c = 63)) url, WellFormed p :=
        wellFormed_split
          (fun c hc => decide_eq_false (by rintro rfl; exact absurd hc (by decide))) hwf
      cases hsplit : splitOn (fun c => decide (c = 63)) url with
      | nil => exact ⟨[], rfl⟩
      | cons p ps =>
          rw [hsplit] at hpieces
          exact hpieces p List.mem_cons_self
    intro p hp
    refine ⟨(of_mem_segments hp).1, ?_⟩
    exact wellFormed_split
      (fun c hc => decide_eq_false (by rintro rfl; exact absurd hc (by decide))) hhead p
      (List.mem_of_mem_filter hp)
  have hmap : ∀ (parts segments : List JsString), (∀ p ∈ parts, p ≠ [] ∧ WellFormed p) →
      parts.mapM decodeSegment = .ok segments → ∀ s ∈ segments, IsSegment s := by
    intro parts
    induction parts with
    | nil =>
        intro segments _ hmap
        cases hmap
        simp
    | cons p parts ih =>
        intro segments hclean hmap
        obtain ⟨hp, hrest⟩ := List.forall_mem_cons.mp hclean
        rw [List.mapM_cons] at hmap
        cases hdecode : decodeSegment p with
        | error e =>
            rw [hdecode] at hmap
            cases hmap
        | ok s =>
            rw [hdecode] at hmap
            cases hall : parts.mapM decodeSegment with
            | error e =>
                rw [hall] at hmap
                cases hmap
            | ok tail =>
                rw [hall] at hmap
                cases hmap
                exact List.forall_mem_cons.mpr
                  ⟨isSegment_of_decodeSegment hp.1 hp.2 hdecode, ih tail hrest hall⟩
  rw [parseDavPath] at h
  cases hall : (JsString.segments (fun c => decide (c = 47))
      ((splitOn (fun c => decide (c = 63)) url).headD [])).mapM decodeSegment with
  | error e =>
      rw [hall] at h
      cases h
  | ok segments =>
      rw [hall] at h
      cases h
      exact ⟨segments, hmap _ segments hparts hall, rfl⟩

/-! ### The round trip -/

/-- The segments a target was made of. -/
def DavTarget.path (target : DavTarget) : List JsString := target.folderId :: target.segments

/-- The segments of what a path was read as, none for the mount root. -/
def pathOf (target : Option DavTarget) : List JsString := target.elim [] DavTarget.path

lemma pathOf_toTarget (segments : List JsString) : pathOf (toTarget segments) = segments := by
  cases segments <;> rfl

/-- **The paths of a listing and of its requests are the same.** After the mount prefix, with a
slash behind it or without, the path that is listed for a resource is read as the folder and the
segments it was listed for. What a request is accepted with can be listed, and leads to it. -/
theorem href_roundtrip :
    (∀ (cm : CaseMap) (base folderId : JsString) (segments : List JsString) (file : ServedFile),
      (∀ s ∈ folderId :: segments, IsSegment s) →
      ∃ resource path, toResource cm base folderId segments file = some resource ∧
        resource.href = base ++ path ++ (if file.isDir then js "/" else []) ∧
        ∀ slash ∈ [[], js "/"], parseDavPath (path ++ slash) =
          .ok (some ⟨folderId, join (js "/") segments, segments⟩)) ∧
    ∀ (url : JsString) (target : Option DavTarget), WellFormed url →
      parseDavPath url = .ok target →
      ∃ path, encodeHref (pathOf target) = some path ∧
        ∀ before ∈ [[], js "/"], ∀ slash ∈ [[], js "/"],
          parseDavPath (before ++ path ++ slash) = .ok target := by
  constructor
  · intro cm base folderId segments file h
    obtain ⟨parts, hencode, hclean, hback⟩ := encodeHref_eq h
    refine ⟨_, js "/" ++ join (js "/") parts, by rw [toResource, hencode]; rfl, ?_,
      fun slash hslash => parseDavPath_join hclean hback (by simp) hslash⟩
    simp only [List.append_assoc]
  · intro url target hwf h
    obtain ⟨segments, hsegments, rfl⟩ := isSegment_of_parseDavPath hwf h
    obtain ⟨parts, hencode, hclean, hback⟩ := encodeHref_eq hsegments
    exact ⟨_, by rw [pathOf_toTarget, hencode], fun before hbefore slash hslash =>
      parseDavPath_join hclean hback hbefore hslash⟩

/-- A directory with a percent sign, a question mark and Persian letters below a share, and the
path of a request in lower-case escapes, with a query. -/
theorem href_roundtrip_escapes :
    (∃ resource path, toResource ⟨lower, upper⟩ (js "/dav")
        (js "3f2504e0-4f89-41d3-9a0c-0305e82c3301") [js "Q&A? 100%", js "فیلم #1"]
        ⟨0, 0, true, js "فیلم #1"⟩ = some resource ∧
      resource.href = js "/dav" ++ path ++ js "/" ∧
      ∀ slash ∈ [[], js "/"], parseDavPath (path ++ slash) =
        .ok (some ⟨js "3f2504e0-4f89-41d3-9a0c-0305e82c3301", js "Q&A? 100%/فیلم #1",
          [js "Q&A? 100%", js "فیلم #1"]⟩)) ∧
    ∃ path, encodeHref [js "f1", js "é+.mp4"] = some path ∧
      ∀ before ∈ [[], js "/"], ∀ slash ∈ [[], js "/"],
        parseDavPath (before ++ path ++ slash) =
          .ok (some ⟨js "f1", js "é+.mp4", [js "é+.mp4"]⟩) := by
  have huuid : IsUuid (js "3f2504e0-4f89-41d3-9a0c-0305e82c3301") :=
    ⟨by decide, forall_of_all (by decide)⟩
  have hfirst : IsSegment (js "Q&A? 100%") :=
    ⟨by decide, by decide, by decide, by decide, by decide, wellFormed_js _⟩
  have hsecond : IsSegment (js "فیلم #1") :=
    ⟨by decide, by decide, by decide, by decide, by decide, wellFormed_js _⟩
  exact ⟨href_roundtrip.1 _ _ _ _ _ (by simp [isSegment_of_isUuid huuid, hfirst, hsecond]),
    href_roundtrip.2 (js "/f1//%c3%a9+.mp4?x=%") (some ⟨js "f1", js "é+.mp4", [js "é+.mp4"]⟩)
      (wellFormed_js _) (by decide)⟩

example : parseDavPath (js "/f1/%2e%2E/x") =
    .error ⟨.pathEscapesRoot, "Path escapes the shared folder."⟩ := by decide

end LocalCast.Webdav
