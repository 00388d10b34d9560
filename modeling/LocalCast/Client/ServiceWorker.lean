import LocalCast.Foundations.Runs
import LocalCast.Foundations.Url

/-!
The media half of the service worker (`sw/media.ts` of the web application): the bearer is put on
the requests of a player, which cannot send one.

* `isProtectedMediaUrl`, `isMedia`: which requests the worker answers.
* `MediaWorker`, `mediaStep`: the session store that the page writes, the memo and the single read
  of `createTokenReader`, and the calls of `fetchMedia`, in every order of their parts; the worker
  may be killed at any point.
* `IsEpisode`: what may become of a request, with the tokens and when they were on file.
* `Tracked`: the invariant; `tracked_step` is one step of it.
* `media_tokens`: every request that is sent is protected, and every call is an episode.
-/

namespace LocalCast.Client

open JsString Runs

/-! ### Requests -/

def SW_API_PREFIX : JsString := js "/api/v1"

def SW_DAV_PREFIX : JsString := js "/dav"

/-- `CONTENT_PATH`: one name that is not empty, between the two. -/
def isContentPath (pathname : JsString) : Bool :=
  let before := SW_API_PREFIX ++ js "/files/"
  let rest := pathname.drop before.length
  let name := rest.take (rest.length - (js "/content").length)
  before.isPrefixOf pathname && rest = name ++ js "/content" && !name.isEmpty && !name.contains 47

def isProtectedMediaUrl (url : Url) (origin : JsString) : Bool :=
  if Url.origin url ≠ origin then false
  else if isContentPath url.pathname then
    !((Url.searchParams url.search).any fun p => p.1 = js "pt")
  else url.pathname = SW_DAV_PREFIX || (SW_DAV_PREFIX ++ js "/").isPrefixOf url.pathname

/-- `routeMedia` answers the request. -/
def isMedia (lib : Url.Platform) (origin method text : JsString) : Bool :=
  (method = js "GET" || method = js "HEAD") &&
    (Url.parse lib text).any fun url => isProtectedMediaUrl url origin

/-! ### The worker -/

/-- An access token, and the number of the store's content that it was read from. -/
structure ReadToken where
  token : Option JsString
  version : ℕ
deriving DecidableEq

/-- What happened in a call: its request went out with a bearer if there is a token; it was
answered 401, while the store had a version and a read was under way or not; the token was read
again. -/
inductive MediaEvent where
  | sent (t : ReadToken)
  | refused (version : ℕ) (joined : Bool)
  | reread (t : ReadToken)
deriving DecidableEq

/-- Where a call waits: for the token, for the answer, for the token again, for the answer to the
second request; or it is over. -/
inductive MediaPhase where
  | reading
  | fetching (t : ReadToken)
  | rereading (t : ReadToken)
  | refetching
  | settled
deriving DecidableEq

structure MediaCall where
  url : JsString
  phase : MediaPhase
  history : List MediaEvent
deriving DecidableEq

/-- The memo. -/
structure TokenMemo where
  read : ReadToken
  at' : ℕ
deriving DecidableEq

/-- The read that is under way: it has not looked into the store yet, or it has. -/
inductive TokenRead where
  | begun
  | looked (t : ReadToken)
deriving DecidableEq

/-- `tokenAt` are the contents that the page has given the store, the last one being of the number
`version`. -/
structure MediaWorker where
  now : ℕ
  tokenAt : ℕ → Option JsString
  version : ℕ
  cached : Option TokenMemo
  inFlight : Option TokenRead
  count : ℕ
  calls : ℕ → Option MediaCall

/-- Nobody is paired. -/
def MediaWorker.init : MediaWorker := ⟨0, fun _ => none, 0, none, none, 0, fun _ => none⟩

namespace MediaWorker

variable (s : MediaWorker)

/-- What is on file. -/
def stored : ReadToken := ⟨s.tokenAt s.version, s.version⟩

/-- The memo, while it is good. -/
def memo (ttlMs : ℕ) : Option ReadToken :=
  (s.cached.filter fun m => decide (s.now - m.at' < ttlMs)).map TokenMemo.read

/-- A read is under way: the one that is, or a new one. -/
def beginRead : MediaWorker := { s with inFlight := some (s.inFlight.getD .begun) }

def setCall (n : ℕ) (c : MediaCall) : MediaWorker :=
  { s with calls := Function.update s.calls n (some c) }

end MediaWorker

/-- A call that waits for the token gets it. -/
def MediaCall.resume (t : ReadToken) (c : MediaCall) : MediaCall :=
  match c.phase with
  | .reading => { c with phase := .fetching t, history := c.history ++ [.sent t] }
  | .rereading first =>
      if t.token = none ∨ t.token = first.token then
        { c with phase := .settled, history := c.history ++ [.reread t] }
      else { c with phase := .refetching, history := c.history ++ [.reread t, .sent t] }
  | _ => c

/-- Every call that waits for the token gets it. -/
def MediaWorker.resumeAll (s : MediaWorker) (t : ReadToken) : MediaWorker :=
  { s with inFlight := none, calls := fun n => (s.calls n).map (MediaCall.resume t) }

/-- Time passes; the page writes the session, or clears it, and tells the worker; a request comes
in; the read looks into the store, is delivered, or fails; a call is answered, or its request
fails; the worker is killed. -/
inductive MediaAction where
  | tick (ms : ℕ)
  | write (token : Option JsString)
  | sessionChanged
  | request (method url : JsString)
  | look
  | deliver
  | readFailed
  | answered (n : ℕ) (status : ℕ)
  | failed (n : ℕ)
  | kill

/-- One step; `none` where it is not enabled. -/
def mediaStep (lib : Url.Platform) (origin : JsString) (ttlMs : ℕ) (s : MediaWorker) :
    MediaAction → Option MediaWorker
  | .tick ms => some { s with now := s.now + ms }
  | .write token =>
      some { s with
        tokenAt := Function.update s.tokenAt (s.version + 1) token
        version := s.version + 1 }
  | .sessionChanged => some { s with cached := none }
  | .request method url =>
      if isMedia lib origin method url then
        let s' := { s with count := s.count + 1 }
        match s.memo ttlMs with
        | some t => some (s'.setCall s.count ⟨url, .fetching t, [.sent t]⟩)
        | none => some (s'.beginRead.setCall s.count ⟨url, .reading, []⟩)
      else some s
  | .look =>
      match s.inFlight with
      | some .begun => some { s with inFlight := some (.looked s.stored) }
      | _ => none
  | .deliver =>
      match s.inFlight with
      | some (.looked t) => some ({ s with cached := some ⟨t, s.now⟩ }.resumeAll t)
      | _ => none
  | .readFailed => s.inFlight.map fun _ => s.resumeAll ⟨none, s.version⟩
  | .answered n status =>
      match s.calls n with
      | some ⟨url, .fetching t, history⟩ =>
          if status = 401 then
            -- the memo is dropped, so the token is read
            some ({ s with cached := none }.beginRead.setCall n ⟨url, .rereading t,
              history ++ [MediaEvent.refused s.version s.inFlight.isSome]⟩)
          else some (s.setCall n ⟨url, .settled, history⟩)
      | some ⟨url, .refetching, history⟩ => some (s.setCall n ⟨url, .settled, history⟩)
      | _ => none
  | .failed n =>
      match s.calls n with
      | some ⟨url, .fetching _, history⟩ | some ⟨url, .refetching, history⟩ =>
          some (s.setCall n ⟨url, .settled, history⟩)
      | _ => none
  | .kill =>
      some { s with
        cached := none
        inFlight := none
        calls := fun n => (s.calls n).map fun c => { c with phase := .settled } }

/-! ### Episodes -/

/-- The store held the token, with this number. -/
structure Held (s : MediaWorker) (t : ReadToken) : Prop where
  le : t.version ≤ s.version
  token : ∀ k, t.token = some k → s.tokenAt t.version = some k

/-- What may become of a call. A request goes out with a token that the store held; where it is
refused, the token is read again, which gives none that is older, and one at least as new as the
store at that moment unless a read was under way; and the request goes out once more where that is
another token. -/
inductive IsEpisode (s : MediaWorker) : List MediaEvent → Prop where
  | waiting : IsEpisode s []
  | sent {t : ReadToken} (ht : Held s t) : IsEpisode s [.sent t]
  | refused {t : ReadToken} {w : ℕ} {joined : Bool} (ht : Held s t) (hw : t.version ≤ w)
      (hle : w ≤ s.version) : IsEpisode s [.sent t, .refused w joined]
  | gaveUp {t t' : ReadToken} {w : ℕ} {joined : Bool} (ht : Held s t) (ht' : Held s t')
      (hw : t.version ≤ w) (hle : w ≤ s.version) (hver : t.version ≤ t'.version)
      (hfresh : joined = false → w ≤ t'.version) (hsame : t'.token = none ∨ t'.token = t.token) :
      IsEpisode s [.sent t, .refused w joined, .reread t']
  | retried {t t' : ReadToken} {w : ℕ} {joined : Bool} (ht : Held s t) (ht' : Held s t')
      (hw : t.version ≤ w) (hle : w ≤ s.version) (hver : t.version ≤ t'.version)
      (hfresh : joined = false → w ≤ t'.version)
      (hother : ¬ (t'.token = none ∨ t'.token = t.token)) :
      IsEpisode s [.sent t, .refused w joined, .reread t', .sent t']

/-- What the store held stays, and more may come. -/
structure Extends (s s' : MediaWorker) : Prop where
  le : s.version ≤ s'.version
  tokenAt : ∀ v ≤ s.version, s'.tokenAt v = s.tokenAt v

section Episodes

variable {s s' : MediaWorker} {t : ReadToken} {c : MediaCall} {history : List MediaEvent}

lemma Extends.refl (s : MediaWorker) : Extends s s := ⟨le_rfl, fun _ _ => rfl⟩

lemma Held.mono (h : Held s t) (hs : Extends s s') : Held s' t :=
  ⟨h.le.trans hs.le, fun k hk => (hs.tokenAt _ h.le).trans (h.token k hk)⟩

lemma held_stored (s : MediaWorker) : Held s s.stored := ⟨le_rfl, fun _ hk => hk⟩

lemma held_none (s : MediaWorker) : Held s ⟨none, s.version⟩ :=
  ⟨le_rfl, fun k hk => absurd hk (Option.some_ne_none k).symm⟩

lemma IsEpisode.mono (h : IsEpisode s history) (hs : Extends s s') : IsEpisode s' history := by
  cases h with
  | waiting => exact .waiting
  | sent ht => exact .sent (ht.mono hs)
  | refused ht hw hle => exact .refused (ht.mono hs) hw (hle.trans hs.le)
  | gaveUp ht ht' hw hle hver hfresh hsame =>
      exact .gaveUp (ht.mono hs) (ht'.mono hs) hw (hle.trans hs.le) hver hfresh hsame
  | retried ht ht' hw hle hver hfresh hother =>
      exact .retried (ht.mono hs) (ht'.mono hs) hw (hle.trans hs.le) hver hfresh hother

end Episodes

/-! ### The invariant -/

/-- What has happened in a call that is in its phase. -/
def MediaCall.Fits (s : MediaWorker) (c : MediaCall) : Prop :=
  match c.phase with
  | .reading => c.history = []
  | .fetching t => c.history = [.sent t] ∧ Held s t
  | .rereading t => ∃ w joined, c.history = [.sent t, .refused w joined] ∧ Held s t ∧
      t.version ≤ w ∧ w ≤ s.version
  | .refetching | .settled => IsEpisode s c.history

/-- The read that has looked came after what the call has seen, but for a refusal while it was
under way. -/
def MediaCall.Before (t : ReadToken) (c : MediaCall) : Prop :=
  match c.phase with
  | .fetching first => first.version ≤ t.version
  | .rereading first =>
      first.version ≤ t.version ∧ ∀ w, .refused w false ∈ c.history → w ≤ t.version
  | _ => True

/-- The call waits for the token. -/
def MediaCall.Waits (c : MediaCall) : Prop :=
  c.phase = .reading ∨ ∃ t, c.phase = .rereading t

structure Tracked (lib : Url.Platform) (origin : JsString) (ttlMs : ℕ) (s : MediaWorker) :
    Prop where
  bound : ∀ n c, s.calls n = some c → n < s.count
  media : ∀ n c, s.calls n = some c → ∃ method, isMedia lib origin method c.url = true
  fits : ∀ n c, s.calls n = some c → c.Fits s
  waits : ∀ n c, s.calls n = some c → c.Waits → s.inFlight.isSome
  cached : ∀ m ∈ s.cached, Held s m.read
  looked : ∀ t, s.inFlight = some (.looked t) →
    Held s t ∧ ∀ n c, s.calls n = some c → c.Before t
  stale : s.inFlight.isSome → s.memo ttlMs = none

section Steps

variable {lib : Url.Platform} {origin : JsString} {ttlMs : ℕ} {s s' : MediaWorker} {t : ReadToken}
  {c : MediaCall} {n : ℕ}

lemma MediaCall.resume_rereading (t first : ReadToken) (url : JsString)
    (history : List MediaEvent) : (⟨url, .rereading first, history⟩ : MediaCall).resume t =
      if t.token = none ∨ t.token = first.token then ⟨url, .settled, history ++ [.reread t]⟩
      else ⟨url, .refetching, history ++ [.reread t, .sent t]⟩ := rfl

lemma MediaCall.Fits.mono (h : c.Fits s) (hs : Extends s s') : c.Fits s' := by
  obtain ⟨url, phase, history⟩ := c
  cases phase with
  | reading => exact h
  | fetching t => exact ⟨h.1, h.2.mono hs⟩
  | rereading t =>
      obtain ⟨w, joined, hhistory, ht, hw, hle⟩ := h
      exact ⟨w, joined, hhistory, ht.mono hs, hw, hle.trans hs.le⟩
  | refetching => exact IsEpisode.mono h hs
  | settled => exact IsEpisode.mono h hs

/-- A call that fits is an episode. -/
lemma MediaCall.Fits.isEpisode (h : c.Fits s) : IsEpisode s c.history := by
  obtain ⟨url, phase, history⟩ := c
  cases phase with
  | reading =>
      cases h
      exact .waiting
  | fetching t =>
      obtain ⟨rfl, ht⟩ := h
      exact .sent ht
  | rereading t =>
      obtain ⟨w, joined, rfl, ht, hw, hle⟩ := h
      exact .refused ht hw hle
  | refetching => exact h
  | settled => exact h

/-- What a call has seen came before a look into the store. -/
lemma MediaCall.Fits.before_stored (h : c.Fits s) : c.Before s.stored := by
  obtain ⟨url, phase, history⟩ := c
  cases phase with
  | fetching t => exact h.2.le
  | rereading t =>
      obtain ⟨w, joined, rfl, ht, -, hle⟩ := h
      refine ⟨ht.le, fun w' hw' => ?_⟩
      simp only [List.mem_cons, reduceCtorEq, MediaEvent.refused.injEq, List.not_mem_nil, or_false,
        false_or] at hw'
      exact hw'.1 ▸ hle
  | _ => trivial

/-- A call that gets a token that is on file, read after what it has seen, fits. -/
lemma MediaCall.Fits.resume (h : c.Fits s) (ht : Held s t) (hbefore : c.Before t) :
    (c.resume t).Fits s := by
  obtain ⟨url, phase, history⟩ := c
  cases phase with
  | reading =>
      cases h
      exact ⟨rfl, ht⟩
  | rereading first =>
      obtain ⟨w, joined, rfl, hfirst, hw, hle⟩ := h
      obtain ⟨hver, hrefused⟩ := hbefore
      have hfresh : joined = false → w ≤ t.version := fun hj => hrefused w (by simp [hj])
      rw [MediaCall.resume_rereading]
      split_ifs with hsame
      · exact IsEpisode.gaveUp hfirst ht hw hle hver hfresh hsame
      · exact IsEpisode.retried hfirst ht hw hle hver hfresh hsame
  | fetching _ | refetching | settled => exact h

lemma MediaCall.not_waits_resume (t : ReadToken) (c : MediaCall) : ¬ (c.resume t).Waits := by
  obtain ⟨url, phase, history⟩ := c
  cases phase with
  | rereading first =>
      rw [MediaCall.resume_rereading]
      split_ifs <;> simp [MediaCall.Waits]
  | _ => simp [MediaCall.resume, MediaCall.Waits]

lemma MediaCall.resume_url (t : ReadToken) (c : MediaCall) : (c.resume t).url = c.url := by
  rw [MediaCall.resume]
  split
  · rfl
  · split_ifs <;> rfl
  · rfl

/-- What a step that leaves the read as it is, or begins one, has to show: of a call that it
changes, and of the memo. -/
lemma Tracked.next (h : Tracked lib origin ttlMs s) (hs : Extends s s')
    (hcount : s.count ≤ s'.count)
    (hcalls : ∀ m c, s'.calls m = some c → s.calls m = some c ∨
      m < s'.count ∧ (∃ method, isMedia lib origin method c.url = true) ∧ c.Fits s' ∧
        (c.Waits → s'.inFlight.isSome) ∧ ∀ t, s'.inFlight = some (.looked t) → c.Before t)
    (hcached : ∀ m ∈ s'.cached, m ∈ s.cached)
    (hflight : s'.inFlight = s.inFlight ∨ s.inFlight = none ∧ s'.inFlight = some .begun)
    (hstale : s'.inFlight.isSome → s'.memo ttlMs = none) : Tracked lib origin ttlMs s' where
  bound m c hc := by
    rcases hcalls m c hc with hold | ⟨hlt, -⟩
    · exact (h.bound m c hold).trans_le hcount
    · exact hlt
  media m c hc := by
    rcases hcalls m c hc with hold | ⟨-, hmedia, -⟩
    · exact h.media m c hold
    · exact hmedia
  fits m c hc := by
    rcases hcalls m c hc with hold | ⟨-, -, hfits, -⟩
    · exact (h.fits m c hold).mono hs
    · exact hfits
  waits m c hc hwaits := by
    rcases hcalls m c hc with hold | ⟨-, -, -, hsome, -⟩
    · rcases hflight with heq | ⟨-, hbegun⟩
      · rw [heq]
        exact h.waits m c hold hwaits
      · rw [hbegun]
        rfl
    · exact hsome hwaits
  cached m hm := (h.cached m (hcached m hm)).mono hs
  looked t ht := by
    rcases hflight with heq | ⟨-, hbegun⟩
    · obtain ⟨hheld, hbefore⟩ := h.looked t (heq ▸ ht)
      refine ⟨hheld.mono hs, fun m c hc => ?_⟩
      rcases hcalls m c hc with hold | ⟨-, -, -, -, hnew⟩
      · exact hbefore m c hold
      · exact hnew t ht
    · rw [hbegun] at ht
      cases ht
  stale := hstale

/-- A memo that is not good any more stays so. -/
lemma memo_mono {at' now now' ttlMs : ℕ} (hnow : now ≤ now') (hold : ¬ now - at' < ttlMs) :
    ¬ now' - at' < ttlMs := by omega

lemma memo_eq_none_iff : s.memo ttlMs = none ↔ ∀ m ∈ s.cached, ¬ s.now - m.at' < ttlMs := by
  rw [MediaWorker.memo, Option.map_eq_none_iff, Option.filter_eq_none_iff]
  simp only [decide_eq_true_eq, Option.mem_def]

/-- The token that the memo gives is on file. -/
lemma Tracked.held_memo (h : Tracked lib origin ttlMs s) (ht : s.memo ttlMs = some t) :
    Held s t ∧ s.inFlight = none := by
  obtain ⟨m, hm, rfl⟩ := Option.map_eq_some_iff.mp ht
  refine ⟨h.cached m (Option.filter_eq_some_iff.mp hm).1, ?_⟩
  by_contra hflight
  have hstale := h.stale (Option.isSome_iff_ne_none.mpr hflight)
  exact absurd (ht.symm.trans hstale) (by simp)

/-- The call that is changed, and the others. -/
lemma setCall_cases {m : ℕ} {d : MediaCall} (hd : (s.setCall n c).calls m = some d) :
    s.calls m = some d ∨ m = n ∧ d = c := by
  simp only [MediaWorker.setCall, Function.update_apply] at hd
  split_ifs at hd with hm
  · exact .inr ⟨hm, (Option.some.inj hd).symm⟩
  · exact .inl hd

lemma beginRead_flight (s : MediaWorker) : s.beginRead.inFlight = s.inFlight ∨
    s.inFlight = none ∧ s.beginRead.inFlight = some .begun := by
  rw [MediaWorker.beginRead]
  cases s.inFlight with
  | none => exact .inr ⟨rfl, rfl⟩
  | some r => exact .inl rfl

/-- A call is over, with what it has seen. -/
lemma Tracked.settle (h : Tracked lib origin ttlMs s) (hc : s.calls n = some c) :
    Tracked lib origin ttlMs (s.setCall n ⟨c.url, .settled, c.history⟩) := by
  have hs : Extends s (s.setCall n ⟨c.url, .settled, c.history⟩) := ⟨le_rfl, fun _ _ => rfl⟩
  refine h.next hs le_rfl (fun m d hd => ?_) (fun _ hm => hm) (.inl rfl) h.stale
  rcases setCall_cases hd with hold | ⟨rfl, rfl⟩
  · exact .inl hold
  · refine .inr ⟨h.bound m c hc, h.media m c hc, (h.fits m c hc).isEpisode.mono hs, fun hw => ?_,
      fun _ _ => trivial⟩
    rcases hw with hw | ⟨_, hw⟩ <;> cases hw

/-- Every call that waits gets a token that is on file, and the read is over. -/
lemma Tracked.resumeAll (h : Tracked lib origin ttlMs s) (ht : Held s t)
    (hbefore : ∀ n c, s.calls n = some c → c.Before t) {cached : Option TokenMemo}
    (hcached : ∀ m ∈ cached, Held s m.read) :
    Tracked lib origin ttlMs ({ s with cached := cached }.resumeAll t) := by
  have hs : Extends s ({ s with cached := cached }.resumeAll t) := ⟨le_rfl, fun _ _ => rfl⟩
  have hcall {n : ℕ} {c : MediaCall}
      (hc : ({ s with cached := cached }.resumeAll t).calls n = some c) :
      ∃ d, s.calls n = some d ∧ c = d.resume t := by
    obtain ⟨d, hd, rfl⟩ := Option.map_eq_some_iff.mp hc
    exact ⟨d, hd, rfl⟩
  refine ⟨fun n c hc => ?_, fun n c hc => ?_, fun n c hc => ?_, fun n c hc hw => ?_,
    fun m hm => (hcached m hm).mono hs, fun _ hlooked => ?_, fun hsome => ?_⟩
  · obtain ⟨d, hd, rfl⟩ := hcall hc
    exact h.bound n d hd
  · obtain ⟨d, hd, rfl⟩ := hcall hc
    rw [MediaCall.resume_url]
    exact h.media n d hd
  · obtain ⟨d, hd, rfl⟩ := hcall hc
    exact ((h.fits n d hd).resume ht (hbefore n d hd)).mono hs
  · obtain ⟨d, hd, rfl⟩ := hcall hc
    exact absurd hw (MediaCall.not_waits_resume t d)
  · cases hlooked
  · cases hsome

/-- A request is refused: the memo is dropped, and the token read again. -/
lemma Tracked.refused (h : Tracked lib origin ttlMs s) {url : JsString}
    {history : List MediaEvent} (hc : s.calls n = some ⟨url, .fetching t, history⟩) :
    Tracked lib origin ttlMs ({ s with cached := none }.beginRead.setCall n
      ⟨url, .rereading t, history ++ [MediaEvent.refused s.version s.inFlight.isSome]⟩) := by
  have hs : Extends s ({ s with cached := none }.beginRead.setCall n
      ⟨url, .rereading t, history ++ [MediaEvent.refused s.version s.inFlight.isSome]⟩) :=
    ⟨le_rfl, fun _ _ => rfl⟩
  obtain ⟨rfl, hheld⟩ := h.fits n _ hc
  have hbound := h.bound n _ hc
  have hmedia := h.media n _ hc
  refine h.next hs le_rfl (fun m d hd => ?_) (fun _ hm => absurd hm (Option.not_mem_none _))
    (beginRead_flight s) fun _ => rfl
  rcases setCall_cases hd with hold | ⟨rfl, rfl⟩
  · exact .inl hold
  · refine .inr ⟨hbound, hmedia,
      ⟨s.version, s.inFlight.isSome, rfl, hheld.mono hs, hheld.le, le_rfl⟩, fun _ => rfl,
      fun t' ht' => ?_⟩
    have hflight : s.inFlight = some (.looked t') := by
      rcases beginRead_flight s with heq | ⟨-, hbegun⟩
      · exact heq ▸ ht'
      · cases hbegun.symm.trans ht'
    refine ⟨(h.looked t' hflight).2 m _ hc, fun w hw => ?_⟩
    simp [hflight] at hw

/-- One step. -/
theorem tracked_step {a : MediaAction} (h : Tracked lib origin ttlMs s)
    (hstep : mediaStep lib origin ttlMs s a = some s') : Tracked lib origin ttlMs s' := by
  have hstale (hs' : s'.inFlight = s.inFlight) (hnow : s.now ≤ s'.now)
      (hcached : ∀ m ∈ s'.cached, m ∈ s.cached) : s'.inFlight.isSome → s'.memo ttlMs = none := by
    intro hsome
    have hnone := memo_eq_none_iff.mp (h.stale (hs' ▸ hsome))
    exact memo_eq_none_iff.mpr fun m hm => memo_mono hnow (hnone m (hcached m hm))
  cases a with
  | tick ms =>
      cases hstep
      exact h.next ⟨le_rfl, fun _ _ => rfl⟩ le_rfl (fun _ _ hc => .inl hc) (fun _ hm => hm)
        (.inl rfl) (hstale rfl (Nat.le_add_right _ _) fun _ hm => hm)
  | write token =>
      cases hstep
      refine h.next ⟨Nat.le_succ _, fun v hv => ?_⟩ le_rfl (fun _ _ hc => .inl hc) (fun _ hm => hm)
        (.inl rfl) (hstale rfl le_rfl fun _ hm => hm)
      exact Function.update_of_ne (by omega) _ _
  | sessionChanged =>
      cases hstep
      exact h.next ⟨le_rfl, fun _ _ => rfl⟩ le_rfl (fun _ _ hc => .inl hc)
        (fun _ hm => absurd hm (Option.not_mem_none _)) (.inl rfl)
        (hstale rfl le_rfl fun _ hm => absurd hm (Option.not_mem_none _))
  | request method url =>
      simp only [mediaStep] at hstep
      split_ifs at hstep with hmedia
      swap
      · cases hstep
        exact h
      split at hstep
      · rename_i t ht
        obtain ⟨hheld, hnone⟩ := h.held_memo ht
        cases hstep
        refine h.next ⟨le_rfl, fun _ _ => rfl⟩ (Nat.le_succ _) (fun m c hc => ?_) (fun _ hm => hm)
          (.inl rfl) h.stale
        rcases setCall_cases hc with hold | ⟨rfl, rfl⟩
        · exact .inl hold
        · refine .inr ⟨Nat.lt_succ_self _, ⟨method, hmedia⟩,
            ⟨rfl, hheld.mono ⟨le_rfl, fun _ _ => rfl⟩⟩, fun hw => ?_, fun t ht => ?_⟩
          · rcases hw with hw | ⟨_, hw⟩ <;> cases hw
          · exact absurd (hnone.symm.trans ht) (by simp)
      · rename_i hmemo
        cases hstep
        refine h.next ⟨le_rfl, fun _ _ => rfl⟩ (Nat.le_succ _) (fun m c hc => ?_) (fun _ hm => hm)
          (beginRead_flight s) fun _ => hmemo
        rcases setCall_cases hc with hold | ⟨rfl, rfl⟩
        · exact .inl hold
        · exact .inr ⟨Nat.lt_succ_self _, ⟨method, hmedia⟩, rfl, fun _ => rfl, fun _ _ => trivial⟩
  | look =>
      simp only [mediaStep] at hstep
      split at hstep
      case h_2 => cases hstep
      case h_1 hbegun =>
        cases hstep
        refine ⟨h.bound, h.media, fun n c hc => (h.fits n c hc).mono ⟨le_rfl, fun _ _ => rfl⟩,
          fun _ _ _ _ => rfl, fun m hm => (h.cached m hm).mono ⟨le_rfl, fun _ _ => rfl⟩,
          fun t ht => ?_, fun _ => h.stale (by rw [hbegun]; rfl)⟩
        cases ht
        exact ⟨(held_stored s).mono ⟨le_rfl, fun _ _ => rfl⟩,
          fun n c hc => (h.fits n c hc).before_stored⟩
  | deliver =>
      simp only [mediaStep] at hstep
      split at hstep
      case h_2 => cases hstep
      case h_1 t hlooked =>
        cases hstep
        obtain ⟨hheld, hbefore⟩ := h.looked t hlooked
        refine h.resumeAll hheld hbefore fun m hm => ?_
        cases Option.mem_some.mp hm
        exact hheld
  | readFailed =>
      simp only [mediaStep] at hstep
      obtain ⟨r, hr, rfl⟩ := Option.map_eq_some_iff.mp hstep
      exact h.resumeAll (held_none s) (fun n c hc => (h.fits n c hc).before_stored) h.cached
  | answered n status =>
      simp only [mediaStep] at hstep
      split at hstep
      · rename_i url t history hc
        split_ifs at hstep with hstatus
        · cases hstep
          exact h.refused hc
        · cases hstep
          exact h.settle hc
      · rename_i url history hc
        cases hstep
        exact h.settle hc
      · cases hstep
  | failed n =>
      simp only [mediaStep] at hstep
      split at hstep
      · rename_i hc
        cases hstep
        exact h.settle hc
      · rename_i hc
        cases hstep
        exact h.settle hc
      · cases hstep
  | kill =>
      cases hstep
      have hcall {n : ℕ} {c : MediaCall}
          (hc : (s.calls n).map (fun c => { c with phase := .settled }) = some c) :
          ∃ d, s.calls n = some d ∧ c = { d with phase := .settled } := by
        obtain ⟨d, hd, rfl⟩ := Option.map_eq_some_iff.mp hc
        exact ⟨d, hd, rfl⟩
      refine ⟨fun n c hc => ?_, fun n c hc => ?_, fun n c hc => ?_, fun n c hc hw => ?_,
        fun _ hm => absurd hm (Option.not_mem_none _), fun _ hlooked => ?_, fun hsome => ?_⟩
      · obtain ⟨d, hd, rfl⟩ := hcall hc
        exact h.bound n d hd
      · obtain ⟨d, hd, rfl⟩ := hcall hc
        exact h.media n d hd
      · obtain ⟨d, hd, rfl⟩ := hcall hc
        exact (h.fits n d hd).isEpisode.mono ⟨le_rfl, fun _ _ => rfl⟩
      · obtain ⟨d, hd, rfl⟩ := hcall hc
        rcases hw with hw | ⟨_, hw⟩ <;> cases hw
      · cases hlooked
      · cases hsome

end Steps

/-! ### Runs -/

lemma tracked_init (lib : Url.Platform) (origin : JsString) (ttlMs : ℕ) :
    Tracked lib origin ttlMs .init where
  bound _ _ h := by cases h
  media _ _ h := by cases h
  fits _ _ h := by cases h
  waits _ _ h := by cases h
  cached _ h := by cases h
  looked _ h := by cases h
  stale h := by cases h

/-- **The bearer of a player.** However requests overlap, the page rotates or clears the session and
tells the worker or not, the store fails to be read and the worker is killed: a request that the
worker sends is a GET or HEAD of its own origin for a file's content without a ticket, or of the
mount; what became of it is an episode; and one that waits for the token has a read under way. -/
theorem media_tokens {lib : Url.Platform} {origin : JsString} {ttlMs : ℕ} {s : MediaWorker}
    {as : List MediaAction} (h : Run (Steps (mediaStep lib origin ttlMs)) .init as s) {n : ℕ}
    {c : MediaCall} (hc : s.calls n = some c) :
    (∃ method, isMedia lib origin method c.url = true) ∧ IsEpisode s c.history ∧
      (c.Waits → s.inFlight.isSome) := by
  have htracked : Tracked lib origin ttlMs s :=
    h.invariant (fun _ _ _ => tracked_step) (tracked_init lib origin ttlMs)
  exact ⟨htracked.media n c hc, (htracked.fits n c hc).isEpisode, htracked.waits n c hc⟩

/-- ASCII names, and no other schemes. -/
def webNames : Url.Platform := ⟨fun name => some (lower name), fun _ => none, fun _ _ => none⟩

/-- The page rotates the token while a film plays, without telling the worker. -/
def rotatedUnderway : List MediaAction :=
  [.write (some (js "a")), .request (js "GET") (js "https://pc.ts.net/api/v1/files/f1/content"),
    .look, .deliver, .tick 300, .write (some (js "b")), .answered 0 401, .look, .deliver,
    .answered 0 206]

theorem media_tokens_rotated : ∃ s c,
    Run (Steps (mediaStep webNames (js "https://pc.ts.net") 2000)) .init rotatedUnderway s ∧
    s.calls 0 = some c ∧ IsEpisode s c.history ∧
    c.history = [.sent ⟨some (js "a"), 1⟩, .refused 2 false, .reread ⟨some (js "b"), 2⟩,
      .sent ⟨some (js "b"), 2⟩] := by
  obtain ⟨s, hrun, hs⟩ := exists_run_of_exec
    (mediaStep webNames (js "https://pc.ts.net") 2000) .init rotatedUnderway
    (fun s => (s.calls 0).map MediaCall.history = some [.sent ⟨some (js "a"), 1⟩,
      .refused 2 false, .reread ⟨some (js "b"), 2⟩, .sent ⟨some (js "b"), 2⟩])
    (by decide +kernel)
  obtain ⟨c, hc, hhistory⟩ := Option.map_eq_some_iff.mp (of_decide_eq_true hs)
  exact ⟨s, c, hrun, hc, (media_tokens hrun hc).2.1, hhistory⟩

end LocalCast.Client
