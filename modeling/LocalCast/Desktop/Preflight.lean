import LocalCast.Foundations.AtomicFile
import LocalCast.Foundations.Casing
import LocalCast.Foundations.JsNumber

/-!
`main/preflight/downloads.ts` of the desktop application: files that cannot be shipped are fetched,
and put into place when they are what the maintainer recorded or the user has confirmed.

* `Installing`, `installStep`: the calls of `install` and `confirmAndInstall` over the two files of
  a download, stopping at every `await`; calls may overlap, the application may be killed, and
  anybody may replace the partial file.
* `alone`: a call is made, and the partial file replaced, only while no call is under way.
* `Vetted`: the invariant; `vetted_step` is one step of it.
* `installed_vetted`: what is in place has a digest that was recorded or confirmed.
* `overlapping_installs`: two calls at once can put anything into place.
-/

namespace LocalCast.Desktop

open JsString JsNumber Runs

/-! ### Downloads -/

inductive PrerequisiteId where
  | netedge | printHelper | nativeModules
deriving DecidableEq

structure DownloadSpec where
  id : PrerequisiteId
  url : JsString
  sourceUrl : JsString
  version : JsString
  sha256 : Option JsString
  destination : JsString
  licence : JsString

inductive FailureReason where
  | network | digestMismatch | digestUnrecorded | declined | writeFailed | unsupported
deriving DecidableEq

inductive InstallOutcome where
  | installed (id : PrerequisiteId) (installedTo : JsString)
  | failed (id : PrerequisiteId) (reason : FailureReason) (message : JsString)
      (computedSha256 : Option JsString)
deriving DecidableEq

def MAX_BYTES : ℕ := 64 * 1024 * 1024

/-- `/^[0-9a-f]{64}$/`. -/
def isSha256Hex (s : JsString) : Bool :=
  s.length = 64 && s.all fun c => (48 ≤ c && c ≤ 57) || (97 ≤ c && c ≤ 102)

/-- What the calls are given: the hash, lower case, the path of the destination, and whether
printing is switched on. -/
structure Preflight where
  sha256 : List UInt8 → JsString
  lc : Lowercase
  idText : PrerequisiteId → JsString
  destinationPath : JsString
  printingEnabled : Bool

/-- The partial file, and the destination. -/
inductive Place where
  | part | destination
deriving DecidableEq

/-- Where a call waits: for the response, for its body, for a removal, for `stat`, for the digest
of the partial file, or for the move. -/
inductive InstallCall where
  | fetching (expected : Option JsString)
  | streaming (expected : Option JsString) (inode : ℕ) (received : List UInt8)
  | removing (outcome : InstallOutcome)
  | stating (confirmed : JsString)
  | reading (confirmed : JsString) (inode : ℕ) (got : List UInt8)
  | moving (digest : JsString)

/-- The calls are numbered; `confirmed` are the digests that the user has confirmed. -/
structure Installing where
  disk : Disk Place
  count : ℕ
  calls : ℕ → Option InstallCall
  confirmed : List JsString
  outcomes : List (ℕ × InstallOutcome)

def Installing.init : Installing := ⟨.empty, 0, fun _ => none, [], []⟩

/-! ### Outcomes -/

section Outcomes

variable (rt : Preflight) (spec : DownloadSpec)

def printingRefused : InstallOutcome :=
  .failed .printHelper .unsupported (js <|
    "Printing is switched off in this build, so the print helper is not needed. " ++
    "It can be installed once printing is switched back on.") none

def unsupported (id : PrerequisiteId) : InstallOutcome :=
  .failed id .unsupported (js "LocalCast has no download configured for " ++ rt.idText id ++
    js "; it cannot be fetched automatically.") none

def unsupportedConfirm (id : PrerequisiteId) : InstallOutcome :=
  .failed id .unsupported
    (js "LocalCast has no download configured for " ++ rt.idText id ++ js ".") none

def declined : InstallOutcome :=
  .failed spec.id .declined (js "The confirmed digest is not a SHA-256 hex string.") none

def notDownloaded (tooLarge : Bool) (message : JsString) : InstallOutcome :=
  .failed spec.id (if tooLarge then .unsupported else .network)
    (spec.url ++ js " could not be downloaded: " ++ message) none

def mismatch (expected actual : JsString) : InstallOutcome :=
  .failed spec.id .digestMismatch (js "The download did not match the recorded digest. Expected " ++
    expected ++ js ", got " ++ actual ++ js ". Nothing was installed.") (some actual)

def unrecorded (actual : JsString) : InstallOutcome :=
  .failed spec.id .digestUnrecorded (js "No digest has been recorded for " ++ spec.destination ++
    js " " ++ spec.version ++ js ", and its publisher does not publish one. " ++
    js "Check the digest below against " ++ spec.sourceUrl ++ js " before installing. Licence: " ++
    spec.licence ++ js ".") (some actual)

def noLonger (confirmed actual : JsString) : InstallOutcome :=
  .failed spec.id .digestMismatch
    (js "The file on disk no longer matches the digest that was confirmed (" ++ confirmed ++
      js "). Nothing was installed.") (some actual)

def notMoved (message : JsString) : InstallOutcome :=
  .failed spec.id .writeFailed (js "The download was verified but could not be moved to " ++
    rt.destinationPath ++ js ": " ++ message) none

end Outcomes

/-! ### Steps -/

namespace Installing

variable (s : Installing) (n : ℕ)

def goOn (c : InstallCall) : Installing := { s with calls := Function.update s.calls n (some c) }

def settle (outcome : Option InstallOutcome) : Installing :=
  { s with
    calls := Function.update s.calls n none
    outcomes := s.outcomes ++ outcome.toList.map fun o => (n, o) }

def setDisk (disk : Disk Place) : Installing := { s with disk := disk }

end Installing

/-- A call is made; the response is there, or an error; a part of the body, or its end; the file is
removed; `stat` answers; the partial file is read, to its end; a removal or a reading fails; the
file is moved, or cannot be. The application is killed, or somebody replaces or removes the partial
file. -/
inductive InstallAction where
  | install (id : PrerequisiteId) (confirmed : Option JsString)
  | responded (n : ℕ) (declared : Option ℕ)
  | broken (n : ℕ) (message : JsString)
  | chunk (n : ℕ) (bytes : List UInt8)
  | bodyEnded (n : ℕ)
  | removed (n : ℕ)
  | stated (n : ℕ)
  | read (n k : ℕ)
  | readEnded (n : ℕ)
  | threw (n : ℕ)
  | moved (n : ℕ)
  | notMoved (n : ℕ) (message : JsString)
  | kill
  | outside (bytes : Option (List UInt8))

/-- `spec.sha256.toLowerCase()` where it is recorded. -/
def expectedDigest (rt : Preflight) (sha256 : Option JsString) : Option JsString :=
  (sha256.filter fun d => d.length > 0).map rt.lc.toLowerCase

/-- The start of `install` and of `confirmAndInstall`, with the switch of the caller. -/
def startInstall (rt : Preflight) (spec : DownloadSpec) (s : Installing) (id : PrerequisiteId)
    (confirmed : Option JsString) : Installing :=
  let s' := { s with count := s.count + 1 }
  if id = .printHelper ∧ rt.printingEnabled = false then s'.settle s.count (some printingRefused)
  else
    match confirmed.filter fun d => (trim d).length > 0 with
    | none =>
        if id = spec.id then s'.goOn s.count (.fetching (expectedDigest rt spec.sha256))
        else s'.settle s.count (some (unsupported rt id))
    | some computedSha256 =>
        if id = spec.id then
          let digest := rt.lc.toLowerCase (trim computedSha256)
          if isSha256Hex digest then
            { s'.goOn s.count (.stating digest) with confirmed := digest :: s.confirmed }
          else s'.settle s.count (some (declined spec))
        else s'.settle s.count (some (unsupportedConfirm rt id))

/-- One step; `none` where it is not enabled. -/
def installStep (rt : Preflight) (spec : DownloadSpec) (s : Installing) :
    InstallAction → Option Installing
  | .install id confirmed => some (startInstall rt spec s id confirmed)
  | .responded n declared =>
      match s.calls n with
      | some (.fetching expected) =>
          match declared.filter fun d => d > MAX_BYTES with
          | some d =>
              some (s.goOn n (.removing (notDownloaded spec true
                (spec.url ++ js " declared " ++ decimal d ++ js " bytes"))))
          | none =>
              let disk := s.disk.truncate .part
              (disk.names .part).map fun x => (s.setDisk disk).goOn n (.streaming expected x [])
      | _ => none
  | .broken n message =>
      match s.calls n with
      | some (.fetching _) | some (.streaming ..) =>
          some (s.goOn n (.removing (notDownloaded spec false message)))
      | _ => none
  | .chunk n bytes =>
      match s.calls n with
      | some (.streaming expected x received) =>
          if received.length + bytes.length > MAX_BYTES then
            some (s.goOn n (.removing (notDownloaded spec true
              (spec.url ++ js " exceeded " ++ decimal MAX_BYTES ++ js " bytes"))))
          else
            some ((s.setDisk (s.disk.write x received.length bytes)).goOn n
              (.streaming expected x (received ++ bytes)))
      | _ => none
  | .bodyEnded n =>
      match s.calls n with
      | some (.streaming expected _ received) =>
          let actual := rt.sha256 received
          match expected with
          | none => some (s.settle n (some (unrecorded spec actual)))
          | some digest =>
              if actual = digest then some (s.goOn n (.moving digest))
              else some (s.goOn n (.removing (mismatch spec digest actual)))
      | _ => none
  | .removed n =>
      match s.calls n with
      | some (.removing outcome) =>
          some ((s.setDisk (s.disk.remove .part)).settle n (some outcome))
      | _ => none
  | .stated n =>
      match s.calls n with
      | some (.stating digest) =>
          match s.disk.names .part with
          | none => some (s.goOn n (.fetching (expectedDigest rt (some digest))))
          | some x => some (s.goOn n (.reading digest x []))
      | _ => none
  | .read n k =>
      match s.calls n with
      | some (.reading digest x got) =>
          some (s.goOn n (.reading digest x (got ++ ((s.disk.bytes x).drop got.length).take k)))
      | _ => none
  | .readEnded n =>
      match s.calls n with
      | some (.reading digest x got) =>
          if (s.disk.bytes x).length ≤ got.length then
            let actual := rt.sha256 got
            if actual = digest then some (s.goOn n (.moving digest))
            else some (s.goOn n (.removing (noLonger spec digest actual)))
          else none
      | _ => none
  | .threw n =>
      match s.calls n with
      | some (.reading ..) | some (.removing _) => some (s.settle n none)
      | _ => none
  | .moved n =>
      match s.calls n with
      | some (.moving _) =>
          (s.disk.names .part).map fun _ =>
            (s.setDisk (s.disk.rename .part .destination)).settle n
              (some (.installed spec.id rt.destinationPath))
      | _ => none
  | .notMoved n message =>
      match s.calls n with
      | some (.moving _) => some (s.settle n (some (notMoved rt spec message)))
      | _ => none
  | .kill => some { s with calls := fun _ => none }
  | .outside bytes =>
      match bytes with
      | none => some (s.setDisk (s.disk.remove .part))
      | some bytes =>
          let disk := (s.disk.remove .part).createNew .part
          (disk.names .part).map fun x => s.setDisk (disk.write x 0 bytes)

/-- A call is made, and the partial file replaced, only while no call is under way. -/
def alone (s : Installing) : InstallAction → Bool
  | .install .. | .outside _ => decide (∀ n < s.count, (s.calls n).isNone)
  | _ => true

/-! ### Digests -/

/-- A digest of the form that a confirmation has to have is not changed by lower case. -/
lemma toLowerCase_of_isSha256Hex (lc : Lowercase) {d : JsString} (h : isSha256Hex d = true) :
    lc.toLowerCase d = d := by
  rw [isSha256Hex, Bool.and_eq_true, List.all_eq_true] at h
  have hdigit : ∀ c ∈ d, c.toNat < 128 ∧ lowerUnit c = c := by
    intro c hc
    have hc := h.2 c hc
    simp only [Bool.or_eq_true, Bool.and_eq_true, decide_eq_true_eq, UInt16.le_iff_toNat_le,
      UInt16.reduceToNat] at hc
    refine ⟨by omega, if_neg ?_⟩
    simp only [UInt16.le_iff_toNat_le, UInt16.reduceToNat]
    omega
  calc lc.toLowerCase d = lower d := lc.ascii d fun c hc => (hdigit c hc).1
    _ = d := by
      rw [lower, List.map_congr_left fun c hc => (hdigit c hc).2, List.map_id']

lemma expectedDigest_of_isSha256Hex (rt : Preflight) {d : JsString} (h : isSha256Hex d = true) :
    expectedDigest rt (some d) = some d := by
  have hlen : d.length > 0 := by
    rw [isSha256Hex, Bool.and_eq_true, decide_eq_true_eq] at h
    omega
  rw [expectedDigest, Option.filter_some_pos (by rw [decide_eq_true hlen]), Option.map_some,
    toLowerCase_of_isSha256Hex rt.lc h]

/-! ### The invariant -/

section Invariant

variable (rt : Preflight) (spec : DownloadSpec)

/-- A digest that is recorded, or that the user has confirmed. -/
def Authorised (confirmed : List JsString) (d : JsString) : Prop :=
  expectedDigest rt spec.sha256 = some d ∨ d ∈ confirmed

/-- What a call that is under way has read, written and been told. -/
def CallFits (disk : Disk Place) (confirmed : List JsString) : InstallCall → Prop
  | .fetching expected => ∀ d, expected = some d → Authorised rt spec confirmed d
  | .streaming expected x received =>
      (∀ d, expected = some d → Authorised rt spec confirmed d) ∧
        disk.names .part = some x ∧ disk.bytes x = received
  | .removing _ => True
  | .stating d => isSha256Hex d = true ∧ d ∈ confirmed
  | .reading d x got => d ∈ confirmed ∧ disk.names .part = some x ∧ got <+: disk.bytes x
  | .moving d =>
      Authorised rt spec confirmed d ∧ (disk.content .part).map rt.sha256 = some d

/-- What is in place has an authorised digest; one call at most is under way. -/
structure Vetted (s : Installing) : Prop where
  bound : ∀ n, (s.calls n).isSome → n < s.count
  one : ∀ n m, (s.calls n).isSome → (s.calls m).isSome → n = m
  fits : ∀ n, ∀ c ∈ s.calls n, CallFits rt spec s.disk s.confirmed c
  installed : ∀ d ∈ (s.disk.content .destination).map rt.sha256,
    Authorised rt spec s.confirmed d

end Invariant

section Steps

variable {rt : Preflight} {spec : DownloadSpec} {s s' : Installing} {n : ℕ}

/-- The two files are not one. -/
lemma destination_ne {d : Disk Place} {x : ℕ} (hx : d.names .part = some x) :
    d.names .destination ≠ some x :=
  fun hd => absurd (d.inj .part .destination x hx hd) (by simp)

/-- The only call goes on, or is over. -/
lemma Vetted.replace (h : Vetted rt spec s) (hn : (s.calls n).isSome) {call : Option InstallCall}
    (hcalls : s'.calls = Function.update s.calls n call) (hcount : s'.count = s.count)
    (hconfirmed : s'.confirmed = s.confirmed)
    (hfits : ∀ c ∈ call, CallFits rt spec s'.disk s.confirmed c)
    (hinstalled : ∀ d ∈ (s'.disk.content .destination).map rt.sha256,
      Authorised rt spec s.confirmed d) : Vetted rt spec s' := by
  have hsome : ∀ m, (s'.calls m).isSome → m = n := by
    intro m hm
    by_contra hmn
    rw [hcalls, Function.update_of_ne hmn] at hm
    exact hmn (h.one m n hm hn)
  refine ⟨fun m hm => ?_, fun m k hm hk => ?_, fun m c hc => ?_, ?_⟩
  · rw [hsome m hm, hcount]
    exact h.bound n hn
  · rw [hsome m hm, hsome k hk]
  · have hm := hsome m (by rw [Option.mem_def.mp hc]; rfl)
    rw [hcalls, hm, Function.update_self] at hc
    rw [hconfirmed]
    exact hfits c hc
  · rw [hconfirmed]
    exact hinstalled

lemma Vetted.goOn (h : Vetted rt spec s) (hn : (s.calls n).isSome) {c : InstallCall}
    (hc : CallFits rt spec s.disk s.confirmed c) : Vetted rt spec (s.goOn n c) :=
  h.replace hn rfl rfl rfl (fun _ hd => Option.mem_some.mp hd ▸ hc) h.installed

lemma Vetted.settle (h : Vetted rt spec s) (hn : (s.calls n).isSome)
    (outcome : Option InstallOutcome) : Vetted rt spec (s.settle n outcome) :=
  h.replace hn rfl rfl rfl (fun _ hd => absurd hd (Option.not_mem_none _)) h.installed

lemma Vetted.calls_eq_none (h : Vetted rt spec s) (hidle : ∀ m < s.count, (s.calls m).isNone)
    (m : ℕ) : s.calls m = none := by
  by_contra hm
  have hm := Option.isSome_iff_ne_none.mpr hm
  exact Bool.false_ne_true (Option.isNone_eq_false_iff.mpr hm ▸ hidle m (h.bound m hm))

/-- A call is made while there is none. -/
lemma Vetted.start (h : Vetted rt spec s) (hidle : ∀ m < s.count, (s.calls m).isNone)
    {call : Option InstallCall} (hcalls : s'.calls = Function.update s.calls s.count call)
    (hcount : s'.count = s.count + 1) (hdisk : s'.disk = s.disk)
    (hconfirmed : s.confirmed ⊆ s'.confirmed)
    (hfits : ∀ c ∈ call, CallFits rt spec s.disk s'.confirmed c) : Vetted rt spec s' := by
  have hsome : ∀ m, (s'.calls m).isSome → m = s.count := by
    intro m hm
    by_contra hne
    rw [hcalls, Function.update_of_ne hne, h.calls_eq_none hidle m] at hm
    exact Bool.false_ne_true hm
  refine ⟨fun m hm => ?_, fun m k hm hk => ?_, fun m c hc => ?_, fun d hd => ?_⟩
  · rw [hsome m hm, hcount]
    exact Nat.lt_succ_self _
  · rw [hsome m hm, hsome k hk]
  · have hm := hsome m (by rw [Option.mem_def.mp hc]; rfl)
    rw [hcalls, hm, Function.update_self] at hc
    rw [hdisk]
    exact hfits c hc
  · rw [hdisk] at hd
    exact (h.installed d hd).imp_right fun hmem => hconfirmed hmem

/-- While no call is under way the partial file may become anything. -/
lemma vetted_outside (h : Vetted rt spec s) (hidle : ∀ m < s.count, (s.calls m).isNone)
    (bytes : Option (List UInt8)) (hstep : installStep rt spec s (.outside bytes) = some s') :
    Vetted rt spec s' := by
  have hnone := h.calls_eq_none hidle
  -- the destination is all that an invariant without calls speaks of
  have hsame (disk : Disk Place) (hdisk : disk.content .destination = s.disk.content .destination) :
      Vetted rt spec (s.setDisk disk) := by
    refine ⟨h.bound, h.one, fun m c hc => ?_, ?_⟩
    · have hc : s.calls m = some c := hc
      exact absurd ((hnone m).symm.trans hc) (by simp)
    · rw [Installing.setDisk, hdisk]
      exact h.installed
  cases bytes with
  | none =>
      cases hstep
      exact hsame _ (s.disk.content_remove (by simp))
  | some bytes =>
      simp only [installStep, Option.map_eq_some_iff] at hstep
      obtain ⟨x, hx, rfl⟩ := hstep
      refine hsame _ ?_
      calc (((s.disk.remove .part).createNew .part).write x 0 bytes).content .destination
          = ((s.disk.remove .part).createNew .part).content .destination :=
            Disk.content_write _ _ _ (destination_ne hx)
        _ = (s.disk.remove .part).content .destination := Disk.content_createNew _ (by simp)
        _ = s.disk.content .destination := Disk.content_remove _ (by simp)

lemma vetted_startInstall (h : Vetted rt spec s) (hidle : ∀ m < s.count, (s.calls m).isNone)
    (id : PrerequisiteId) (confirmed : Option JsString) :
    Vetted rt spec (startInstall rt spec s id confirmed) := by
  -- a call that fails at once leaves nothing under way
  have hover (o : InstallOutcome) :
      Vetted rt spec ({ s with count := s.count + 1 }.settle s.count (some o)) :=
    h.start hidle rfl rfl rfl (List.Subset.refl _) fun _ hd => absurd hd (Option.not_mem_none _)
  rw [startInstall]
  by_cases hoff : id = .printHelper ∧ rt.printingEnabled = false
  · rw [if_pos hoff]
    exact hover _
  rw [if_neg hoff]
  split
  · by_cases hid : id = spec.id
    · rw [if_pos hid]
      refine h.start hidle rfl rfl rfl (List.Subset.refl _) fun c hc => ?_
      cases Option.mem_some.mp hc
      exact fun d hd => .inl hd
    · rw [if_neg hid]
      exact hover _
  · by_cases hid : id = spec.id
    · rw [if_pos hid]
      dsimp only
      split_ifs with hhex
      · refine h.start hidle rfl rfl rfl (List.subset_cons_self _ _) fun c hc => ?_
        cases Option.mem_some.mp hc
        exact ⟨hhex, List.mem_cons_self⟩
      · exact hover _
    · rw [if_neg hid]
      exact hover _

/-- Only one call is under way, so a step of it is all that happens to the partial file. -/
theorem vetted_step {a : InstallAction} (h : Vetted rt spec s) (ha : alone s a = true)
    (hstep : installStep rt spec s a = some s') : Vetted rt spec s' := by
  cases a with
  | install id confirmed =>
      cases hstep
      exact vetted_startInstall h (of_decide_eq_true ha) id confirmed
  | responded n declared =>
      simp only [installStep] at hstep
      split at hstep
      case h_2 => exact absurd hstep (by simp)
      case h_1 expected hc =>
        have hn : (s.calls n).isSome := by rw [hc]; rfl
        split at hstep
        · cases hstep
          exact h.goOn hn trivial
        · obtain ⟨x, hx, rfl⟩ := Option.map_eq_some_iff.mp hstep
          refine h.replace hn rfl rfl rfl (fun c hd => ?_) ?_
          · cases Option.mem_some.mp hd
            obtain ⟨y, hy, hempty, -⟩ := s.disk.exists_truncate .part
            cases Option.some.inj (hx.symm.trans hy)
            exact ⟨h.fits n _ hc, hx, hempty⟩
          · simp only [Installing.goOn, Installing.setDisk]
            rw [s.disk.content_truncate (p := .part) (by simp)]
            exact h.installed
  | broken n message =>
      simp only [installStep] at hstep
      split at hstep
      case h_3 => exact absurd hstep (by simp)
      all_goals
        rename_i hc
        cases hstep
        exact h.goOn (by rw [hc]; rfl) trivial
  | chunk n bytes =>
      simp only [installStep] at hstep
      split at hstep
      case h_2 => exact absurd hstep (by simp)
      case h_1 expected x received hc =>
        have hn : (s.calls n).isSome := by rw [hc]; rfl
        obtain ⟨hexpected, hx, hbytes⟩ := h.fits n _ hc
        split_ifs at hstep with hlarge
        · cases hstep
          exact h.goOn hn trivial
        · cases hstep
          refine h.replace hn rfl rfl rfl (fun c hd => ?_) ?_
          · cases Option.mem_some.mp hd
            refine ⟨hexpected, hx, ?_⟩
            simp only [Installing.goOn, Installing.setDisk, Disk.write, Function.update_self]
            rw [hbytes, Disk.writeAt_length]
          · simp only [Installing.goOn, Installing.setDisk]
            rw [s.disk.content_write _ _ (destination_ne hx)]
            exact h.installed
  | bodyEnded n =>
      simp only [installStep] at hstep
      split at hstep
      case h_2 => exact absurd hstep (by simp)
      case h_1 expected x received hc =>
        have hn : (s.calls n).isSome := by rw [hc]; rfl
        obtain ⟨hexpected, hx, hbytes⟩ := h.fits n _ hc
        split at hstep
        · cases hstep
          exact h.settle hn _
        · split_ifs at hstep with hsame
          · cases hstep
            refine h.goOn hn ⟨hexpected _ rfl, ?_⟩
            rw [Disk.content, hx, Option.map_some, Option.map_some, hbytes, hsame]
          · cases hstep
            exact h.goOn hn trivial
  | removed n =>
      simp only [installStep] at hstep
      split at hstep
      case h_2 => exact absurd hstep (by simp)
      case h_1 outcome hc =>
        cases hstep
        refine h.replace (n := n) (by rw [hc]; rfl) rfl rfl rfl
          (fun _ hd => absurd hd (Option.not_mem_none _)) ?_
        simp only [Installing.settle, Installing.setDisk]
        rw [s.disk.content_remove (p := .part) (by simp)]
        exact h.installed
  | stated n =>
      simp only [installStep] at hstep
      split at hstep
      case h_2 => exact absurd hstep (by simp)
      case h_1 digest hc =>
        have hn : (s.calls n).isSome := by rw [hc]; rfl
        obtain ⟨hhex, hmem⟩ := h.fits n _ hc
        split at hstep
        · cases hstep
          refine h.goOn hn fun d hd => .inr ?_
          rw [expectedDigest_of_isSha256Hex rt hhex, Option.some_inj] at hd
          exact hd ▸ hmem
        · rename_i x hx
          cases hstep
          exact h.goOn hn ⟨hmem, hx, List.nil_prefix⟩
  | read n k =>
      simp only [installStep] at hstep
      split at hstep
      case h_2 => exact absurd hstep (by simp)
      case h_1 digest x got hc =>
        obtain ⟨hmem, hx, hgot⟩ := h.fits n _ hc
        cases hstep
        refine h.goOn (by rw [hc]; rfl) ⟨hmem, hx, ?_⟩
        obtain ⟨rest, hrest⟩ := hgot
        rw [← hrest, List.drop_left, List.prefix_append_right_inj]
        exact List.take_prefix _ _
  | readEnded n =>
      simp only [installStep] at hstep
      split at hstep
      case h_2 => exact absurd hstep (by simp)
      case h_1 digest x got hc =>
        have hn : (s.calls n).isSome := by rw [hc]; rfl
        obtain ⟨hmem, hx, hgot⟩ := h.fits n _ hc
        split_ifs at hstep with hlen hsame
        · cases hstep
          refine h.goOn hn ⟨.inr hmem, ?_⟩
          rw [Disk.content, hx, Option.map_some, Option.map_some, ← hgot.eq_of_length_le hlen,
            hsame]
        · cases hstep
          exact h.goOn hn trivial
  | threw n =>
      simp only [installStep] at hstep
      split at hstep
      case h_3 => exact absurd hstep (by simp)
      all_goals
        rename_i hc
        cases hstep
        exact h.settle (by rw [hc]; rfl) _
  | moved n =>
      simp only [installStep] at hstep
      split at hstep
      case h_2 => exact absurd hstep (by simp)
      case h_1 digest hc =>
        obtain ⟨hauthorised, hcontent⟩ := h.fits n _ hc
        obtain ⟨x, -, rfl⟩ := Option.map_eq_some_iff.mp hstep
        refine h.replace (n := n) (by rw [hc]; rfl) rfl rfl rfl
          (fun _ hd => absurd hd (Option.not_mem_none _)) fun d hd => ?_
        simp only [Installing.settle, Installing.setDisk] at hd
        rw [s.disk.content_rename_self, hcontent, Option.mem_some] at hd
        exact hd ▸ hauthorised
  | notMoved n message =>
      simp only [installStep] at hstep
      split at hstep
      case h_2 => exact absurd hstep (by simp)
      case h_1 digest hc =>
        cases hstep
        exact h.settle (by rw [hc]; rfl) _
  | kill =>
      cases hstep
      exact ⟨fun _ hn => absurd hn Bool.false_ne_true, fun _ _ hn => absurd hn Bool.false_ne_true,
        fun _ _ hc => absurd hc (Option.not_mem_none _), h.installed⟩
  | outside bytes => exact vetted_outside h (of_decide_eq_true ha) bytes hstep

end Steps

/-! ### Runs -/

section Runs

variable {rt : Preflight} {spec : DownloadSpec} {s : Installing} {as : List InstallAction}

lemma vetted_init : Vetted rt spec .init := by
  refine ⟨fun _ hn => absurd hn Bool.false_ne_true, fun _ _ hn => absurd hn Bool.false_ne_true,
    fun _ _ hc => absurd hc (Option.not_mem_none _), fun d hd => ?_⟩
  exact absurd hd (Option.not_mem_none _)

/-- A digest that the user passed to a call. -/
def WasConfirmed (rt : Preflight) (as : List InstallAction) (d : JsString) : Prop :=
  ∃ id text, .install id (some text) ∈ as ∧ isSha256Hex d = true ∧
    rt.lc.toLowerCase (trim text) = d

lemma confirmed_startInstall {id : PrerequisiteId} {confirmed : Option JsString} {d : JsString}
    (hd : d ∈ (startInstall rt spec s id confirmed).confirmed) :
    d ∈ s.confirmed ∨ WasConfirmed rt [.install id confirmed] d := by
  rw [startInstall] at hd
  by_cases hoff : id = .printHelper ∧ rt.printingEnabled = false
  · rw [if_pos hoff] at hd
    exact .inl hd
  rw [if_neg hoff] at hd
  split at hd
  · split_ifs at hd <;> exact .inl hd
  · rename_i text htext
    have htext : confirmed = some text := (Option.filter_eq_some_iff.mp htext).1
    dsimp only at hd
    split_ifs at hd with hid hhex
    · rcases List.mem_cons.mp hd with rfl | hd
      · exact .inr ⟨id, text, htext ▸ List.mem_singleton_self _, hhex, rfl⟩
      · exact .inl hd
    · exact .inl hd
    · exact .inl hd

/-- Only a call adds to what is confirmed. -/
lemma confirmed_installStep {a : InstallAction} {t : Installing}
    (hstep : installStep rt spec s a = some t) {d : JsString} (hd : d ∈ t.confirmed) :
    d ∈ s.confirmed ∨ WasConfirmed rt [a] d := by
  cases a with
  | install id confirmed =>
      cases hstep
      exact confirmed_startInstall hd
  | _ =>
      refine .inl ?_
      simp only [installStep] at hstep
      repeat' split at hstep
      all_goals
        first
          | cases hstep <;> exact hd
          | obtain ⟨x, -, rfl⟩ := Option.map_eq_some_iff.mp hstep; exact hd

lemma wasConfirmed_of_run (h : Run (Steps (installStep rt spec)) .init as s) :
    ∀ d ∈ s.confirmed, WasConfirmed rt as d := by
  refine (h.history (I := fun as s => ∀ d ∈ s.confirmed, WasConfirmed rt as d) ?_ ?_ :
    ∀ d ∈ s.confirmed, WasConfirmed rt ([] ++ as) d)
  · intro as s a t hs hstep d hd
    rcases confirmed_installStep hstep hd with hd | ⟨id, text, hmem, hd⟩
    · obtain ⟨id, text, hmem, hd⟩ := hs d hd
      exact ⟨id, text, List.mem_append_left _ hmem, hd⟩
    · exact ⟨id, text, List.mem_append_right _ hmem, hd⟩
  · exact fun d hd => absurd hd List.not_mem_nil

/-- **What is in place was vetted.** Whatever the network delivers and wherever a call fails or
the application is killed, as long as one call at a time is under way and nobody else writes the
partial file during it: the file at the destination has the recorded digest, or one that the user
has confirmed. -/
theorem installed_vetted
    (h : Run (Guarded (fun s a => alone s a = true) (installStep rt spec)) .init as s)
    {bytes : List UInt8} (hbytes : s.disk.content .destination = some bytes) :
    expectedDigest rt spec.sha256 = some (rt.sha256 bytes) ∨
      WasConfirmed rt as (rt.sha256 bytes) := by
  have hvetted : Vetted rt spec s :=
    h.invariant (fun _ _ _ hs hstep => vetted_step hs hstep.1 hstep.2) vetted_init
  refine (hvetted.installed _ ?_).imp_right fun hmem => wasConfirmed_of_run (Guarded.run h) _ hmem
  rw [hbytes]
  exact Option.mem_some_self _

/-- The download of the table, with printing switched on. -/
def printHelper : DownloadSpec :=
  { id := .printHelper
    url := js "https://www.sumatrapdfreader.org/dl/rel/3.6.1/SumatraPDF-3.6.1-64.exe"
    sourceUrl := js "https://www.sumatrapdfreader.org/download-free-pdf-viewer"
    version := js "3.6.1"
    sha256 := none
    destination := js "SumatraPDF.exe"
    licence := js "GPLv3" }

/-- The digest of the text `abc`. -/
def abcDigest : JsString := js "ba7816bf8f01cfea414140de5dae2223b00361a396177a9cb410ff61f20015ad"

/-- What the calls are given where the text `abc` is all that is ever hashed. -/
def abcPreflight : Preflight where
  sha256 _ := abcDigest
  lc := .basic
  idText _ := js "print-helper"
  destinationPath := js "SumatraPDF.exe"
  printingEnabled := true

/-- The first call fetches the text, and the second confirms its digest. -/
def confirmedInstall : List InstallAction :=
  [.install .printHelper none, .responded 0 (some 3), .chunk 0 [97, 98], .chunk 0 [99],
    .bodyEnded 0, .install .printHelper (some (js " " ++ abcDigest.map upperUnit)), .stated 1,
    .read 1 2, .read 1 9, .readEnded 1, .moved 1]

theorem installed_vetted_confirmed : ∃ s,
    Run (Guarded (fun s a => alone s a = true) (installStep abcPreflight printHelper)) .init
      confirmedInstall s ∧
    s.disk.content .destination = some [97, 98, 99] ∧
    (expectedDigest abcPreflight printHelper.sha256 = some abcDigest ∨
      WasConfirmed abcPreflight confirmedInstall abcDigest) := by
  obtain ⟨s, hrun, hs⟩ := exists_guarded_run_of_exec (fun s a => alone s a = true)
    (installStep abcPreflight printHelper) .init confirmedInstall
    (fun s => s.disk.content .destination = some [97, 98, 99]) (by decide +kernel)
  have hcontent := of_decide_eq_true hs
  exact ⟨s, hrun, hcontent, installed_vetted hrun hcontent⟩

/-- The first call of the two has checked what it fetched when the second empties the file. -/
def twoInstalls (id : PrerequisiteId) (good bytes : List UInt8) : List InstallAction :=
  [.install id none, .responded 0 none, .chunk 0 good, .bodyEnded 0, .install id none,
    .responded 1 none, .moved 0, .chunk 1 bytes]

/-- Two calls at once put anything into place: what the second one writes, into the file that the
first has moved. -/
theorem overlapping_installs {good bytes : List UInt8}
    (hprint : ¬ (spec.id = .printHelper ∧ rt.printingEnabled = false))
    (hgood : expectedDigest rt spec.sha256 = some (rt.sha256 good))
    (hlen : good.length ≤ MAX_BYTES) (hlen' : bytes.length ≤ MAX_BYTES) :
    ∃ s, Run (Steps (installStep rt spec)) .init (twoInstalls spec.id good bytes) s ∧
      s.disk.content .destination = some bytes := by
  have hwrite (data : List UInt8) : Disk.writeAt [] 0 data = data := Disk.writeAt_length [] data
  have hexec : (exec (installStep rt spec) .init (twoInstalls spec.id good bytes)).bind
      (fun s => s.disk.content .destination) = some bytes := by
    simp [twoInstalls, exec, installStep, startInstall, hprint, hgood, hlen.not_gt, hlen'.not_gt,
      hwrite, Installing.init, Installing.goOn, Installing.settle, Installing.setDisk,
      Disk.truncate, Disk.createNew, Disk.empty, Disk.write, Disk.rename, Disk.content]
  obtain ⟨s, hs, hcontent⟩ := Option.bind_eq_some_iff.mp hexec
  exact ⟨s, exec_eq_some_iff.mp hs, hcontent⟩

end Runs

end LocalCast.Desktop
