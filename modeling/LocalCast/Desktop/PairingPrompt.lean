import LocalCast.Db.Schema
import LocalCast.Foundations.JsString
import LocalCast.Foundations.PromiseChain

/-!
`main/pairingPrompt.ts` of the desktop application: the person at the computer is asked whether a
device may connect.

* `replaceFirst`: `replace` with a text as its pattern, and what `$` means in the replacement.
* `Prompts`, `promptStep`: the devices that are being asked about, the promise chain of their
  prompts, and where each prompt waits.
* `Turns`: the invariant; `turns_step` is one step of it, over the order of the promise chain.
* `prompts_in_turn`: whatever arrives and however it is answered or fails, what the person and the
  server get to see is one prompt after another, each about one device.
-/

namespace LocalCast.Desktop

open JsString Db Runs PromiseChain

/-! ### `replace` -/

/-- `GetSubstitution` without groups: what a replacement says, `matched` being what it replaces,
between `before` and `after`. -/
def getSubstitution (matched before after : JsString) : JsString → JsString
  | 36 :: 36 :: rest => 36 :: getSubstitution matched before after rest
  | 36 :: 38 :: rest => matched ++ getSubstitution matched before after rest
  | 36 :: 96 :: rest => before ++ getSubstitution matched before after rest
  | 36 :: 39 :: rest => after ++ getSubstitution matched before after rest
  | c :: rest => c :: getSubstitution matched before after rest
  | [] => []

/-- What is before and behind the first occurrence of `pattern`. -/
def aroundFirst (pattern : JsString) : JsString → Option (JsString × JsString)
  | [] => if pattern = [] then some ([], []) else none
  | c :: rest =>
      if pattern.isPrefixOf (c :: rest) then some ([], (c :: rest).drop pattern.length)
      else (aroundFirst pattern rest).map fun x => (c :: x.1, x.2)

/-- `text.replace(pattern, replacement)`. -/
def replaceFirst (pattern replacement text : JsString) : JsString :=
  match aroundFirst pattern text with
  | none => text
  | some (before, after) =>
      before ++ getSubstitution pattern before after replacement ++ after

/-- Without `$`, a replacement stands for itself. -/
lemma getSubstitution_plain {matched before after : JsString} {s : JsString} (h : 36 ∉ s) :
    getSubstitution matched before after s = s := by
  induction s with
  | nil => rfl
  | cons c rest ih =>
      have hc : c ≠ 36 := fun heq => h (heq ▸ List.mem_cons_self)
      have hrest : 36 ∉ rest := fun hmem => h (List.mem_cons_of_mem _ hmem)
      rw [getSubstitution, ih hrest]
      all_goals
        intros
        simp_all

/-- A label without `$` stands where `pattern` was, and leaves the rest as it is. -/
lemma replaceFirst_plain {pattern label text before after : JsString} (h : 36 ∉ label)
    (haround : aroundFirst pattern text = some (before, after)) :
    replaceFirst pattern label text = before ++ label ++ after := by
  simp only [replaceFirst, haround, getSubstitution_plain h]

/-- A device whose name ends in a `$` and a quote repeats what follows it. -/
example : replaceFirst (js "%s") (js "Mum$'") (js "Allow %s to connect?") =
    js "Allow Mum to connect? to connect?" := by
  decide +kernel

/-! ### The prompts -/

structure PromptStrings where
  notificationTitle : JsString
  notificationBody : JsString
  question : JsString
  detail : JsString
  approve : JsString
  reject : JsString
deriving DecidableEq

inductive Locale where
  | fa | en
deriving DecidableEq

/-- `STRINGS`. -/
def STRINGS : Locale → PromptStrings
  | .fa =>
    { notificationTitle := js "دستگاه جدید"
      notificationBody := js "%s می‌خواهد به LocalCast وصل شود"
      question := js "به «%s» اجازه‌ی دسترسی می‌دهید؟"
      detail := js <|
        "این دستگاه کد اتصال را وارد کرده است. با تأیید، به پوشه‌هایی که برایش " ++
        "تعیین شده دسترسی پیدا می‌کند. هر وقت بخواهید می‌توانید از بخش دستگاه‌ها " ++
        "دسترسی‌اش را ببندید."
      approve := js "تأیید"
      reject := js "رد" }
  | .en =>
    { notificationTitle := js "New device"
      notificationBody := js "%s wants to connect to LocalCast"
      question := js "Allow “%s” to connect?"
      detail := js <|
        "This device entered the pairing code. Approving gives it access to the " ++
        "folders assigned to it. You can close its access from the Devices " ++
        "screen at any time."
      approve := js "Approve"
      reject := js "Reject" }

structure DeviceSummary where
  id : JsString
  name : JsString
  status : DeviceStatus
deriving DecidableEq

/-- An event of the server; `none` where a field is no text. -/
structure ServerSignal where
  type : JsString
  status : Option JsString
  deviceId : Option JsString
deriving DecidableEq

/-- What the person and the server get to see. -/
inductive PromptEvent where
  | notify (title body : JsString)
  | ask (question detail approveLabel rejectLabel : JsString)
  | decided (approved : Bool) (deviceId : JsString)
deriving DecidableEq

/-- Where `run` waits: for its turn, for the devices, for the person, for the decision to be
recorded; or it has ended, and `finally` is to come. -/
inductive PromptPhase where
  | queued
  | listing (locale : Locale)
  | asking
  | deciding
  | ended
deriving DecidableEq

/-- The prompts are numbered as they are appended; `device` says whom a prompt is about. -/
structure Prompts where
  asking : List JsString
  chains : Chains Unit ℕ
  count : ℕ
  device : ℕ → JsString
  phase : ℕ → PromptPhase
  log : List (ℕ × PromptEvent)

def Prompts.init : Prompts where
  asking := []
  chains := .init
  count := 0
  device _ := []
  phase _ := .queued
  log := []

def nameOf (device : Option DeviceSummary) (deviceId : JsString) : JsString :=
  ((device.map fun d => trim d.name).filter fun name => name.length > 0).getD (deviceId.take 8)

/-- The toast and the dialog. -/
def shown (locale : Locale) (label : JsString) : List PromptEvent :=
  let strings := STRINGS locale
  [.notify strings.notificationTitle (replaceFirst (js "%s") label strings.notificationBody),
    .ask (replaceFirst (js "%s") label strings.question) strings.detail strings.approve
      strings.reject]

/-- An event is handled; a prompt gets its turn; the devices are listed, or cannot be, and the
toast may throw; the person answers, or the dialog fails; the decision is recorded, or cannot
be; `finally`. -/
inductive PromptAction where
  | handle (event : ServerSignal)
  | start (n : ℕ) (locale : Locale)
  | listed (n : ℕ) (devices : Option (List DeviceSummary)) (throws : Bool)
  | answered (n : ℕ) (approved : Bool)
  | failed (n : ℕ)
  | recorded (n : ℕ)
  | finished (n : ℕ)

namespace Prompts

variable (s : Prompts) (n : ℕ)

/-- The run of prompt `n` goes on at `phase`. -/
def goOn (phase : PromptPhase) : Prompts :=
  { s with phase := Function.update s.phase n phase }

def record (events : List PromptEvent) : Prompts :=
  { s with log := s.log ++ events.map fun e => (n, e) }

/-- The end of `handle`. -/
def append (deviceId : JsString) : Prompts :=
  { s with
    asking := deviceId :: s.asking
    chains :=
      { link := Function.update s.chains.link s.count (some (.waiting (s.chains.last ())))
        last := Function.update s.chains.last () (some s.count) }
    count := s.count + 1
    device := Function.update s.device s.count deviceId
    phase := Function.update s.phase s.count .queued }

/-- Whether the prompt `n` runs, and waits at `phase`. -/
def isAt (phase : PromptPhase) : Bool :=
  s.chains.link n = some .running && s.phase n = phase

/-- Whether what a prompt waits for has settled. -/
def isReady (previous : Option ℕ) : Bool :=
  previous.all fun p => s.chains.link p = some .settled

end Prompts

/-- One step; `none` where it is not enabled. -/
def promptStep (s : Prompts) : PromptAction → Option Prompts
  | .handle event =>
      if event.type ≠ js "device" ∨ event.status ≠ some (js "pending") then some s
      else
        match event.deviceId with
        | none => some s
        | some deviceId =>
            if deviceId.length = 0 ∨ deviceId ∈ s.asking then some s else some (s.append deviceId)
  | .start n locale =>
      match s.chains.link n with
      | some (.waiting previous) =>
          if s.isReady previous then
            some { s.goOn n (.listing locale) with chains := s.chains.setLink n .running }
          else none
      | _ => none
  | .listed n devices throws =>
      match s.phase n with
      | .listing locale =>
          if s.chains.link n ≠ some .running then none
          else
            let device := devices.bind fun ds => ds.find? fun d => d.id = s.device n
            if device.any fun d => d.status ≠ .pending then some (s.goOn n .ended)
            else if throws then some (s.goOn n .ended)
            else some ((s.record n (shown locale (nameOf device (s.device n)))).goOn n .asking)
      | _ => none
  | .answered n approved =>
      if s.isAt n .asking then
        some ((s.record n [.decided approved (s.device n)]).goOn n .deciding)
      else none
  | .failed n => if s.isAt n .asking then some (s.goOn n .ended) else none
  | .recorded n => if s.isAt n .deciding then some (s.goOn n .ended) else none
  | .finished n =>
      if s.isAt n .ended then
        some { s with
          asking := s.asking.filter fun id => id ≠ s.device n
          chains := s.chains.setLink n .settled }
      else none

/-! ### One step -/

namespace Prompts

variable {s t : Prompts} {n m : ℕ}

/-- What prompt `n` has shown and decided, in order. -/
def eventsOf (s : Prompts) (n : ℕ) : List PromptEvent :=
  (s.log.filter fun x => x.1 = n).map Prod.snd

/-- The prompt is in the queue, or runs. -/
def Pending (s : Prompts) (n : ℕ) : Prop := n < s.count ∧ s.chains.link n ≠ some .settled

lemma isAt_iff {phase : PromptPhase} :
    s.isAt n phase = true ↔ s.chains.link n = some .running ∧ s.phase n = phase := by
  rw [isAt, Bool.and_eq_true, decide_eq_true_eq, decide_eq_true_eq]

lemma isReady_iff {previous : Option ℕ} :
    s.isReady previous = true ↔ s.chains.Ready previous := by
  cases previous with
  | none => exact iff_of_true rfl trivial
  | some p => exact decide_eq_true_iff

@[simp] lemma eventsOf_goOn (phase : PromptPhase) : (s.goOn n phase).eventsOf m = s.eventsOf m :=
  rfl

lemma eventsOf_record (events : List PromptEvent) :
    (s.record n events).eventsOf m = s.eventsOf m ++ if n = m then events else [] := by
  rw [eventsOf, eventsOf, record, List.filter_append, List.map_append]
  congr 1
  split_ifs with h
  · subst h
    induction events with
    | nil => rfl
    | cons e rest ih => simp [ih]
  · induction events with
    | nil => rfl
    | cons e rest ih => simp [h]

@[simp] lemma record_nil : s.record n [] = s := by
  rw [record, List.map_nil, List.append_nil]

end Prompts

/-- What one prompt shows and decides: nothing, or a toast and a dialog, and then at most one
decision, about its device. -/
def IsEpisode (deviceId : JsString) (events : List PromptEvent) : Prop :=
  events = [] ∨ ∃ locale label, events = shown locale label ∨
    ∃ approved, events = shown locale label ++ [.decided approved deviceId]

/-- The same of a prompt that waits at `phase`. -/
def EpisodeAt (deviceId : JsString) : PromptPhase → List PromptEvent → Prop
  | .queued, events | .listing _, events => events = []
  | .asking, events => ∃ locale label, events = shown locale label
  | .deciding, events | .ended, events => IsEpisode deviceId events

/-- The invariant: the prompts are a promise chain in the order in which they were appended; what
they have shown is in that order; and no device has two prompts pending. -/
structure Turns (s : Prompts) : Prop where
  chain : ∃ es, Run PromiseChain.Step .init es s.chains ∧ appended () es = List.range s.count
  begun : ∀ n, s.phase n = .queued ∨ s.chains.link n = some .running ∨
    s.chains.link n = some .settled
  ordered : (s.log.map Prod.fst).Pairwise (· ≤ ·)
  logged : ∀ x ∈ s.log, s.phase x.1 ≠ .queued
  episodes : ∀ n, EpisodeAt (s.device n) (s.phase n) (s.eventsOf n)
  asked : ∀ n, s.Pending n → s.device n ∈ s.asking
  apart : ∀ n m, s.Pending n → s.Pending m → s.device n = s.device m → n = m

section Step

variable {s t : Prompts} {n m : ℕ}

lemma isEpisode_of_at {deviceId : JsString} {phase : PromptPhase} {events : List PromptEvent}
    (h : EpisodeAt deviceId phase events) : IsEpisode deviceId events := by
  cases phase with
  | queued | listing locale => exact .inl h
  | asking =>
      obtain ⟨locale, label, rfl⟩ := h
      exact .inr ⟨locale, label, .inl rfl⟩
  | deciding | ended => exact h

lemma turns_init : Turns .init where
  chain := ⟨[], .nil _, rfl⟩
  begun _ := .inl rfl
  ordered := List.Pairwise.nil
  logged _ h := absurd h List.not_mem_nil
  episodes _ := rfl
  asked _ h := absurd h.1 (Nat.not_lt_zero _)
  apart _ _ h := absurd h.1 (Nat.not_lt_zero _)

/-- Only what was appended has a link. -/
lemma Turns.lt_count {l : Link ℕ} (h : Turns s) (hl : s.chains.link n = some l) : n < s.count := by
  obtain ⟨es, hrun, hes⟩ := h.chain
  obtain ⟨k, hk⟩ := (ordered_of_run hrun).mem_of_link hl
  exact List.mem_range.mp (hes ▸ hk)

/-- The prompts that have begun come before the one that runs. -/
lemma Turns.le_of_running (h : Turns s) (hn : s.chains.link n = some .running)
    (hm : s.phase m ≠ .queued) : m ≤ n := by
  obtain ⟨es, hrun, hes⟩ := h.chain
  have hlane := (ordered_of_run hrun).lane ()
  rw [hes] at hlane
  have hbegun := (h.begun m).resolve_left hm
  obtain ⟨done, current, queued, hjs, -, hdone, hone, hcurrent, hqueued⟩ := hlane
  have hmem {k : ℕ} (hk : s.chains.link k = some .running ∨ s.chains.link k = some .settled) :
      k ∈ done ++ current := by
    have hlt : k < s.count := hk.elim h.lt_count h.lt_count
    have hk' : k ∈ done ++ current ++ queued := hjs ▸ List.mem_range.mpr hlt
    refine (List.mem_append.mp hk').resolve_right fun hq => ?_
    obtain ⟨p, hwaiting⟩ := hqueued.waiting hq
    rcases hk with hk | hk <;> cases hk.symm.trans hwaiting
  have hlast : n ∈ current := by
    refine (List.mem_append.mp (hmem (.inl hn))).resolve_left fun hd => ?_
    cases (hdone n hd).symm.trans hn
  obtain ⟨r, rfl⟩ := List.length_eq_one_iff.mp (le_antisymm hone (List.length_pos_of_mem hlast))
  obtain rfl := List.mem_singleton.mp hlast
  have hsorted : (done ++ [n] ++ queued).Pairwise (· < ·) := hjs ▸ List.pairwise_lt_range
  rcases List.mem_append.mp (hmem hbegun) with hd | hc
  · exact ((List.pairwise_append.mp (List.pairwise_append.mp hsorted).1).2.2 m hd n
      (List.mem_singleton.mpr rfl)).le
  · exact (List.mem_singleton.mp hc).le

/-- **A prompt that runs goes on**, and may show something or decide. -/
lemma Turns.goOn (h : Turns s) (hrunning : s.chains.link n = some .running)
    (events : List PromptEvent) (phase : PromptPhase) (hphase : phase ≠ .queued)
    (hepisode : EpisodeAt (s.device n) phase (s.eventsOf n ++ events)) :
    Turns ((s.record n events).goOn n phase) := by
  have hphase' {k : ℕ} (hk : k ≠ n) : ((s.record n events).goOn n phase).phase k = s.phase k :=
    Function.update_of_ne hk _ _
  have hown : ((s.record n events).goOn n phase).phase n = phase := Function.update_self ..
  refine { h with
    begun := fun k => ?_, ordered := ?_, logged := fun x hx => ?_, episodes := fun k => ?_ }
  · by_cases hk : k = n
    · subst hk
      exact .inr (.inl hrunning)
    · rw [hphase' hk]
      exact h.begun k
  · have hmap : (((s.record n events).goOn n phase).log.map Prod.fst)
        = s.log.map Prod.fst ++ events.map fun _ => n := by
      simp [Prompts.goOn, Prompts.record, Function.comp_def]
    rw [hmap, List.pairwise_append]
    refine ⟨h.ordered, List.pairwise_map.mpr (List.pairwise_of_forall fun _ _ => le_rfl), ?_⟩
    intro k hk j hj
    obtain ⟨x, hx, rfl⟩ := List.mem_map.mp hk
    obtain ⟨e, -, rfl⟩ := List.mem_map.mp hj
    exact h.le_of_running hrunning (h.logged x hx)
  · by_cases hk : x.1 = n
    · rw [hk, hown]
      exact hphase
    · rw [hphase' hk]
      rcases List.mem_append.mp hx with hx | hx
      · exact h.logged x hx
      · obtain ⟨e, -, rfl⟩ := List.mem_map.mp hx
        exact absurd rfl hk
  · rw [Prompts.eventsOf_goOn, Prompts.eventsOf_record]
    by_cases hk : k = n
    · subst hk
      rw [hown, if_pos rfl]
      exact hepisode
    · rw [hphase' hk, if_neg (Ne.symm hk), List.append_nil]
      exact h.episodes k

/-- A device that is not being asked about gets a prompt behind all others. -/
lemma Turns.append (h : Turns s) {deviceId : JsString} (hnew : deviceId ∉ s.asking) :
    Turns (s.append deviceId) := by
  have hlink : s.chains.link s.count = none := by
    cases hl : s.chains.link s.count with
    | none => rfl
    | some l => exact absurd (h.lt_count hl) (lt_irrefl _)
  have hqueued : s.phase s.count = .queued := by
    rcases h.begun s.count with hq | hl | hl
    · exact hq
    · cases hlink.symm.trans hl
    · cases hlink.symm.trans hl
  have hphase (k : ℕ) : (s.append deviceId).phase k = s.phase k := by
    by_cases hk : k = s.count
    · subst hk
      exact (Function.update_self ..).trans hqueued.symm
    · exact Function.update_of_ne hk _ _
  have hdevice {k : ℕ} (hk : k < s.count) : (s.append deviceId).device k = s.device k :=
    Function.update_of_ne hk.ne _ _
  have hold {k : ℕ} (hk : (s.append deviceId).Pending k) :
      k = s.count ∧ (s.append deviceId).device k = deviceId ∨
        s.Pending k ∧ (s.append deviceId).device k = s.device k := by
    rcases (Nat.lt_succ_iff.mp hk.1).eq_or_lt with rfl | hlt
    · exact .inl ⟨rfl, Function.update_self ..⟩
    · refine .inr ⟨⟨hlt, ?_⟩, hdevice hlt⟩
      have hsame : (s.append deviceId).chains.link k = s.chains.link k :=
        Function.update_of_ne hlt.ne _ _
      exact hsame ▸ hk.2
  refine ⟨?_, fun k => ?_, h.ordered, fun x hx => ?_, fun k => ?_, fun k hk => ?_,
    fun k m hk hm => ?_⟩
  · obtain ⟨es, hrun, hes⟩ := h.chain
    refine ⟨es ++ [.append () s.count], hrun.append (.single (.append hlink)), ?_⟩
    rw [appended_append, if_pos rfl, hes]
    exact List.range_succ.symm
  · rw [hphase]
    by_cases hk : k = s.count
    · exact .inl (hk ▸ hqueued)
    · have hsame : (s.append deviceId).chains.link k = s.chains.link k :=
        Function.update_of_ne hk _ _
      rw [hsame]
      exact h.begun k
  · rw [hphase]
    exact h.logged x hx
  · rw [hphase]
    have hevents : (s.append deviceId).eventsOf k = s.eventsOf k := rfl
    rw [hevents]
    by_cases hk : k = s.count
    · have hnone := h.episodes s.count
      rw [hqueued] at hnone
      rw [hk, hqueued]
      exact hnone
    · have hsame : (s.append deviceId).device k = s.device k := Function.update_of_ne hk _ _
      rw [hsame]
      exact h.episodes k
  · rcases hold hk with ⟨-, hown⟩ | ⟨hpending, hsame⟩
    · rw [hown]
      exact List.mem_cons_self
    · rw [hsame]
      exact List.mem_cons_of_mem _ (h.asked k hpending)
  · rcases hold hk with ⟨rfl, hown⟩ | ⟨hpending, hsame⟩ <;>
      rcases hold hm with ⟨rfl, hown'⟩ | ⟨hpending', hsame'⟩
    · exact fun _ => rfl
    · rw [hown, hsame']
      exact fun heq => absurd (heq ▸ h.asked m hpending') hnew
    · rw [hsame, hown']
      exact fun heq => absurd (heq ▸ h.asked k hpending) hnew
    · rw [hsame, hsame']
      exact h.apart k m hpending hpending'

/-- The link of a prompt moves on. -/
lemma pending_of_setLink {l : Link ℕ} (hn : s.chains.link n ≠ some .settled)
    (hm : ({ s with chains := s.chains.setLink n l } : Prompts).Pending m) : s.Pending m := by
  refine ⟨hm.1, ?_⟩
  by_cases hk : m = n
  · rw [hk]
    exact hn
  · have hsame : (s.chains.setLink n l).link m = s.chains.link m := link_of_ne hk
    exact hsame ▸ hm.2

/-- A prompt gets its turn. -/
lemma Turns.start (h : Turns s) {previous : Option ℕ} {locale : Locale}
    (hlink : s.chains.link n = some (.waiting previous)) (hready : s.chains.Ready previous) :
    Turns { s.goOn n (.listing locale) with chains := s.chains.setLink n .running } := by
  have hqueued : s.phase n = .queued := by
    rcases h.begun n with hq | hl | hl
    · exact hq
    · cases hlink.symm.trans hl
    · cases hlink.symm.trans hl
  have hphase {k : ℕ} (hk : k ≠ n) : (s.goOn n (.listing locale)).phase k = s.phase k :=
    Function.update_of_ne hk _ _
  have hown : (s.goOn n (.listing locale)).phase n = .listing locale := Function.update_self ..
  have hpending {k : ℕ} (hk : ({ s.goOn n (.listing locale) with
      chains := s.chains.setLink n .running } : Prompts).Pending k) : s.Pending k :=
    pending_of_setLink (by rw [hlink]; simp) (m := k) hk
  refine ⟨?_, fun k => ?_, h.ordered, fun x hx => ?_, fun k => ?_,
    fun k hk => h.asked k (hpending hk),
    fun k m hk hm => h.apart k m (hpending hk) (hpending hm)⟩
  · obtain ⟨es, hrun, hes⟩ := h.chain
    refine ⟨es ++ [.start n], hrun.append (.single (.start hlink hready)), ?_⟩
    rw [appended_start]
    exact hes
  · by_cases hk : k = n
    · subst hk
      exact .inr (.inl link_self)
    · have hsame : (s.chains.setLink n .running).link k = s.chains.link k := link_of_ne hk
      have hkept := h.begun k
      rw [← hphase hk, ← hsame] at hkept
      exact hkept
  · by_cases hk : x.1 = n
    · exact absurd (hk ▸ hqueued) (h.logged x hx)
    · have hkept := h.logged x hx
      rw [← hphase hk] at hkept
      exact hkept
  · have hkept := h.episodes k
    by_cases hk : k = n
    · subst hk
      rw [hqueued] at hkept
      have hat : EpisodeAt (s.device k) ((s.goOn k (.listing locale)).phase k) (s.eventsOf k) := by
        rw [hown]
        exact hkept
      exact hat
    · rw [← hphase hk] at hkept
      exact hkept

/-- A prompt is over, and its device may be asked about again. -/
lemma Turns.finished (h : Turns s) (hlink : s.chains.link n = some .running)
    (hphase : s.phase n = .ended) :
    Turns { s with
      asking := s.asking.filter fun id => id ≠ s.device n
      chains := s.chains.setLink n .settled } := by
  have hpending {k : ℕ} (hk : ({ s with
      asking := s.asking.filter fun id => id ≠ s.device n
      chains := s.chains.setLink n .settled } : Prompts).Pending k) : s.Pending k ∧ k ≠ n := by
    refine ⟨pending_of_setLink (by rw [hlink]; simp) (m := k) hk, ?_⟩
    rintro rfl
    exact hk.2 link_self
  refine ⟨?_, fun k => ?_, h.ordered, h.logged, h.episodes, fun k hk => ?_,
    fun k m hk hm => h.apart k m (hpending hk).1 (hpending hm).1⟩
  · obtain ⟨es, hrun, hes⟩ := h.chain
    refine ⟨es ++ [.settle n], hrun.append (.single (.settle hlink)), ?_⟩
    rw [appended_settle]
    exact hes
  · by_cases hk : k = n
    · subst hk
      exact .inr (.inr link_self)
    · have hsame : (s.chains.setLink n .settled).link k = s.chains.link k := link_of_ne hk
      have hkept := h.begun k
      rw [← hsame] at hkept
      exact hkept
  · obtain ⟨hk, hne⟩ := hpending hk
    have hself : s.Pending n := ⟨h.lt_count hlink, by rw [hlink]; simp⟩
    refine List.mem_filter.mpr ⟨h.asked k hk, decide_eq_true fun heq => hne ?_⟩
    exact h.apart k n hk hself heq

/-- **One step** keeps the prompts in turn. -/
lemma turns_step {a : PromptAction} (h : Turns s) (hstep : promptStep s a = some t) : Turns t := by
  cases a with
  | handle event =>
      simp only [promptStep] at hstep
      split_ifs at hstep with hother
      · obtain rfl := Option.some.inj hstep
        exact h
      · split at hstep
        · obtain rfl := Option.some.inj hstep
          exact h
        · next deviceId hdevice =>
          split_ifs at hstep with hknown
          · obtain rfl := Option.some.inj hstep
            exact h
          · obtain rfl := Option.some.inj hstep
            exact h.append fun hmem => hknown (.inr hmem)
  | start n locale =>
      simp only [promptStep] at hstep
      split at hstep
      · next previous hlink =>
        split_ifs at hstep with hready
        obtain rfl := Option.some.inj hstep
        exact h.start hlink (Prompts.isReady_iff.mp hready)
      · cases hstep
  | listed n devices throws =>
      simp only [promptStep] at hstep
      split at hstep
      · next locale hphase =>
        have hnone : s.eventsOf n = [] := by
          have hepisode := h.episodes n
          rw [hphase] at hepisode
          exact hepisode
        split_ifs at hstep with hidle hknown hthrows
        · have hrunning : s.chains.link n = some .running := not_not.mp hidle
          obtain rfl := Option.some.inj hstep
          rw [← s.record_nil (n := n)]
          exact h.goOn hrunning [] .ended (by simp) (by rw [hnone]; exact .inl rfl)
        · have hrunning : s.chains.link n = some .running := not_not.mp hidle
          obtain rfl := Option.some.inj hstep
          rw [← s.record_nil (n := n)]
          exact h.goOn hrunning [] .ended (by simp) (by rw [hnone]; exact .inl rfl)
        · have hrunning : s.chains.link n = some .running := not_not.mp hidle
          obtain rfl := Option.some.inj hstep
          refine h.goOn hrunning _ .asking (by simp) ?_
          rw [hnone, List.nil_append]
          exact ⟨_, _, rfl⟩
      · cases hstep
  | answered n approved =>
      simp only [promptStep] at hstep
      split_ifs at hstep with hat
      obtain ⟨hrunning, hphase⟩ := Prompts.isAt_iff.mp hat
      obtain rfl := Option.some.inj hstep
      have hepisode := h.episodes n
      rw [hphase] at hepisode
      obtain ⟨locale, label, hshown⟩ := hepisode
      refine h.goOn hrunning _ .deciding (by simp) (.inr ⟨locale, label, .inr ⟨approved, ?_⟩⟩)
      rw [hshown]
  | failed n | recorded n =>
      simp only [promptStep] at hstep
      split_ifs at hstep with hat
      obtain ⟨hrunning, hphase⟩ := Prompts.isAt_iff.mp hat
      obtain rfl := Option.some.inj hstep
      rw [← s.record_nil (n := n)]
      refine h.goOn hrunning [] .ended (by simp) ?_
      rw [List.append_nil]
      exact isEpisode_of_at (h.episodes n)
  | finished n =>
      simp only [promptStep] at hstep
      split_ifs at hstep with hat
      obtain ⟨hrunning, hphase⟩ := Prompts.isAt_iff.mp hat
      obtain rfl := Option.some.inj hstep
      exact h.finished hrunning hphase

end Step

/-! ### Runs -/

/-- **One prompt after another.** Whatever the server announces, however the devices are listed
and the person answers, and wherever the toast, the dialog or a request fails: what the prompts
show and decide comes in the order in which the devices turned up, one prompt at a time; a prompt
shows one toast and one dialog at most, and at most one decision follows, about its own device;
one dialog is open at a time; and no device is asked about twice at a time. -/
theorem prompts_in_turn {s : Prompts} {as : List PromptAction}
    (h : Run (Steps promptStep) .init as s) :
    (s.log.map Prod.fst).Pairwise (· ≤ ·) ∧
      (∀ n, IsEpisode (s.device n) (s.eventsOf n)) ∧
      (∀ n m, s.isAt n .asking = true → s.isAt m .asking = true → n = m) ∧
      ∀ n m, s.Pending n → s.Pending m → s.device n = s.device m → n = m := by
  have hturns : Turns s := h.invariant (fun _ _ _ => turns_step) turns_init
  refine ⟨hturns.ordered, fun n => isEpisode_of_at (hturns.episodes n), fun n m hn hm => ?_,
    hturns.apart⟩
  obtain ⟨hn, hphase⟩ := Prompts.isAt_iff.mp hn
  obtain ⟨hm, hphase'⟩ := Prompts.isAt_iff.mp hm
  exact le_antisymm (hturns.le_of_running hm (by rw [hphase]; simp))
    (hturns.le_of_running hn (by rw [hphase']; simp))

/-- The server's announcement of a device that waits. -/
def turnsUp (deviceId : String) : ServerSignal :=
  ⟨js "device", some (js "pending"), some (js deviceId)⟩

/-- The first device claims twice, the second waits for it; its devices cannot be listed. -/
theorem prompts_in_turn_two : ∃ s,
    Run (Steps promptStep) .init
      [.handle (turnsUp "a"), .handle (turnsUp "b"), .handle (turnsUp "a"), .start 0 .en,
        .listed 0 (some [⟨js "a", js " Phone ", .pending⟩]) false, .answered 0 true, .recorded 0,
        .finished 0, .start 1 .en, .listed 1 none false] s ∧
    s.log = (shown .en (js "Phone") ++ [PromptEvent.decided true (js "a")]).map (fun e => (0, e)) ++
      (shown .en (js "b")).map (fun e => (1, e)) ∧
    (s.log.map Prod.fst).Pairwise (· ≤ ·) ∧ ∀ n, IsEpisode (s.device n) (s.eventsOf n) := by
  obtain ⟨s, hrun, hs⟩ := exists_run_of_exec promptStep .init
    [.handle (turnsUp "a"), .handle (turnsUp "b"), .handle (turnsUp "a"), .start 0 .en,
      .listed 0 (some [⟨js "a", js " Phone ", .pending⟩]) false, .answered 0 true, .recorded 0,
      .finished 0, .start 1 .en, .listed 1 none false]
    (fun s => s.log =
      (shown .en (js "Phone") ++ [PromptEvent.decided true (js "a")]).map (fun e => (0, e)) ++
      (shown .en (js "b")).map (fun e => (1, e)))
    (by decide +kernel)
  obtain ⟨hordered, hepisodes, -, -⟩ := prompts_in_turn hrun
  exact ⟨s, hrun, of_decide_eq_true hs, hordered, hepisodes⟩

end LocalCast.Desktop
