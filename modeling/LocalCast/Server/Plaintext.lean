import LocalCast.Foundations.Runs

/-!
The unencrypted listener of the local network: `listen`, `setLanPlaintext` and `dispose` of the
server, cut at their awaits.

* `PlaintextState`, `plaintextStep`: the fields that decide about the listener, the calls that
  are pending, and the ports that are bound.
* `ListenerLaw`, `FlagLaw`: what is bound, what the status reports, and what the configuration
  says after the switch was turned off or the server disposed of.
* `recorded`, `clearsFlag`: a bind is over while it is still wanted and nothing else is bound;
  turning off and disposing find a flag that they leave off.
* `Switched`: the invariant; `switched_step` is what one step keeps.
* `plaintext_switched`: the laws in every such run.
* `plaintext_leaked`: a bind that is over after the switch was turned off.

The certificate, what depends on it (the state, the address and the fingerprint in the status),
the log and the other modules are left out. When a socket is bound its call goes on before
anything else happens.
-/

namespace LocalCast.Server

open Runs

/-! ### The server -/

/-- `ServerConfig`: whether the local network is served, and whether unencrypted, too. -/
structure LanConfig where
  lan : Bool
  lanPlaintext : Bool

/-- What `listen()` waits for: the loopback listener, the encrypted one, or the unencrypted one
that was on record when it came to it. -/
inductive Listening where
  | loopback
  | secure
  | plaintext (id : ℕ)
deriving DecidableEq

/-- The last call. -/
inductive LanCall where
  | none | listen | on | off | dispose
deriving DecidableEq

/-- The configuration; `plaintextServer` and `plaintextListening`; whether there is an encrypted
listener; `lanFailure`. The port each unencrypted listener is bound to; the calls: `listen()`,
the listeners that `setLanPlaintext(true)` is binding, the shutdowns that are awaited with what
is noted behind them, and how many calls of `dispose()` have yet to come to the listener. -/
structure PlaintextState where
  config : LanConfig
  plaintextServer : Option ℕ
  plaintextListening : Bool
  hasLanServer : Bool
  lanFailure : Option String
  ports : ℕ → Option ℕ
  nextListener : ℕ
  listened : Bool
  listening : Option Listening
  opening : List ℕ
  closing : List (Option String)
  disposing : ℕ
  last : LanCall

/-- `LanStatus`, as far as the unencrypted listener decides it. -/
structure LanStatus where
  encrypted : Bool
  plaintextPort : Option ℕ
  error : Option String
deriving DecidableEq

namespace PlaintextState

/-- The server as it was created. -/
def init (config : LanConfig) (hasLanServer : Bool) : PlaintextState where
  config := config
  plaintextServer := if config.lan && config.lanPlaintext then some 0 else none
  plaintextListening := false
  hasLanServer := hasLanServer
  lanFailure := none
  ports := fun _ => none
  nextListener := 1
  listened := false
  listening := none
  opening := []
  closing := []
  disposing := 0
  last := .none

variable (s : PlaintextState)

/-- `portOf(plaintextServer)`. -/
def plaintextPort : Option ℕ := s.plaintextServer.bind s.ports

/-- `currentLanStatus`. -/
def lanStatus : LanStatus where
  encrypted := s.plaintextPort.isNone
  plaintextPort := s.plaintextPort
  error := s.lanFailure

/-- `shutdown`, up to its await: the listener gives up its port at once. -/
def shutdown (id : ℕ) : PlaintextState :=
  { s with ports := Function.update s.ports id none, closing := none :: s.closing }

/-- The text of the error of a listener that is bound a second time. -/
def alreadyListening : String :=
  "Listen method has been called more than once without closing."

/-- `listen()` comes to the unencrypted listener. -/
def listenPlaintext : PlaintextState :=
  match s.plaintextServer with
  | none => { s with listening := none }
  | some id =>
      if (s.ports id).isSome then
        { s with listening := none, lanFailure := some alreadyListening }
      else { s with listening := some (.plaintext id) }

/-- `setLanPlaintext(enabled)`, up to its await. -/
def setLanPlaintext (enabled : Bool) : PlaintextState :=
  if !s.config.lan then s
  else if enabled then
    match s.plaintextServer with
    | none => { s with opening := s.nextListener :: s.opening, nextListener := s.nextListener + 1 }
    | some _ => s
  else
    match s.plaintextServer with
    | none => s
    | some closing =>
        { s with
          plaintextServer := none
          plaintextListening := false
          config := { s.config with lanPlaintext := false } }.shutdown closing

/-- `dispose()` comes to the unencrypted listener. -/
def closePlaintext : PlaintextState :=
  match s.plaintextServer with
  | none => s
  | some id => if s.plaintextListening then s.shutdown id else s

end PlaintextState

inductive PlaintextAction where
  /-- `listen()` is called; its listeners are bound one after the other, or it fails. -/
  | listen
  | loopback (bound : Bool)
  | secure (error : Option String)
  | plaintext (port : ℕ)
  | plaintextFailed (error : String)
  /-- `setLanPlaintext` is called; the listener it opens is bound, or it is not. -/
  | setLanPlaintext (enabled : Bool)
  | opened (id port : ℕ)
  | openFailed (id : ℕ) (error : String)
  /-- A shutdown is over. -/
  | closed (error : Option String)
  /-- `dispose()` is called, and comes to the unencrypted listener. -/
  | dispose
  | disposed

def plaintextStep (s : PlaintextState) : PlaintextAction → Option PlaintextState
  | .listen =>
      -- a second call fails at the loopback listener
      if s.listened then none
      else some { s with listened := true, listening := some .loopback, last := .listen }
  | .loopback bound =>
      if s.listening = some .loopback then
        if !bound then some { s with listening := none }
        else if s.hasLanServer then some { s with listening := some .secure }
        else some s.listenPlaintext
      else none
  | .secure error =>
      if s.listening = some .secure then
        match error with
        | none => some s.listenPlaintext
        | some error => some { s with listening := none, lanFailure := some error }
      else none
  | .plaintext port =>
      match s.listening with
      | some (.plaintext id) =>
          some { s with
            ports := Function.update s.ports id (some port)
            plaintextListening := true
            listening := none }
      | _ => none
  | .plaintextFailed error =>
      match s.listening with
      | some (.plaintext _) => some { s with listening := none, lanFailure := some error }
      | _ => none
  | .setLanPlaintext enabled =>
      some { s.setLanPlaintext enabled with last := if enabled then .on else .off }
  | .opened id port =>
      if id ∈ s.opening then
        some { s with
          opening := s.opening.erase id
          ports := Function.update s.ports id (some port)
          plaintextServer := some id
          plaintextListening := true
          config := { s.config with lanPlaintext := true } }
      else none
  | .openFailed id error =>
      if id ∈ s.opening then
        some { s with opening := s.opening.erase id, closing := some error :: s.closing }
      else none
  | .closed error =>
      if error ∈ s.closing then
        some { s with
          closing := s.closing.erase error
          lanFailure := error.orElse fun _ => s.lanFailure }
      else none
  | .dispose => some { s with disposing := s.disposing + 1, last := .dispose }
  | .disposed =>
      if s.disposing = 0 then none
      else some { s.closePlaintext with disposing := s.disposing - 1 }

/-! ### The laws -/

/-- No call is pending. -/
def PlaintextState.Idle (s : PlaintextState) : Prop :=
  s.listening = none ∧ s.opening = [] ∧ s.closing = [] ∧ s.disposing = 0

/-- The last call was to close the listener. -/
def PlaintextState.Off (s : PlaintextState) : Prop := s.last = .off ∨ s.last = .dispose

/-- One unencrypted listener at most is bound; once it was turned off, or the server disposed
of, none is, and the status says so. -/
structure ListenerLaw (s : PlaintextState) : Prop where
  single : ∀ p q, s.ports p ≠ none → s.ports q ≠ none → p = q
  off : s.Idle → s.Off → (∀ p, s.ports p = none) ∧ s.lanStatus.encrypted = true ∧
    s.lanStatus.plaintextPort = none

/-- Then the configuration says so, too. -/
def FlagLaw (s : PlaintextState) : Prop := s.Idle → s.Off → s.config.lanPlaintext = false

/-- No call that closes the listener has come too early for a bind that ends now. -/
def PlaintextState.wanted (s : PlaintextState) : Bool :=
  s.last ≠ .off && (s.last ≠ .dispose || 0 < s.disposing)

/-- A listener is bound while nothing else is on record as bound, and is the one on record,
which nobody has asked to close. -/
def recorded (s : PlaintextState) : PlaintextAction → Bool
  | .plaintext _ =>
      match s.listening with
      | some (.plaintext id) => s.plaintextServer = some id && s.wanted
      | _ => true
  | .opened _ _ => s.plaintextPort.isNone && s.wanted
  | _ => true

/-- The switch is turned off where that clears the flag or the flag is off, and the server is
disposed of with the flag off. -/
def clearsFlag (s : PlaintextState) : PlaintextAction → Bool
  | .setLanPlaintext false => s.config.lan || !s.config.lanPlaintext
  | .dispose => !s.config.lanPlaintext
  | .opened _ _ => s.last ≠ .dispose
  | _ => true

/-! ### The invariant -/

/-- What is bound is on record; after a call to close nothing is bound; and while the local
network is served the flag says whether there is a listener. -/
structure Switched (s : PlaintextState) : Prop where
  bound : ∀ p, s.ports p ≠ none → s.plaintextServer = some p ∧ s.plaintextListening = true
  off : s.last = .off → ∀ p, s.ports p = none
  disposed : s.last = .dispose → s.disposing = 0 → ∀ p, s.ports p = none
  flag : s.config.lan = true → s.plaintextServer = none → s.config.lanPlaintext = false
  unserved : s.config.lan = false → s.plaintextServer = none ∧ s.opening = []

variable {s t : PlaintextState} {a : PlaintextAction}

/-- Nothing is bound where nothing on record is. -/
lemma Switched.free (h : Switched s) (hport : s.plaintextPort = none) (p : ℕ) :
    s.ports p = none := by
  by_contra hp
  rw [PlaintextState.plaintextPort, (h.bound p hp).1, Option.bind_some] at hport
  exact hp hport

lemma Switched.law (h : Switched s) : ListenerLaw s where
  single p q hp hq := Option.some.inj ((h.bound p hp).1.symm.trans (h.bound q hq).1)
  off := by
    rintro ⟨-, -, -, hdisposing⟩ hoff
    have hnone : ∀ p, s.ports p = none := by
      rcases hoff with hoff | hdispose
      · exact h.off hoff
      · exact h.disposed hdispose hdisposing
    have hport : s.plaintextPort = none := by
      rw [PlaintextState.plaintextPort]
      cases s.plaintextServer with
      | none => rfl
      | some id => exact hnone id
    exact ⟨hnone, by simp [PlaintextState.lanStatus, hport], hport⟩

/-! ### Steps -/

/-- A step that neither binds nor closes anything. -/
lemma Switched.keep (h : Switched s) (hports : t.ports = s.ports)
    (hserver : t.plaintextServer = s.plaintextServer)
    (hlistening : t.plaintextListening = s.plaintextListening) (hconfig : t.config = s.config)
    (hopening : s.opening = [] → t.opening = []) (hlast : t.last = s.last)
    (hdisposing : t.disposing = s.disposing) : Switched t where
  bound := by rw [hports, hserver, hlistening]; exact h.bound
  off := by rw [hlast, hports]; exact h.off
  disposed := by rw [hlast, hdisposing, hports]; exact h.disposed
  flag := by rw [hconfig, hserver]; exact h.flag
  unserved hlan := by
    rw [hconfig] at hlan
    rw [hserver]
    exact ⟨(h.unserved hlan).1, hopening (h.unserved hlan).2⟩

lemma switched_listenPlaintext (h : Switched s) : Switched s.listenPlaintext := by
  rw [PlaintextState.listenPlaintext]
  split
  · exact h.keep rfl rfl rfl rfl id rfl rfl
  · split_ifs
    · exact h.keep rfl rfl rfl rfl id rfl rfl
    · exact h.keep rfl rfl rfl rfl id rfl rfl

/-- The one listener on record gives up its port. -/
lemma free_shutdown (h : Switched s) {id : ℕ} (hid : s.plaintextServer = some id) (p : ℕ) :
    Function.update s.ports id none p = none := by
  rw [Function.update_apply]
  split_ifs with hp
  · rfl
  · by_contra hbound
    exact hp (Option.some.inj ((h.bound p hbound).1.symm.trans hid))

/-- A state in which nothing is bound. -/
lemma switched_of_free (hports : ∀ p, t.ports p = none)
    (hflag : t.config.lan = true → t.plaintextServer = none → t.config.lanPlaintext = false)
    (hunserved : t.config.lan = false → t.plaintextServer = none ∧ t.opening = []) :
    Switched t where
  bound p hp := absurd (hports p) hp
  off _ := hports
  disposed _ _ := hports
  flag := hflag
  unserved := hunserved

lemma switched_on (h : Switched s) :
    Switched { s.setLanPlaintext true with last := .on } := by
  rw [PlaintextState.setLanPlaintext]
  split_ifs with hlan
  · exact ⟨h.bound, nofun, nofun, h.flag, h.unserved⟩
  · split
    · have hserved : s.config.lan = false → s.plaintextServer = none ∧
          s.nextListener :: s.opening = [] := fun hl => absurd (by simp [hl]) hlan
      exact ⟨h.bound, nofun, nofun, h.flag, hserved⟩
    · exact ⟨h.bound, nofun, nofun, h.flag, h.unserved⟩
  · contradiction

lemma switched_off (h : Switched s) :
    Switched { s.setLanPlaintext false with last := .off } := by
  have hfree (hserver : s.plaintextServer = none) (p : ℕ) : s.ports p = none := by
    by_contra hp
    cases (h.bound p hp).1.symm.trans hserver
  rw [PlaintextState.setLanPlaintext]
  split_ifs with hlan
  · have hlan : s.config.lan = false := by simpa using hlan
    exact switched_of_free (hfree (h.unserved hlan).1) h.flag h.unserved
  · contradiction
  · split
    case h_1 hserver => exact switched_of_free (hfree hserver) h.flag h.unserved
    case h_2 id hserver =>
      have hserved (hl : s.config.lan = false) : (none : Option ℕ) = none ∧ s.opening = [] :=
        absurd (by simp [hl]) hlan
      exact switched_of_free (free_shutdown h hserver) (fun _ _ => rfl) hserved

lemma switched_dispose (h : Switched s) :
    Switched { s with disposing := s.disposing + 1, last := .dispose } :=
  ⟨h.bound, nofun, nofun, h.flag, h.unserved⟩

lemma switched_disposed (h : Switched s) :
    Switched { s.closePlaintext with disposing := s.disposing - 1 } := by
  rw [PlaintextState.closePlaintext]
  split
  case h_1 hserver =>
    refine switched_of_free (fun p => ?_) h.flag h.unserved
    by_contra hp
    cases (h.bound p hp).1.symm.trans hserver
  case h_2 id hserver =>
    split_ifs with hlistening
    · exact switched_of_free (free_shutdown h hserver) h.flag h.unserved
    · refine switched_of_free (fun p => ?_) h.flag h.unserved
      by_contra hp
      exact hlistening (h.bound p hp).2

/-- The listener on record is bound. -/
lemma switched_bound {id port : ℕ} (hserver : t.plaintextServer = some id)
    (hfree : ∀ p, s.ports p ≠ none → p = id) (hwanted : s.wanted = true)
    (hports : t.ports = Function.update s.ports id (some port))
    (hlistening : t.plaintextListening = true) (hlast : t.last = s.last)
    (hdisposing : t.disposing = s.disposing) (hlan : t.config.lan = true) : Switched t := by
  simp only [PlaintextState.wanted, Bool.and_eq_true, Bool.or_eq_true, decide_eq_true_eq] at hwanted
  refine ⟨fun p hp => ?_, fun hl => ?_, fun hl hd => ?_, fun _ hs => ?_, fun hl => ?_⟩
  · rw [hports, Function.update_apply] at hp
    have hid : p = id := by
      by_contra hne
      rw [if_neg hne] at hp
      exact hne (hfree p hp)
    exact ⟨hid ▸ hserver, hlistening⟩
  · exact absurd (hlast.symm.trans hl) hwanted.1
  · have hpos : 0 < s.disposing := hwanted.2.resolve_left (not_not.mpr (hlast.symm.trans hl))
    omega
  · cases hserver.symm.trans hs
  · cases hlan.symm.trans hl

/-- What one step keeps. -/
lemma switched_step (h : Switched s) (hguard : recorded s a = true)
    (hstep : plaintextStep s a = some t) : Switched t := by
  cases a with
  | listen =>
      simp only [plaintextStep] at hstep
      split_ifs at hstep
      cases hstep
      exact ⟨h.bound, nofun, nofun, h.flag, h.unserved⟩
  | loopback bound =>
      simp only [plaintextStep] at hstep
      split_ifs at hstep
      · cases hstep
        exact h.keep rfl rfl rfl rfl id rfl rfl
      · cases hstep
        exact h.keep rfl rfl rfl rfl id rfl rfl
      · cases hstep
        exact switched_listenPlaintext h
  | secure error =>
      simp only [plaintextStep] at hstep
      split_ifs at hstep
      cases error with
      | none =>
          cases hstep
          exact switched_listenPlaintext h
      | some error =>
          cases hstep
          exact h.keep rfl rfl rfl rfl id rfl rfl
  | plaintext port =>
      rcases hl : s.listening with - | _ | _ | id
      · simp [plaintextStep, hl] at hstep
      · simp [plaintextStep, hl] at hstep
      · simp [plaintextStep, hl] at hstep
      · simp only [plaintextStep, hl, Option.some.injEq] at hstep
        subst hstep
        simp only [recorded, hl, Bool.and_eq_true, decide_eq_true_eq] at hguard
        have hlan : s.config.lan = true := by
          by_contra hlan
          cases (h.unserved (by simpa using hlan)).1.symm.trans hguard.1
        exact switched_bound hguard.1
          (fun p hp => Option.some.inj ((h.bound p hp).1.symm.trans hguard.1)) hguard.2 rfl rfl rfl
          rfl hlan
  | plaintextFailed error =>
      rcases hl : s.listening with - | _ | _ | id
      · simp [plaintextStep, hl] at hstep
      · simp [plaintextStep, hl] at hstep
      · simp [plaintextStep, hl] at hstep
      · simp only [plaintextStep, hl, Option.some.injEq] at hstep
        subst hstep
        exact h.keep rfl rfl rfl rfl (fun ho => ho) rfl rfl
  | setLanPlaintext enabled =>
      cases hstep
      cases enabled with
      | true => exact switched_on h
      | false => exact switched_off h
  | opened id port =>
      simp only [plaintextStep] at hstep
      split_ifs at hstep with hid
      cases hstep
      simp only [recorded, Bool.and_eq_true, Option.isNone_iff_eq_none] at hguard
      have hlan : s.config.lan = true := by
        by_contra hlan
        rw [(h.unserved (by simpa using hlan)).2] at hid
        cases hid
      exact switched_bound rfl (fun p hp => absurd (h.free hguard.1 p) hp) hguard.2 rfl rfl rfl
        rfl hlan
  | openFailed id error =>
      simp only [plaintextStep] at hstep
      split_ifs at hstep
      cases hstep
      exact h.keep rfl rfl rfl rfl (fun ho => by simp [ho]) rfl rfl
  | closed error =>
      simp only [plaintextStep] at hstep
      split_ifs at hstep
      cases hstep
      exact h.keep rfl rfl rfl rfl id rfl rfl
  | dispose =>
      cases hstep
      exact switched_dispose h
  | disposed =>
      simp only [plaintextStep] at hstep
      split_ifs at hstep
      cases hstep
      exact switched_disposed h

lemma switched_init (config : LanConfig) (hasLanServer : Bool) :
    Switched (.init config hasLanServer) := by
  refine switched_of_free (fun _ => rfl) (fun hlan hserver => ?_) fun hlan => ⟨?_, rfl⟩
  · have hlan : config.lan = true := hlan
    cases hflag : config.lanPlaintext with
    | false => exact hflag
    | true => simp [PlaintextState.init, hlan, hflag] at hserver
  · have hlan : config.lan = false := hlan
    simp [PlaintextState.init, hlan]

/-! ### The flag -/

/-- Turning the switch off leaves the flag off. -/
lemma flag_off (h : Switched s) (hguard : s.config.lan = true ∨ s.config.lanPlaintext = false) :
    (s.setLanPlaintext false).config.lanPlaintext = false := by
  rw [PlaintextState.setLanPlaintext]
  split_ifs with hlan
  · exact hguard.resolve_left (by simpa using hlan)
  · contradiction
  · split
    case h_1 hserver => exact h.flag (by simpa using hlan) hserver
    case h_2 => rfl

lemma config_listenPlaintext :
    s.listenPlaintext.config = s.config ∧ s.listenPlaintext.last = s.last := by
  rw [PlaintextState.listenPlaintext]
  split
  · exact ⟨rfl, rfl⟩
  · split_ifs <;> exact ⟨rfl, rfl⟩

lemma config_closePlaintext :
    s.closePlaintext.config = s.config ∧ s.closePlaintext.last = s.last := by
  rw [PlaintextState.closePlaintext]
  split
  · exact ⟨rfl, rfl⟩
  · split_ifs <;> exact ⟨rfl, rfl⟩

/-- After a call to close, one step leaves the flag off. -/
lemma flag_step (h : Switched s) (hflag : s.Off → s.config.lanPlaintext = false)
    (hguard : recorded s a = true) (hclears : clearsFlag s a = true)
    (hstep : plaintextStep s a = some t) (hoff : t.Off) : t.config.lanPlaintext = false := by
  have hsame (hconfig : t.config = s.config) (hlast : t.last = s.last) :
      t.config.lanPlaintext = false := by
    rw [PlaintextState.Off, hlast] at hoff
    rw [hconfig]
    exact hflag hoff
  cases a with
  | listen =>
      simp only [plaintextStep] at hstep
      split_ifs at hstep
      cases hstep
      rcases hoff with hoff | hoff <;> cases hoff
  | loopback bound =>
      simp only [plaintextStep] at hstep
      split_ifs at hstep
      · cases hstep
        exact hsame rfl rfl
      · cases hstep
        exact hsame rfl rfl
      · cases hstep
        exact hsame config_listenPlaintext.1 config_listenPlaintext.2
  | secure error =>
      simp only [plaintextStep] at hstep
      split_ifs at hstep
      cases error with
      | none =>
          cases hstep
          exact hsame config_listenPlaintext.1 config_listenPlaintext.2
      | some error =>
          cases hstep
          exact hsame rfl rfl
  | plaintext port =>
      rcases hl : s.listening with - | _ | _ | id <;>
        simp only [plaintextStep, hl, reduceCtorEq, Option.some.injEq] at hstep
      subst hstep
      exact hsame rfl rfl
  | plaintextFailed error =>
      rcases hl : s.listening with - | _ | _ | id <;>
        simp only [plaintextStep, hl, reduceCtorEq, Option.some.injEq] at hstep
      subst hstep
      exact hsame rfl rfl
  | setLanPlaintext enabled =>
      cases hstep
      cases enabled with
      | true => rcases hoff with hoff | hoff <;> cases hoff
      | false => exact flag_off h (by simpa [clearsFlag] using hclears)
  | opened id port =>
      simp only [plaintextStep] at hstep
      split_ifs at hstep
      cases hstep
      simp only [recorded, PlaintextState.wanted, Bool.and_eq_true, decide_eq_true_eq] at hguard
      simp only [clearsFlag, decide_eq_true_eq] at hclears
      exact absurd hoff (not_or.mpr ⟨hguard.2.1, hclears⟩)
  | openFailed id error =>
      simp only [plaintextStep] at hstep
      split_ifs at hstep
      cases hstep
      exact hsame rfl rfl
  | closed error =>
      simp only [plaintextStep] at hstep
      split_ifs at hstep
      cases hstep
      exact hsame rfl rfl
  | dispose =>
      cases hstep
      simpa [clearsFlag] using hclears
  | disposed =>
      simp only [plaintextStep] at hstep
      split_ifs at hstep
      cases hstep
      exact hsame config_closePlaintext.1 config_closePlaintext.2

/-- **The unencrypted listener is switched**: in every run in which a bind ends while it is
wanted, one listener at most is bound and none after a call to close; where moreover that call
finds or leaves the flag off, the configuration agrees. -/
theorem plaintext_switched {config : LanConfig} {hasLanServer : Bool}
    {as : List PlaintextAction} :
    (Run (Guarded (fun s a => recorded s a) plaintextStep) (.init config hasLanServer) as s →
      ListenerLaw s) ∧
    (Run (Guarded (fun s a => recorded s a && clearsFlag s a) plaintextStep)
      (.init config hasLanServer) as s → ListenerLaw s ∧ FlagLaw s) := by
  constructor
  · intro h
    have hs : Switched s := h.invariant (fun _ _ _ hs hstep => switched_step hs hstep.1 hstep.2)
      (switched_init config hasLanServer)
    exact hs.law
  · intro h
    have hs : Switched s ∧ (s.Off → s.config.lanPlaintext = false) := by
      refine h.invariant (I := fun s => Switched s ∧ (s.Off → s.config.lanPlaintext = false))
        (fun u a v hu hstep => ?_)
        ⟨switched_init config hasLanServer, by rintro (hoff | hoff) <;> cases hoff⟩
      obtain ⟨hguard, hclears⟩ := Bool.and_eq_true_iff.mp hstep.1
      exact ⟨switched_step hu.1 hguard hstep.2, flag_step hu.1 hu.2 hguard hclears hstep.2⟩
    exact ⟨hs.1.law, fun _ => hs.2⟩

/-! ### Concrete runs -/

/-- The listener is opened, closed, and opened again before the server is disposed of. -/
theorem plaintext_switched_twice :
    (∃ s, Run (Guarded (fun s a => recorded s a) plaintextStep) (.init ⟨true, false⟩ true)
      [.listen, .loopback true, .secure none, .setLanPlaintext true, .opened 1 8081,
        .setLanPlaintext false, .closed none, .setLanPlaintext true, .opened 2 8081, .dispose,
        .disposed, .closed none] s ∧ s.last = .dispose ∧ ListenerLaw s) ∧
    ∃ s, Run (Guarded (fun s a => recorded s a && clearsFlag s a) plaintextStep)
      (.init ⟨true, false⟩ true) [.setLanPlaintext true, .opened 1 8081, .setLanPlaintext false,
        .closed none] s ∧ s.last = .off ∧ ListenerLaw s ∧ FlagLaw s := by
  constructor
  · obtain ⟨s, hrun, hs⟩ := exists_guarded_run_of_exec (fun s a => recorded s a) plaintextStep
      (.init ⟨true, false⟩ true) [.listen, .loopback true, .secure none, .setLanPlaintext true,
        .opened 1 8081, .setLanPlaintext false, .closed none, .setLanPlaintext true,
        .opened 2 8081, .dispose, .disposed, .closed none] (fun s => s.last = .dispose)
      (by decide +kernel)
    exact ⟨s, hrun, of_decide_eq_true hs, plaintext_switched.1 hrun⟩
  · obtain ⟨s, hrun, hs⟩ := exists_guarded_run_of_exec
      (fun s a => recorded s a && clearsFlag s a) plaintextStep (.init ⟨true, false⟩ true)
      [.setLanPlaintext true, .opened 1 8081, .setLanPlaintext false, .closed none]
      (fun s => s.last = .off) (by decide +kernel)
    exact ⟨s, hrun, of_decide_eq_true hs, plaintext_switched.2 hrun⟩

/-- **A listener is left open**: the switch is turned on and off again before the bind is over. -/
theorem plaintext_leaked : ∃ s,
    Run (Steps plaintextStep) (.init ⟨true, false⟩ true)
      [.setLanPlaintext true, .setLanPlaintext false, .opened 1 8081] s ∧ s.Idle ∧
    s.last = .off ∧ s.ports 1 = some 8081 ∧ s.lanStatus.encrypted = false ∧
    s.config.lanPlaintext = true ∧ ¬ ListenerLaw s := by
  have hexec : exec plaintextStep (.init ⟨true, false⟩ true)
      [.setLanPlaintext true, .setLanPlaintext false, .opened 1 8081] = some _ := rfl
  refine ⟨_, exec_eq_some_iff.mp hexec, ⟨rfl, rfl, rfl, rfl⟩, rfl, rfl, rfl, rfl, fun hlaw => ?_⟩
  exact absurd ((hlaw.off ⟨rfl, rfl, rfl, rfl⟩ (.inl rfl)).1 1) (by simp)

end LocalCast.Server
