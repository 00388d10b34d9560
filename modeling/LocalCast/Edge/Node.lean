import LocalCast.Edge.Config
import LocalCast.Edge.Status

/-!
One generation of the tailnet node: the goroutines of `internal/edge/edge.go` and the login
publisher of `internal/edge/login.go`.

* `PollAnswer`: what the local daemon answers a status poll.
* `BringUp`, `Watch`: where the bring-up goroutine and the watch loop stand, one constructor
  between any two points at which another goroutine can run.
* `Node`: the instance, with the lock of its login publisher.
* `Node.step`: one step of one of the goroutines, or of a log line, and what it does to the
  outside, an `Act`: a write through the generation gate, or a request for a sign-in link.
-/

namespace LocalCast.Edge

open JsString

/-! ### The daemon -/

/-- The backend states of the local daemon. -/
inductive BackendState
  | noState
  | inUseOtherUser
  | needsLogin
  | needsMachineAuth
  | stopped
  | starting
  | running
  deriving DecidableEq, Repr

/-- The fields of a status poll's answer that the edge reads: the backend state, the
interactive link if there is one, the node's own DNS name and the peers that are online. -/
structure PollAnswer where
  backend : BackendState
  authURL : JsString
  dnsName : JsString
  onlinePeers : ℕ
  deriving DecidableEq, Repr

/-- The two states in which the daemon waits for a sign-in. -/
def BackendState.signedOut (b : BackendState) : Bool := b = .needsLogin || b = .needsMachineAuth

/-- An `edgeError`: its code and its text. -/
structure EdgeError where
  code : JsString
  message : JsString
  deriving DecidableEq, Repr

/-- `strings.TrimSuffix(name, ".")`. -/
def trimDot (name : JsString) : JsString :=
  if name.getLast? = some 46 then name.dropLast else name

/-- `dnsNameOf`. -/
def dnsNameOf (st : PollAnswer) (cfg : NetworkConfig) : JsString :=
  if trimDot st.dnsName ≠ [] then trimDot st.dnsName else cfg.certDomain

/-! ### The goroutines -/

/-- The memory of `waitForRunning` between two polls. -/
structure PollLoop where
  consecutiveErrors : ℕ
  loginStarted : Bool
  deriving DecidableEq, Repr

/-- Where the goroutine of `launch` stands. `asking` remembers how many sign-outs had landed
when its poll began. -/
inductive BringUp
  | launching
  | begin
  | waiting (l : PollLoop)
  | asking (l : PollLoop) (begun : ℕ)
  | offering (l : PollLoop) (url : JsString)
  | named (host : JsString)
  | exposing (host : JsString)
  | funnelling (host : JsString)
  | preparing (host : JsString)
  | checking (host : JsString)
  | listening (host : JsString)
  | serving (host funnelURL : JsString) (expires : Option ℤ)
  | failing (err : EdgeError)
  | up
  | failed
  | abandoned
  deriving DecidableEq, Repr

/-- `authEpisode`. -/
structure AuthEpisode where
  active : Bool := false
  owned : Bool := false
  sawNoURL : Bool := false
  nudged : Bool := false
  deriving DecidableEq, Repr

/-- Where the watch loop stands: between polls, in one, or in what `reconcileAuth` makes of the
answer. The number carried along is the peer count published at the end. -/
inductive Watch
  | off
  | idle
  | asking (begun : ℕ)
  | judging (st : PollAnswer)
  | linking (url : JsString) (peers : ℕ)
  | parking (peers : ℕ)
  | demoting (peers : ℕ)
  | nudging (peers : ℕ)
  | restoring (peers : ℕ)
  | counting (peers : ℕ)
  | expiring
  deriving DecidableEq, Repr

/-- `connectedIdentity`. -/
structure ConnectedIdentity where
  host : JsString
  funnelURL : JsString
  deriving DecidableEq, Repr

/-- Who calls `loginPublisher.publish`: one of the goroutines, a log line, or the `Login` call
of the given number. -/
inductive Publisher
  | bringUp
  | watch
  | logHook
  | call (c : ℕ)
  deriving DecidableEq, Repr

/-- `instance`: the configuration it was launched with, its context, its goroutines, and the
lock of its login publisher with the link its holder is about to write. -/
structure Node where
  cfg : NetworkConfig
  cancelled : Bool
  bringUp : BringUp
  watch : Watch
  episode : AuthEpisode
  identity : ConnectedIdentity
  certs : Bool
  login : Option (Publisher × JsString)
  deriving DecidableEq, Repr

/-- The instance `launch` starts from. -/
def Node.launch (cfg : NetworkConfig) : Node :=
  ⟨cfg, false, .launching, .off, {}, ⟨[], []⟩, false, none⟩

/-- What a goroutine reads of the edge it belongs to: whether its generation is in force, the
status, and the number of sign-outs that have landed. -/
structure View where
  live : Bool
  status : EdgeStatus
  logouts : ℕ

/-- What a step does to the outside: a write to the status, a request for a sign-in link, or,
for a `Login`, the answer that the status already shows one. -/
inductive Act
  | quiet
  | publish (w : Write)
  | nudge
  | shown
  deriving DecidableEq, Repr

/-- What a step is given: nothing, the answer of a poll, the outcome of a library call, or the
cancellation of its context. `waited` tells whether the nudge delay has passed. -/
inductive Input
  | go
  | answer (st : Except JsString PollAnswer) (waited : Bool)
  | ok (expires : Option ℤ)
  | fail (err : EdgeError)
  | quit

namespace Node

/-- The lock of the publisher is held by `who`. -/
def holds (n : Node) (who : Publisher) : Bool := n.login.map Prod.fst = some who

/-- `loginPublisher.publish` up to its write: nothing for an empty link or one that is already
shown, else the lock is taken. -/
def offer (n : Node) (who : Publisher) (url : JsString) (status : EdgeStatus) : Option Node :=
  if url = [] then some n
  else if n.login ≠ none then none
  else if status.state = .loginRequired ∧ status.loginURL = some url then some n
  else some { n with login := some (who, url) }

/-! ### Bring-up -/

/-- `waitForRunning` on the answer of one poll. -/
def bringUpAnswer (n : Node) (l : PollLoop) (st : Except JsString PollAnswer) (waited : Bool) :
    Node × Act :=
  match st with
  | .error text =>
      if l.consecutiveErrors + 1 > 20 then
        ({ n with bringUp := .failing ⟨errCodeEdgeNotReady,
            js "the local Tailscale daemon is not answering: " ++ text⟩ }, .quiet)
      else
        ({ n with bringUp := .waiting { l with consecutiveErrors := l.consecutiveErrors + 1 } },
          .quiet)
  | .ok st =>
      let l := { l with consecutiveErrors := 0 }
      match st.backend with
      | .running =>
          if dnsNameOf st n.cfg ≠ [] then
            ({ n with bringUp := .named (dnsNameOf st n.cfg) }, .quiet)
          else ({ n with bringUp := .waiting l }, .quiet)
      | .needsLogin | .needsMachineAuth =>
          if st.authURL ≠ [] then ({ n with bringUp := .offering l st.authURL }, .quiet)
          else if !l.loginStarted && waited then
            ({ n with bringUp := .waiting { l with loginStarted := true } }, .nudge)
          else ({ n with bringUp := .waiting l }, .quiet)
      | .stopped =>
          ({ n with bringUp := .failing ⟨errCodeEdgeNotReady,
              js "the tailnet node is stopped"⟩ }, .quiet)
      | .noState | .inUseOtherUser | .starting => ({ n with bringUp := .waiting l }, .quiet)

/-- One step of `bringUp` and of the goroutine around it. -/
def bringUpStep (v : View) (n : Node) : Input → Option (Node × Act)
  | .go =>
      match n.bringUp with
      | .begin => some ({ n with bringUp := .waiting ⟨0, false⟩ }, .publish .connecting)
      | .waiting l =>
          if n.holds .bringUp then none
          else some ({ n with bringUp := .asking l v.logouts }, .quiet)
      | .offering l url =>
          ({ n with bringUp := .waiting l }.offer .bringUp url v.status).map (·, .quiet)
      | .named host => some ({ n with bringUp := .exposing host }, .publish (.host host))
      | .exposing host =>
          if n.cfg.expose = exposeFunnel then
            some ({ n with bringUp := .funnelling host }, .quiet)
          else if n.cfg.certStrategy ≠ certExternalProxy then
            some ({ n with bringUp := .preparing host }, .publish .obtainingCertificate)
          else some ({ n with bringUp := .preparing host }, .quiet)
      | .checking host =>
          if v.live then some ({ n with bringUp := .listening host }, .quiet)
          else some ({ n with bringUp := .failing ⟨errCodeEdgeNotReady,
            js "this tailnet node was replaced before it finished starting"⟩ }, .quiet)
      | .serving host funnelURL expires =>
          some ({ n with bringUp := .up, watch := .idle, identity := ⟨host, funnelURL⟩ },
            .publish (.connected host funnelURL expires))
      | .failing err =>
          -- a cancelled generation was asked to go away; that is not a failure to report
          if n.cancelled then some ({ n with bringUp := .abandoned }, .quiet)
          else some ({ n with bringUp := .failed }, .publish (.error err.code err.message))
      | _ => none
  | .answer st waited =>
      match n.bringUp with
      | .asking l _ => some (n.bringUpAnswer l st waited)
      | _ => none
  | .ok expires =>
      match n.bringUp with
      | .funnelling host =>
          some ({ n with bringUp := .serving host (js "https://" ++ host) none }, .quiet)
      | .preparing host => some ({ n with bringUp := .checking host, certs := true }, .quiet)
      | .listening host => some ({ n with bringUp := .serving host [] expires }, .quiet)
      | _ => none
  | .fail err =>
      match n.bringUp with
      | .funnelling _ | .preparing _ | .listening _ =>
          some ({ n with bringUp := .failing err }, .quiet)
      | _ => none
  | .quit =>
      match n.bringUp with
      | .waiting _ =>
          if n.cancelled && !n.holds .bringUp then
            some ({ n with bringUp := .abandoned }, .quiet)
          else none
      | _ => none

/-! ### Watch -/

/-- The first poll of an episode settles who owns it: watch, unless the status already asks
for a sign-in. -/
def openEpisode (ep : AuthEpisode) (status : EdgeStatus) : AuthEpisode :=
  if ep.active then ep
  else { ep with active := true, owned := status.state ≠ .loginRequired }

/-- `reconcileAuth` up to its first effect. -/
def reconcileAuth (n : Node) (status : EdgeStatus) (st : PollAnswer) : Node :=
  if st.backend.signedOut then
    let ep := openEpisode n.episode status
    if !ep.owned then { n with episode := ep, watch := .counting st.onlinePeers }
    else if st.authURL ≠ [] then
      { n with episode := ep, watch := .linking st.authURL st.onlinePeers }
    else { n with episode := ep, watch := .parking st.onlinePeers }
  else if st.backend = .running then
    if status.state ≠ .loginRequired then
      { n with episode := {}, watch := .counting st.onlinePeers }
    else { n with episode := {}, watch := .restoring st.onlinePeers }
  else { n with watch := .counting st.onlinePeers }

/-- One step of the watch loop. -/
def watchStep (v : View) (n : Node) : Input → Option (Node × Act)
  | .go =>
      match n.watch with
      | .idle => some ({ n with watch := .asking v.logouts }, .quiet)
      | .judging st => some (n.reconcileAuth v.status st, .quiet)
      | .linking url peers =>
          ({ n with watch := .counting peers }.offer .watch url v.status).map (·, .quiet)
      | .parking peers =>
          if v.status.state ≠ .loginRequired then
            some ({ n with watch := .demoting peers }, .quiet)
          else some ({ n with watch := .nudging peers }, .quiet)
      | .demoting peers =>
          some ({ n with watch := .nudging peers }, .publish (.loginRequired []))
      | .nudging peers =>
          if !n.episode.sawNoURL then
            some ({ n with watch := .counting peers
                           episode := { n.episode with sawNoURL := true } }, .quiet)
          else if !n.episode.nudged then
            some ({ n with watch := .counting peers
                           episode := { n.episode with nudged := true } }, .nudge)
          else some ({ n with watch := .counting peers }, .quiet)
      | .counting peers =>
          if n.holds .watch then none
          else some ({ n with watch := .expiring }, .publish (.peers peers))
      | _ => none
  | .answer st _ =>
      match n.watch with
      | .asking _ =>
          match st with
          | .error _ => some ({ n with watch := .expiring }, .quiet)
          | .ok st => some ({ n with watch := .judging st }, .quiet)
      | _ => none
  | .ok expires =>
      match n.watch with
      | .restoring peers =>
          some ({ n with watch := .counting peers },
            .publish (.connected n.identity.host n.identity.funnelURL
              (if n.certs then expires else none)))
      | .expiring =>
          if n.certs then some ({ n with watch := .idle }, .publish (.certExpiry expires))
          else some ({ n with watch := .idle }, .quiet)
      | _ => none
  | .quit =>
      match n.watch with
      | .idle => if n.cancelled then some ({ n with watch := .off }, .quiet) else none
      | _ => none
  | .fail _ => none

/-! ### A step of a generation -/

/-- A step of the bring-up goroutine, of the watch loop, of a log line that carries a link, or
of the goroutine that holds the publisher's lock, which writes and gives it up. -/
inductive Event
  | bringUp (i : Input)
  | watch (i : Input)
  | logLine (url : JsString)
  | commit

/-- One step of one generation. A `Login` call that holds the lock writes in a step of its
own. -/
def step (v : View) (n : Node) : Event → Option (Node × Act)
  | .bringUp i => n.bringUpStep v i
  | .watch i => n.watchStep v i
  | .logLine url => (n.offer .logHook url v.status).map (·, .quiet)
  | .commit =>
      match n.login with
      | some (.call _, _) => none
      | some (_, url) => some ({ n with login := none }, .publish (.loginRequired url))
      | none => none

/-- The goroutine a step belongs to. -/
def publisher (n : Node) : Event → Option Publisher
  | .bringUp _ => some .bringUp
  | .watch _ => some .watch
  | .logLine _ => some .logHook
  | .commit => n.login.map Prod.fst

/-- A poll that began after the last sign-out is answered that the node is running. -/
def reportsRunning (n : Node) (logouts : ℕ) : Event → Bool
  | .bringUp (.answer (.ok st) _) =>
      st.backend = .running && (match n.bringUp with
        | .asking _ begun => begun = logouts
        | _ => false)
  | .watch (.answer (.ok st) _) =>
      st.backend = .running && (match n.watch with
        | .asking begun => begun = logouts
        | _ => false)
  | _ => false

/-! ### What a step can do -/

/-- How far bring-up has come: not yet `connecting`, past it, or reported as failed. -/
inductive Stage
  | early
  | middle
  | failed
  deriving DecidableEq

def stageOf : BringUp → Stage
  | .launching | .begin => .early
  | .failed => .failed
  | _ => .middle

/-- The watch loop runs only once bring-up is done. -/
def Watched (n : Node) : Prop := n.watch ≠ .off → n.bringUp = .up

lemma watched_launch (cfg : NetworkConfig) : Watched (launch cfg) := fun h => absurd rfl h

/-- What a step can do, and where that leaves bring-up. A sign-in prompt comes from a
generation past `connecting`, or from the holder of the publisher's lock. -/
inductive Effect (ev : Event) (b b' : BringUp) : Act → Prop
  | silent {act : Act} (hact : act = .quiet ∨ act = .nudge) (hstage : stageOf b' = stageOf b) :
      Effect ev b b' act
  | connecting (hold : stageOf b = .early) (hnew : stageOf b' = .middle) :
      Effect ev b b' (.publish .connecting)
  | error (code message : JsString) (hnew : stageOf b' = .failed) :
      Effect ev b b' (.publish (.error code message))
  | fact {w : Write} (hw : w.target = none) (hstage : stageOf b' = stageOf b) :
      Effect ev b b' (.publish w)
  | serving {w : Write}
      (hw : w.target = some .connected ∨ w.target = some .obtainingCertificate)
      (hold : stageOf b = .middle) (hnew : stageOf b' = .middle) : Effect ev b b' (.publish w)
  | prompt (url : JsString) (hstage : stageOf b' = stageOf b)
      (hold : stageOf b = .middle ∨ ev = .commit) :
      Effect ev b b' (.publish (.loginRequired url))

section Step

variable {v : View} {n n' : Node} {act : Act}

lemma offer_frame {who : Publisher} {url : JsString} {status : EdgeStatus}
    (h : n.offer who url status = some n') : ∃ l, n' = { n with login := l } := by
  rw [offer] at h
  split_ifs at h <;> cases h
  · exact ⟨n.login, rfl⟩
  · exact ⟨n.login, rfl⟩
  · exact ⟨_, rfl⟩

/-- What is not taken up to be written is already shown. -/
lemma shown_of_offer {who : Publisher} {url : JsString} {status : EdgeStatus} (hurl : url ≠ [])
    (h : n.offer who url status = some n') (hwho : n'.holds who = false) :
    status.state = .loginRequired := by
  rw [offer, if_neg hurl] at h
  split_ifs at h with h1 h2
  · exact h2.1
  · cases h
    simp [holds] at hwho

/-- An answered poll leaves bring-up between `connecting` and its end, and publishes nothing. -/
lemma bringUpAnswer_spec (l : PollLoop) (st : Except JsString PollAnswer) (waited : Bool) :
    (∃ b, (n.bringUpAnswer l st waited).1 = { n with bringUp := b } ∧ stageOf b = .middle ∧
      b ≠ .up) ∧ ((n.bringUpAnswer l st waited).2 = .quiet ∨
        (n.bringUpAnswer l st waited).2 = .nudge) := by
  cases st with
  | error text =>
      rw [bringUpAnswer]
      split_ifs
      · exact ⟨⟨_, rfl, rfl, by simp⟩, by simp⟩
      · exact ⟨⟨_, rfl, rfl, by simp⟩, by simp⟩
  | ok st =>
      cases hb : st.backend <;> simp only [bringUpAnswer, hb] <;> (try split_ifs) <;>
        exact ⟨⟨_, rfl, rfl, by simp⟩, by simp⟩

/-- The steps of the bring-up goroutine. -/
lemma effect_bringUpStep {i : Input} (hn : Watched n) (h : n.bringUpStep v i = some (n', act)) :
    Effect (.bringUp i) n.bringUp n'.bringUp act ∧ Watched n' := by
  have hoff (hb : n.bringUp ≠ .up) : n.watch = .off := by
    by_contra hw
    exact hb (hn hw)
  have hsilent {b : BringUp} {m : Node} (hb : n.bringUp = b) (hup : b ≠ .up)
      (hm : m.watch = n.watch) (hs : stageOf m.bringUp = stageOf b) :
      Effect (.bringUp i) b m.bringUp .quiet ∧ Watched m :=
    ⟨.silent (by simp) hs, fun hw => absurd (hm.trans (hoff (hb ▸ hup))) hw⟩
  cases i with
  | go =>
      cases hb : n.bringUp <;> simp only [bringUpStep, hb, reduceCtorEq] at h
      case begin =>
          cases h
          exact ⟨.connecting rfl rfl, fun hw => absurd (hoff (by simp [hb])) hw⟩
      case waiting l =>
          split_ifs at h
          cases h
          exact hsilent hb (by simp) rfl rfl
      case offering l url =>
          obtain ⟨m, hm, h⟩ := Option.map_eq_some_iff.mp h
          obtain ⟨l', rfl⟩ := offer_frame hm
          cases h
          exact hsilent hb (by simp) rfl rfl
      case named host =>
          cases h
          exact ⟨.fact rfl rfl, fun hw => absurd (hoff (by simp [hb])) hw⟩
      case exposing host =>
          split_ifs at h <;> cases h
          · exact hsilent hb (by simp) rfl rfl
          · exact ⟨.serving (.inr rfl) rfl rfl, fun hw => absurd (hoff (by simp [hb])) hw⟩
          · exact hsilent hb (by simp) rfl rfl
      case checking host =>
          split_ifs at h <;> cases h
          · exact hsilent hb (by simp) rfl rfl
          · exact hsilent hb (by simp) rfl rfl
      case serving host funnelURL expires =>
          cases h
          exact ⟨.serving (.inl rfl) rfl rfl, fun _ => rfl⟩
      case failing err =>
          split_ifs at h <;> cases h
          · exact hsilent hb (by simp) rfl rfl
          · exact ⟨.error _ _ rfl, fun hw => absurd (hoff (by simp [hb])) hw⟩
  | answer st waited =>
      cases hb : n.bringUp <;> simp only [bringUpStep, hb, reduceCtorEq] at h
      case asking l begun =>
          obtain ⟨⟨b, h1, hs, hup⟩, h2⟩ := bringUpAnswer_spec (n := n) l st waited
          have hm := congrArg Prod.fst (Option.some.inj h)
          have hact := congrArg Prod.snd (Option.some.inj h)
          rw [h1] at hm
          dsimp only at hm hact
          subst hm hact
          exact ⟨.silent h2 hs, fun hw => absurd (hoff (by simp [hb])) hw⟩
  | ok expires =>
      cases hb : n.bringUp <;> simp only [bringUpStep, hb, reduceCtorEq] at h <;> cases h <;>
        exact hsilent hb (by simp) rfl rfl
  | fail err =>
      cases hb : n.bringUp <;> simp only [bringUpStep, hb, reduceCtorEq] at h <;> cases h <;>
        exact hsilent hb (by simp) rfl rfl
  | quit =>
      cases hb : n.bringUp <;> simp only [bringUpStep, hb, reduceCtorEq] at h
      case waiting l =>
          split_ifs at h
          cases h
          exact hsilent hb (by simp) rfl rfl

/-- The steps of the watch loop, which runs once bring-up is done. -/
lemma effect_watchStep {i : Input} (hn : Watched n) (h : n.watchStep v i = some (n', act)) :
    Effect (.watch i) n.bringUp n'.bringUp act ∧ n.bringUp = .up ∧ n'.bringUp = .up := by
  have hup (hw : n.watch ≠ .off) : n.bringUp = .up := hn hw
  have hsilent {m : Node} {act : Act} (hw : n.watch ≠ .off) (hm : m.bringUp = n.bringUp)
      (hact : act = .quiet ∨ act = .nudge) :
      Effect (.watch i) n.bringUp m.bringUp act ∧ n.bringUp = .up ∧ m.bringUp = .up :=
    ⟨.silent hact (congrArg stageOf hm), hup hw, hm.trans (hup hw)⟩
  have hfact {m : Node} {w : Write} (hw : n.watch ≠ .off) (hm : m.bringUp = n.bringUp)
      (hact : w.target = none) :
      Effect (.watch i) n.bringUp m.bringUp (.publish w) ∧ n.bringUp = .up ∧ m.bringUp = .up :=
    ⟨.fact hact (congrArg stageOf hm), hup hw, hm.trans (hup hw)⟩
  cases i with
  | go =>
      cases hb : n.watch <;> simp only [watchStep, hb, reduceCtorEq] at h
      case idle =>
          cases h
          exact hsilent (by simp [hb]) rfl (by simp)
      case judging st =>
          cases h
          refine hsilent (by simp [hb]) ?_ (by simp)
          simp only [reconcileAuth]
          split_ifs <;> rfl
      case linking url peers =>
          obtain ⟨m, hm, h⟩ := Option.map_eq_some_iff.mp h
          obtain ⟨l, rfl⟩ := offer_frame hm
          cases h
          exact hsilent (by simp [hb]) rfl (by simp)
      case parking peers =>
          split_ifs at h <;> cases h <;> exact hsilent (by simp [hb]) rfl (by simp)
      case demoting peers =>
          cases h
          have := hup (by simp [hb])
          exact ⟨.prompt [] rfl (.inl (by rw [this]; rfl)), this, this⟩
      case nudging peers =>
          split_ifs at h <;> cases h <;> exact hsilent (by simp [hb]) rfl (by simp)
      case counting peers =>
          split_ifs at h
          cases h
          exact hfact (by simp [hb]) rfl rfl
  | answer st waited =>
      cases hb : n.watch <;> simp only [watchStep, hb, reduceCtorEq] at h
      case asking begun =>
          cases st <;> cases h <;> exact hsilent (by simp [hb]) rfl (by simp)
  | ok expires =>
      cases hb : n.watch <;> simp only [watchStep, hb, reduceCtorEq] at h
      case restoring peers =>
          cases h
          have := hup (by simp [hb])
          exact ⟨.serving (.inl rfl) (by rw [this]; rfl) (by dsimp only; rw [this]; rfl), this,
            this⟩
      case expiring =>
          split_ifs at h <;> cases h
          · exact hfact (by simp [hb]) rfl rfl
          · exact hsilent (by simp [hb]) rfl (by simp)
  | quit =>
      cases hb : n.watch <;> simp only [watchStep, hb, reduceCtorEq] at h
      case idle =>
          split_ifs at h
          cases h
          exact hsilent (by simp [hb]) rfl (by simp)
  | fail err => cases h

/-- **What a step of a generation can do.** -/
theorem effect_of_step {ev : Event} (hn : Watched n) (h : n.step v ev = some (n', act)) :
    Effect ev n.bringUp n'.bringUp act ∧ Watched n' := by
  cases ev with
  | bringUp i => exact effect_bringUpStep hn h
  | watch i =>
      obtain ⟨heffect, -, hup⟩ := effect_watchStep hn h
      exact ⟨heffect, fun _ => hup⟩
  | logLine url =>
      obtain ⟨m, hm, h⟩ := Option.map_eq_some_iff.mp h
      obtain ⟨l, rfl⟩ := offer_frame hm
      cases h
      exact ⟨.silent (by simp) rfl, hn⟩
  | commit =>
      rcases hl : n.login with _ | ⟨_ | _ | _ | d, url⟩ <;>
        simp only [step, hl, reduceCtorEq] at h <;> cases h <;>
        exact ⟨.prompt url rfl (.inr rfl), hn⟩

/-- Until `launch` returns, no goroutine of the generation runs. -/
lemma launching_of_step {ev : Event} (hn : Watched n) (h : n.step v ev = some (n', act))
    (hb : n.bringUp = .launching) : n'.bringUp = .launching := by
  cases ev with
  | bringUp i => cases i <;> simp [step, bringUpStep, hb] at h
  | watch i =>
      have hup := (effect_watchStep hn h).2.1
      rw [hb] at hup
      cases hup
  | logLine url =>
      obtain ⟨m, hm, h⟩ := Option.map_eq_some_iff.mp h
      obtain ⟨l, rfl⟩ := offer_frame hm
      cases h
      exact hb
  | commit =>
      rcases hl : n.login with _ | ⟨_ | _ | _ | d, url⟩ <;>
        simp only [step, hl, reduceCtorEq] at h <;> cases h <;> exact hb

/-- No goroutine of a generation publishes `stopped`. -/
lemma Effect.target {ev : Event} {b b' : BringUp} {w : Write}
    (h : Effect ev b b' (.publish w)) : w.target ≠ some .stopped := by
  cases h with
  | silent hact => rcases hact with h | h <;> cases h
  | connecting => exact fun hw => by cases hw
  | error => exact fun hw => by cases hw
  | fact hw => simp [hw]
  | serving hw => rcases hw with hw | hw <;> simp [hw]
  | prompt => exact fun hw => by cases hw

end Step

end Node

end LocalCast.Edge
