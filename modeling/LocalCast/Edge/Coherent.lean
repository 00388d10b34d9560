import LocalCast.Edge.Transitions

/-!
Whether the snapshots of the status hold together.

* `Snapshot`: a sign-in link only where a sign-in is asked for, an error in the error state and
  nowhere else, and no address while the edge is stopped or starting.
* `snapshot_apply`: a write keeps that, unless it records a fact while the edge is stopped or
  starting.
* `middle_of_fact`: only a generation past `connecting` records facts.
* `stopsInTime`: the write of a `Stop` finds no generation announced since.
* `shown_step`, `snapshots_coherent`: over such runs every snapshot that is committed holds
  together.
* `stopped_with_host`: a node that comes up after a late `Stop`.
-/

namespace LocalCast.Edge

open JsString Runs

/-! ### Snapshots -/

/-- What a snapshot says belongs to its state. -/
structure Snapshot (st : EdgeStatus) : Prop where
  link : st.loginURL ≠ none → st.state = .loginRequired
  code : st.errorCode ≠ none ↔ st.state = .error
  message : st.errorMessage ≠ none ↔ st.state = .error
  blank : st.state = .stopped ∨ st.state = .starting →
    st.host = none ∧ st.funnelURL = none ∧ st.certExpiresAt = none

lemma snapshot_fresh {state : EdgeState} (h : state ≠ .error) : Snapshot (.fresh state) where
  link hlink := absurd rfl hlink
  code := iff_of_false (fun hcode => hcode rfl) h
  message := iff_of_false (fun hmessage => hmessage rfl) h
  blank _ := ⟨rfl, rfl, rfl⟩

/-- A move clears what does not belong to the state it leads to, and its own changes do. -/
lemma snapshot_transition {st st' : EdgeStatus} {w : Write} {dst : EdgeState}
    (htarget : w.target = some dst) (h : transition st dst w.mutate = some st') :
    Snapshot st' := by
  rw [transition] at h
  split_ifs at h
  cases h
  cases w with
  | loginRequired url =>
      cases htarget
      by_cases hurl : url = [] <;>
        constructor <;> simp [Write.mutate, clearStaleFields, hurl]
  | _ =>
      cases htarget <;> constructor <;> simp [Write.mutate, clearStaleFields]

/-- A write leaves a snapshot that holds together, unless it records a fact while the edge is
stopped or starting. -/
lemma snapshot_apply {st st' : EdgeStatus} {w : Write} (h : Snapshot st)
    (hfact : w.target = none → st.state ≠ .stopped ∧ st.state ≠ .starting)
    (hw : st.apply w = some st') : Snapshot st' := by
  rw [EdgeStatus.apply] at hw
  cases htarget : w.target with
  | some dst =>
      rw [htarget] at hw
      exact snapshot_transition htarget hw
  | none =>
      obtain ⟨hstopped, hstarting⟩ := hfact htarget
      rw [htarget] at hw
      cases hw
      have hblank : ¬(st.state = .stopped ∨ st.state = .starting) := by simp [hstopped, hstarting]
      cases w <;> cases htarget <;>
        exact ⟨h.link, h.code, h.message, fun hstate => absurd hstate hblank⟩

/-- What a write leaves, whether or not it was refused. -/
lemma snapshot_getD {st : EdgeStatus} {w : Write} (h : Snapshot st)
    (hfact : w.target = none → st.state ≠ .stopped ∧ st.state ≠ .starting) :
    Snapshot ((st.apply w).getD st) := by
  cases hw : st.apply w with
  | none => exact h
  | some st' => exact snapshot_apply h hfact hw

/-- A write leads to its target, or leaves the state as it was. -/
lemma state_getD (st : EdgeStatus) (w : Write) :
    ((st.apply w).getD st).state = st.state ∨
      w.target = some ((st.apply w).getD st).state := by
  cases hw : st.apply w with
  | none => exact .inl rfl
  | some st' =>
      rw [Option.getD_some, state_of_apply hw]
      cases w.target with
      | none => exact .inl rfl
      | some dst => exact .inr rfl

/-! ### Facts -/

namespace Node

variable {v : View} {n n' : Node} {w : Write}

/-- Only a generation past `connecting` records facts. -/
lemma middle_of_fact {ev : Event} (hn : Watched n) (h : n.step v ev = some (n', .publish w))
    (hw : w.target = none) : stageOf n.bringUp = .middle := by
  cases ev with
  | bringUp i =>
      cases hb : n.bringUp
      case launching => cases i <;> simp [step, bringUpStep, hb] at h
      case failed => cases i <;> simp [step, bringUpStep, hb] at h
      case begin =>
          cases i <;> simp only [step, bringUpStep, hb, reduceCtorEq] at h
          cases h
          cases hw
      all_goals rfl
  | watch i =>
      rw [(effect_watchStep hn h).2.1]
      rfl
  | logLine url =>
      obtain ⟨m, hm, h⟩ := Option.map_eq_some_iff.mp h
      cases h
  | commit =>
      rcases hl : n.login with _ | ⟨_ | _ | _ | d, url⟩ <;>
        simp only [step, hl, reduceCtorEq] at h <;> cases h <;> cases hw

end Node

namespace Generations

variable {go : GoLibrary} {s t : Generations}

/-! ### The law -/

/-- The write of a `Stop` lands before a newer generation has been announced. -/
def stopsInTime (s : Generations) : Action → Bool
  | .call c .go =>
      match s.calls[c]? with
      | some .halting => s.latest ≠ .replace true
      | _ => true
  | _ => true

/-- Every snapshot that was committed holds together. A generation that was announced is not
shown as stopped, nor as starting once it is past `connecting`. -/
structure Shown (s : Generations) : Prop where
  consistent : Consistent s
  status : Snapshot s.status
  announced : s.latest = .replace true → s.status.state ≠ .stopped
  live : ∀ n, s.nodes s.gen = some n → Node.stageOf n.bringUp = .middle →
    s.status.state ≠ .starting
  trace : ∀ e ∈ s.trace, ∀ w, e.act = .publish w → Snapshot e.after

/-! ### What a step keeps -/

lemma publish_latest (s : Generations) (source : Source) (gen : ℕ) (w : Write) :
    (s.publish source gen w).latest = s.latest := by
  rw [Generations.publish]
  split_ifs <;> rfl

/-- A step that commits nothing. -/
lemma Shown.keep (h : Shown s) (hC : Consistent t) (hgen : t.gen = s.gen)
    (hstatus : t.status = s.status) (hlatest : t.latest = s.latest)
    (hnodes : ∀ n, t.nodes s.gen = some n → ∃ m, s.nodes s.gen = some m ∧
      (Node.stageOf n.bringUp = .middle → Node.stageOf m.bringUp = .middle))
    (htrace : ∀ e ∈ t.trace, e ∈ s.trace ∨ ∀ w, e.act ≠ .publish w) : Shown t where
  consistent := hC
  status := hstatus ▸ h.status
  announced hl := by
    rw [hstatus]
    exact h.announced (hlatest ▸ hl)
  live n hn hstage := by
    rw [hgen] at hn
    obtain ⟨m, hm, hms⟩ := hnodes n hn
    rw [hstatus]
    exact h.live m hm (hms hstage)
  trace e he w hw := by
    rcases htrace e he with he | hno
    · exact h.trace e he w hw
    · exact absurd hw (hno w)

/-- A write that leads neither to `stopped` nor to `starting`. -/
lemma Shown.land (h : Shown s) (source : Source) {gen : ℕ} {w : Write} (hC : Consistent t)
    (hw : w.target ≠ some .stopped ∧ w.target ≠ some .starting)
    (hfact : w.target = none → s.status.state ≠ .stopped ∧ s.status.state ≠ .starting)
    (hgen : t.gen = s.gen) (hlatest : t.latest = s.latest)
    (hstatus : t.status = (s.status.apply w).getD s.status)
    (htrace : t.trace = (s.land source gen w).trace)
    (hlive : ∀ n, t.nodes s.gen = some n → Node.stageOf n.bringUp = .middle →
      ((s.status.apply w).getD s.status).state = s.status.state →
        s.status.state ≠ .starting) : Shown t := by
  have hafter := snapshot_getD h.status hfact
  refine ⟨hC, hstatus ▸ hafter, fun hl => ?_, fun n hn hstage => ?_, fun e he w' hact => ?_⟩
  · rw [hstatus]
    rcases state_getD s.status w with hs | hs
    · rw [hs]
      exact h.announced (hlatest ▸ hl)
    · exact fun hstopped => hw.1 (hstopped ▸ hs)
  · rw [hgen] at hn
    rw [hstatus]
    rcases state_getD s.status w with hs | hs
    · rw [hs]
      exact hlive n hn hstage hs
    · exact fun hstarting => hw.2 (hstarting ▸ hs)
  · rw [htrace] at he
    rcases List.mem_cons.mp he with rfl | he
    · exact hafter
    · exact h.trace e he w' hact

/-- The same through the generation gate. -/
lemma Shown.publish (h : Shown s) (source : Source) {gen : ℕ} {n : Node} (n' : Node) (w : Write)
    (hn : s.nodes gen = some n) (hC : Consistent t)
    (hw : w.target ≠ some .stopped ∧ w.target ≠ some .starting)
    (hfact : w.target = none → Node.stageOf n.bringUp = .middle)
    (hmiddle : Node.stageOf n'.bringUp = .middle →
      Node.stageOf n.bringUp = .middle ∨ w = .connecting)
    (hgen : t.gen = s.gen) (hlatest : t.latest = s.latest)
    (hnodes : t.nodes = (s.setNode gen n').nodes)
    (hstatus : t.status = ((s.setNode gen n').publish source gen w).status)
    (htrace : t.trace = ((s.setNode gen n').publish source gen w).trace) : Shown t := by
  by_cases hg : gen = s.gen
  · subst hg
    have hpub : (s.setNode s.gen n').publish source s.gen w =
        (s.setNode s.gen n').land source s.gen w := if_pos rfl
    rw [hpub] at hstatus htrace
    refine h.land source hC hw (fun hnone => ?_) hgen hlatest hstatus htrace fun m hm hstage hsame => ?_
    · exact ⟨h.announced (h.consistent.latest_of_node hn rfl), h.live n hn (hfact hnone)⟩
    · rw [hnodes, setNode_self] at hm
      cases hm
      rcases hmiddle hstage with hold | rfl
      · exact h.live n hn hold
      · -- `starting` is no state in which `connecting` is refused
        intro hstarting
        obtain ⟨st', hst'⟩ := isSome_apply s.status .connecting fun dst hdst => by
          cases hdst
          rw [hstarting]
          rfl
        rw [hst', Option.getD_some, state_of_apply hst', hstarting] at hsame
        cases hsame
  · have hpub : (s.setNode gen n').publish source gen w = s.setNode gen n' := if_neg hg
    rw [hpub] at hstatus htrace
    refine h.keep hC hgen hstatus hlatest (fun m hm => ?_) fun e he => .inl (htrace ▸ he)
    rw [hnodes, setNode_of_ne s (Ne.symm hg)] at hm
    exact ⟨m, hm, id⟩

/-- A generation in force that has just been made current has no instance, and the status has
nothing but its state. -/
lemma Shown.retire (h : Shown s) (hC : Consistent t) (hnone : t.nodes t.gen = none)
    (hlatest : t.latest ≠ .replace true) (hstatus : t.status = s.status)
    (htrace : t.trace = s.trace) : Shown t where
  consistent := hC
  status := hstatus ▸ h.status
  announced hl := absurd hl hlatest
  live n hn := by
    rw [hnone] at hn
    cases hn
  trace := htrace ▸ h.trace

section Step

variable {c : ℕ} {p : Call} {i : Input}

lemma shown_arrive (go : GoLibrary) (h : Shown s) (k : CallKind) : Shown (s.arrive go k) := by
  have hC := consistent_arrive go h.consistent k
  obtain ⟨p, so, -, ht⟩ := arrive_eq go s k
  rw [ht] at hC ⊢
  exact h.keep hC rfl rfl rfl (fun n hn => ⟨n, hn, id⟩) fun e he => .inl he

lemma shown_replaceStep (h : Shown s) (hc : s.calls[c]? = some p)
    (hstep : s.replaceStep c p i = some t) : Shown t := by
  have hC := consistent_replaceStep h.consistent hc hstep
  cases p <;> cases i <;> try cases hstep
  case reading.go =>
      rw [replaceStep] at hstep
      split_ifs at hstep
      cases hstep
      exact h.keep hC rfl rfl rfl (fun n hn => ⟨n, hn, id⟩) fun e he => .inl he
  case entering.go cfg =>
      rw [replaceStep] at hstep
      split_ifs at hstep
      cases hstep
      exact h.retire hC (h.consistent.fresh _ (Nat.lt_succ_self _)) (by simp) rfl rfl
  case announcing.go gen cfg =>
      obtain ⟨-, rfl, hl⟩ := h.consistent.lock c _ _ hc rfl
      have hunlaunched := h.consistent.unlaunched (by rw [hl]; simp [announced])
      have hpub : s.publish .replace s.gen .starting = s.land .replace s.gen .starting :=
        if_pos rfl
      have hstatus : (s.land .replace s.gen .starting).status = .fresh .starting := by
        simp [Generations.land]
      rw [hpub] at hC ⊢
      refine ⟨hC, ?_, fun _ => ?_, fun n hn => ?_, fun e he w hact => ?_⟩
      · change Snapshot (s.land .replace s.gen .starting).status
        rw [hstatus]
        exact snapshot_fresh (by simp)
      · change (s.land .replace s.gen .starting).status.state ≠ .stopped
        rw [hstatus]
        simp
      · cases hunlaunched.symm.trans hn
      · rcases List.mem_cons.mp he with rfl | he
        · have hfresh : Snapshot (.fresh .starting) := snapshot_fresh (by simp)
          simpa using hfresh
        · exact h.trace e he w hact
  case tearing.go gen cfg =>
      obtain ⟨-, rfl, -⟩ := h.consistent.lock c _ _ hc rfl
      refine ⟨hC, h.status, h.announced, fun n hn hstage => ?_, h.trace⟩
      cases Option.some.inj ((setNode_self (s.cancel s.inst) s.gen _).symm.trans hn)
      cases hstage
  case launching.go gen =>
      obtain ⟨n, hn, rfl⟩ := Option.map_eq_some_iff.mp hstep
      refine h.keep hC rfl rfl rfl (fun m hm => ?_) fun e he => .inl he
      have hset : (s.setNode gen { n with bringUp := .begin }).nodes s.gen = some m := hm
      rcases of_setNode hset with ⟨hg, rfl⟩ | hm
      · exact ⟨n, hg ▸ hn, fun hstage => by cases hstage⟩
      · exact ⟨m, hm, id⟩
  case launching.fail gen err =>
      exact h.keep hC rfl rfl rfl (fun n hn => ⟨n, hn, id⟩) fun e he => .inl he
  case reporting.go gen err =>
      obtain ⟨n, hn, rfl⟩ := Option.map_eq_some_iff.mp hstep
      exact h.publish .replace { n with bringUp := .failed } (.error err.code err.message) hn hC
        (by simp [Write.target]) (by simp [Write.target]) (fun hstage => by cases hstage)
        (publish_gen ..) (publish_latest ..) (publish_nodes ..) rfl rfl

lemma shown_stopStep (h : Shown s) (hc : s.calls[c]? = some p)
    (hguard : stopsInTime s (.call c i) = true) (hstep : s.stopStep c p i = some t) :
    Shown t := by
  have hC := consistent_stopStep h.consistent hc hstep
  cases p <;> cases i <;> try cases hstep
  case stopping.go =>
      rw [stopStep] at hstep
      split_ifs at hstep
      cases hstep
      exact h.retire hC (h.consistent.fresh _ (Nat.lt_succ_self _)) (by simp) rfl rfl
  case tearingDown.go inst =>
      refine h.keep hC rfl rfl rfl (fun n hn => ?_) fun e he => .inl he
      obtain ⟨m, hm, hb⟩ := of_cancel (s := s) hn
      exact ⟨m, hm, fun hstage => hb ▸ hstage⟩
  case halting.go =>
      have hl : s.latest ≠ .replace true := by
        rw [stopsInTime, hc] at hguard
        exact of_decide_eq_true hguard
      have hstatus : (s.land .stop s.gen .stopped).status = .fresh .stopped := by
        simp [Generations.land]
      have hfresh : Snapshot (.fresh .stopped) := snapshot_fresh (by simp)
      refine ⟨hC, ?_, fun hl' => absurd hl' hl, fun n hn => ?_, fun e he w hact => ?_⟩
      · change Snapshot (s.land .stop s.gen .stopped).status
        rwa [hstatus]
      · cases (h.consistent.unlaunched hl).symm.trans hn
      · rcases List.mem_cons.mp he with rfl | he
        · simpa using hfresh
        · exact h.trace e he w hact

lemma shown_loginStep (h : Shown s) (hc : s.calls[c]? = some p)
    (hstep : s.loginStep c p i = some t) : Shown t := by
  have hC := consistent_loginStep h.consistent hc hstep
  have hset (p' : Call) (ht : Consistent (s.setCall c p')) : Shown (s.setCall c p') :=
    h.keep ht rfl rfl rfl (fun n hn => ⟨n, hn, id⟩) fun e he => .inl he
  have hshown {gen : ℕ} (ht : Consistent ((s.note (.node (.call c)) gen .shown).setCall c .over)) :
      Shown ((s.note (.node (.call c)) gen .shown).setCall c .over) := by
    refine h.keep ht rfl rfl rfl (fun n hn => ⟨n, hn, id⟩) fun e he => ?_
    rcases List.mem_cons.mp he with rfl | he
    · exact .inr nofun
    · exact .inl he
  cases p <;> cases i <;> try cases hstep
  case loggingIn.go =>
      rw [loginStep] at hstep
      split_ifs at hstep
      cases hi : s.inst <;> simp only [hi] at hstep <;> cases hstep <;> exact hset _ hC
  case noting.go => exact hset _ hC
  case asking.go => exact hset _ hC
  case asking.fail => exact hset _ hC
  case polling.go =>
      rw [loginStep] at hstep
      split_ifs at hstep
      · cases hstep
        exact hshown hC
      · cases hstep
        exact h
  case polling.answer gen before st waited =>
      cases st with
      | error text => cases hstep
      | ok st =>
          simp only [loginStep] at hstep
          split_ifs at hstep
          cases hstep
          exact hset _ hC
  case polling.quit => exact hset _ hC
  case offering.go gen url =>
      obtain ⟨n, hn, hstep⟩ := Option.bind_eq_some_iff.mp hstep
      obtain ⟨n', hoffer, hstep⟩ := Option.map_eq_some_iff.mp hstep
      obtain ⟨l, rfl⟩ := Node.offer_frame hoffer
      split_ifs at hstep <;> subst hstep
      · refine h.keep hC rfl rfl rfl (fun m hm => ?_) fun e he => .inl he
        have hset : (s.setNode gen { n with login := l }).nodes s.gen = some m := hm
        rcases of_setNode hset with ⟨hg, rfl⟩ | hm
        · exact ⟨n, hg ▸ hn, id⟩
        · exact ⟨m, hm, id⟩
      · exact hshown hC
  case committing.go gen =>
      obtain ⟨n, hn, hstep⟩ := Option.bind_eq_some_iff.mp hstep
      rcases hl : n.login with _ | ⟨_ | _ | _ | d, url⟩ <;> simp only [hl] at hstep <;>
        try cases hstep
      split_ifs at hstep
      cases hstep
      exact h.publish (.node (.call c)) { n with login := none } (.loginRequired url) hn hC
        (by simp [Write.target]) (by simp [Write.target]) .inl (publish_gen ..)
        (publish_latest ..) (publish_nodes ..) rfl rfl

lemma shown_logoutStep (h : Shown s) (hc : s.calls[c]? = some p)
    (hstep : s.logoutStep c p i = some t) : Shown t := by
  have hC := consistent_logoutStep h.consistent hc hstep
  have hset (p' : Call) (ht : Consistent (s.setCall c p')) : Shown (s.setCall c p') :=
    h.keep ht rfl rfl rfl (fun n hn => ⟨n, hn, id⟩) fun e he => .inl he
  cases p <;> cases i <;> try cases hstep
  case loggingOut.go =>
      rw [logoutStep] at hstep
      split_ifs at hstep
      cases hi : s.inst <;> simp only [hi] at hstep <;> cases hstep <;> exact hset _ hC
  case signingOut.go => exact hset _ hC
  case signingOut.fail => exact hset _ hC
  case parking.go gen =>
      exact h.land .logout hC (by simp [Write.target]) (by simp [Write.target]) rfl rfl
        rfl rfl fun n hn hstage _ => h.live n hn hstage

lemma shown_nodeStep (h : Shown s) {gen : ℕ} {ev : Node.Event}
    (hstep : s.nodeStep gen ev = some t) : Shown t := by
  have hC := consistent_nodeStep h.consistent hstep
  obtain ⟨n, n', act, who, so, hn, hns, -, -, rfl⟩ := nodeStep_cases hstep
  have hwatched := h.consistent.watched gen n hn
  have heffect := (Node.effect_of_step hwatched hns).1
  have hquiet (hact : ∀ w, act ≠ .publish w) :
      Node.stageOf n'.bringUp = Node.stageOf n.bringUp := by
    cases heffect with
    | silent _ hstage => exact hstage
    | _ => exact absurd rfl (hact _)
  have hmove (hact : ∀ w, act ≠ .publish w) (m : Node)
      (hm : (s.setNode gen n').nodes s.gen = some m) : ∃ m', s.nodes s.gen = some m' ∧
        (Node.stageOf m.bringUp = .middle → Node.stageOf m'.bringUp = .middle) := by
    rcases of_setNode hm with ⟨hg, rfl⟩ | hm
    · exact ⟨n, hg ▸ hn, fun hstage => hquiet hact ▸ hstage⟩
    · exact ⟨m, hm, id⟩
  cases act with
  | quiet => exact h.keep hC rfl rfl rfl (hmove nofun) fun e he => .inl he
  | nudge =>
      refine h.keep hC rfl rfl rfl (hmove nofun) fun e he => ?_
      rcases List.mem_cons.mp he with rfl | he
      · exact .inr nofun
      · exact .inl he
  | shown =>
      cases heffect with
      | silent hact => rcases hact with hact | hact <;> cases hact
  | publish w =>
      refine h.publish (.node who) n' w hn hC ?_ (Node.middle_of_fact hwatched hns)
        (fun hstage => ?_) (publish_gen ..) (publish_latest ..) (publish_nodes ..) rfl rfl
      · refine ⟨heffect.target, ?_⟩
        cases heffect with
        | silent hact => rcases hact with hact | hact <;> cases hact
        | connecting => simp [Write.target]
        | error => simp [Write.target]
        | fact hw => simp [hw]
        | serving hw => rcases hw with hw | hw <;> simp [hw]
        | prompt => simp [Write.target]
      · cases heffect with
        | silent hact => rcases hact with hact | hact <;> cases hact
        | connecting => exact .inr rfl
        | error _ _ hnew => cases hnew.symm.trans hstage
        | fact _ hsame => exact .inl (hsame ▸ hstage)
        | serving _ hold => exact .inl hold
        | prompt _ hsame => exact .inl (hsame ▸ hstage)

/-- A step over which a `Stop` writes in time keeps the snapshots together. -/
lemma shown_step (h : Shown s) {a : Action} (hguard : stopsInTime s a = true)
    (hstep : s.step go a = some t) : Shown t := by
  cases a with
  | arrive k =>
      cases hstep
      exact shown_arrive go h k
  | call c i =>
      obtain ⟨p, hc, hstep⟩ := Option.bind_eq_some_iff.mp hstep
      cases p <;> first
        | exact shown_replaceStep h hc hstep
        | exact shown_stopStep h hc hguard hstep
        | exact shown_loginStep h hc hstep
        | exact shown_logoutStep h hc hstep
  | node gen ev => exact shown_nodeStep h hstep

end Step

/-- **The snapshots hold together**: in every run of calls and goroutines in which the write of a
`Stop` finds no generation announced since, the status and every snapshot that was committed has
a sign-in link only where a sign-in is asked for, a code and a text exactly in the error state,
and no address while the edge is stopped or starting. -/
theorem snapshots_coherent {cfg : NetworkConfig} {as : List Action}
    (hrun : Run (Guarded (fun s a => stopsInTime s a = true) (step go)) (init cfg) as s) :
    Snapshot s.status ∧ ∀ e ∈ s.trace, ∀ w, e.act = .publish w → Snapshot e.after := by
  have hinit : Shown (init cfg) :=
    ⟨consistent_init cfg, snapshot_fresh (by simp), fun hl => (by cases hl),
      fun n hn => (by cases hn), by simp [init]⟩
  have hshown := hrun.invariant (I := Shown) (fun _ _ _ h hstep =>
    shown_step h hstep.1 hstep.2) hinit
  exact ⟨hshown.status, hshown.trace⟩

/-! ### A node that comes up after a late stop -/

theorem snapshots_coherent_up : ∃ s,
    Run (Guarded (fun s a => stopsInTime s a = true) (step plainGo)) (init defaultFile.network)
      upRun s ∧ s.status.host = some (js "cast.example.com") ∧
      (Snapshot s.status ∧ ∀ e ∈ s.trace, ∀ w, e.act = .publish w → Snapshot e.after) := by
  obtain ⟨s, hrun, hs⟩ := exists_guarded_run_of_exec (fun s a => stopsInTime s a = true)
    (step plainGo) (init defaultFile.network) upRun
    (fun s => s.status.host = some (js "cast.example.com")) (by decide +kernel)
  exact ⟨s, hrun, of_decide_eq_true hs, snapshots_coherent hrun⟩

/-- **A late stop, once more**: the node of the second start comes up as `cast.example.com`, and
the snapshot that says so is one of a stopped edge. -/
theorem stopped_with_host : ∃ s,
    Run (Steps (step plainGo)) (init defaultFile.network)
      (stopOvertaken ++ [.node 3 (.bringUp .go), .node 3 (.bringUp .go),
        .node 3 (.bringUp (.answer (.ok ⟨.running, [], js "cast.example.com.", 0⟩) false)),
        .node 3 (.bringUp .go)]) s ∧
      s.status.state = .stopped ∧ s.status.host = some (js "cast.example.com") ∧
      ¬Snapshot s.status := by
  obtain ⟨s, hrun, hs⟩ := exists_run_of_exec (step plainGo) (init defaultFile.network)
    (stopOvertaken ++ [.node 3 (.bringUp .go), .node 3 (.bringUp .go),
      .node 3 (.bringUp (.answer (.ok ⟨.running, [], js "cast.example.com.", 0⟩) false)),
      .node 3 (.bringUp .go)])
    (fun s => s.status.state = .stopped && s.status.host = some (js "cast.example.com"))
    (by decide +kernel)
  simp only [Bool.and_eq_true, decide_eq_true_eq] at hs
  refine ⟨s, hrun, hs.1, hs.2, fun h => ?_⟩
  have hblank := (h.blank (.inl hs.1)).1
  rw [hs.2] at hblank
  cases hblank

end Generations

end LocalCast.Edge
