import LocalCast.Edge.Retirement

/-!
Which publishes of the live generation the state machine refuses.

* `Fits`: the states the status can be in, by how far bring-up has come.
* `apply_of_effect`: what a step of a generation publishes is a legal move from them, and leads
  to another of them.
* `Heeded`: every write on behalf of the generation in force has landed.
* `answerable`: no sign-in prompt is published, and no sign-out lands, once bring-up has failed,
  and a `Stop` does not overtake a later start.
* `fitting_step`, `publishes_heeded`: over runs in which the steps are answerable, every publish
  of the live generation lands.
* `failed_logout`: a sign-out of a node whose bring-up has failed.
-/

namespace LocalCast.Edge

open JsString Runs

/-! ### States and stages -/

/-- The states the status of a live generation can be in: not yet `connecting`, past it, or
anywhere once its bring-up has failed. -/
def Fits : Node.Stage → EdgeState → Prop
  | .early, st => st = .starting ∨ st = .loginRequired
  | .middle, st => st ≠ .stopped ∧ st ≠ .starting ∧ st ≠ .error
  | .failed, _ => True

lemma Fits.loginRequired (stage : Node.Stage) : Fits stage .loginRequired := by
  cases stage with
  | early => exact .inr rfl
  | middle => exact ⟨by simp, by simp, by simp⟩
  | failed => trivial

/-- A sign-in prompt is a legal move of a generation whose bring-up has not failed. -/
lemma canTransition_prompt {stage : Node.Stage} {st : EdgeState} (h : Fits stage st)
    (hstage : stage ≠ .failed) : canTransition st .loginRequired = true := by
  rw [canTransition_loginRequired]
  cases stage with
  | early => rcases h with rfl | rfl <;> simp
  | middle => exact ⟨h.1, h.2.2⟩
  | failed => exact absurd rfl hstage

/-- What a step of a generation publishes is a legal move, and its status goes on fitting. -/
lemma apply_of_effect {ev : Node.Event} {b b' : BringUp} {w : Write} {st : EdgeStatus}
    (h : Node.Effect ev b b' (.publish w)) (hfits : Fits (Node.stageOf b) st.state)
    (hcommit : ev = .commit → Node.stageOf b ≠ .failed) :
    ∃ st', st.apply w = some st' ∧ Fits (Node.stageOf b') st'.state := by
  have hlegal (dst : EdgeState) (hw : w.target = some dst)
      (hc : canTransition st.state dst = true) (hfit : Fits (Node.stageOf b') dst) :
      ∃ st', st.apply w = some st' ∧ Fits (Node.stageOf b') st'.state := by
    obtain ⟨st', hst'⟩ := isSome_apply st w fun d hd => by
      cases hw.symm.trans hd
      exact hc
    refine ⟨st', hst', ?_⟩
    rw [state_of_apply hst', hw]
    exact hfit
  cases h with
  | silent hact => rcases hact with h | h <;> cases h
  | connecting hold hnew =>
      rw [hold] at hfits
      refine hlegal .connecting rfl ?_ (by rw [hnew]; exact ⟨by simp, by simp, by simp⟩)
      rcases hfits with hst | hst <;> rw [hst] <;> rfl
  | error code message hnew =>
      exact hlegal .error rfl (canTransition_error _) (by rw [hnew]; trivial)
  | fact hw hstage =>
      obtain ⟨st', hst'⟩ := isSome_apply st w fun d hd => by
        rw [hw] at hd
        cases hd
      refine ⟨st', hst', ?_⟩
      rw [state_of_apply hst', hw, hstage]
      exact hfits
  | serving hw hold hnew =>
      rw [hold] at hfits
      have hfit : Fits (Node.stageOf b') .connected ∧
          Fits (Node.stageOf b') .obtainingCertificate := by
        rw [hnew]
        exact ⟨⟨by simp, by simp, by simp⟩, ⟨by simp, by simp, by simp⟩⟩
      rcases hw with hw | hw
      · exact hlegal _ hw (canTransition_connected.mpr hfits) hfit.1
      · exact hlegal _ hw (canTransition_obtainingCertificate.mpr hfits) hfit.2
  | prompt url hstage hold =>
      refine hlegal .loginRequired rfl (canTransition_prompt hfits ?_) (Fits.loginRequired _)
      rcases hold with hold | rfl
      · simp [hold]
      · exact hcommit rfl

namespace Generations

variable {go : GoLibrary} {s t : Generations}

/-! ### The law -/

/-- A write on behalf of the generation in force lands: it is a legal move, and the status is
what it makes of the one before. A `Login` that answers with the link the status shows finds it
asking for a sign-in. -/
structure Heeded (e : Entry) : Prop where
  lands : ∀ w, e.act = .publish w → e.gen = e.current → e.before.apply w = some e.after
  shown : e.act = .shown → e.after.state = .loginRequired

/-- A write that lands is heeded. -/
lemma heeded_publish {e : Entry} {w : Write} (hact : e.act = .publish w)
    (h : e.gen = e.current → e.before.apply w = some e.after) : Heeded e where
  lands w' hw' := by
    cases hact.symm.trans hw'
    exact h
  shown hs := by
    cases hact.symm.trans hs

/-- Bring-up of the generation in force has failed. -/
def hasFailed (s : Generations) (gen : ℕ) : Bool :=
  gen = s.gen && (s.nodes gen).any fun n => n.bringUp = .failed

/-- A sign-in prompt or a sign-out comes while bring-up has not failed, and the write of a
`Stop` before a newer generation has been announced. -/
def answerable (s : Generations) : Action → Bool
  | .call c .go =>
      match s.calls[c]? with
      | some .halting => s.latest ≠ .replace true
      | some (.parking gen) | some (.committing gen) => !s.hasFailed gen
      | _ => true
  | .node gen .commit => !s.hasFailed gen
  | _ => true

/-- The status fits the live generation, which has been heeded so far. -/
structure Fitting (s : Generations) : Prop where
  consistent : Consistent s
  live : ∀ n, s.nodes s.gen = some n → Fits (Node.stageOf n.bringUp) s.status.state
  tearing : ∀ (c : ℕ) g cfg, s.calls[c]? = some (Call.tearing g cfg) →
    Fits .early s.status.state
  trace : ∀ e ∈ s.trace, Heeded e

lemma stageOf_ne_failed {gen : ℕ} {n : Node} (h : (!s.hasFailed gen) = true)
    (hg : gen = s.gen) (hn : s.nodes gen = some n) : Node.stageOf n.bringUp ≠ .failed := by
  intro hs
  have hb : n.bringUp = .failed := by
    cases hb : n.bringUp <;> rw [hb] at hs <;> first | rfl | cases hs
  simp [hasFailed, hg, hg ▸ hn, hb] at h

/-! ### What a step keeps -/

/-- A step that leaves the status and the live generation alone. -/
lemma Fitting.keep (h : Fitting s) (hC : Consistent t) (hgen : t.gen = s.gen)
    (hstatus : t.status.state = s.status.state)
    (hnodes : ∀ n, t.nodes s.gen = some n →
      ∃ m, s.nodes s.gen = some m ∧ Node.stageOf n.bringUp = Node.stageOf m.bringUp)
    (hcalls : ∀ (c : ℕ) g cfg, t.calls[c]? = some (Call.tearing g cfg) →
      ∃ d : ℕ, s.calls[d]? = some (Call.tearing g cfg))
    (htrace : ∀ e ∈ t.trace, Heeded e) : Fitting t where
  consistent := hC
  live n hn := by
    rw [hgen] at hn
    obtain ⟨m, hm, hs⟩ := hnodes n hn
    rw [hs, hstatus]
    exact h.live m hm
  tearing c g cfg hc := by
    obtain ⟨d, hd⟩ := hcalls c g cfg hc
    rw [hstatus]
    exact h.tearing d g cfg hd
  trace := htrace

/-- A call that goes on to anything but a teardown, where nothing is published. -/
lemma Fitting.set (h : Fitting s) {c : ℕ} {p' : Call} (hC : Consistent t)
    (hgen : t.gen = s.gen) (hstatus : t.status = s.status)
    (hnodes : ∀ n, t.nodes s.gen = some n →
      ∃ m, s.nodes s.gen = some m ∧ Node.stageOf n.bringUp = Node.stageOf m.bringUp)
    (hcalls : t.calls = s.calls.set c p') (hp' : ∀ g cfg, p' ≠ .tearing g cfg)
    (htrace : t.trace = s.trace) : Fitting t := by
  refine h.keep hC hgen (congrArg _ hstatus) hnodes (fun d g cfg hd => ?_) (htrace ▸ h.trace)
  rw [hcalls] at hd
  rcases getElem?_setCall hd with ⟨-, hq⟩ | ⟨-, hd⟩
  · exact absurd hq.symm (hp' g cfg)
  · exact ⟨d, hd⟩

lemma tearing_set {c : ℕ} {p' : Call} {calls : List Call}
    (hcalls : calls = s.calls.set c p') (hp' : ∀ g cfg, p' ≠ .tearing g cfg) (d g : ℕ)
    (cfg : NetworkConfig) (hd : calls[d]? = some (Call.tearing g cfg)) :
    ∃ e : ℕ, s.calls[e]? = some (Call.tearing g cfg) := by
  rw [hcalls] at hd
  rcases getElem?_setCall hd with ⟨-, hq⟩ | ⟨-, hd⟩
  · exact absurd hq.symm (hp' g cfg)
  · exact ⟨d, hd⟩

/-- A goroutine moves on without a publish, or for a generation that has been retired. -/
lemma Fitting.move (h : Fitting s) (n' : Node) {gen : ℕ} {n : Node} (hn : s.nodes gen = some n)
    (hstage : gen = s.gen → Node.stageOf n'.bringUp = Node.stageOf n.bringUp)
    (hC : Consistent t) (hgen : t.gen = s.gen) (hnodes : t.nodes = (s.setNode gen n').nodes)
    (hstatus : t.status = s.status) (htrace : ∀ e ∈ t.trace, Heeded e)
    (hcalls : ∀ (c : ℕ) g cfg, t.calls[c]? = some (Call.tearing g cfg) →
      ∃ d : ℕ, s.calls[d]? = some (Call.tearing g cfg)) : Fitting t := by
  refine h.keep hC hgen (congrArg _ hstatus) (fun m hm => ?_) hcalls htrace
  rw [hnodes] at hm
  rcases of_setNode hm with ⟨hg, rfl⟩ | hm
  · exact ⟨n, hg ▸ hn, hstage hg.symm⟩
  · exact ⟨m, hm, rfl⟩

/-- A step of a generation that publishes. -/
lemma Fitting.publish (h : Fitting s) (source : Source) (n' : Node) {gen : ℕ} {n : Node}
    {ev : Node.Event} {w : Write} (hn : s.nodes gen = some n)
    (heffect : Node.Effect ev n.bringUp n'.bringUp (.publish w))
    (hcommit : ev = .commit → gen = s.gen → Node.stageOf n.bringUp ≠ .failed)
    (hC : Consistent t) (hgen : t.gen = s.gen) (hnodes : t.nodes = (s.setNode gen n').nodes)
    (hstatus : t.status = ((s.setNode gen n').publish source gen w).status)
    (htrace : t.trace = ((s.setNode gen n').publish source gen w).trace)
    (hcalls : ∀ (c : ℕ) g cfg, t.calls[c]? = some (Call.tearing g cfg) →
      ∃ d : ℕ, s.calls[d]? = some (Call.tearing g cfg)) : Fitting t := by
  by_cases hg : gen = s.gen
  · subst hg
    obtain ⟨st', hst', hfit⟩ := apply_of_effect heffect (h.live n hn) fun hev => hcommit hev rfl
    have hpub : (s.setNode s.gen n').publish source s.gen w =
        (s.setNode s.gen n').land source s.gen w := if_pos rfl
    have hafter : (s.status.apply w).getD s.status = st' := by rw [hst', Option.getD_some]
    rw [hpub] at hstatus htrace
    refine ⟨hC, fun m hm => ?_, fun c g cfg hc => ?_, fun e he => ?_⟩
    · rw [hnodes, hgen, setNode_self] at hm
      cases hm
      rw [hstatus]
      change Fits _ ((s.status.apply w).getD s.status).state
      rw [hafter]
      exact hfit
    · obtain ⟨d, hd⟩ := hcalls c g cfg hc
      obtain ⟨-, rfl, -⟩ := h.consistent.lock d _ _ hd rfl
      rw [h.consistent.tearing d _ _ hd] at hn
      cases hn
    · rw [htrace] at he
      rcases List.mem_cons.mp he with rfl | he
      · refine heeded_publish rfl fun _ => ?_
        change s.status.apply w = some ((s.status.apply w).getD s.status)
        rw [hafter, hst']
      · exact h.trace e he
  · have hpub : (s.setNode gen n').publish source gen w = s.setNode gen n' := if_neg hg
    rw [hpub] at hstatus htrace
    refine h.move n' hn (fun heq => absurd heq hg) hC hgen hnodes hstatus ?_ hcalls
    rw [htrace]
    exact h.trace

section Step

variable {c : ℕ} {p : Call} {i : Input}

lemma fitting_arrive (go : GoLibrary) (h : Fitting s) (k : CallKind) :
    Fitting (s.arrive go k) := by
  have hC := consistent_arrive go h.consistent k
  obtain ⟨p, so, hp, ht⟩ := arrive_eq go s k
  rw [ht] at hC ⊢
  refine h.keep hC rfl rfl (fun n hn => ⟨n, hn, rfl⟩) (fun d g cfg hd => ⟨d, ?_⟩) h.trace
  refine (getElem?_arrive hd).resolve_right ?_
  rintro rfl
  cases hp

lemma fitting_replaceStep (h : Fitting s) (hc : s.calls[c]? = some p)
    (hstep : s.replaceStep c p i = some t) : Fitting t := by
  have hC := consistent_replaceStep h.consistent hc hstep
  cases p <;> cases i <;> try cases hstep
  case reading.go =>
      rw [replaceStep] at hstep
      split_ifs at hstep
      cases hstep
      exact h.set hC rfl rfl (fun n hn => ⟨n, hn, rfl⟩) rfl (by simp) rfl
  case entering.go cfg =>
      rw [replaceStep] at hstep
      split_ifs at hstep with hmu
      cases hstep
      refine ⟨hC, fun n hn => ?_, fun d g cfg' hd => ?_, h.trace⟩
      · have hfresh : s.nodes (s.gen + 1) = none := h.consistent.fresh _ (Nat.lt_succ_self _)
        cases hfresh.symm.trans hn
      · rcases getElem?_setCall hd with ⟨-, hq⟩ | ⟨-, hd⟩
        · cases hq
        · have := (h.consistent.lock d _ _ hd rfl).1
          rw [hmu] at this
          cases this
  case announcing.go gen cfg =>
      obtain ⟨-, rfl, hl⟩ := h.consistent.lock c _ _ hc rfl
      have hunlaunched := h.consistent.unlaunched (by rw [hl]; simp [announced])
      have hpub : s.publish .replace s.gen .starting = s.land .replace s.gen .starting :=
        if_pos rfl
      have hstatus : (s.land .replace s.gen .starting).status = .fresh .starting := by
        simp [land]
      rw [hpub] at hC ⊢
      refine ⟨hC, fun n hn => ?_, fun d g cfg' hd => ?_, fun e he => ?_⟩
      · cases hunlaunched.symm.trans hn
      · refine .inl ?_
        change (s.land .replace s.gen .starting).status.state = .starting
        rw [hstatus]
        rfl
      · rcases List.mem_cons.mp he with rfl | he
        · exact heeded_publish rfl fun _ => by simp
        · exact h.trace e he
  case tearing.go gen cfg =>
      obtain ⟨-, rfl, -⟩ := h.consistent.lock c _ _ hc rfl
      refine ⟨hC, fun n hn => ?_, fun d g cfg' hd => ?_, h.trace⟩
      · cases Option.some.inj ((setNode_self (s.cancel s.inst) s.gen _).symm.trans hn)
        exact h.tearing c _ _ hc
      · rcases getElem?_setCall hd with ⟨-, hq⟩ | ⟨-, hd⟩
        · cases hq
        · exact h.tearing d g cfg' hd
  case launching.go gen =>
      obtain ⟨n, hn, rfl⟩ := Option.map_eq_some_iff.mp hstep
      obtain ⟨-, hold⟩ := h.consistent.launched hc rfl hn
      refine h.set hC rfl rfl (fun m hm => ?_) rfl (by simp) rfl
      have hset : (s.setNode gen { n with bringUp := .begin }).nodes s.gen = some m := hm
      rcases of_setNode hset with ⟨hg, rfl⟩ | hm
      · exact ⟨n, hg ▸ hn, by rw [hold]; rfl⟩
      · exact ⟨m, hm, rfl⟩
  case launching.fail gen err => exact h.set hC rfl rfl (fun n hn => ⟨n, hn, rfl⟩) rfl (by simp) rfl
  case reporting.go gen err =>
      obtain ⟨n, hn, rfl⟩ := Option.map_eq_some_iff.mp hstep
      have heffect : Node.Effect (.bringUp .go) n.bringUp .failed
          (.publish (.error err.code err.message)) := .error _ _ rfl
      exact h.publish .replace { n with bringUp := .failed } hn heffect (by simp) hC
        (publish_gen ..) (publish_nodes ..) rfl rfl
        (tearing_set (congrArg (fun l => l.set c Call.over) (publish_calls ..)) (by simp))

lemma fitting_stopStep (h : Fitting s) (hc : s.calls[c]? = some p)
    (hanswer : answerable s (.call c i) = true) (hstep : s.stopStep c p i = some t) :
    Fitting t := by
  have hC := consistent_stopStep h.consistent hc hstep
  cases p <;> cases i <;> try cases hstep
  case stopping.go =>
      rw [stopStep] at hstep
      split_ifs at hstep with hmu
      cases hstep
      refine ⟨hC, fun n hn => ?_, fun d g cfg' hd => ?_, h.trace⟩
      · have hfresh : s.nodes (s.gen + 1) = none := h.consistent.fresh _ (Nat.lt_succ_self _)
        cases hfresh.symm.trans hn
      · rcases getElem?_setCall hd with ⟨-, hq⟩ | ⟨-, hd⟩
        · cases hq
        · have := (h.consistent.lock d _ _ hd rfl).1
          rw [hmu] at this
          cases this
  case tearingDown.go inst =>
      refine h.set hC rfl rfl (fun n hn => ?_) rfl (by simp) rfl
      obtain ⟨m, hm, hb⟩ := of_cancel (s := s) hn
      exact ⟨m, hm, congrArg _ hb⟩
  case halting.go =>
      have hl : s.latest ≠ .replace true := by
        rw [answerable, hc] at hanswer
        exact of_decide_eq_true hanswer
      refine ⟨hC, fun n hn => ?_, fun d g cfg hd => ?_, fun e he => ?_⟩
      · cases (h.consistent.unlaunched hl).symm.trans hn
      · obtain ⟨e, he⟩ := tearing_set rfl (by simp) d g cfg hd
        exact absurd (h.consistent.lock e _ _ he rfl).2.2 (by simpa [announced] using hl)
      · rcases List.mem_cons.mp he with rfl | he
        · exact heeded_publish rfl fun _ => by simp
        · exact h.trace e he

lemma fitting_loginStep (h : Fitting s) (hc : s.calls[c]? = some p)
    (hanswer : answerable s (.call c i) = true) (hstep : s.loginStep c p i = some t) :
    Fitting t := by
  have hC := consistent_loginStep h.consistent hc hstep
  have hset (p' : Call) (hp' : ∀ g cfg, p' ≠ .tearing g cfg)
      (ht : Consistent (s.setCall c p')) : Fitting (s.setCall c p') :=
    h.set ht rfl rfl (fun n hn => ⟨n, hn, rfl⟩) rfl hp' rfl
  have hshown {gen : ℕ} (hs : s.status.state = .loginRequired)
      (ht : Consistent ((s.note (.node (.call c)) gen .shown).setCall c .over)) :
      Fitting ((s.note (.node (.call c)) gen .shown).setCall c .over) := by
    refine h.keep ht rfl rfl (fun n hn => ⟨n, hn, rfl⟩) (tearing_set rfl (by simp)) fun e he => ?_
    rcases List.mem_cons.mp he with rfl | he
    · exact ⟨fun w hw => (by cases hw), fun _ => hs⟩
    · exact h.trace e he
  cases p <;> cases i <;> try cases hstep
  case loggingIn.go =>
      rw [loginStep] at hstep
      split_ifs at hstep
      cases hi : s.inst <;> simp only [hi] at hstep <;> cases hstep <;> exact hset _ (by simp) hC
  case noting.go => exact hset _ (by simp) hC
  case asking.go => exact hset _ (by simp) hC
  case asking.fail => exact hset _ (by simp) hC
  case polling.go =>
      rw [loginStep] at hstep
      split_ifs at hstep with hurl
      · cases hstep
        refine hshown ?_ hC
        by_contra hs
        exact hurl.1 (if_pos hs)
      · cases hstep
        exact h
  case polling.answer gen before st waited =>
      cases st with
      | error text => cases hstep
      | ok st =>
          simp only [loginStep] at hstep
          split_ifs at hstep
          cases hstep
          exact hset _ (by simp) hC
  case polling.quit => exact hset _ (by simp) hC
  case offering.go gen url =>
      obtain ⟨n, hn, hstep⟩ := Option.bind_eq_some_iff.mp hstep
      obtain ⟨n', hoffer, hstep⟩ := Option.map_eq_some_iff.mp hstep
      obtain ⟨l, rfl⟩ := Node.offer_frame hoffer
      split_ifs at hstep with hwho <;> subst hstep
      · exact h.move { n with login := l } hn (fun _ => rfl) hC rfl rfl rfl h.trace
          (tearing_set rfl (by simp))
      · exact hshown (Node.shown_of_offer url.2 hoffer (by simpa using hwho)) hC
  case committing.go gen =>
      have hfailed : (!s.hasFailed gen) = true := by
        rw [answerable, hc] at hanswer
        exact hanswer
      obtain ⟨n, hn, hstep⟩ := Option.bind_eq_some_iff.mp hstep
      rcases hl : n.login with _ | ⟨_ | _ | _ | d, url⟩ <;> simp only [hl] at hstep <;>
        try cases hstep
      split_ifs at hstep
      cases hstep
      have heffect : Node.Effect .commit n.bringUp n.bringUp (.publish (.loginRequired url)) :=
        .prompt url rfl (.inr rfl)
      exact h.publish (.node (.call c)) { n with login := none } hn heffect
        (fun _ hg => stageOf_ne_failed hfailed hg hn) hC (publish_gen ..) (publish_nodes ..) rfl rfl
        (tearing_set (congrArg (fun l => l.set c Call.over) (publish_calls ..)) (by simp))

lemma fitting_logoutStep (h : Fitting s) (hc : s.calls[c]? = some p)
    (hanswer : answerable s (.call c i) = true) (hstep : s.logoutStep c p i = some t) :
    Fitting t := by
  have hC := consistent_logoutStep h.consistent hc hstep
  have hset (p' : Call) (hp' : ∀ g cfg, p' ≠ .tearing g cfg)
      (ht : Consistent (s.setCall c p')) : Fitting (s.setCall c p') :=
    h.set ht rfl rfl (fun n hn => ⟨n, hn, rfl⟩) rfl hp' rfl
  cases p <;> cases i <;> try cases hstep
  case loggingOut.go =>
      rw [logoutStep] at hstep
      split_ifs at hstep
      cases hi : s.inst <;> simp only [hi] at hstep <;> cases hstep <;> exact hset _ (by simp) hC
  case signingOut.go => exact hset _ (by simp) hC
  case signingOut.fail => exact hset _ (by simp) hC
  case parking.go gen =>
      have hfailed : (!s.hasFailed gen) = true := by
        rw [answerable, hc] at hanswer
        exact hanswer
      have hstate : (s.land .logout gen (.loginRequired [])).status.state = .loginRequired ∨
          (s.land .logout gen (.loginRequired [])).status = s.status := by
        change ((s.status.apply (.loginRequired [])).getD s.status).state = .loginRequired ∨
          (s.status.apply (.loginRequired [])).getD s.status = s.status
        cases ha : s.status.apply (.loginRequired []) with
        | none => exact .inr rfl
        | some st' => exact .inl (state_of_apply ha)
      have hfits (stage : Node.Stage) (hs : Fits stage s.status.state) :
          Fits stage (s.land .logout gen (.loginRequired [])).status.state := by
        rcases hstate with hst | hst
        · rw [hst]
          exact .loginRequired stage
        · rwa [hst]
      refine ⟨hC, fun n hn => hfits _ (h.live n hn), fun d g cfg hd => ?_, fun e he => ?_⟩
      · obtain ⟨d', hd'⟩ := tearing_set rfl (by simp) d g cfg hd
        exact hfits _ (h.tearing d' g cfg hd')
      · rcases List.mem_cons.mp he with rfl | he
        · refine heeded_publish rfl fun hg => ?_
          dsimp only at hg ⊢
          subst hg
          obtain ⟨n, hn⟩ := Option.ne_none_iff_exists'.mp
            (h.consistent.served _ (.inr ⟨c, _, hc, rfl⟩))
          have hlegal := canTransition_prompt (h.live n hn) (stageOf_ne_failed hfailed rfl hn)
          obtain ⟨st', hst'⟩ := isSome_apply s.status (.loginRequired []) fun d hd => by
            cases hd
            exact hlegal
          rw [hst', Option.getD_some]
        · exact h.trace e he

lemma fitting_nodeStep (h : Fitting s) {gen : ℕ} {ev : Node.Event}
    (hanswer : answerable s (.node gen ev) = true) (hstep : s.nodeStep gen ev = some t) :
    Fitting t := by
  have hC := consistent_nodeStep h.consistent hstep
  obtain ⟨n, n', act, who, so, hn, hns, -, -, rfl⟩ := nodeStep_cases hstep
  have heffect := (Node.effect_of_step (h.consistent.watched gen n hn) hns).1
  have hsilent (hact : ∀ w, act ≠ .publish w) :
      Node.stageOf n'.bringUp = Node.stageOf n.bringUp := by
    cases heffect with
    | silent _ hstage => exact hstage
    | _ => exact absurd rfl (hact _)
  have hcalls (u : Generations) (hu : u.calls = s.calls) (c g : ℕ) (cfg : NetworkConfig)
      (hd : u.calls[c]? = some (Call.tearing g cfg)) :
      ∃ d : ℕ, s.calls[d]? = some (Call.tearing g cfg) := ⟨c, hu ▸ hd⟩
  cases act with
  | quiet =>
      exact h.move n' hn (fun _ => hsilent (by simp)) hC rfl rfl rfl h.trace (hcalls _ rfl)
  | publish w =>
      refine h.publish (.node who) n' hn heffect (fun hev hg => ?_) hC (publish_gen ..)
        (publish_nodes ..) rfl rfl (hcalls _ (publish_calls ..))
      subst hev
      exact stageOf_ne_failed hanswer hg hn
  | nudge =>
      refine h.move n' hn (fun _ => hsilent (by simp)) hC rfl rfl rfl (fun e he => ?_) (hcalls _ rfl)
      rcases List.mem_cons.mp he with rfl | he
      · exact ⟨fun w hw => (by cases hw), fun hs => (by cases hs)⟩
      · exact h.trace e he
  | shown =>
      cases heffect with
      | silent hact => rcases hact with hact | hact <;> cases hact

/-- Every answerable step keeps the status fitting the live generation. -/
lemma fitting_step (h : Fitting s) {a : Action} (hanswer : answerable s a = true)
    (hstep : s.step go a = some t) : Fitting t := by
  cases a with
  | arrive k =>
      cases hstep
      exact fitting_arrive go h k
  | call c i =>
      obtain ⟨p, hc, hstep⟩ := Option.bind_eq_some_iff.mp hstep
      cases p <;> first
        | exact fitting_replaceStep h hc hstep
        | exact fitting_stopStep h hc hanswer hstep
        | exact fitting_loginStep h hc hanswer hstep
        | exact fitting_logoutStep h hc hanswer hstep
  | node gen ev => exact fitting_nodeStep h hanswer hstep

end Step

/-- **No publish of the live generation is dropped**: in every run in which no sign-in prompt is
published and no sign-out lands once bring-up of the generation in force has failed, and no
`Stop` overtakes a later start, every write on behalf of the generation in force is a legal move
from the status of that moment, and the status becomes what it says; a `Login` that answers with
the link on display finds the status asking for a sign-in. -/
theorem publishes_heeded {cfg : NetworkConfig} {as : List Action}
    (hrun : Run (Guarded (fun s a => answerable s a) (step go)) (init cfg) as s) :
    ∀ e ∈ s.trace, Heeded e := by
  have hinit : Fitting (init cfg) :=
    ⟨consistent_init cfg, fun n hn => (by cases hn), fun c g cfg' hc => by simp [init] at hc,
      by simp [init]⟩
  exact (hrun.invariant (I := Fitting) (fun _ _ _ h hstep =>
    fitting_step h hstep.1 hstep.2) hinit).trace

/-! ### A sign-out that is not shown -/

/-- A start whose node comes up as `cast.example.com`. -/
def upRun : List Action :=
  replaceRun 0 ++ [.node 1 (.bringUp .go), .node 1 (.bringUp .go),
    .node 1 (.bringUp (.answer (.ok ⟨.running, [], js "cast.example.com.", 0⟩) false)),
    .node 1 (.bringUp .go), .node 1 (.bringUp .go), .node 1 (.bringUp (.ok none)),
    .node 1 (.bringUp .go), .node 1 (.bringUp (.ok none)), .node 1 (.bringUp .go)]

/-- The sign-out of a node that is up, the call `1`. -/
def logoutRun : List Action :=
  [.arrive .logout, .call 1 .go, .call 1 .go, .call 1 .go]

theorem publishes_heeded_up : ∃ s,
    Run (Guarded (fun s a => answerable s a) (step plainGo)) (init defaultFile.network)
      (upRun ++ logoutRun) s ∧ s.status.state = .loginRequired ∧ ∀ e ∈ s.trace, Heeded e := by
  obtain ⟨s, hrun, hs⟩ := exists_guarded_run_of_exec (fun s a => answerable s a) (step plainGo)
    (init defaultFile.network) (upRun ++ logoutRun) (fun s => s.status.state = .loginRequired)
    (by decide +kernel)
  exact ⟨s, hrun, of_decide_eq_true hs, publishes_heeded hrun⟩

/-- A start whose daemon reports that the node is stopped. -/
def failedRun : List Action :=
  replaceRun 0 ++ [.node 1 (.bringUp .go), .node 1 (.bringUp .go),
    .node 1 (.bringUp (.answer (.ok ⟨.stopped, [], [], 0⟩) false)), .node 1 (.bringUp .go)]

/-- **A sign-out that is not shown**: bring-up of the live generation has failed, `Logout`
answers with success, and the status still says `error`. -/
theorem failed_logout : ∃ s,
    Run (Steps (step plainGo)) (init defaultFile.network) (failedRun ++ logoutRun) s ∧
      (∀ p ∈ s.calls, p = .over) ∧ s.inst = some s.gen ∧ s.status.state = .error ∧
      ∃ e ∈ s.trace, e.source = .logout ∧ e.gen = s.gen ∧ ¬ Heeded e := by
  obtain ⟨s, hrun, hs⟩ := exists_run_of_exec (step plainGo) (init defaultFile.network)
    (failedRun ++ logoutRun) (fun s => s.calls.all (fun p => p = .over) &&
      s.inst = some s.gen && s.status.state = .error &&
      s.trace.any fun e => e.source = .logout && e.gen = s.gen && e.gen = e.current &&
        e.act = .publish (.loginRequired []) && e.before.apply (.loginRequired []) = none)
    (by decide +kernel)
  simp only [Bool.and_eq_true, List.all_eq_true, List.any_eq_true, decide_eq_true_eq] at hs
  obtain ⟨⟨⟨hover, hinst⟩, hstate⟩, e, he, ⟨⟨⟨hsource, hgen⟩, hcurrent⟩, hact⟩, hrefused⟩ := hs
  refine ⟨s, hrun, hover, hinst, hstate, e, he, hsource, hgen, fun h => ?_⟩
  rw [h.lands _ hact hcurrent] at hrefused
  cases hrefused

end Generations

end LocalCast.Edge
